import PsiphonVpn.Infra.OnesComplement
import PsiphonVpn.Udp.Header

/-!
# checksum

`ipv4_checksum`・`udp_checksum`・`udp_ip6_checksum`。どれも 32 bit の `t` に 16 bit の語を足していき、桁上げを畳んで
補数をとる。

`udp_…` の二つは畳んだ `t` が 0 なら `UINT16_MAX` に置き換えてから補数をとる。規格が 0 を避けよと言うのは補数を
とった後の値なので、この置き換えは 0 を避けるのに役立たない。

payload は受け取った列 `mem` の中の位置と長さで指す。構造体や address は自分の記憶を持つので、その byte の列を
頭から読む。
-/

namespace Udp

open Infra

/-- 読み取りと検査の結果。退ける理由は区別しない。 -/
abbrev Checked (α : Type) := Except (Stop Unit) α

/-- `uint32_t` の加算。 -/
def add32 (a b : Nat) : Nat := (a + b) % 2 ^ 32

/-- `off` から `n` 語を `t` に足す loop。 -/
def sumWords (mem : List UInt8) : (off n t : Nat) → Checked Nat
  | _, 0, t => .ok t
  | off, n + 1, t => do
    let w ← readVec mem off 2
    sumWords mem (off + 2) n (add32 t (ntoh16 w))

/-- `udp_checksum_summer` -/
def udpChecksumSummer (mem : List UInt8) (off len : Nat) : Checked Nat :=
  sumWords mem off (len / 2) 0

/-- payload の和。奇数なら最後の byte を上位に置いた一語を足す。 -/
def sumPayload (mem : List UInt8) (payload payloadLen t : Nat) : Checked Nat :=
  if payloadLen % 2 = 0 then do
    let s ← udpChecksumSummer mem payload payloadLen
    pure (add32 t s)
  else do
    let s ← udpChecksumSummer mem payload (payloadLen - 1)
    let last ← readVec mem (payload + payloadLen - 1) 1
    let y ← udpChecksumSummer (hton16 ((getElem last 0 Nat.zero_lt_one).toNat * 256)).toList 0 2
    pure (add32 (add32 t s) y)

/-- 畳んでから補数をとる、三つに共通の末尾。`~t` は 32 bit の補数で、`hton16` が下位 16 bit を取る。 -/
def complement (t : Nat) : Vector UInt8 2 := hton16 (2 ^ 32 - 1 - t)

/-- `if (t == 0) t = UINT16_MAX; return hton16(~t);` -/
def udpFinish (t : Nat) : Vector UInt8 2 :=
  complement (if foldCarries t = 0 then 65535 else foldCarries t)

/-- `ipv4_checksum` -/
def ipv4Checksum (header : Ipv4Header) (mem : List UInt8) (extra extraLen : Nat) :
    Checked (Vector UInt8 2) := do
  let t ← sumWords header.bytes 0 (Ipv4Header.size / 2) 0
  let t ← sumWords mem extra (extraLen / 2) t
  pure (complement (foldCarries t))

/-- `IPV4_PROTOCOL_UDP` と `IPV6_NEXT_UDP` -/
def protocolUdp : UInt8 := 17

/-- `udp_checksum` -/
def udpChecksum (header : UdpHeader) (mem : List UInt8) (payload payloadLen : Nat)
    (sourceAddr destAddr : Vector UInt8 4) : Checked (Vector UInt8 2) := do
  let a ← udpChecksumSummer sourceAddr.toList 0 4
  let b ← udpChecksumSummer destAddr.toList 0 4
  let x ← udpChecksumSummer (hton16 protocolUdp.toNat).toList 0 2
  let y ← udpChecksumSummer (hton16 (UdpHeader.size + payloadLen)).toList 0 2
  let h ← udpChecksumSummer header.bytes 0 UdpHeader.size
  let t ← sumPayload mem payload payloadLen (add32 (add32 (add32 (add32 (add32 0 a) b) x) y) h)
  pure (udpFinish t)

/-- `udp_ip6_checksum` -/
def udpIp6Checksum (header : UdpHeader) (mem : List UInt8) (payload payloadLen : Nat)
    (sourceAddr destAddr : Vector UInt8 16) : Checked (Vector UInt8 2) := do
  let a ← udpChecksumSummer sourceAddr.toList 0 16
  let b ← udpChecksumSummer destAddr.toList 0 16
  let x ← udpChecksumSummer (hton32 (UdpHeader.size + payloadLen)).toList 0 4
  let y ← udpChecksumSummer (hton32 protocolUdp.toNat).toList 0 4
  let h ← udpChecksumSummer header.bytes 0 UdpHeader.size
  let t ← sumPayload mem payload payloadLen (add32 (add32 (add32 (add32 (add32 0 a) b) x) y) h)
  pure (udpFinish t)

/-! ## 規格の側 -/

/-- RFC 768 の pseudo header。 -/
def pseudoHeader (sourceAddr destAddr : Vector UInt8 4) (udpLength : Nat) : List UInt8 :=
  sourceAddr.toList ++ destAddr.toList ++ [0, protocolUdp] ++ (hton16 udpLength).toList

/-- RFC 8200 の pseudo header。 -/
def pseudoHeader6 (sourceAddr destAddr : Vector UInt8 16) (udpLength : Nat) : List UInt8 :=
  sourceAddr.toList ++ destAddr.toList ++ (hton32 udpLength).toList ++ [0, 0, 0, protocolUdp]

/-- pseudo header・header・payload の並び。 -/
def covered (pseudo : List UInt8) (header : UdpHeader) (payload : List UInt8) : List UInt8 :=
  pseudo ++ header.bytes ++ payload

/-- checksum の field だけを書き換えた header。 -/
def UdpHeader.withChecksum (h : UdpHeader) (c : Vector UInt8 2) : UdpHeader :=
  { h with checksum := c }

/-! ## loop の求める和 -/

theorem add32_eq {a b : Nat} (h : a + b < 2 ^ 32) : add32 a b = a + b := Nat.mod_eq_of_lt h

theorem wordSum_toList (v : Vector UInt8 2) : wordSum v.toList = ntoh16 v := by
  rw [toList_pair, wordSum, wordSum, Nat.add_zero, ntoh16]

/-- 偶数 byte の並びを `t` に足すと、和が 32 bit に収まる限り整数の和になる。 -/
theorem sumWords_of_at {mem : List UInt8} : ∀ {n off t : Nat} {l : List UInt8}, At mem off l →
    l.length = 2 * n →
    t + wordSum l < 2 ^ 32 → sumWords mem off n t = .ok (t + wordSum l)
  | 0, off, t, l, _, hlen, _ => by
    obtain rfl := List.eq_nil_of_length_eq_zero hlen
    rfl
  | n + 1, off, t, hi :: lo :: rest, hat, hlen, hlt => by
    obtain ⟨hword, hrest⟩ := (at_append_iff (a := [hi, lo]) (b := rest)).mp hat
    have hrestLen : rest.length = 2 * n := by
      simp only [List.length_cons] at hlen
      omega
    have hread : readVec (ρ := Unit) mem off 2 = .ok #v[hi, lo] := readVec_of_at hword
    rw [wordSum] at hlt
    have hsum : t + (hi.toNat * 256 + lo.toNat) < 2 ^ 32 :=
      Nat.lt_of_le_of_lt (Nat.add_le_add_left (Nat.le_add_right _ _) t) hlt
    have hadd : add32 t (ntoh16 #v[hi, lo]) = t + (hi.toNat * 256 + lo.toNat) := add32_eq hsum
    have hrest' : At mem (off + 2) rest := hrest
    rw [sumWords, hread, ok_bind, hadd, sumWords_of_at hrest' hrestLen (by omega), wordSum]
    congr 1
    omega
  | n + 1, _, _, [], _, hlen, _ => by simp at hlen
  | n + 1, _, _, [_], _, hlen, _ => by
    simp only [List.length_singleton] at hlen
    omega

theorem udpChecksumSummer_self {l : List UInt8} {n : Nat} (hlen : l.length = n) (heven : n % 2 = 0)
    (hlt : wordSum l < 2 ^ 32) : udpChecksumSummer l 0 n = .ok (wordSum l) := by
  rw [udpChecksumSummer, sumWords_of_at (at_zero l) (by omega) (by omega), Nat.zero_add]

/-- payload は、奇数なら 0 を補った並びとして足される。 -/
theorem sumPayload_of_at {mem : List UInt8} {payload t : Nat} {l : List UInt8}
    (hat : At mem payload l) (hlt : t + wordSum l < 2 ^ 32) :
    sumPayload mem payload l.length t = .ok (t + wordSum l) := by
  unfold sumPayload
  split
  next heven =>
    rw [udpChecksumSummer, sumWords_of_at hat (by omega) (by omega), ok_bind, Nat.zero_add]
    show Except.ok (add32 t (wordSum l)) = _
    rw [add32_eq hlt]
  next hodd =>
    -- 最後の一 byte を切り離す
    obtain ⟨front, last, rfl⟩ : ∃ front last, l = front ++ [last] := by
      have hne : l ≠ [] := by
        rintro rfl
        exact hodd rfl
      exact ⟨l.dropLast, l.getLast hne, (List.dropLast_append_getLast hne).symm⟩
    have hfront : front.length % 2 = 0 := by
      simp only [List.length_append, List.length_singleton] at hodd
      omega
    obtain ⟨hatFront, hatLast⟩ := at_append_iff.mp hat
    rw [wordSum_append hfront] at hlt ⊢
    have hlast : wordSum [last] = last.toNat * 256 := rfl
    have hread : readVec (ρ := Unit) mem (payload + front.length) 1 = .ok #v[last] :=
      readVec_of_at hatLast
    have hpad : udpChecksumSummer (hton16 (last.toNat * 256)).toList 0 2 =
        .ok (last.toNat * 256) := by
      have hlastLt := last.toNat_lt
      have hword : wordSum (hton16 (last.toNat * 256)).toList = last.toNat * 256 := by
        rw [wordSum_toList, ntoh16_hton16, Nat.mod_eq_of_lt (by omega)]
      rw [udpChecksumSummer_self (by simp) rfl (by omega), hword]
    have hpos : payload + (front ++ [last]).length - 1 = payload + front.length := by simp
    have hlen : (front ++ [last]).length - 1 = front.length := by simp
    rw [hpos, hlen, udpChecksumSummer, sumWords_of_at hatFront (by omega) (by omega), ok_bind,
      hread, ok_bind]
    show (udpChecksumSummer (hton16 (last.toNat * 256)).toList 0 2 >>= _) = _
    rw [hpad, ok_bind, Nat.zero_add]
    show Except.ok (add32 (add32 t (wordSum front)) (last.toNat * 256)) = _
    rw [add32_eq (show t + wordSum front < 2 ^ 32 by omega), add32_eq (by omega), hlast,
      Nat.add_assoc]

/-! ## 三つの関数の値 -/

theorem ntoh16_complement {t : Nat} (h : t ≤ 65535) : ntoh16 (complement t) = 65535 - t := by
  rw [complement, ntoh16_hton16]
  omega

theorem udpFinish_eq {t : Nat} (h : 0 < t) : udpFinish t = complement (foldCarries t) := by
  rw [udpFinish, if_neg (foldCarries_pos h).ne']

/-- IPv4 header の checksum は、header と option の和の補数である。 -/
theorem ipv4Checksum_of_at (header : Ipv4Header) {mem options : List UInt8} {extra : Nat}
    (hat : At mem extra options) (heven : options.length % 2 = 0) (hlen : options.length < 65536) :
    ipv4Checksum header mem extra options.length =
      .ok (complement (foldCarries (wordSum (header.bytes ++ options)))) := by
  have hh := wordSum_le header.bytes
  have ho := wordSum_le options
  rw [Ipv4Header.length_bytes] at hh
  rw [ipv4Checksum, sumWords_of_at (at_zero header.bytes) header.length_bytes (by omega), ok_bind,
    sumWords_of_at hat (by omega) (by omega), ok_bind, wordSum_append (by simp), Nat.zero_add]
  rfl

section Covered

variable (header : UdpHeader) {mem payload : List UInt8} {off : Nat}

/-- 先に足す五つの和が揃えば、あとは payload を足して畳む。 -/
theorem sumPayload_covered {pseudo : List UInt8} {p₁ p₂ p₃ p₄ : Nat} (hat : At mem off payload)
    (hlen : payload.length < 65536) (hsmall : pseudo.length ≤ 40) (heven : pseudo.length % 2 = 0)
    (hpseudo : wordSum pseudo = p₁ + p₂ + p₃ + p₄) :
    sumPayload mem off payload.length
        (add32 (add32 (add32 (add32 (add32 0 p₁) p₂) p₃) p₄) (wordSum header.bytes)) =
      .ok (wordSum (covered pseudo header payload)) := by
  have hp := wordSum_le pseudo
  have hh := wordSum_le header.bytes
  have hl := wordSum_le payload
  rw [UdpHeader.length_bytes] at hh
  have hcovered : wordSum (covered pseudo header payload) =
      p₁ + p₂ + p₃ + p₄ + wordSum header.bytes + wordSum payload := by
    rw [covered, List.append_assoc, wordSum_append heven, wordSum_append (by simp), hpseudo]
    omega
  rw [add32_eq (a := 0) (by omega), Nat.zero_add, add32_eq (a := p₁) (by omega),
    add32_eq (a := p₁ + p₂) (by omega), add32_eq (a := p₁ + p₂ + p₃) (by omega),
    add32_eq (by omega), sumPayload_of_at hat (by omega), hcovered]

theorem wordSum_pseudoHeader (sourceAddr destAddr : Vector UInt8 4) (n : Nat) :
    wordSum (pseudoHeader sourceAddr destAddr n) =
      wordSum sourceAddr.toList + wordSum destAddr.toList + 17 + wordSum (hton16 n).toList := by
  rw [pseudoHeader, List.append_assoc, List.append_assoc, wordSum_append (by simp),
    wordSum_append (by simp), wordSum_append (by simp)]
  show _ + (_ + (17 + _)) = _
  omega

theorem wordSum_pseudoHeader6 (sourceAddr destAddr : Vector UInt8 16) (n : Nat) :
    wordSum (pseudoHeader6 sourceAddr destAddr n) =
      wordSum sourceAddr.toList + wordSum destAddr.toList + wordSum (hton32 n).toList + 17 := by
  rw [pseudoHeader6, List.append_assoc, List.append_assoc, wordSum_append (by simp),
    wordSum_append (by simp), wordSum_append (by simp)]
  show _ + (_ + (_ + 17)) = _
  omega

theorem summer_vec {n : Nat} (v : Vector UInt8 n) (heven : n % 2 = 0) (hsmall : n ≤ 16) :
    udpChecksumSummer v.toList 0 n = .ok (wordSum v.toList) := by
  have hle := wordSum_le v.toList
  rw [Vector.length_toList] at hle
  exact udpChecksumSummer_self (by simp) heven (by omega)

theorem summer_header :
    udpChecksumSummer header.bytes 0 UdpHeader.size = .ok (wordSum header.bytes) := by
  have hle := wordSum_le header.bytes
  rw [UdpHeader.length_bytes] at hle
  exact udpChecksumSummer_self header.length_bytes rfl (by omega)

/-- `udp_checksum` は、RFC 768 の並びの和を畳んだものの補数を返す。 -/
theorem udpChecksum_of_at {sourceAddr destAddr : Vector UInt8 4} (hat : At mem off payload)
    (hlen : payload.length < 65536) :
    udpChecksum header mem off payload.length sourceAddr destAddr =
      .ok
        (udpFinish
          (wordSum (covered (pseudoHeader sourceAddr destAddr (8 + payload.length)) header
            payload))) := by
  have hproto : wordSum (hton16 protocolUdp.toNat).toList = 17 := rfl
  have hsum := sumPayload_covered header hat hlen (by simp [pseudoHeader]) (by simp [pseudoHeader])
    (wordSum_pseudoHeader sourceAddr destAddr (8 + payload.length))
  rw [udpChecksum, summer_vec sourceAddr rfl (by decide), ok_bind,
    summer_vec destAddr rfl (by decide), ok_bind, summer_vec _ rfl (by decide), ok_bind,
    summer_vec _ rfl (by decide), ok_bind, summer_header, ok_bind, hproto]
  rw [UdpHeader.size, hsum]
  rfl

/-- `udp_ip6_checksum` は、RFC 8200 の並びの和を畳んだものの補数を返す。 -/
theorem udpIp6Checksum_of_at {sourceAddr destAddr : Vector UInt8 16} (hat : At mem off payload)
    (hlen : payload.length < 65536) :
    udpIp6Checksum header mem off payload.length sourceAddr destAddr =
      .ok
        (udpFinish
          (wordSum (covered (pseudoHeader6 sourceAddr destAddr (8 + payload.length)) header
            payload))) := by
  have hproto : wordSum (hton32 protocolUdp.toNat).toList = 17 := rfl
  have hsum := sumPayload_covered header hat hlen (by simp [pseudoHeader6])
    (by simp [pseudoHeader6])
    (wordSum_pseudoHeader6 sourceAddr destAddr (8 + payload.length))
  rw [udpIp6Checksum, summer_vec sourceAddr rfl (by decide), ok_bind,
    summer_vec destAddr rfl (by decide), ok_bind, summer_vec _ rfl (by decide), ok_bind,
    summer_vec _ rfl (by decide), ok_bind, summer_header, ok_bind, hproto]
  rw [UdpHeader.size, hsum]
  rfl

end Covered

/-! ## 規格との一致 -/

theorem wordSum_withChecksum (h : UdpHeader) (c : Vector UInt8 2) :
    wordSum (h.withChecksum c).bytes = wordSum (h.withChecksum (hton16 0)).bytes + ntoh16 c := by
  simp only [UdpHeader.withChecksum, UdpHeader.bytes]
  rw [wordSum_append (b := c.toList) (by simp), wordSum_append (b := (hton16 0).toList) (by simp),
    wordSum_toList c, wordSum_toList (hton16 0), ntoh16_hton16]
  rfl

theorem wordSum_covered_withChecksum {pseudo payload : List UInt8} (h : UdpHeader)
    (c : Vector UInt8 2) (heven : pseudo.length % 2 = 0) :
    wordSum (covered pseudo (h.withChecksum c) payload) =
      wordSum (covered pseudo (h.withChecksum (hton16 0)) payload) + ntoh16 c := by
  simp only [covered, List.append_assoc]
  rw [wordSum_append heven, wordSum_append heven, wordSum_append (by simp),
    wordSum_append (by simp), wordSum_withChecksum h c]
  omega

end Udp
