import PsiphonVpn.Net.BAddr

/-!
# udpgw の message

`protocol/udpgw_proto.h` の形式。どちらの向きの message も、flags と conid の header、remote の address、中身の順に
並ぶ。address が IPv6 であることは flags で示す。

* `parse` — `recv_interface_handler_send` の前半。header・address・残りの長さの順に調べる
-/

namespace UdpGw

open Net

/-- `UDPGW_CLIENT_FLAG_REBIND` -/
def flagRebind : UInt8 := 2

/-- `UDPGW_CLIENT_FLAG_DNS` -/
def flagDns : UInt8 := 4

/-- `UDPGW_CLIENT_FLAG_IPV6` -/
def flagIpv6 : UInt8 := 8

structure Message where
  flags : UInt8
  conid : Nat
  remoteAddr : BAddr
  payload : List UInt8
  deriving DecidableEq, Repr

/-- conid は little endian で書く。 -/
def Message.bytes (m : Message) : List UInt8 :=
  m.flags :: UInt8.ofNat m.conid :: UInt8.ofNat (m.conid / 256) :: (m.remoteAddr.bytes ++ m.payload)

/-- conid は 16 bit に収まり、flags は address の種類を正しく示す。 -/
structure Message.WellFormed (m : Message) : Prop where
  conid_lt : m.conid < 65536
  ipv6 : m.flags &&& flagIpv6 ≠ 0 ↔ m.remoteAddr.type = 2

/-- 受け取った message を捨てる理由。 -/
inductive Reject where
  | missingHeader
  | missingIpv6Address
  | missingIpv4Address
  | tooMuchData
  | unknownConid
  | wrongRemoteAddress
  deriving DecidableEq, Repr

/-- 先頭の `n` byte と残り。 -/
def takeVec (n : Nat) (l : List UInt8) : Option (Vector UInt8 n × List UInt8) :=
  if h : n ≤ l.length then some (⟨(l.take n).toArray, by simp [h]⟩, l.drop n) else none

/-- `n` byte の address と port の並ぶ構造体と、残り。 -/
def takeFields (n : Nat) (mk : Vector UInt8 n → Vector UInt8 2 → BAddr) (l : List UInt8) :
    Option (BAddr × List UInt8) := do
  let (ip, l) ← takeVec n l
  let (port, l) ← takeVec 2 l
  return (mk ip port, l)

/-- `struct udpgw_addr_ipv4` -/
def takeIpv4 : List UInt8 → Option (BAddr × List UInt8) := takeFields 4 .ipv4

/-- `struct udpgw_addr_ipv6` -/
def takeIpv6 : List UInt8 → Option (BAddr × List UInt8) := takeFields 16 .ipv6

/-- flags の示す種類の address を読む。 -/
def takeAddr (flags : UInt8) (l : List UInt8) : Except Reject (BAddr × List UInt8) :=
  if flags &&& flagIpv6 ≠ 0 then
    match takeIpv6 l with
    | none => .error .missingIpv6Address
    | some r => .ok r
  else
    match takeIpv4 l with
    | none => .error .missingIpv4Address
    | some r => .ok r

def parse (udpMtu : Nat) (data : List UInt8) : Except Reject Message :=
  match data with
  | flags :: lo :: hi :: rest =>
    match takeAddr flags rest with
    | .error r => .error r
    | .ok (remoteAddr, payload) =>
      if udpMtu < payload.length then .error .tooMuchData
      else .ok ⟨flags, lo.toNat + 256 * hi.toNat, remoteAddr, payload⟩
  | _ => .error .missingHeader

variable {l rest : List UInt8} {a : BAddr}

theorem takeVec_eq_some {n : Nat} {v : Vector UInt8 n} :
    takeVec n l = some (v, rest) ↔ l = v.toList ++ rest := by
  unfold takeVec
  constructor
  · intro h
    split at h
    next hle =>
      obtain ⟨rfl, rfl⟩ := Prod.mk.inj (Option.some.inj h)
      simp
    next => cases h
  · rintro rfl
    have hlen : v.toList.length = n := Vector.length_toList
    rw [dif_pos (by simp)]
    simp only [Option.some.injEq, Prod.mk.injEq]
    constructor
    · apply Vector.toList_inj.mp
      simp [List.take_left' hlen]
    · exact List.drop_left' hlen

theorem takeFields_eq_some {n : Nat} {mk : Vector UInt8 n → Vector UInt8 2 → BAddr} :
    takeFields n mk l = some (a, rest) ↔
      ∃ ip port, mk ip port = a ∧ l = ip.toList ++ port.toList ++ rest := by
  simp only [takeFields, Option.bind_eq_bind, Option.bind_eq_some_iff, Prod.exists, takeVec_eq_some,
    Option.pure_def, Option.some.injEq, Prod.mk.injEq]
  constructor
  · rintro ⟨ip, _, rfl, port, _, rfl, rfl, rfl⟩
    exact ⟨ip, port, rfl, (List.append_assoc _ _ _).symm⟩
  · rintro ⟨ip, port, rfl, rfl⟩
    exact ⟨ip, port.toList ++ rest, List.append_assoc _ _ _, port, rest, rfl, rfl, rfl⟩

theorem takeIpv4_eq_some : takeIpv4 l = some (a, rest) ↔ a.type = 1 ∧ l = a.bytes ++ rest := by
  unfold takeIpv4
  rw [takeFields_eq_some]
  cases a <;> simp [BAddr.type, BAddr.bytes, BAddr.ip, BAddr.port, and_assoc]

theorem takeIpv6_eq_some : takeIpv6 l = some (a, rest) ↔ a.type = 2 ∧ l = a.bytes ++ rest := by
  unfold takeIpv6
  rw [takeFields_eq_some]
  cases a <;> simp [BAddr.type, BAddr.bytes, BAddr.ip, BAddr.port, and_assoc]

theorem BAddr.type_eq (a : BAddr) : a.type = 1 ↔ ¬ a.type = 2 := by
  cases a <;> simp [BAddr.type]

/-- 読んだ address の種類は flags の示すとおりである。 -/
theorem takeAddr_eq_ok {flags : UInt8} :
    takeAddr flags l = .ok (a, rest) ↔
      (flags &&& flagIpv6 ≠ 0 ↔ a.type = 2) ∧ l = a.bytes ++ rest := by
  unfold takeAddr
  split
  next hflag =>
    rw [iff_true_left hflag, ← takeIpv6_eq_some]
    cases takeIpv6 l <;> simp
  next hflag =>
    rw [iff_false_left hflag, ← BAddr.type_eq, ← takeIpv4_eq_some]
    cases takeIpv4 l <;> simp

/-! ## conid -/

/-- 読んだ conid を書けば、元の二 byte に戻る。 -/
theorem ofNat_conid (lo hi : UInt8) :
    UInt8.ofNat (lo.toNat + 256 * hi.toNat) = lo ∧
      UInt8.ofNat ((lo.toNat + 256 * hi.toNat) / 256) = hi := by
  have hlo := lo.toNat_lt
  have hhi := hi.toNat_lt
  constructor
  · apply UInt8.toNat_inj.mp
    rw [UInt8.toNat_ofNat']
    omega
  · apply UInt8.toNat_inj.mp
    rw [UInt8.toNat_ofNat']
    omega

theorem toNat_conid {conid : Nat} (h : conid < 65536) :
    (UInt8.ofNat conid).toNat + 256 * (UInt8.ofNat (conid / 256)).toNat = conid := by
  rw [UInt8.toNat_ofNat', UInt8.toNat_ofNat']
  omega

theorem conid_lt (lo hi : UInt8) : lo.toNat + 256 * hi.toNat < 65536 := by
  have hlo := lo.toNat_lt
  have hhi := hi.toNat_lt
  omega

/-- 受け入れる byte の列は、中身の長すぎない正しい message を書き出したものにほかならない。 -/
theorem parse_eq_ok {udpMtu : Nat} {data : List UInt8} {m : Message} :
    parse udpMtu data = .ok m ↔ data = m.bytes ∧ m.WellFormed ∧ m.payload.length ≤ udpMtu := by
  constructor
  · intro h
    unfold parse at h
    split at h
    next flags lo hi rest =>
      split at h
      next => cases h
      next a payload haddr =>
        obtain ⟨hflag, rfl⟩ := takeAddr_eq_ok.mp haddr
        split at h
        next => cases h
        next hlen =>
          obtain rfl := Except.ok.inj h
          refine ⟨?_, ⟨conid_lt lo hi, hflag⟩, Nat.not_lt.mp hlen⟩
          obtain ⟨h1, h2⟩ := ofNat_conid lo hi
          simp only [Message.bytes, h1, h2]
    next => cases h
  · rintro ⟨rfl, hwf, hlen⟩
    simp only [parse, Message.bytes, takeAddr_eq_ok.mpr ⟨hwf.ipv6, rfl⟩,
      if_neg (Nat.not_lt.mpr hlen), toNat_conid hwf.conid_lt]

end UdpGw
