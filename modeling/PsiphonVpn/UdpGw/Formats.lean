import Mathlib.Algebra.Group.Int.Defs
import Mathlib.Algebra.Group.Nat.Defs
import PsiphonVpn.Flow.PacketProto
import PsiphonVpn.Infra.Tiling
import PsiphonVpn.UdpGw.Rebind

/-!
# message の形式

udpgw の message は、client の `connection_send` と server の `connection_send_to_client` が書き、それぞれ相手の
`client_recv_if_handler_send` と `recv_interface_handler_send` が読む。ここでは、書き込み先の buffer と受け取った列の位置まで
source のとおりに書き、外に触れることを故障とする。

* `formats_agree` — どちらの向きでも、読んだ message は書いた message である
-/

namespace UdpGw

open Infra Net
open Flow (ensure ensure_bind maxPayload)

/-- `UDPGW_CLIENT_FLAG_KEEPALIVE` -/
def flagKeepalive : UInt8 := 1

/-! ## MTU -/

/-- `udpgw_compute_mtu`。`int` に収まらなければ -1 である。 -/
def udpgwComputeMtu (dgramMtu : Nat) : Int :=
  if 3 + (max 6 18 + dgramMtu) < 2 ^ 31 then ((3 + (max 6 18 + dgramMtu) : Nat) : Int) else -1

/-- `UdpGwClient_Init` の、MTU についての `ASSERT`。`tun2socks.c` は満たさない MTU では始まらない。 -/
def Config.Accepted (cfg : Config) : Prop :=
  0 ≤ udpgwComputeMtu cfg.udpMtu ∧ udpgwComputeMtu cfg.udpMtu ≤ maxPayload

instance (cfg : Config) : Decidable cfg.Accepted := inferInstanceAs (Decidable (_ ∧ _))

/-- `udpgw.c` の option。 -/
structure Options where
  udpMtu : Nat
  maxConnectionsForClient : Nat
  maxConnectionsForClient_pos : 0 < maxConnectionsForClient

/-- server の `udpgw_mtu`。一つの packet に収まる長さで抑える。 -/
def Options.udpgwMtu (o : Options) : Nat :=
  if udpgwComputeMtu o.udpMtu < 0 ∨ maxPayload < udpgwComputeMtu o.udpMtu then maxPayload
  else (udpgwComputeMtu o.udpMtu).toNat

variable {cfg : Config} {o : Options} {out : List UInt8} {flags : UInt8}

theorem Config.Accepted.udpgwMtu_le (h : cfg.Accepted) : cfg.udpgwMtu ≤ maxPayload := by
  obtain ⟨h₁, h₂⟩ := h
  unfold udpgwComputeMtu at h₁ h₂
  unfold Config.udpgwMtu
  split at h₂
  next => exact Int.ofNat_le.mp h₂
  next hlt => rw [if_neg hlt] at h₁; omega

/-- 抑えた後の MTU にも、一つの packet に収まる限り、どの message も収まる。 -/
theorem Options.le_udpgwMtu {n : Nat} (hmtu : n ≤ 3 + (max 6 18 + o.udpMtu))
    (hmax : n ≤ maxPayload) :
    n ≤ o.udpgwMtu := by
  unfold Options.udpgwMtu
  split
  next => exact hmax
  next h =>
    unfold udpgwComputeMtu at h ⊢
    split at h
    next hlt => rw [if_pos hlt]; exact hmtu
    next => omega

/-! ## 書く側 -/

section Write

variable {ρ : Type}

/-- `memcpy(out + out_pos, data, len); out_pos += len;` -/
def memcpy (out : List UInt8) (pos : Nat) (data : List UInt8) :
    Except (Stop ρ) (List UInt8 × Nat) :=
  if pos + data.length ≤ out.length then .ok (writeAt out pos data, pos + data.length)
    else .error .outOfBounds

/-- `struct udpgw_header` -/
def headerBytes (flags : UInt8) (conid : Nat) : List UInt8 :=
  [flags, UInt8.ofNat conid, UInt8.ofNat (conid / 256)]

@[simp] theorem length_headerBytes (flags : UInt8) (conid : Nat) :
    (headerBytes flags conid).length = 3 := rfl

/-- header、address、中身を順に書く。 -/
def writeMessage (out : List UInt8) (flags : UInt8) (conid : Nat) (addr : BAddr)
    (data : List UInt8) :
    Except (Stop ρ) (List UInt8 × Nat) := do
  let r ← memcpy out 0 (headerBytes flags conid)
  let r ← memcpy r.1 r.2 addr.bytes
  memcpy r.1 r.2 data

/-- `if (type == BADDR_TYPE_IPV6) flags |= UDPGW_CLIENT_FLAG_IPV6;` -/
def withIpv6 (addr : BAddr) (flags : UInt8) : UInt8 :=
  if addr.type = 2 then flags ||| flagIpv6 else flags

/--
`connection_send`。`out` は `BufferWriter_StartPacket` の渡す書き込み先で、返すのは `BufferWriter_EndPacket` に渡す
byte。
-/
def Connection.write (cfg : Config) (c : Connection) (out : List UInt8) (flags : UInt8)
    (data : List UInt8) :
    Except Flow.Fault (List UInt8) := do
  ensure (data.length ≤ cfg.udpMtu)
  let r ← writeMessage out (withIpv6 c.conaddr.remoteAddr flags) c.conid c.conaddr.remoteAddr data
  ensure (r.2 ≤ cfg.udpgwMtu)
  pure (r.1.take r.2)

/-- server の `connection_send_to_client`。`none` は、長すぎて送らないこと。 -/
def connectionSendToClient (o : Options) (conid : Nat) (origAddr : BAddr) (out : List UInt8)
    (flags : UInt8)
    (data : List UInt8) : Except Flow.Fault (Option (List UInt8)) := do
  ensure (data.length ≤ o.udpMtu)
  if (o.udpgwMtu : Int) - (3 + origAddr.size : Nat) < data.length then pure none
  else do
    let r ← writeMessage out (withIpv6 origAddr flags) conid origAddr data
    ensure (r.2 ≤ o.udpgwMtu)
    pure (some (r.1.take r.2))

theorem memcpy_eq {data : List UInt8} {pos : Nat} (h : pos + data.length ≤ out.length) :
    memcpy (ρ := ρ) out pos data = .ok (writeAt out pos data, pos + data.length) := if_pos h

theorem Message.bytes_eq (m : Message) :
    m.bytes = headerBytes m.flags m.conid ++ m.remoteAddr.bytes ++ m.payload := by
  simp [Message.bytes, headerBytes]

theorem Message.length_bytes (m : Message) :
    m.bytes.length = 3 + m.remoteAddr.size + m.payload.length := by
  rw [m.bytes_eq, List.length_append, List.length_append, BAddr.length_bytes]
  rfl

/-- 書き込み先に収まる message は、先頭に隙間なく書かれる。 -/
theorem writeMessage_eq (m : Message) (h : m.bytes.length ≤ out.length) :
    ∃ out', writeMessage (ρ := ρ) out m.flags m.conid m.remoteAddr m.payload =
      .ok (out', m.bytes.length) ∧
      out'.take m.bytes.length = m.bytes := by
  have hlen : m.bytes.length = 0 + (headerBytes m.flags
      m.conid).length + m.remoteAddr.bytes.length + m.payload.length := by
    rw [m.bytes_eq, List.length_append, List.length_append, Nat.zero_add]
  have h₁ : 0 + (headerBytes m.flags m.conid).length ≤ out.length := by omega
  have hlen₁ := length_writeAt h₁
  have h₂ : 0 + (headerBytes m.flags m.conid).length + m.remoteAddr.bytes.length ≤
      (writeAt out 0 (headerBytes m.flags m.conid)).length := by omega
  have hlen₂ := length_writeAt h₂
  rw [writeMessage, memcpy_eq h₁, ok_bind]
  dsimp only
  rw [memcpy_eq h₂, ok_bind]
  dsimp only
  rw [memcpy_eq (by omega)]
  refine ⟨_, by rw [hlen], ?_⟩
  rw [hlen, take_writeAt (by omega), take_writeAt (by omega), take_writeAt (by omega),
    List.take_zero, List.nil_append, m.bytes_eq]

theorem Connection.write_eq {c : Connection} {data : List UInt8}
    (hdata : data.length ≤ cfg.udpMtu) (hout : out.length = cfg.udpgwMtu)
    (hlen : (c.message flags data).bytes.length ≤ cfg.udpgwMtu) :
    c.write cfg out flags data = .ok (c.message flags data).bytes := by
  obtain ⟨out', hwrite, htake⟩ := writeMessage_eq (ρ := Flow.Assertion) (c.message flags data)
    (hout ▸ hlen)
  have hmessage : writeMessage (ρ := Flow.Assertion) out (withIpv6 c.conaddr.remoteAddr flags)
    c.conid
      c.conaddr.remoteAddr data = .ok (out', (c.message flags data).bytes.length) := hwrite
  rw [Connection.write, ensure_bind hdata, hmessage, ok_bind, ensure_bind hlen, htake]
  rfl

/-- server の書く message。 -/
def replyMessage (conid : Nat) (origAddr : BAddr) (flags : UInt8) (data : List UInt8) : Message :=
  ⟨withIpv6 origAddr flags, conid, origAddr, data⟩

theorem connectionSendToClient_eq {conid : Nat} {origAddr : BAddr} {data : List UInt8}
    (hdata : data.length ≤ o.udpMtu) (hout : out.length = o.udpgwMtu)
    (hlen : (replyMessage conid origAddr flags data).bytes.length ≤ o.udpgwMtu) :
    connectionSendToClient o conid origAddr out flags data =
      .ok (some (replyMessage conid origAddr flags data).bytes) := by
  obtain ⟨out', hwrite, htake⟩ :=
    writeMessage_eq (ρ := Flow.Assertion) (replyMessage conid origAddr flags data) (hout ▸ hlen)
  have hmessage :
      writeMessage (ρ := Flow.Assertion) out (withIpv6 origAddr flags) conid origAddr data =
        .ok (out', (replyMessage conid origAddr flags data).bytes.length) := hwrite
  have hroom : ¬ (o.udpgwMtu : Int) - (3 + origAddr.size : Nat) < data.length := by
    rw [Message.length_bytes] at hlen
    simp only [replyMessage] at hlen
    omega
  rw [connectionSendToClient, ensure_bind hdata, if_neg hroom, hmessage, ok_bind, ensure_bind hlen,
    htake]
  rfl

end Write

/-! ## 読む側 -/

/-- server が受け取った message を捨てる理由。 -/
inductive Drop where
  | missingHeader
  | keepalive
  | missingIpv6Address
  | missingIpv4Address
  | tooMuchData
  deriving DecidableEq, Repr

section Read

variable {ρ : Type}

/-- header の flags と conid。 -/
def readHeader (missingHeader : ρ) (data : List UInt8) : Except (Stop ρ) (UInt8 × Nat) := do
  require missingHeader (3 ≤ data.length)
  let h ← readVec data 0 3
  pure (h[0], h[1].toNat + 256 * h[2].toNat)

/-- `off` byte 目からの address。 -/
def readAddr (missingIpv6 missingIpv4 : ρ) (flags : UInt8) (data : List UInt8) (off : Nat) :
    Except (Stop ρ) BAddr :=
  if flags &&& flagIpv6 ≠ 0 then do
    require missingIpv6 (18 ≤ data.length - off)
    let v ← readVec data off 18
    pure (.ipv6 (subVec v 0 16 (by decide)) (subVec v 16 2 (by decide)))
  else do
    require missingIpv4 (6 ≤ data.length - off)
    let v ← readVec data off 6
    pure (.ipv4 (subVec v 0 4 (by decide)) (subVec v 4 2 (by decide)))

/-- `off` byte 目から終わりまで。 -/
def readPayload (tooMuchData : ρ) (udpMtu : Nat) (data : List UInt8) (off : Nat) :
    Except (Stop ρ) (List UInt8) := do
  require tooMuchData (data.length - off ≤ udpMtu)
  let v ← readVec data off (data.length - off)
  pure v.toList

/-- header の後の address と中身。 -/
def readBody (missingIpv6 missingIpv4 tooMuchData : ρ) (udpMtu : Nat) (data : List UInt8)
    (header : UInt8 × Nat) :
    Except (Stop ρ) Message := do
  let addr ← readAddr missingIpv6 missingIpv4 header.1 data 3
  let payload ← readPayload tooMuchData udpMtu data (3 + addr.size)
  pure ⟨header.1, header.2, addr, payload⟩

/-- `recv_interface_handler_send` の、connection を探す前まで。 -/
def recvInterfaceHandlerRead (udpMtu : Nat) (data : List UInt8) : Except (Stop Reject) Message := do
  let header ← readHeader .missingHeader data
  readBody .missingIpv6Address .missingIpv4Address .tooMuchData udpMtu data header

/-- server の `client_recv_if_handler_send` の、connection を探す前まで。 -/
def clientRecvIfHandlerRead (udpMtu : Nat) (data : List UInt8) : Except (Stop Drop) Message := do
  let header ← readHeader .missingHeader data
  require .keepalive (header.1 &&& flagKeepalive = 0)
  readBody .missingIpv6Address .missingIpv4Address .tooMuchData udpMtu data header

variable {data : List UInt8} {off : Nat} {r₁ r₂ r₃ : ρ}

theorem headerBytes_of_vec (v : Vector UInt8 3) :
    headerBytes v[0] (v[1].toNat + 256 * v[2].toNat) = v.toList := by
  obtain ⟨hlo, hhi⟩ := ofNat_conid v[1] v[2]
  rw [headerBytes, hlo, hhi]
  obtain ⟨⟨l⟩, hl⟩ := v
  match l, hl with
  | [_, _, _], _ => rfl

theorem yields_readHeader (data : List UInt8) :
    Yields (readHeader r₁ data) fun h => h.2 < 65536 ∧ At data 0 (headerBytes h.1 h.2) := by
  refine (yields_require _ _).bind fun _ hlen => ?_
  refine (yields_readVec (by omega)).bind fun v hv => ?_
  refine Yields.of_ok ⟨conid_lt _ _, ?_⟩
  rw [headerBytes_of_vec]
  exact hv

theorem readHeader_of_at {conid : Nat} (h : At data 0 (headerBytes flags conid))
    (hconid : conid < 65536) :
    readHeader r₁ data = .ok (flags, conid) := by
  have hlen : 0 + 3 ≤ data.length := h.le_length
  have hat : At data 0
      (#v[flags, UInt8.ofNat conid, UInt8.ofNat (conid / 256)] : Vector UInt8 3).toList := h
  rw [readHeader, require_bind (by omega), readVec_of_at hat, ok_bind]
  show Except.ok (flags, (UInt8.ofNat conid).toNat + 256 * (UInt8.ofNat (conid / 256)).toNat) = _
  rw [toNat_conid hconid]

theorem yields_readAddr (hoff : off ≤ data.length) (flags : UInt8) :
    Yields (readAddr r₁ r₂ flags data off) fun a => (flags &&& flagIpv6 ≠ 0 ↔ a.type = 2) ∧
      At data off a.bytes := by
  unfold readAddr
  split
  next hflag =>
    refine (yields_require _ _).bind fun _ hlen => ?_
    refine (yields_readVec (by omega)).bind fun v hv => ?_
    refine Yields.of_ok ⟨iff_of_true hflag rfl, ?_⟩
    rw [← toList_split (n := 16) (m := 2) v] at hv
    exact hv
  next hflag =>
    refine (yields_require _ _).bind fun _ hlen => ?_
    refine (yields_readVec (by omega)).bind fun v hv => ?_
    refine Yields.of_ok ⟨iff_of_false hflag (by simp [BAddr.type]), ?_⟩
    rw [← toList_split (n := 4) (m := 2) v] at hv
    exact hv

/-- flags の示す種類の address が並んでいれば、それが読める。 -/
theorem readAddr_of_at {a : BAddr} (hflag : flags &&& flagIpv6 ≠ 0 ↔ a.type = 2)
    (hat : At data off a.bytes) : readAddr r₁ r₂ flags data off = .ok a := by
  have hlen := hat.le_length
  rw [BAddr.length_bytes] at hlen
  cases a with
  | ipv6 ip port =>
    obtain ⟨v, hv⟩ := exists_vec (n := 18) (l := ip.toList ++ port.toList) (by simp)
    obtain ⟨hip, hport⟩ := subVec_of_append (n := 16) (m := 2) hv
    have hread : At data off v.toList := hv.symm ▸ hat
    simp only [BAddr.size] at hlen
    rw [readAddr, if_pos (hflag.mpr rfl), require_bind (by omega), readVec_of_at hread, ok_bind,
      hip, hport]
    rfl
  | ipv4 ip port =>
    obtain ⟨v, hv⟩ := exists_vec (n := 6) (l := ip.toList ++ port.toList) (by simp)
    obtain ⟨hip, hport⟩ := subVec_of_append (n := 4) (m := 2) hv
    have hread : At data off v.toList := hv.symm ▸ hat
    simp only [BAddr.size] at hlen
    rw [readAddr, if_neg (by rw [hflag]; simp [BAddr.type]), require_bind (by omega),
      readVec_of_at hread, ok_bind, hip, hport]
    rfl

theorem yields_readPayload (hoff : off ≤ data.length) (udpMtu : Nat) :
    Yields (readPayload r₁ udpMtu data off) fun payload => payload.length ≤ udpMtu ∧
      At data off payload ∧
      off + payload.length = data.length := by
  refine (yields_require _ _).bind fun _ hmtu => ?_
  refine (yields_readVec (by omega)).bind fun v hv => ?_
  refine Yields.of_ok ⟨?_, hv, ?_⟩
  · rw [Vector.length_toList]
    exact hmtu
  · rw [Vector.length_toList]
    omega

theorem readPayload_of_at {udpMtu : Nat} {payload : List UInt8} (hat : At data off payload)
    (hend : off + payload.length = data.length) (hmtu : payload.length ≤ udpMtu) :
    readPayload r₁ udpMtu data off = .ok payload := by
  have hlen : data.length - off = payload.length := by omega
  obtain ⟨v, hv⟩ := exists_vec (l := payload) rfl
  have hread : At data off v.toList := hv.symm ▸ hat
  rw [readPayload, hlen, require_bind hmtu, readVec_of_at hread, ok_bind, hv]
  rfl

/-- header の読めた列は、残りも読めれば、正しい message を書き出したものである。 -/
theorem yields_readBody {header : UInt8 × Nat} (hconid : header.2 < 65536)
    (hat : At data 0 (headerBytes header.1 header.2)) (udpMtu : Nat) :
    Yields (readBody r₁ r₂ r₃ udpMtu data header) fun m =>
      (data = m.bytes ∧ m.WellFormed ∧ m.payload.length ≤ udpMtu) ∧ m.flags = header.1 := by
  have hlen : 3 ≤ data.length := hat.le_length
  refine (yields_readAddr hlen _).bind fun a ⟨hflag, ha⟩ => ?_
  have hsize : 3 + a.size ≤ data.length := by
    rw [← BAddr.length_bytes]
    exact ha.le_length
  refine (yields_readPayload hsize _).bind fun payload ⟨hmtu, hpayload, hend⟩ => ?_
  refine Yields.of_ok ⟨⟨?_, ⟨hconid, hflag⟩, hmtu⟩, rfl⟩
  have hbytes : At data 0 (Message.bytes ⟨header.1, header.2, a, payload⟩) := by
    rw [Message.bytes_eq, at_append_iff, at_append_iff]
    refine ⟨⟨hat, ha⟩, ?_⟩
    rw [List.length_append, BAddr.length_bytes, Nat.zero_add]
    exact hpayload
  -- 並びは列の終わりまで届く
  have hall : (Message.bytes ⟨header.1, header.2, a, payload⟩).length = data.length := by
    rw [Message.length_bytes]
    exact hend
  exact ((at_zero_iff.mp hbytes).eq_of_length hall).symm

theorem readBody_bytes {udpMtu : Nat} {m : Message} (hm : m.WellFormed)
    (hmtu : m.payload.length ≤ udpMtu) :
    readBody r₁ r₂ r₃ udpMtu m.bytes (m.flags, m.conid) = .ok m := by
  have hat : At m.bytes 0 (headerBytes m.flags m.conid ++ m.remoteAddr.bytes ++ m.payload) := by
    rw [← m.bytes_eq]
    exact at_zero _
  rw [at_append_iff, at_append_iff] at hat
  obtain ⟨⟨-, haddr⟩, hpayload⟩ := hat
  rw [Nat.zero_add, length_headerBytes] at haddr
  rw [List.length_append, BAddr.length_bytes, Nat.zero_add, length_headerBytes] at hpayload
  rw [readBody, readAddr_of_at hm.ipv6 haddr, ok_bind,
    readPayload_of_at hpayload m.length_bytes.symm hmtu]
  rfl

theorem readHeader_bytes {m : Message} (hm : m.WellFormed) :
    readHeader r₁ m.bytes = .ok (m.flags, m.conid) := by
  refine readHeader_of_at ?_ hm.conid_lt
  rw [m.bytes_eq, List.append_assoc]
  exact at_zero_iff.mpr (List.prefix_append _ _)

end Read

/-! ## 二つの読む側 -/

variable {udpMtu : Nat} {data : List UInt8} {m : Message}

theorem yields_recvInterfaceHandlerRead (udpMtu : Nat) (data : List UInt8) :
    Yields (recvInterfaceHandlerRead udpMtu data) fun m => data = m.bytes ∧ m.WellFormed ∧
      m.payload.length ≤ udpMtu :=
  (yields_readHeader data).bind fun _ ⟨hconid, hat⟩ => (yields_readBody hconid hat udpMtu).mono
    fun _ h => h.1

/-- 受け取った列の読み方は `parse` のとおりである。 -/
theorem recvInterfaceHandlerRead_eq_ok :
    recvInterfaceHandlerRead udpMtu data = .ok m ↔ parse udpMtu data = .ok m := by
  rw [parse_eq_ok]
  constructor
  · exact (yields_recvInterfaceHandlerRead udpMtu data).of_eq_ok
  · rintro ⟨rfl, hm, hmtu⟩
    rw [recvInterfaceHandlerRead, readHeader_bytes hm, ok_bind, readBody_bytes hm hmtu]

theorem yields_clientRecvIfHandlerRead (udpMtu : Nat) (data : List UInt8) :
    Yields (clientRecvIfHandlerRead udpMtu data) fun m =>
      (data = m.bytes ∧ m.WellFormed ∧ m.payload.length ≤ udpMtu) ∧ m.flags &&& flagKeepalive = 0 :=
  (yields_readHeader data).bind fun _ ⟨hconid, hat⟩ =>
    (yields_require _ _).bind fun _ hkeep =>
      (yields_readBody hconid hat udpMtu).mono fun _ ⟨hm, hflags⟩ => ⟨hm, hflags ▸ hkeep⟩

/-- server は、keepalive でない正しい message を受け入れる。 -/
theorem clientRecvIfHandlerRead_eq_ok :
    clientRecvIfHandlerRead udpMtu data = .ok m ↔
      (data = m.bytes ∧ m.WellFormed ∧ m.payload.length ≤ udpMtu) ∧
        m.flags &&& flagKeepalive = 0 := by
  constructor
  · exact (yields_clientRecvIfHandlerRead udpMtu data).of_eq_ok
  · rintro ⟨⟨rfl, hm, hmtu⟩, hkeep⟩
    rw [clientRecvIfHandlerRead, readHeader_bytes hm, ok_bind, require_bind hkeep,
      readBody_bytes hm hmtu]

/-! ## 往復 -/

/-- `connection_send` に渡される flag。 -/
def clientFlags (isDns rebind : Bool) : UInt8 :=
  if rebind then dnsFlags isDns ||| flagRebind else dnsFlags isDns

theorem withIpv6_ipv4 (ip : Vector UInt8 4) (port : Vector UInt8 2) (flags : UInt8) :
    withIpv6 (.ipv4 ip port) flags = flags := rfl

theorem withIpv6_ipv6 (ip : Vector UInt8 16) (port : Vector UInt8 2) (flags : UInt8) :
    withIpv6 (.ipv6 ip port) flags = flags ||| flagIpv6 := rfl

theorem withIpv6_flags (a : BAddr) (isDns rebind : Bool) :
    (withIpv6 a (clientFlags isDns rebind) &&& flagIpv6 ≠ 0 ↔ a.type = 2) ∧
      withIpv6 a (clientFlags isDns rebind) &&& flagKeepalive = 0 ∧
      (withIpv6 a (clientFlags isDns rebind) &&& flagDns ≠ 0 ↔ isDns = true) ∧
      (withIpv6 a (clientFlags isDns rebind) &&& flagRebind ≠ 0 ↔ rebind = true) := by
  cases a with
  | ipv4 ip port =>
    rw [withIpv6_ipv4, BAddr.type]
    cases isDns <;> cases rebind <;> decide
  | ipv6 ip port =>
    rw [withIpv6_ipv6, BAddr.type]
    cases isDns <;> cases rebind <;> decide

theorem withIpv6_zero (a : BAddr) : withIpv6 a 0 &&& flagIpv6 ≠ 0 ↔ a.type = 2 := by
  cases a with
  | ipv4 ip port => rw [withIpv6_ipv4, BAddr.type]; decide
  | ipv6 ip port => rw [withIpv6_ipv6, BAddr.type]; decide

theorem BAddr.size_le (a : BAddr) : a.size ≤ max 6 18 := by
  cases a <;> simp [BAddr.size]

/-- どちらの MTU よりも長くない中身の message は、どちらの udpgw MTU にも収まる。 -/
theorem length_bytes_le (hcfg : cfg.Accepted) {m : Message}
    (hclient : m.payload.length ≤ cfg.udpMtu) (hserver : m.payload.length ≤ o.udpMtu) :
    m.bytes.length ≤ cfg.udpgwMtu ∧ m.bytes.length ≤ o.udpgwMtu := by
  have hsize := BAddr.size_le m.remoteAddr
  have hlen := m.length_bytes
  have hle : m.bytes.length ≤ cfg.udpgwMtu := by
    rw [Config.udpgwMtu]
    omega
  exact ⟨hle, Options.le_udpgwMtu (by omega) (hle.trans hcfg.udpgwMtu_le)⟩

/--
どの conid、address、flag、どちらの MTU よりも長くない中身についても、client の書いた message は udpgw MTU に収まり、server に
同じものとして読まれ、server の書いた message も client に同じものとして読まれる。どの byte の列を受け取っても、どちらも列の外を
読まない。
-/
theorem formats_agree (cfg : Config) (o : Options) (hcfg : cfg.Accepted) :
    (∀ (c : Connection) (isDns rebind : Bool) (data out : List UInt8), c.conid < 65536 →
      data.length ≤ cfg.udpMtu →
      data.length ≤ o.udpMtu → out.length = cfg.udpgwMtu →
      ∃ bytes m, c.write cfg out (clientFlags isDns rebind) data = .ok bytes ∧
        bytes.length ≤ cfg.udpgwMtu ∧ bytes.length ≤ o.udpgwMtu ∧
          clientRecvIfHandlerRead o.udpMtu bytes = .ok m ∧
        m.conid = c.conid ∧ (m.flags &&& flagDns ≠ 0 ↔ isDns = true) ∧
          (m.flags &&& flagRebind ≠ 0 ↔ rebind = true) ∧
        m.remoteAddr = c.conaddr.remoteAddr ∧ m.payload = data) ∧
    (∀ (conid : Nat) (origAddr : BAddr) (data out : List UInt8), conid < 65536 →
      data.length ≤ cfg.udpMtu →
      data.length ≤ o.udpMtu → out.length = o.udpgwMtu →
      ∃ bytes m, connectionSendToClient o conid origAddr out 0 data = .ok (some bytes) ∧
        bytes.length ≤ o.udpgwMtu ∧ bytes.length ≤ cfg.udpgwMtu ∧
          recvInterfaceHandlerRead cfg.udpMtu bytes = .ok m ∧
        m.conid = conid ∧ m.remoteAddr = origAddr ∧ m.payload = data) ∧
    ∀ bytes, clientRecvIfHandlerRead o.udpMtu bytes ≠ .error .outOfBounds ∧
      recvInterfaceHandlerRead cfg.udpMtu bytes ≠ .error .outOfBounds := by
  refine ⟨?_, ?_, fun bytes => ⟨(yields_clientRecvIfHandlerRead o.udpMtu bytes).ne_outOfBounds,
    (yields_recvInterfaceHandlerRead cfg.udpMtu bytes).ne_outOfBounds⟩⟩
  · intro c isDns rebind data out hconid hclient hserver hout
    obtain ⟨hipv6, hkeep, hdns, hrebind⟩ := withIpv6_flags c.conaddr.remoteAddr isDns rebind
    obtain ⟨hle, hle'⟩ := length_bytes_le (m := c.message (clientFlags isDns rebind) data) hcfg
      hclient hserver
    refine ⟨_, c.message (clientFlags isDns rebind) data, Connection.write_eq hclient hout hle, hle,
      hle', ?_, rfl, hdns, hrebind, rfl, rfl⟩
    exact clientRecvIfHandlerRead_eq_ok.mpr ⟨⟨rfl, ⟨hconid, hipv6⟩, hserver⟩, hkeep⟩
  · intro conid origAddr data out hconid hclient hserver hout
    obtain ⟨hle, hle'⟩ := length_bytes_le (m := replyMessage conid origAddr 0 data) hcfg hclient
      hserver
    refine ⟨_, replyMessage conid origAddr 0 data, connectionSendToClient_eq hserver hout hle',
      hle', hle, ?_, rfl, rfl, rfl⟩
    exact recvInterfaceHandlerRead_eq_ok.mpr
      (parse_eq_ok.mpr ⟨rfl, ⟨hconid, withIpv6_zero origAddr⟩, hclient⟩)

/-- `DEFAULT_UDP_MTU` と `DEFAULT_MAX_CONNECTIONS_FOR_CLIENT`。udpgw MTU は抑えられる。 -/
def defaultOptions : Options where
  udpMtu := 65520
  maxConnectionsForClient := 256
  maxConnectionsForClient_pos := by decide

/-- 付け替えられた conid 513 で、IPv6 の server に送る DNS の message と、その返事。 -/
theorem formats_agree_default :
    ∃ bytes m reply m', Connection.write oneConnection (.fresh ⟨host6 1, host6 2⟩ 513 0 [])
      (List.replicate 22 0)
        (clientFlags true true) [7] = .ok bytes ∧ bytes.length = 22 ∧
      clientRecvIfHandlerRead defaultOptions.udpMtu bytes = .ok m ∧ m.flags = 14 ∧
      connectionSendToClient defaultOptions m.conid m.remoteAddr
        (List.replicate defaultOptions.udpgwMtu 0) 0 [8] =
        .ok (some reply) ∧
      recvInterfaceHandlerRead oneConnection.udpMtu reply = .ok m' ∧
      (m'.conid = 513 ∧ m'.remoteAddr = host6 2 ∧ m'.payload = [8]) := by
  obtain ⟨hsend, hreply, -⟩ := formats_agree oneConnection defaultOptions (by decide)
  obtain ⟨bytes, m, hwrite, -, -, hread, hconid, -, -, haddr, -⟩ :=
    hsend (.fresh ⟨host6 1, host6 2⟩ 513 0 []) true true [7]
    (List.replicate 22 0) (by decide) (by decide) (by decide) (by decide)
  obtain ⟨reply, m', hwrite', -, -, hread', hconid', haddr', hpayload'⟩ :=
    hreply m.conid m.remoteAddr [8]
    (List.replicate defaultOptions.udpgwMtu 0) (by rw [hconid]; decide) (by decide) (by decide)
      List.length_replicate
  have hbytes : Connection.write oneConnection (.fresh ⟨host6 1, host6 2⟩ 513 0 [])
    (List.replicate 22 0)
      (clientFlags true true) [7] =
      .ok (Connection.message (.fresh ⟨host6 1, host6 2⟩ 513 0 []) (clientFlags true true)
        [7]).bytes := by decide +kernel
  obtain rfl := Except.ok.inj (hwrite.symm.trans hbytes)
  refine ⟨_, m, reply, m', hwrite, by decide, hread, ?_, hwrite', hread', hconid'.trans hconid,
    haddr'.trans haddr, hpayload'⟩
  have hm : clientRecvIfHandlerRead defaultOptions.udpMtu
      (Connection.message (.fresh ⟨host6 1, host6 2⟩ 513 0 []) (clientFlags true true) [7]).bytes =
      .ok (Connection.message (.fresh ⟨host6 1, host6 2⟩ 513 0 []) (clientFlags true true)
        [7]) := by decide +kernel
  rw [Except.ok.inj (hread.symm.trans hm)]
  decide

end UdpGw
