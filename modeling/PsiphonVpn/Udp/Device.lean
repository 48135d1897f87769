import PsiphonVpn.Udp.Check

/-!
# tun device から来た UDP packet

`tun2socks.c` の `process_device_udp_packet`。IPv4 か IPv6 の UDP packet なら、検査を順に通してから
`SocksUdpGwClient_SubmitPacket` に渡す。どこかで `goto fail` となれば udpgw には渡さず、lwip に任せる。

`Carries data a d` は、列 `data` の先頭に `a` の間の正しい IP packet があり、その payload の頭が UDP datagram `d` で
あることを言う。渡される内容はこの関係で述べる。
-/

namespace Udp

open Infra Net

/-- この関数と `udpgw_client_handler_received` が読む設定。 -/
structure Options where
  /-- `options.udpgw_remote_server_addr` がある。 -/
  udpgwRemoteServerAddr : Bool
  udpgwTransparentDns : Bool
  /-- `netif_ipaddr.ipv4` -/
  netifIpaddr : Vector UInt8 4
  /-- `options.netif_ip6addr` がある。 -/
  netifIp6addr : Bool
  /-- `BTap_GetMTU(&device)` -/
  mtu : Nat
  deriving DecidableEq, Repr

/-- IPv4 の header を除いた大きさ。IPv6 が有効で、その header を除いたほうが大きければそちらを取る。 -/
def Options.udpPayloadMtu (o : Options) : Int :=
  if o.netifIp6addr = true ∧
      (o.mtu : Int) - (Ipv4Header.size + UdpHeader.size : Nat) <
        o.mtu - (Ipv6Header.size + UdpHeader.size : Nat) then
    o.mtu - (Ipv6Header.size + UdpHeader.size : Nat)
  else o.mtu - (Ipv4Header.size + UdpHeader.size : Nat)

/-- `run` の中で求める `udp_mtu`。 -/
def Options.udpMtu (o : Options) : Int := if o.udpPayloadMtu < 0 then 0 else o.udpPayloadMtu

/-- IP の版ごとの解析が見つけたもの。payload は位置と長さで持つ。 -/
structure Found where
  localAddr : BAddr
  remoteAddr : BAddr
  isDns : Bool
  payload : Nat
  payloadLen : Nat
  deriving DecidableEq, Repr

/-- `SocksUdpGwClient_SubmitPacket` の引数。 -/
structure Submission where
  localAddr : BAddr
  remoteAddr : BAddr
  isDns : Bool
  data : List UInt8
  deriving DecidableEq, Repr

/-- 透過 DNS が有効で、netif の address の 53 番に来た packet か。 -/
def Options.isDns (o : Options) (ip : Ipv4Header) (udp : UdpHeader) : Bool :=
  o.udpgwTransparentDns && ip.destinationAddress = o.netifIpaddr && udp.destPort = hton16 53

/-- `case 4` -/
def ipv4Udp (o : Options) (data : List UInt8) : Checked Found := do
  require () (Ipv4Header.size ≤ data.length)
  let protocol ← readVec data 9 1
  require () (protocol[0] = protocolUdp)
  let ip ← ipv4Check data
  let udp ← udpCheck data ip.payload ip.payloadLen
  let checksumComputed ← udpChecksum (udp.header.withChecksum (hton16 0)) data udp.payload
    udp.payloadLen
    ip.header.sourceAddress ip.header.destinationAddress
  require () (udp.header.checksum = checksumComputed)
  pure
    { localAddr := .ipv4 ip.header.sourceAddress udp.header.sourcePort
      remoteAddr := .ipv4 ip.header.destinationAddress udp.header.destPort
      isDns := o.isDns ip.header udp.header
      payload := udp.payload
      payloadLen := udp.payloadLen }

/-- `case 6` -/
def ipv6Udp (o : Options) (data : List UInt8) : Checked Found := do
  require () (o.netifIp6addr = true)
  require () (Ipv6Header.size ≤ data.length)
  let nextHeader ← readVec data 6 1
  require () (nextHeader[0] = protocolUdp)
  let ip ← ipv6Check data
  let udp ← udpCheck data ip.payload ip.payloadLen
  let checksumComputed ← udpIp6Checksum (udp.header.withChecksum (hton16 0)) data udp.payload
    udp.payloadLen
    ip.header.sourceAddress ip.header.destinationAddress
  require () (udp.header.checksum = checksumComputed)
  pure
    { localAddr := .ipv6 ip.header.sourceAddress udp.header.sourcePort
      remoteAddr := .ipv6 ip.header.destinationAddress udp.header.destPort
      isDns := false
      payload := udp.payload
      payloadLen := udp.payloadLen }

/-- `data` が空でなければ、先頭の byte の上位 4 bit。 -/
def ipVersion (data : List UInt8) : Checked Nat :=
  if 0 < data.length then do
    let b ← readVec data 0 1
    pure (b[0].toNat / 16)
  else pure 0

/-- 長さを調べて渡す、両方の枝に共通の末尾。 -/
def submit (o : Options) (data : List UInt8) (found : Found) : Checked Submission := do
  require () ((found.payloadLen : Int) ≤ o.udpMtu)
  let payload ← readVec data found.payload found.payloadLen
  pure ⟨found.localAddr, found.remoteAddr, found.isDns, payload.toList⟩

/-- `process_device_udp_packet`。`.ok` は渡して 1 を返すこと、`reject` は 0 を返すことにあたる。 -/
def processDeviceUdpPacket (o : Options) (data : List UInt8) : Checked Submission := do
  require () (o.udpgwRemoteServerAddr = true)
  let version ← ipVersion data
  let found ←
    match version with
    | 4 => ipv4Udp o data
    | 6 => ipv6Udp o data
    | _ => .error (.reject ())
  submit o data found

/-! ## 運ばれる datagram -/

/-- IP の両端の address。 -/
inductive Addrs where
  | v4 (source dest : Vector UInt8 4)
  | v6 (source dest : Vector UInt8 16)
  deriving DecidableEq, Repr

namespace Addrs

def pseudo : Addrs → Nat → List UInt8
  | .v4 source dest => pseudoHeader source dest
  | .v6 source dest => pseudoHeader6 source dest

def source : Addrs → Vector UInt8 2 → BAddr
  | .v4 source _ => .ipv4 source
  | .v6 source _ => .ipv6 source

def dest : Addrs → Vector UInt8 2 → BAddr
  | .v4 _ dest => .ipv4 dest
  | .v6 _ dest => .ipv6 dest

/-- 版に応じた checksum の関数。 -/
def udpChecksum : Addrs → UdpHeader → List UInt8 → Nat → Nat → Checked (Vector UInt8 2)
  | .v4 source dest, header, mem, payload, payloadLen =>
    Udp.udpChecksum header mem payload payloadLen source dest
  | .v6 source dest, header, mem, payload, payloadLen =>
    udpIp6Checksum header mem payload payloadLen source dest

theorem even_pseudo (a : Addrs) (n : Nat) : (a.pseudo n).length % 2 = 0 := by
  cases a <;> simp [pseudo, pseudoHeader, pseudoHeader6]

/-- checksum を 0 とした datagram の和。整数のまま。 -/
def sum (a : Addrs) (header : UdpHeader) (payload : List UInt8) : Nat :=
  wordSum (covered (a.pseudo (8 + payload.length)) (header.withChecksum (hton16 0)) payload)

/-- protocol の番号があるので、和は 0 にならない。 -/
theorem sum_pos (a : Addrs) (header : UdpHeader) (payload : List UInt8) :
    0 < a.sum header payload := by
  rw [sum, covered, List.append_assoc, wordSum_append (a.even_pseudo _)]
  cases a with
  | v4 s t =>
    rw [pseudo, wordSum_pseudoHeader]
    omega
  | v6 s t =>
    rw [pseudo, wordSum_pseudoHeader6]
    omega

/-- checksum の field も含めた datagram 全体の、1 の補数の和。 -/
def onesSum (a : Addrs) (header : UdpHeader) (payload : List UInt8) : Nat :=
  foldCarries (wordSum (covered (a.pseudo (8 + payload.length)) header payload))

end Addrs

/-- `data` の先頭に IP packet があり、その payload の頭が UDP datagram である。 -/
inductive Carries (data : List UInt8) : Addrs → UdpDatagram → Prop where
  | v4 (p : Ipv4Packet) (d : UdpDatagram) (hp : p.bytes <+: data)
      (hudp : p.header.protocol = protocolUdp) (hd : d.bytes <+: p.payload) :
      Carries data (.v4 p.header.sourceAddress p.header.destinationAddress) d
  | v6 (p : Ipv6Packet) (d : UdpDatagram) (hp : p.bytes <+: data)
      (hudp : p.header.nextHeader = protocolUdp) (hd : d.bytes <+: p.payload) :
      Carries data (.v6 p.header.sourceAddress p.header.destinationAddress) d

/-! ## checksum の値 -/

section Checksum

variable (a : Addrs) (header : UdpHeader) {mem payload : List UInt8} {off : Nat}

theorem Addrs.udpChecksum_of_at (hat : At mem off payload) (hlen : payload.length < 65536) :
    a.udpChecksum (header.withChecksum (hton16 0)) mem off payload.length =
      .ok (complement (foldCarries (a.sum header payload))) := by
  rw [← udpFinish_eq (a.sum_pos header payload)]
  cases a with
  | v4 s t => exact Udp.udpChecksum_of_at _ hat hlen
  | v6 s t => exact udpIp6Checksum_of_at _ hat hlen

theorem Addrs.onesSum_withChecksum (c : Vector UInt8 2) (payload : List UInt8) :
    a.onesSum (header.withChecksum c) payload = foldCarries (a.sum header payload + ntoh16 c) := by
  rw [onesSum, wordSum_covered_withChecksum header c (a.even_pseudo _)]
  rfl

end Checksum

/-! ## 二つの枝 -/

theorem Ipv4Header.at_protocol {mem : List UInt8} {h : Ipv4Header} (hat : At mem 0 h.bytes) :
    At mem 9 [h.protocol] := by
  have hbytes : h.bytes = (h.version4Ihl4 :: h.ds ::
      (h.totalLength.toList ++ h.identification.toList ++
      h.flags3Fragmentoffset13.toList ++ [h.ttl])) ++ ([h.protocol] ++
      (h.checksum.toList ++ h.sourceAddress.toList ++ h.destinationAddress.toList)) := by
    simp [Ipv4Header.bytes]
  rw [hbytes, at_append_iff, at_append_iff] at hat
  simpa using hat.2.1

theorem Ipv6Header.at_nextHeader {mem : List UInt8} {h : Ipv6Header} (hat : At mem 0 h.bytes) :
    At mem 6 [h.nextHeader] := by
  have hbytes : h.bytes = (h.version4Tc4 :: h.tc4Fl4 :: (h.fl.toList ++ h.payloadLength.toList)) ++
      ([h.nextHeader] ++ (h.hopLimit ::
        (h.sourceAddress.toList ++ h.destinationAddress.toList))) := by
    simp [Ipv6Header.bytes]
  rw [hbytes, at_append_iff, at_append_iff] at hat
  simpa using hat.2.1

/-- `case 4` が組み立てるもの。 -/
def Ipv4Packet.found (o : Options) (p : Ipv4Packet) (d : UdpDatagram) : Found where
  localAddr := .ipv4 p.header.sourceAddress d.header.sourcePort
  remoteAddr := .ipv4 p.header.destinationAddress d.header.destPort
  isDns := o.isDns p.header d.header
  payload := 20 + p.options.length + 8
  payloadLen := d.payload.length

/-- `case 6` が組み立てるもの。 -/
def Ipv6Packet.found (p : Ipv6Packet) (d : UdpDatagram) : Found where
  localAddr := .ipv6 p.header.sourceAddress d.header.sourcePort
  remoteAddr := .ipv6 p.header.destinationAddress d.header.destPort
  isDns := false
  payload := 40 + 8
  payloadLen := d.payload.length

def Ipv4Packet.addrs (p : Ipv4Packet) : Addrs :=
  .v4 p.header.sourceAddress p.header.destinationAddress

def Ipv6Packet.addrs (p : Ipv6Packet) : Addrs :=
  .v6 p.header.sourceAddress p.header.destinationAddress

/-- checksum の比較が通る値。 -/
def Addrs.Accepts (a : Addrs) (d : UdpDatagram) : Prop :=
  d.header.checksum = complement (foldCarries (a.sum d.header d.payload))

instance (a : Addrs) (d : UdpDatagram) : Decidable (a.Accepts d) :=
  inferInstanceAs (Decidable (_ = _))

variable {p : Ipv4Packet} {d : UdpDatagram} {f : Found}

section Branches

variable {o : Options} {data : List UInt8}

theorem Ipv4Packet.at_payload (h : p.bytes <+: data) :
    At data 0 p.header.bytes ∧ At data (20 + p.options.length) p.payload := by
  obtain ⟨hhead, hpayload⟩ := at_append_iff.mp (at_zero_iff.mpr h)
  simp only [List.length_append, Ipv4Header.length_bytes, Nat.zero_add] at hpayload
  exact ⟨(at_append_iff.mp hhead).1, hpayload⟩

theorem Ipv6Packet.at_payload {p : Ipv6Packet} (h : p.bytes <+: data) :
    At data 0 p.header.bytes ∧ At data 40 p.payload := by
  obtain ⟨hhead, hpayload⟩ := at_append_iff.mp (at_zero_iff.mpr h)
  rw [Nat.zero_add, Ipv6Header.length_bytes] at hpayload
  exact ⟨hhead, hpayload⟩

theorem UdpDatagram.at_payload {body : List UInt8} {off : Nat} (hat : At data off body)
    (h : d.bytes <+: body) : At data (off + 8) d.payload := by
  have hpayload := (at_append_iff.mp (hat.initial h)).2
  rwa [UdpHeader.length_bytes] at hpayload

theorem Ipv4Packet.read_protocol (hp : p.bytes <+: data) :
    readVec (ρ := Unit) data 9 1 = .ok #v[p.header.protocol] :=
  readVec_of_at (Ipv4Header.at_protocol (Ipv4Packet.at_payload hp).1)

theorem Ipv6Packet.read_nextHeader {p : Ipv6Packet} (hp : p.bytes <+: data) :
    readVec (ρ := Unit) data 6 1 = .ok #v[p.header.nextHeader] :=
  readVec_of_at (Ipv6Header.at_nextHeader (Ipv6Packet.at_payload hp).1)

theorem Ipv4Packet.udpChecksum_eq (hp : p.bytes <+: data) (hd : d.bytes <+: p.payload) :
    udpChecksum (d.header.withChecksum (hton16 0)) data (20 + p.options.length + 8)
      d.payload.length p.header.sourceAddress p.header.destinationAddress =
      .ok (complement (foldCarries (p.addrs.sum d.header d.payload))) :=
  p.addrs.udpChecksum_of_at d.header
    (UdpDatagram.at_payload (Ipv4Packet.at_payload hp).2 hd) d.payload_lt

theorem Ipv6Packet.udpChecksum_eq {p : Ipv6Packet} (hp : p.bytes <+: data)
    (hd : d.bytes <+: p.payload) :
    udpIp6Checksum (d.header.withChecksum (hton16 0)) data (40 + 8) d.payload.length
      p.header.sourceAddress p.header.destinationAddress =
      .ok (complement (foldCarries (p.addrs.sum d.header d.payload))) :=
  p.addrs.udpChecksum_of_at d.header
    (UdpDatagram.at_payload (Ipv6Packet.at_payload hp).2 hd) d.payload_lt

/-- 正しい packet の正しい datagram に残るのは、checksum の比較だけである。 -/
theorem ipv4Udp_of_packet (hp : p.bytes <+: data) (hudp : p.header.protocol = protocolUdp)
    (hd : d.bytes <+: p.payload) :
    ipv4Udp o data = require () (p.addrs.Accepts d) >>= fun _ => .ok (p.found o d) := by
  obtain ⟨hheader, hpayload⟩ := Ipv4Packet.at_payload hp
  have hle := hheader.le_length
  rw [Ipv4Header.length_bytes] at hle
  rw [ipv4Udp, require_bind (by rw [Ipv4Header.size]; omega), Ipv4Packet.read_protocol hp, ok_bind,
    require_bind (by exact hudp), ipv4Check_of_packet p hp, ok_bind,
    udpCheck_of_datagram hpayload d hd, ok_bind, Ipv4Packet.udpChecksum_eq hp hd, ok_bind]
  rfl

theorem yields_ipv4Udp : Yields (ipv4Udp o data) fun f => ∃ (p : Ipv4Packet) (d : UdpDatagram),
    p.bytes <+: data ∧ p.header.protocol = protocolUdp ∧ d.bytes <+: p.payload ∧
      p.addrs.Accepts d ∧ f = p.found o d := by
  refine (yields_require _ _).bind fun _ hsize => ?_
  rw [Ipv4Header.size] at hsize
  refine (yields_readVec (by omega)).bind fun b hb => ?_
  refine (yields_require _ _).bind fun _ hproto => ?_
  refine (yields_ipv4Check data).bind ?_
  rintro _ ⟨p, hp, rfl⟩
  refine (yields_udpCheck (Ipv4Packet.at_payload hp).2).bind ?_
  rintro _ ⟨d, hd, rfl⟩
  rw [Ipv4Packet.udpChecksum_eq hp hd, ok_bind]
  refine (yields_require _ _).bind fun _ hsum => ?_
  -- 先に読んだ protocol の byte は、header の中のものと同じである
  obtain rfl := Except.ok.inj ((readVec_of_at hb).symm.trans (Ipv4Packet.read_protocol hp))
  exact Yields.of_ok ⟨p, d, hp, hproto, hd, hsum, rfl⟩

theorem ipv6Udp_of_packet {p : Ipv6Packet} (h6 : o.netifIp6addr = true) (hp : p.bytes <+: data)
    (hudp : p.header.nextHeader = protocolUdp) (hd : d.bytes <+: p.payload) :
    ipv6Udp o data = require () (p.addrs.Accepts d) >>= fun _ => .ok (p.found d) := by
  obtain ⟨hheader, hpayload⟩ := Ipv6Packet.at_payload hp
  have hle := hheader.le_length
  rw [Ipv6Header.length_bytes] at hle
  rw [ipv6Udp, require_bind h6, require_bind (by rw [Ipv6Header.size]; omega),
    Ipv6Packet.read_nextHeader hp, ok_bind, require_bind (by exact hudp), ipv6Check_of_packet p hp,
    ok_bind, udpCheck_of_datagram hpayload d hd, ok_bind, Ipv6Packet.udpChecksum_eq hp hd, ok_bind]
  rfl

theorem yields_ipv6Udp : Yields (ipv6Udp o data) fun f => ∃ (p : Ipv6Packet) (d : UdpDatagram),
    p.bytes <+: data ∧ p.header.nextHeader = protocolUdp ∧ d.bytes <+: p.payload ∧
      p.addrs.Accepts d ∧ f = p.found d := by
  refine (yields_require _ _).bind fun _ _ => ?_
  refine (yields_require _ _).bind fun _ hsize => ?_
  rw [Ipv6Header.size] at hsize
  refine (yields_readVec (by omega)).bind fun b hb => ?_
  refine (yields_require _ _).bind fun _ hnext => ?_
  refine (yields_ipv6Check data).bind ?_
  rintro _ ⟨p, hp, rfl⟩
  refine (yields_udpCheck (Ipv6Packet.at_payload hp).2).bind ?_
  rintro _ ⟨d, hd, rfl⟩
  rw [Ipv6Packet.udpChecksum_eq hp hd, ok_bind]
  refine (yields_require _ _).bind fun _ hsum => ?_
  obtain rfl := Except.ok.inj ((readVec_of_at hb).symm.trans (Ipv6Packet.read_nextHeader hp))
  exact Yields.of_ok ⟨p, d, hp, hnext, hd, hsum, rfl⟩

end Branches

/-! ## 全体 -/

/-- IPv6 の packet は、IPv6 が有効なときだけ扱う。 -/
def Options.Supports (o : Options) : Addrs → Prop
  | .v4 _ _ => True
  | .v6 _ _ => o.netifIp6addr = true

section Process

variable {o : Options} {data : List UInt8}

theorem ipVersion_of_at {b : UInt8} (hat : At data 0 [b]) :
    ipVersion data = .ok (b.toNat / 16) := by
  have hread : readVec (ρ := Unit) data 0 1 = .ok #v[b] := readVec_of_at hat
  have hle := hat.le_length
  rw [List.length_singleton] at hle
  rw [ipVersion, if_pos (by omega), hread]
  rfl

theorem Ipv4Packet.ipVersion (hp : p.bytes <+: data) : Udp.ipVersion data = .ok 4 := by
  have hat : At data 0 [p.header.version4Ihl4] := (Ipv4Packet.at_payload hp).1.initial ⟨_, rfl⟩
  rw [ipVersion_of_at hat]
  exact congrArg _ p.version

theorem Ipv6Packet.ipVersion {p : Ipv6Packet} (hp : p.bytes <+: data) :
    Udp.ipVersion data = .ok 6 := by
  have hat : At data 0 [p.header.version4Tc4] := (Ipv6Packet.at_payload hp).1.initial ⟨_, rfl⟩
  rw [ipVersion_of_at hat]
  exact congrArg _ p.version

theorem submit_of_at {payload : List UInt8} (hat : At data f.payload payload)
    (hlen : payload.length = f.payloadLen) (hmtu : (f.payloadLen : Int) ≤ o.udpMtu) :
    submit o data f = .ok ⟨f.localAddr, f.remoteAddr, f.isDns, payload⟩ := by
  have hread : readVec (ρ := Unit) data f.payload f.payloadLen = .ok ⟨payload.toArray, hlen⟩ :=
    readVec_of_at hat
  rw [submit, require_bind hmtu, hread]
  rfl

/-- 検査の後に残る比較が、渡すかどうかを決める。 -/
theorem require_submit_iff {payload : List UInt8} {accepts : Prop} [Decidable accepts]
    (hat : At data f.payload payload) (hlen : payload.length = f.payloadLen)
    (hmtu : (f.payloadLen : Int) ≤ o.udpMtu) :
    (∃ isDns, ((require () accepts >>= fun _ => .ok f) >>= submit o data) =
      .ok ⟨f.localAddr, f.remoteAddr, isDns, payload⟩) ↔ accepts := by
  by_cases h : accepts
  · rw [require_bind h, ok_bind, submit_of_at hat hlen hmtu]
    exact iff_of_true ⟨_, rfl⟩ h
  · rw [require, if_neg h]
    refine iff_of_false ?_ h
    rintro ⟨_, hs⟩
    cases hs

/-- 正しく運ばれ、長すぎない datagram は、checksum の比較が通るときに限って渡される。 -/
theorem processDeviceUdpPacket_of_carries {a : Addrs} (hudpgw : o.udpgwRemoteServerAddr = true)
    (hsup : o.Supports a) (hcarries : Carries data a d)
    (hlen : (d.payload.length : Int) ≤ o.udpMtu) :
    (∃ isDns, processDeviceUdpPacket o data =
      .ok ⟨a.source d.header.sourcePort, a.dest d.header.destPort, isDns, d.payload⟩) ↔
        a.Accepts d := by
  rw [processDeviceUdpPacket, require_bind hudpgw]
  cases hcarries with
  | v4 p _ hp hudp hd =>
    rw [Ipv4Packet.ipVersion hp, ok_bind]
    rw [ipv4Udp_of_packet hp hudp hd]
    exact require_submit_iff (UdpDatagram.at_payload (Ipv4Packet.at_payload hp).2 hd) rfl hlen
  | v6 p _ hp hudp hd =>
    rw [Ipv6Packet.ipVersion hp, ok_bind]
    rw [ipv6Udp_of_packet hsup hp hudp hd]
    exact require_submit_iff (UdpDatagram.at_payload (Ipv6Packet.at_payload hp).2 hd) rfl hlen

/-- 渡した内容は、運ばれた datagram のものである。 -/
def Submitted (o : Options) (data : List UInt8) (s : Submission) : Prop :=
  o.udpgwRemoteServerAddr = true ∧ (s.data.length : Int) ≤ o.udpMtu ∧
  ((∃ (p : Ipv4Packet) (d : UdpDatagram), p.bytes <+: data ∧ p.header.protocol = protocolUdp ∧
    d.bytes <+: p.payload ∧ p.addrs.Accepts d ∧
      s.localAddr = .ipv4 p.header.sourceAddress d.header.sourcePort ∧
    s.remoteAddr = .ipv4 p.header.destinationAddress d.header.destPort ∧ s.data = d.payload) ∨
  (∃ (p : Ipv6Packet) (d : UdpDatagram), p.bytes <+: data ∧ p.header.nextHeader = protocolUdp ∧
    d.bytes <+: p.payload ∧ p.addrs.Accepts d ∧
      s.localAddr = .ipv6 p.header.sourceAddress d.header.sourcePort ∧
    s.remoteAddr = .ipv6 p.header.destinationAddress d.header.destPort ∧ s.data = d.payload))

theorem yields_ipVersion : Yields (ipVersion data) fun _ => True := by
  unfold ipVersion
  split
  next h => exact (yields_readVec (by omega)).bind fun _ _ => trivial
  next => trivial

theorem yields_submit {P : Submission → Prop} {payload : List UInt8}
    (hat : At data f.payload payload) (hlen : payload.length = f.payloadLen)
    (h : (f.payloadLen : Int) ≤ o.udpMtu → P ⟨f.localAddr, f.remoteAddr, f.isDns, payload⟩) :
    Yields (submit o data f) P := by
  have hread : readVec (ρ := Unit) data f.payload f.payloadLen = .ok ⟨payload.toArray, hlen⟩ :=
    readVec_of_at hat
  refine (yields_require _ _).bind fun _ hmtu => ?_
  rw [hread]
  exact Yields.of_ok (h hmtu)

/-- 列の外は読まれず、渡されるのは列の中の datagram である。 -/
theorem yields_processDeviceUdpPacket :
    Yields (processDeviceUdpPacket o data) (Submitted o data) := by
  refine (yields_require _ _).bind fun _ hudpgw => ?_
  refine yields_ipVersion.bind fun version _ => ?_
  split
  next =>
    refine yields_ipv4Udp.bind ?_
    rintro _ ⟨p, d, hp, hudp, hd, hsum, rfl⟩
    exact yields_submit (UdpDatagram.at_payload (Ipv4Packet.at_payload hp).2 hd) rfl
      fun hmtu => ⟨hudpgw, hmtu, .inl ⟨p, d, hp, hudp, hd, hsum, rfl, rfl, rfl⟩⟩
  next =>
    refine yields_ipv6Udp.bind ?_
    rintro _ ⟨p, d, hp, hudp, hd, hsum, rfl⟩
    exact yields_submit (UdpDatagram.at_payload (Ipv6Packet.at_payload hp).2 hd) rfl
      fun hmtu => ⟨hudpgw, hmtu, .inr ⟨p, d, hp, hudp, hd, hsum, rfl, rfl, rfl⟩⟩
  next => trivial

end Process

/-! ## 断片 -/

/-- 断片の一部。後続があるか、offset が 0 でない。 -/
def Ipv4Header.IsFragment (h : Ipv4Header) : Prop := ntoh16 h.flags3Fragmentoffset13 % 0x4000 ≠ 0

/-- 列の先頭に、断片であるほかは検査をすべて通る IPv4 の UDP packet がある。 -/
def FragmentPasses (o : Options) (data : List UInt8) : Prop :=
  o.udpgwRemoteServerAddr = true ∧
  ∃ (p : Ipv4Packet) (d : UdpDatagram), p.bytes <+: data ∧ p.header.protocol = protocolUdp ∧
    p.header.IsFragment ∧ d.bytes <+: p.payload ∧ p.addrs.Accepts d ∧
    (d.payload.length : Int) ≤ o.udpMtu

theorem Ipv4Packet.header_unique {data : List UInt8} {q : Ipv4Packet} (hp : p.bytes <+: data)
    (hq : q.bytes <+: data) : p.header = q.header :=
  congrArg (·.header) (Except.ok.inj
    ((ipv4Check_of_packet p hp).symm.trans (ipv4Check_of_packet q hq)))

/--
**渡されるのは、断片でない完全な datagram だけである。**

列の外を読まないことは、どの列でも成り立つ。断片かどうかは検査されないので、渡されるものが完全であることは、
ほかの検査を通る断片でないことと同じである。IPv6 の断片は拡張 header を持ち、`next_header` が UDP でないので通らない。
-/
theorem submitted_datagram_complete (o : Options) (data : List UInt8) :
    processDeviceUdpPacket o data ≠ .error .outOfBounds ∧
    ((∀ s, processDeviceUdpPacket o data = .ok s →
      (∃ (p : Ipv4Packet) (d : UdpDatagram), p.bytes <+: data ∧
        foldCarries (wordSum (p.header.bytes ++ p.options)) = 0xFFFF ∧ ¬ p.header.IsFragment ∧
        d.bytes <+: p.payload ∧ s.localAddr = .ipv4 p.header.sourceAddress d.header.sourcePort ∧
        s.remoteAddr = .ipv4 p.header.destinationAddress d.header.destPort ∧ s.data = d.payload) ∨
      (∃ (p : Ipv6Packet) (d : UdpDatagram), p.bytes <+: data ∧ p.header.nextHeader = protocolUdp ∧
        d.bytes <+: p.payload ∧ s.localAddr = .ipv6 p.header.sourceAddress d.header.sourcePort ∧
        s.remoteAddr = .ipv6 p.header.destinationAddress d.header.destPort ∧ s.data = d.payload)) ↔
      ¬ FragmentPasses o data) := by
  refine ⟨yields_processDeviceUdpPacket.ne_outOfBounds, ?_, ?_⟩
  · rintro hcomplete ⟨hudpgw, p, d, hp, hudp, hfrag, hd, hsum, hmtu⟩
    have hsup : o.Supports p.addrs := trivial
    obtain ⟨isDns, hs⟩ :=
      (processDeviceUdpPacket_of_carries hudpgw hsup (.v4 p d hp hudp hd) hmtu).mpr hsum
    rcases hcomplete _ hs with ⟨q, -, hq, -, hnot, -⟩ | ⟨q, -, hq, -⟩
    · exact hnot (Ipv4Packet.header_unique hp hq ▸ hfrag)
    · have hversion := (Ipv4Packet.ipVersion hp).symm.trans (Ipv6Packet.ipVersion hq)
      cases hversion
  · intro hnone s hs
    obtain ⟨hudpgw, hmtu, ⟨p, d, hp, hudp, hd, hsum, hl, hr, hpay⟩ | ⟨p, d, hp, hudp, hd, -, h⟩⟩ :=
      yields_processDeviceUdpPacket.of_eq_ok hs
    · refine .inl ⟨p, d, hp, p.header_sum, fun hfrag => ?_, hd, hl, hr, hpay⟩
      exact hnone ⟨hudpgw, p, d, hp, hudp, hfrag, hd, hsum, hpay ▸ hmtu⟩
    · exact .inr ⟨p, d, hp, hudp, hd, h⟩

/-- 既定の MTU で、透過 DNS も IPv6 も使わない設定。 -/
def plainOptions : Options where
  udpgwRemoteServerAddr := true
  udpgwTransparentDns := false
  netifIpaddr := #v[10, 0, 0, 1]
  netifIp6addr := false
  mtu := 1500

/-- `10.0.0.2:1024` から `8.8.8.8:53` への、payload が一 byte の packet。 -/
def plainPacket : List UInt8 :=
  [69, 0, 0, 29, 0, 0, 0, 0, 64, 17, 96, 191, 10, 0, 0, 2, 8, 8, 8, 8, 4, 0, 0, 53, 0, 9, 224, 149,
    1]

/-- 同じ packet に more fragments を立て、header の checksum を合わせたもの。 -/
def firstFragment : List UInt8 :=
  [69, 0, 0, 29, 0, 0, 32, 0, 64, 17, 64, 191, 10, 0, 0, 2, 8, 8, 8, 8, 4, 0, 0, 53, 0, 9, 224, 149,
    1]

theorem submitted_datagram_complete_plain :
    ¬ FragmentPasses plainOptions plainPacket ∧
    (∃ (p : Ipv4Packet) (d : UdpDatagram), p.bytes <+: plainPacket ∧
      foldCarries (wordSum (p.header.bytes ++ p.options)) = 0xFFFF ∧ ¬ p.header.IsFragment ∧
      d.bytes <+: p.payload ∧ d.payload = [1]) := by
  have hs : processDeviceUdpPacket plainOptions plainPacket =
      .ok ⟨.ipv4 #v[10, 0, 0, 2] #v[4, 0], .ipv4 #v[8, 8, 8, 8] #v[0, 53], false, [1]⟩ := by
    decide +kernel
  have hfield : (ipv4Check plainPacket).map (·.header.flags3Fragmentoffset13) = .ok #v[0, 0] := by
    decide +kernel
  have hfrag : ¬ FragmentPasses plainOptions plainPacket := by
    rintro ⟨-, p, -, hp, -, hfrag, -⟩
    rw [ipv4Check_of_packet p hp] at hfield
    have hzero : p.header.flags3Fragmentoffset13 = #v[0, 0] := Except.ok.inj hfield
    exact hfrag (by rw [hzero]; rfl)
  rcases (submitted_datagram_complete plainOptions plainPacket).2.mpr hfrag _ hs with
    ⟨p, d, hp, hsum, hnot, hd, -, -, hpay⟩ | ⟨p, d, -, -, -, hl, -⟩
  · exact ⟨hfrag, p, d, hp, hsum, hnot, hd, hpay.symm⟩
  · cases hl

/-- `firstFragment` を IP packet として読んだもの。 -/
def firstFragmentPacket : Ipv4Packet where
  header := .ofVec ⟨(firstFragment.take 20).toArray, rfl⟩
  options := []
  payload := firstFragment.drop 20
  version := by decide
  ihl := by decide
  totalLength := by decide
  checksum := by decide +kernel

/-- **断片も渡される。** -/
theorem submits_fragment :
    processDeviceUdpPacket plainOptions firstFragment =
      .ok ⟨.ipv4 #v[10, 0, 0, 2] #v[4, 0], .ipv4 #v[8, 8, 8, 8] #v[0, 53], false, [1]⟩ ∧
    firstFragmentPacket.bytes = firstFragment ∧ firstFragmentPacket.header.IsFragment := by
  refine ⟨by decide +kernel, by decide, ?_⟩
  show ntoh16 firstFragmentPacket.header.flags3Fragmentoffset13 % 0x4000 ≠ 0
  decide

end Udp
