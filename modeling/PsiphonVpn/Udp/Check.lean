import PsiphonVpn.Udp.Checksum

/-!
# packet の検査

`ipv4_check`・`ipv6_check`・`udp_check`。受け取った列の中で、header の長さの field に従って payload の位置と長さを
求める。

検査が受け入れる列を、packet の側から `Ipv4Packet`・`Ipv6Packet`・`UdpDatagram` として述べる。長さや checksum が
正しいことは構造体の field で持つので、正しくない packet は作れない。検査はそれぞれ、列の先頭にそのような packet が
あることと同値になる。後ろに余る byte は無視される。
-/

namespace Udp

open Infra

/-- `IPV4_GET_VERSION` -/
def Ipv4Header.version (h : Ipv4Header) : Nat := h.version4Ihl4.toNat / 16

/-- `IPV4_GET_IHL` -/
def Ipv4Header.ihl (h : Ipv4Header) : Nat := h.version4Ihl4.toNat % 16

/-- checksum を 0 にした header。 -/
def Ipv4Header.zeroed (h : Ipv4Header) : Ipv4Header := { h with checksum := hton16 0 }

/-- 検査の結果。header と、payload の位置と長さ。 -/
structure Parsed (η : Type) where
  header : η
  payload : Nat
  payloadLen : Nat
  deriving DecidableEq, Repr

/-- `ipv4_check` -/
def ipv4Check (data : List UInt8) : Checked (Parsed Ipv4Header) := do
  require () (Ipv4Header.size ≤ data.length)
  let b ← readVec data 0 Ipv4Header.size
  let header := Ipv4Header.ofVec b
  require () (header.version = 4)
  let headerLen := header.ihl * 4
  require () (Ipv4Header.size ≤ headerLen)
  require () (headerLen ≤ data.length)
  let totalLength := ntoh16 header.totalLength
  require () (headerLen ≤ totalLength)
  require () (totalLength ≤ data.length)
  let checksumComputed ← ipv4Checksum header.zeroed data Ipv4Header.size
    (headerLen - Ipv4Header.size)
  require () (header.checksum = checksumComputed)
  pure ⟨header, headerLen, totalLength - headerLen⟩

/-- `ipv6_check` -/
def ipv6Check (data : List UInt8) : Checked (Parsed Ipv6Header) := do
  require () (Ipv6Header.size ≤ data.length)
  let b ← readVec data 0 Ipv6Header.size
  let header := Ipv6Header.ofVec b
  require () (header.version4Tc4.toNat / 16 = 6)
  let payloadLength := ntoh16 header.payloadLength
  require () (payloadLength ≤ data.length - Ipv6Header.size)
  pure ⟨header, Ipv6Header.size, payloadLength⟩

/-- `udp_check`。`mem` の `data` から `dataLen` byte を調べる。 -/
def udpCheck (mem : List UInt8) (data dataLen : Nat) : Checked (Parsed UdpHeader) := do
  require () (UdpHeader.size ≤ dataLen)
  let b ← readVec mem data UdpHeader.size
  let header := UdpHeader.ofVec b
  let udpLength := ntoh16 header.length
  require () (UdpHeader.size ≤ udpLength)
  require () (udpLength ≤ UdpHeader.size + (dataLen - UdpHeader.size))
  pure ⟨header, data + UdpHeader.size, udpLength - UdpHeader.size⟩

/-! ## 正しい packet -/

/-- option と payload を持つ IPv4 packet。header の checksum は RFC 791 のとおりである。 -/
structure Ipv4Packet where
  header : Ipv4Header
  options : List UInt8
  payload : List UInt8
  version : header.version = 4
  ihl : header.ihl * 4 = 20 + options.length
  totalLength : ntoh16 header.totalLength = 20 + options.length + payload.length
  checksum : ntoh16 header.checksum = 65535 - foldCarries (wordSum (header.zeroed.bytes ++ options))

def Ipv4Packet.bytes (p : Ipv4Packet) : List UInt8 := p.header.bytes ++ p.options ++ p.payload

/-- IPv6 packet。 -/
structure Ipv6Packet where
  header : Ipv6Header
  payload : List UInt8
  version : header.version4Tc4.toNat / 16 = 6
  payloadLength : ntoh16 header.payloadLength = payload.length

def Ipv6Packet.bytes (p : Ipv6Packet) : List UInt8 := p.header.bytes ++ p.payload

/-- UDP datagram。 -/
structure UdpDatagram where
  header : UdpHeader
  payload : List UInt8
  length : ntoh16 header.length = 8 + payload.length

def UdpDatagram.bytes (d : UdpDatagram) : List UInt8 := d.header.bytes ++ d.payload

theorem UdpDatagram.payload_lt (d : UdpDatagram) : d.payload.length < 65536 := by
  have h := ntoh16_lt d.header.length
  have := d.length
  omega

theorem Ipv4Packet.options_even (p : Ipv4Packet) : p.options.length % 2 = 0 := by
  have := p.ihl
  omega

theorem Ipv4Packet.options_lt (p : Ipv4Packet) : p.options.length < 65536 := by
  have h : p.header.ihl < 16 := Nat.mod_lt _ (by decide)
  have := p.ihl
  omega

theorem wordSum_header (h : Ipv4Header) :
    wordSum h.bytes = wordSum h.zeroed.bytes + ntoh16 h.checksum := by
  -- checksum の前後は同じである
  obtain ⟨pre, post, hpre, hbytes⟩ : ∃ pre post : List UInt8, pre.length = 10 ∧
      ∀ c, ({ h with checksum := c } : Ipv4Header).bytes = pre ++ (c.toList ++ post) :=
    ⟨h.version4Ihl4 :: h.ds :: (h.totalLength.toList ++ h.identification.toList ++
      h.flags3Fragmentoffset13.toList ++
      [h.ttl, h.protocol]), h.sourceAddress.toList ++ h.destinationAddress.toList, by simp,
      fun c => by simp [Ipv4Header.bytes]⟩
  have hsum : ∀ c, wordSum ({ h with checksum := c } : Ipv4Header).bytes =
      wordSum pre + (ntoh16 c + wordSum post) := by
    intro c
    rw [hbytes, wordSum_append (by omega), wordSum_append (by simp), wordSum_toList]
  have hself : wordSum h.bytes = wordSum pre + (ntoh16 h.checksum + wordSum post) := hsum h.checksum
  rw [hself, Ipv4Header.zeroed, hsum (hton16 0), ntoh16_hton16]
  omega

theorem Ipv4Packet.header_sum (p : Ipv4Packet) :
    foldCarries (wordSum (p.header.bytes ++ p.options)) = 65535 := by
  have hsum : wordSum (p.header.bytes ++ p.options) =
      wordSum (p.header.zeroed.bytes ++ p.options) + (65535 - foldCarries
        (wordSum (p.header.zeroed.bytes ++ p.options))) := by
    rw [← p.checksum, wordSum_append (by simp), wordSum_append (by simp), wordSum_header]
    omega
  rw [hsum, foldCarries_add_complement]

/-! ## 検査と packet -/

theorem ipv4Check_of_packet {data : List UInt8} (p : Ipv4Packet) (h : p.bytes <+: data) :
    ipv4Check data = .ok ⟨p.header, 20 + p.options.length, p.payload.length⟩ := by
  obtain ⟨hhead, hpayload⟩ := at_append_iff.mp (at_zero_iff.mpr h)
  obtain ⟨hheader, hoptions⟩ := at_append_iff.mp hhead
  rw [Nat.zero_add, Ipv4Header.length_bytes] at hoptions
  have hle := hpayload.le_length
  simp only [List.length_append, Ipv4Header.length_bytes, Nat.zero_add] at hle
  obtain ⟨b, hread, hb⟩ := Ipv4Header.exists_readVec hheader
  have hihl := p.ihl
  have htotal := p.totalLength
  have hextra : 20 + p.options.length - Ipv4Header.size =
    p.options.length := by simp [Ipv4Header.size]
  have hsum := ipv4Checksum_of_at p.header.zeroed hoptions p.options_even p.options_lt
  rw [ipv4Check, require_bind (show Ipv4Header.size ≤ data.length by rw [Ipv4Header.size]; omega),
    hread, ok_bind]
  simp only [hb]
  rw [require_bind p.version]
  simp only [hihl, htotal]
  rw [require_bind (show Ipv4Header.size ≤ 20 + p.options.length by rw [Ipv4Header.size]; omega),
    require_bind (by omega), require_bind (by omega), require_bind (by omega), hextra,
    Ipv4Header.size, hsum, ok_bind]
  have hcheck : p.header.checksum =
      complement (foldCarries (wordSum (p.header.zeroed.bytes ++ p.options))) :=
    ntoh16_inj (p.checksum.trans (ntoh16_complement (foldCarries_le _)).symm)
  rw [require_bind hcheck, Nat.add_sub_cancel_left]
  rfl

theorem yields_ipv4Check (data : List UInt8) :
    Yields (ipv4Check data) fun r => ∃ p : Ipv4Packet, p.bytes <+: data ∧
      r = ⟨p.header, 20 + p.options.length, p.payload.length⟩ := by
  refine (yields_require _ _).bind fun _ hsize => ?_
  refine (yields_readVec (by simpa using hsize)).bind fun b hb => ?_
  refine (yields_require _ _).bind fun _ hversion => ?_
  refine (yields_require _ _).bind fun _ hihl => ?_
  refine (yields_require _ _).bind fun _ hheader => ?_
  refine (yields_require _ _).bind fun _ htotal => ?_
  refine (yields_require _ _).bind fun _ hdata => ?_
  rw [← Ipv4Header.bytes_ofVec] at hb
  generalize Ipv4Header.ofVec b = header at *
  -- header の後ろに option、その後ろに payload がある
  obtain ⟨options, holen, hoat⟩ : ∃ l, l.length = header.ihl * 4 - 20 ∧ At data 20 l :=
    exists_at (by rw [Ipv4Header.size] at hihl; omega)
  obtain ⟨payload, hplen, hpat⟩ : ∃ l, l.length = ntoh16 header.totalLength - header.ihl * 4 ∧
      At data (header.ihl * 4) l := exists_at (by omega)
  rw [Ipv4Header.size] at hihl
  have hbytes : At data 0 (header.bytes ++ options ++ payload) := by
    rw [at_append_iff, at_append_iff]
    refine ⟨⟨hb, ?_⟩, ?_⟩
    · simpa using hoat
    · have hoff : 0 + (header.bytes ++ options).length = header.ihl * 4 := by
        simp only [List.length_append, Ipv4Header.length_bytes]
        omega
      rw [hoff]
      exact hpat
  have hihl' : header.ihl < 16 := Nat.mod_lt _ (by decide)
  rw [Ipv4Header.size, ← holen, ipv4Checksum_of_at header.zeroed hoat (by omega) (by omega),
    ok_bind]
  refine (yields_require _ _).bind fun _ hsum => ?_
  refine Yields.of_ok ⟨⟨header, options, payload, hversion, by omega, by omega, ?_⟩,
    at_zero_iff.mp hbytes, ?_⟩
  · rw [hsum, ntoh16_complement (foldCarries_le _)]
  · simp only [Parsed.mk.injEq, true_and]
    omega

theorem ipv6Check_of_packet {data : List UInt8} (p : Ipv6Packet) (h : p.bytes <+: data) :
    ipv6Check data = .ok ⟨p.header, 40, p.payload.length⟩ := by
  obtain ⟨hheader, hpayload⟩ := at_append_iff.mp (at_zero_iff.mpr h)
  have hle := hpayload.le_length
  rw [Nat.zero_add, Ipv6Header.length_bytes] at hle
  obtain ⟨b, hread, hb⟩ := Ipv6Header.exists_readVec hheader
  rw [ipv6Check, require_bind (show Ipv6Header.size ≤ data.length by rw [Ipv6Header.size]; omega),
    hread, ok_bind]
  simp only [hb]
  rw [require_bind p.version, p.payloadLength, require_bind (by rw [Ipv6Header.size]; omega)]
  rfl

theorem yields_ipv6Check (data : List UInt8) :
    Yields (ipv6Check data) fun r => ∃ p : Ipv6Packet, p.bytes <+: data ∧
      r = ⟨p.header, 40, p.payload.length⟩ := by
  refine (yields_require _ _).bind fun _ hsize => ?_
  refine (yields_readVec (by simpa using hsize)).bind fun b hb => ?_
  refine (yields_require _ _).bind fun _ hversion => ?_
  refine (yields_require _ _).bind fun _ hlength => ?_
  rw [← Ipv6Header.bytes_ofVec] at hb
  generalize Ipv6Header.ofVec b = header at *
  rw [Ipv6Header.size] at hsize hlength
  obtain ⟨payload, hplen, hpat⟩ : ∃ l, l.length = ntoh16 header.payloadLength ∧
    At data 40 l := exists_at (by omega)
  have hbytes : At data 0 (header.bytes ++ payload) := by
    rw [at_append_iff]
    refine ⟨hb, ?_⟩
    simpa using hpat
  exact Yields.of_ok ⟨⟨header, payload, hversion, hplen.symm⟩, at_zero_iff.mp hbytes,
    congrArg (Parsed.mk header 40) hplen.symm⟩

section UdpCheck

variable {mem body : List UInt8} {off : Nat}

theorem udpCheck_of_datagram (hat : At mem off body) (d : UdpDatagram) (h : d.bytes <+: body) :
    udpCheck mem off body.length = .ok ⟨d.header, off + 8, d.payload.length⟩ := by
  have hle := h.length_le
  rw [UdpDatagram.bytes, List.length_append, UdpHeader.length_bytes] at hle
  obtain ⟨b, hread, hb⟩ := UdpHeader.exists_readVec (at_append_iff.mp (hat.initial h)).1
  rw [udpCheck, require_bind (show UdpHeader.size ≤ body.length by rw [UdpHeader.size]; omega),
    hread, ok_bind]
  simp only [hb, d.length, UdpHeader.size]
  rw [require_bind (by omega), require_bind (by omega), Nat.add_sub_cancel_left]
  rfl

theorem yields_udpCheck (hat : At mem off body) :
    Yields (udpCheck mem off body.length) fun r => ∃ d : UdpDatagram, d.bytes <+: body ∧
      r = ⟨d.header, off + 8, d.payload.length⟩ := by
  have hmem := hat.le_length
  refine (yields_require _ _).bind fun _ hsize => ?_
  rw [UdpHeader.size] at hsize
  refine (yields_readVec (by rw [UdpHeader.size]; omega)).bind fun b hb => ?_
  refine (yields_require _ _).bind fun _ hmin => ?_
  refine (yields_require _ _).bind fun _ hmax => ?_
  rw [← UdpHeader.bytes_ofVec] at hb
  generalize UdpHeader.ofVec b = header at *
  rw [UdpHeader.size] at hmin hmax
  -- UDP の長さは、受け取った範囲に収まる
  obtain ⟨payload, hplen, hpat⟩ : ∃ l, l.length = ntoh16 header.length - 8 ∧ At mem (off + 8) l :=
    exists_at (by omega)
  have hbytes : At mem off (header.bytes ++ payload) := by
    rw [at_append_iff, UdpHeader.length_bytes]
    exact ⟨hb, hpat⟩
  have hbody : header.bytes ++ payload <+: body := hbytes.isPrefix hat (by simp; omega)
  exact Yields.of_ok ⟨⟨header, payload, by omega⟩, hbody,
    congrArg (Parsed.mk header (off + 8)) hplen.symm⟩

end UdpCheck

end Udp
