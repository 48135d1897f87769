import PsiphonVpn.Udp.Device

/-!
# UDP checksum と規格

RFC 768 と RFC 8200 の求める checksum と、`udp_checksum`・`udp_ip6_checksum`・`process_device_udp_packet`
とを比べる。

規格では、求めた値が 0 なら `0xFFFF` を送り、IPv4 では 0 の field は checksum が無いことを表す。source は畳んだ和が
`0xFFFF` のとき 0 を返し、受け取った field とは値そのものを比べる。食い違うのは、和が `0xFFFF` の倍数のときと、
IPv4 の field が 0 のときである。
-/

namespace Udp

open Infra

/-- 規格に照らして正しい checksum の field。 -/
def ChecksumValid : Addrs → UdpDatagram → Prop
  | .v4 s t, d => ntoh16 d.header.checksum = 0 ∨ (Addrs.v4 s t).onesSum d.header d.payload = 0xFFFF
  | .v6 s t, d => ntoh16 d.header.checksum ≠ 0 ∧ (Addrs.v6 s t).onesSum d.header d.payload = 0xFFFF

theorem withChecksum_self {h : UdpHeader} {c : Vector UInt8 2} (hc : h.checksum = c) :
    h.withChecksum c = h := by
  subst hc
  rfl

theorem ntoh16_complement_eq_zero_iff (a : Addrs) (header : UdpHeader) (payload : List UInt8) :
    ntoh16 (complement (foldCarries (a.sum header payload))) = 0 ↔
      a.sum header payload % 65535 = 0 := by
  rw [ntoh16_complement (foldCarries_le _), ← not_iff_not]
  exact Nat.pos_iff_ne_zero.symm.trans (complement_pos_iff (a.sum_pos header payload))

/-- 書き込めば全体の和が `0xFFFF` になる。0 でないのは、和が `0xFFFF` の倍数でないときである。 -/
theorem Addrs.udpChecksum_sum (a : Addrs) {header : UdpHeader} {mem payload : List UInt8}
    {off : Nat} (hzero : header.checksum = hton16 0) (hat : At mem off payload)
    (hlen : payload.length < 65536) :
    ∃ c, a.udpChecksum header mem off payload.length = .ok c ∧
      a.onesSum (header.withChecksum c) payload = 0xFFFF ∧
      (ntoh16 c ≠ 0 ↔ a.sum header payload % 65535 ≠ 0) := by
  have hsum := a.udpChecksum_of_at header hat hlen
  rw [withChecksum_self hzero] at hsum
  refine ⟨_, hsum, ?_, (ntoh16_complement_eq_zero_iff a header payload).not⟩
  rw [a.onesSum_withChecksum, ntoh16_complement (foldCarries_le _), foldCarries_add_complement]

/-- 正しい field のうち比較に通るのは、0 を求めた値のときにだけ 0 とするものである。 -/
theorem accepts_iff_of_valid {a : Addrs} {d : UdpDatagram} (hvalid : ChecksumValid a d) :
    a.Accepts d ↔ (ntoh16 d.header.checksum = 0 ↔ a.sum d.header d.payload % 65535 = 0) := by
  rw [← ntoh16_complement_eq_zero_iff a d.header d.payload]
  refine ⟨fun haccepts => by rw [← haccepts], fun hzero => ntoh16_inj ?_⟩
  by_cases hfield : ntoh16 d.header.checksum = 0
  · rw [hfield, hzero.mp hfield]
  · -- 和が `0xFFFF` の倍数でないので、正しい field は一つに決まる
    have hsum : a.sum d.header d.payload % 65535 ≠ 0 := fun h =>
      hfield (hzero.mpr ((ntoh16_complement_eq_zero_iff a d.header d.payload).mpr h))
    have hones : a.onesSum d.header d.payload = 0xFFFF := by
      cases a with
      | v4 s t => exact hvalid.resolve_left hfield
      | v6 s t => exact hvalid.2
    have hself : d.header.withChecksum d.header.checksum = d.header := rfl
    rw [← hself, a.onesSum_withChecksum] at hones
    have hle : ntoh16 d.header.checksum ≤ 65535 := Nat.le_of_lt_succ (ntoh16_lt _)
    rw [ntoh16_complement (foldCarries_le _)]
    exact eq_complement_of_foldCarries hsum hle hones

/--
**checksum は、和が `0xFFFF` の倍数でない datagram では規格に合う。**

前半は送る側である。書き込んだ checksum の下で和が `0xFFFF` になることに条件は要らず、値が 0 でないのは、和が
`0xFFFF` の倍数でないときに限る。後半は受ける側で、ほかの検査に通り、規格に照らして正しい datagram が渡されるのは、
field が 0 であることと和が `0xFFFF` の倍数であることとが同じときに限る。
-/
theorem udp_checksum_conforms (a : Addrs) :
    (∀ (header : UdpHeader) (mem payload : List UInt8) (off : Nat), header.checksum = hton16 0 →
      At mem off payload → payload.length < 65536 →
      ∃ c, a.udpChecksum header mem off payload.length = .ok c ∧
        a.onesSum (header.withChecksum c) payload = 0xFFFF ∧
        (ntoh16 c ≠ 0 ↔ a.sum header payload % 65535 ≠ 0)) ∧
    (∀ (o : Options) (data : List UInt8) (d : UdpDatagram), o.udpgwRemoteServerAddr = true →
      o.Supports a → Carries data a d → (d.payload.length : Int) ≤ o.udpMtu → ChecksumValid a d →
      ((∃ isDns, processDeviceUdpPacket o data =
          .ok ⟨a.source d.header.sourcePort, a.dest d.header.destPort, isDns, d.payload⟩) ↔
        (ntoh16 d.header.checksum = 0 ↔ a.sum d.header d.payload % 65535 = 0))) := by
  refine ⟨fun header mem payload off hzero hat hlen => a.udpChecksum_sum hzero hat hlen, ?_⟩
  intro o data d hudpgw hsup hcarries hlen hvalid
  rw [processDeviceUdpPacket_of_carries hudpgw hsup hcarries hlen, accepts_iff_of_valid hvalid]

/-! ## 具体的な datagram -/

/-- `10.0.0.2` から `8.8.8.8` へ。 -/
def toResolver : Addrs := .v4 #v[10, 0, 0, 2] #v[8, 8, 8, 8]

/-- その間の、option も断片も無い header。 -/
def resolverHeader (totalLength checksum : Vector UInt8 2) : Ipv4Header where
  version4Ihl4 := 0x45
  ds := 0
  totalLength := totalLength
  identification := #v[0, 0]
  flags3Fragmentoffset13 := #v[0, 0]
  ttl := 64
  protocol := protocolUdp
  checksum := checksum
  sourceAddress := #v[10, 0, 0, 2]
  destinationAddress := #v[8, 8, 8, 8]

/-- `plainPacket` の中の datagram。 -/
def plainDatagram : UdpDatagram where
  header := ⟨#v[4, 0], #v[0, 53], #v[0, 9], #v[224, 149]⟩
  payload := [1]
  length := by decide

/-- checksum を付けない datagram。 -/
def unsummedDatagram : UdpDatagram where
  header := ⟨#v[4, 0], #v[0, 53], #v[0, 9], #v[0, 0]⟩
  payload := [1]
  length := by decide

/-- 求めた checksum が 0 になるので、`0xFFFF` を付けた datagram。 -/
def zeroSumDatagram : UdpDatagram where
  header := ⟨#v[4, 0], #v[0, 53], #v[0, 10], #v[255, 255]⟩
  payload := [225, 147]
  length := by decide

theorem checksum_shortPacket :
    ntoh16 (resolverHeader #v[0, 29] #v[96, 191]).checksum =
      65535 - foldCarries
        (wordSum ((resolverHeader #v[0, 29] #v[96, 191]).zeroed.bytes ++ [])) := by decide +kernel

theorem checksum_longPacket :
    ntoh16 (resolverHeader #v[0, 30] #v[96, 190]).checksum =
      65535 - foldCarries
        (wordSum ((resolverHeader #v[0, 30] #v[96, 190]).zeroed.bytes ++ [])) := by decide +kernel

/-- payload が一 byte の datagram を運ぶ packet。 -/
def shortPacket (d : UdpDatagram) (h : d.payload.length = 1) : Ipv4Packet where
  header := resolverHeader #v[0, 29] #v[96, 191]
  options := []
  payload := d.bytes
  version := rfl
  ihl := rfl
  totalLength := by simp [UdpDatagram.bytes, h, resolverHeader, ntoh16]
  checksum := checksum_shortPacket

/-- payload が二 byte の datagram を運ぶ packet。 -/
def longPacket (d : UdpDatagram) (h : d.payload.length = 2) : Ipv4Packet where
  header := resolverHeader #v[0, 30] #v[96, 190]
  options := []
  payload := d.bytes
  version := rfl
  ihl := rfl
  totalLength := by simp [UdpDatagram.bytes, h, resolverHeader, ntoh16]
  checksum := checksum_longPacket

theorem udp_checksum_conforms_plain :
    ∃ isDns, processDeviceUdpPacket plainOptions (shortPacket plainDatagram rfl).bytes =
      .ok ⟨toResolver.source #v[4, 0], toResolver.dest #v[0, 53], isDns, [1]⟩ :=
  ((udp_checksum_conforms toResolver).2 plainOptions _ plainDatagram rfl trivial
    (.v4 (shortPacket plainDatagram rfl) plainDatagram List.prefix_rfl rfl List.prefix_rfl)
    (by decide)
    (.inr (by decide +kernel))).mpr (by decide +kernel)

/--
**0 を返すことがあり、正しい field を退けることがある。**

一つ目は、和が `0xFFFF` の倍数になる datagram の checksum。二つ目は、それを規格どおり `0xFFFF` として付けたもの。
三つ目は、checksum を付けないもの。
-/
theorem udp_checksum_diverges :
    toResolver.udpChecksum (zeroSumDatagram.header.withChecksum (hton16 0)) zeroSumDatagram.payload
      0 2 =
      .ok (hton16 0) ∧
    (Carries (longPacket zeroSumDatagram rfl).bytes toResolver zeroSumDatagram ∧
      ChecksumValid toResolver zeroSumDatagram ∧
      processDeviceUdpPacket plainOptions (longPacket zeroSumDatagram rfl).bytes =
        .error (.reject ())) ∧
    (Carries (shortPacket unsummedDatagram rfl).bytes toResolver unsummedDatagram ∧
      ChecksumValid toResolver unsummedDatagram ∧
      processDeviceUdpPacket plainOptions (shortPacket unsummedDatagram rfl).bytes =
        .error (.reject ())) := by
  refine ⟨by decide +kernel, ⟨?_, .inr (by decide +kernel), by decide +kernel⟩, ?_,
    .inl (by decide), by decide +kernel⟩
  · exact .v4 (longPacket zeroSumDatagram rfl) zeroSumDatagram List.prefix_rfl rfl List.prefix_rfl
  · exact .v4 (shortPacket unsummedDatagram rfl) unsummedDatagram List.prefix_rfl rfl
      List.prefix_rfl

end Udp
