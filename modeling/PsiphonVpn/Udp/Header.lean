import Mathlib.Algebra.Group.Nat.Defs
import PsiphonVpn.Infra.Reader
import PsiphonVpn.Net.BAddr

/-!
# IP と UDP の header

`misc/ipv4_proto.h`・`misc/ipv6_proto.h`・`misc/udp_proto.h` の packed な構造体と、`misc/byteorder.h` の変換。

構造体の 16 bit の field は network byte order の二 byte のまま持つ。source も `checksum` や port をその形のまま
比べ、長さだけを `ntoh16` で数にする。
-/

namespace Udp

open Infra

/-- `hton16`。上の桁は捨てられる。 -/
def hton16 (n : Nat) : Vector UInt8 2 := #v[UInt8.ofNat (n / 256), UInt8.ofNat n]

/-- `hton32` -/
def hton32 (n : Nat) : Vector UInt8 4 :=
  #v[UInt8.ofNat (n / 2 ^ 24), UInt8.ofNat (n / 2 ^ 16), UInt8.ofNat (n / 2 ^ 8), UInt8.ofNat n]

/-- `ntoh16` と `badvpn_read_be16` -/
def ntoh16 (v : Vector UInt8 2) : Nat := v[0].toNat * 256 + v[1].toNat

theorem ntoh16_lt (v : Vector UInt8 2) : ntoh16 v < 65536 := by
  have h0 := v[0].toNat_lt
  have h1 := v[1].toNat_lt
  rw [ntoh16]
  omega

theorem ntoh16_hton16 (n : Nat) : ntoh16 (hton16 n) = n % 65536 := by
  show (UInt8.ofNat (n / 256)).toNat * 256 + (UInt8.ofNat n).toNat = n % 65536
  rw [UInt8.toNat_ofNat', UInt8.toNat_ofNat']
  omega

theorem ntoh16_inj {v w : Vector UInt8 2} (h : ntoh16 v = ntoh16 w) : v = w := by
  have h0 := v[1].toNat_lt
  have h1 := w[1].toNat_lt
  simp only [ntoh16] at h
  have e0 : v[0] = w[0] := UInt8.toNat_inj.mp (by omega)
  have e1 : v[1] = w[1] := UInt8.toNat_inj.mp (by omega)
  ext i hi
  match i with
  | 0 => exact congrArg UInt8.toNat e0
  | 1 => exact congrArg UInt8.toNat e1

theorem toList_pair (v : Vector UInt8 2) : v.toList = [v[0], v[1]] := by
  obtain ⟨⟨l⟩, hl⟩ := v
  match l, hl with
  | [_, _], _ => rfl

/-! ## IPv4 -/

/-- `struct ipv4_header` -/
structure Ipv4Header where
  version4Ihl4 : UInt8
  ds : UInt8
  totalLength : Vector UInt8 2
  identification : Vector UInt8 2
  flags3Fragmentoffset13 : Vector UInt8 2
  ttl : UInt8
  protocol : UInt8
  checksum : Vector UInt8 2
  sourceAddress : Vector UInt8 4
  destinationAddress : Vector UInt8 4
  deriving DecidableEq, Repr

variable {mem : List UInt8} {off : Nat}

namespace Ipv4Header

/-- `sizeof(struct ipv4_header)` -/
def size : Nat := 20

/-- 構造体の記憶の上の並び。 -/
def bytes (h : Ipv4Header) : List UInt8 :=
  h.version4Ihl4 :: h.ds :: (h.totalLength.toList ++ h.identification.toList ++
    h.flags3Fragmentoffset13.toList ++
    h.ttl :: h.protocol :: (h.checksum.toList ++ h.sourceAddress.toList ++
      h.destinationAddress.toList))

/-- `memcpy(out_header, data, sizeof(*out_header))` -/
def ofVec (b : Vector UInt8 size) : Ipv4Header where
  version4Ihl4 := b[0]
  ds := b[1]
  totalLength := #v[b[2], b[3]]
  identification := #v[b[4], b[5]]
  flags3Fragmentoffset13 := #v[b[6], b[7]]
  ttl := b[8]
  protocol := b[9]
  checksum := #v[b[10], b[11]]
  sourceAddress := #v[b[12], b[13], b[14], b[15]]
  destinationAddress := #v[b[16], b[17], b[18], b[19]]

@[simp] theorem length_bytes (h : Ipv4Header) : h.bytes.length = 20 := by simp [bytes]

theorem bytes_ofVec (b : Vector UInt8 size) : (ofVec b).bytes = b.toList := by
  obtain ⟨⟨l⟩, hl⟩ := b
  match l, hl with
  | [_, _, _, _, _, _, _, _, _, _, _, _, _, _, _, _, _, _, _, _], _ => rfl

theorem bytes_inj {h k : Ipv4Header} (heq : h.bytes = k.bytes) : h = k := by
  cases h
  cases k
  simp only [bytes, List.append_assoc, List.cons.injEq, toList_append_inj_iff, Vector.toList_inj]
    at heq
  simp only [heq]

theorem exists_readVec {h : Ipv4Header} (hat : At mem off h.bytes) :
    ∃ b, readVec (ρ := Unit) mem off size = .ok b ∧ ofVec b = h :=
  have hat' : At mem off (Vector.toList ⟨h.bytes.toArray, h.length_bytes⟩) := hat
  ⟨_, readVec_of_at hat', bytes_inj (bytes_ofVec _)⟩

end Ipv4Header

/-! ## IPv6 -/

/-- `struct ipv6_header` -/
structure Ipv6Header where
  version4Tc4 : UInt8
  tc4Fl4 : UInt8
  fl : Vector UInt8 2
  payloadLength : Vector UInt8 2
  nextHeader : UInt8
  hopLimit : UInt8
  sourceAddress : Vector UInt8 16
  destinationAddress : Vector UInt8 16
  deriving DecidableEq, Repr

namespace Ipv6Header

/-- `sizeof(struct ipv6_header)` -/
def size : Nat := 40

def bytes (h : Ipv6Header) : List UInt8 :=
  h.version4Tc4 :: h.tc4Fl4 :: (h.fl.toList ++ h.payloadLength.toList ++
    h.nextHeader :: h.hopLimit :: (h.sourceAddress.toList ++ h.destinationAddress.toList))

def ofVec (b : Vector UInt8 size) : Ipv6Header where
  version4Tc4 := b[0]
  tc4Fl4 := b[1]
  fl := #v[b[2], b[3]]
  payloadLength := #v[b[4], b[5]]
  nextHeader := b[6]
  hopLimit := b[7]
  sourceAddress := subVec b 8 16 (by decide)
  destinationAddress := subVec b 24 16 (by decide)

@[simp] theorem length_bytes (h : Ipv6Header) : h.bytes.length = 40 := by simp [bytes]

theorem bytes_ofVec (b : Vector UInt8 size) : (ofVec b).bytes = b.toList := by
  obtain ⟨⟨l⟩, hl⟩ := b
  match l, hl with
  | v :: t :: f₁ :: f₀ :: p₁ :: p₀ :: n :: hop :: rest, hl =>
    have hrest : rest.length = 32 := by simpa [size] using hl
    have hdrop : (rest.drop 16).take 16 = rest.drop 16 := List.take_of_length_le (by simp [hrest])
    show v :: t :: f₁ :: f₀ :: p₁ :: p₀ :: n :: hop :: (rest.take 16 ++ (rest.drop 16).take 16) =
      v :: t :: f₁ :: f₀ :: p₁ :: p₀ :: n :: hop :: rest
    rw [hdrop, List.take_append_drop]

theorem bytes_inj {h k : Ipv6Header} (heq : h.bytes = k.bytes) : h = k := by
  cases h
  cases k
  simp only [bytes, List.append_assoc, List.cons.injEq, toList_append_inj_iff, Vector.toList_inj]
    at heq
  simp only [heq]

theorem exists_readVec {h : Ipv6Header} (hat : At mem off h.bytes) :
    ∃ b, readVec (ρ := Unit) mem off size = .ok b ∧ ofVec b = h :=
  have hat' : At mem off (Vector.toList ⟨h.bytes.toArray, h.length_bytes⟩) := hat
  ⟨_, readVec_of_at hat', bytes_inj (bytes_ofVec _)⟩

end Ipv6Header

/-! ## UDP -/

/-- `struct udp_header` -/
structure UdpHeader where
  sourcePort : Vector UInt8 2
  destPort : Vector UInt8 2
  length : Vector UInt8 2
  checksum : Vector UInt8 2
  deriving DecidableEq, Repr

namespace UdpHeader

/-- `sizeof(struct udp_header)` -/
def size : Nat := 8

def bytes (h : UdpHeader) : List UInt8 :=
  h.sourcePort.toList ++ h.destPort.toList ++ h.length.toList ++ h.checksum.toList

def ofVec (b : Vector UInt8 size) : UdpHeader where
  sourcePort := #v[b[0], b[1]]
  destPort := #v[b[2], b[3]]
  length := #v[b[4], b[5]]
  checksum := #v[b[6], b[7]]

@[simp] theorem length_bytes (h : UdpHeader) : h.bytes.length = 8 := by simp [bytes]

theorem bytes_ofVec (b : Vector UInt8 size) : (ofVec b).bytes = b.toList := by
  obtain ⟨⟨l⟩, hl⟩ := b
  match l, hl with
  | [_, _, _, _, _, _, _, _], _ => rfl

theorem bytes_inj {h k : UdpHeader} (heq : h.bytes = k.bytes) : h = k := by
  cases h
  cases k
  simp only [bytes, List.append_assoc, toList_append_inj_iff, Vector.toList_inj] at heq
  simp only [heq]

theorem exists_readVec {h : UdpHeader} (hat : At mem off h.bytes) :
    ∃ b, readVec (ρ := Unit) mem off size = .ok b ∧ ofVec b = h :=
  have hat' : At mem off (Vector.toList ⟨h.bytes.toArray, h.length_bytes⟩) := hat
  ⟨_, readVec_of_at hat', bytes_inj (bytes_ofVec _)⟩

end UdpHeader

end Udp
