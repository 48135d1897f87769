import Mathlib.Order.Defs.LinearOrder

/-!
# address

`system/BAddr.h` の `BAddr`。種類は IPv4 と IPv6 に限る。ここで扱う関数はどれも、それ以外の種類を `ASSERT` で
退けてから使う。address も port も network byte order の byte の列で持つ。
-/

namespace Net

inductive BAddr where
  | ipv4 (ip : Vector UInt8 4) (port : Vector UInt8 2)
  | ipv6 (ip : Vector UInt8 16) (port : Vector UInt8 2)
  deriving DecidableEq, Repr

namespace BAddr

/-- `BADDR_TYPE_IPV4` と `BADDR_TYPE_IPV6`。 -/
def type : BAddr → Nat
  | .ipv4 _ _ => 1
  | .ipv6 _ _ => 2

def ip : BAddr → List UInt8
  | .ipv4 ip _ => ip.toList
  | .ipv6 ip _ => ip.toList

def port : BAddr → List UInt8
  | .ipv4 _ port => port.toList
  | .ipv6 _ port => port.toList

/-- packed な構造体としての byte。SOCKS と udpgw の address はどちらもこの形である。 -/
def bytes (a : BAddr) : List UInt8 := a.ip ++ a.port

/-- `sizeof` -/
def size : BAddr → Nat
  | .ipv4 _ _ => 6
  | .ipv6 _ _ => 18

theorem length_bytes (a : BAddr) : a.bytes.length = a.size := by
  cases a <;> simp [bytes, ip, port, size]

/-! ## 印字 -/

/-- 二 byte ずつの big endian の数。`badvpn_read_be16` と `ntoh16` にあたる。 -/
def words : List UInt8 → List Nat
  | hi :: lo :: rest => (256 * hi.toNat + lo.toNat) :: words rest
  | _ => []

/-- `sprintf` の `%u`（`base = 10`）と `%x`（`base = 16`）。 -/
def digits (base n : Nat) : List UInt8 := (Nat.toDigits base n).map Char.toUInt8

/-- `BIPAddr_Print` -/
def printIp : BAddr → List UInt8
  | .ipv4 ip _ => ['.'.toUInt8].intercalate (ip.toList.map fun b => digits 10 b.toNat)
  | .ipv6 ip _ => [':'.toUInt8].intercalate ((words ip.toList).map (digits 16))

/-- `BAddr_Print`。IPv6 の address も括弧で囲まない。 -/
def print (a : BAddr) : List UInt8 :=
  a.printIp ++ [':'.toUInt8] ++ (words a.port).flatMap (digits 10)

example : (print (.ipv6 #v[32, 1, 13, 184, 0, 0, 0, 0, 0, 0, 0, 0, 0, 0, 0, 16] #v[1, 187])).map
    Char.ofUInt8 =
    "2001:db8:0:0:0:0:0:10:443".toList := by decide

/-! ## 順序 -/

theorem ext_fields {a b : BAddr} (htype : a.type = b.type) (hip : a.ip = b.ip)
    (hport : a.port = b.port) :
    a = b := by
  cases a <;> cases b <;> simp_all [type, ip, port, Vector.toList_inj]

/--
`BAddr_CompareOrder`

byte の列を辞書式に比べることは、IPv4 では `ntoh32`・`ntoh16` の値を比べること、IPv6 では `memcmp` と `ntoh16` に
あたる。
-/
def compareOrder (a b : BAddr) : Ordering :=
  (compare a.type b.type).then ((compare a.ip b.ip).then (compare a.port b.port))

theorem compareOrder_eq : compareOrder =
    compareLex (compareOn type) (compareLex (compareOn ip) (compareOn port)) := rfl

instance : Std.TransCmp compareOrder := by
  rw [compareOrder_eq]
  infer_instance

instance : Std.LawfulEqCmp compareOrder where
  eq_of_compare {a b} h := by
    simp only [compareOrder, Ordering.then_eq_eq, Std.LawfulEqCmp.compare_eq_iff_eq] at h
    exact ext_fields h.1 h.2.1 h.2.2

instance : Ord BAddr := ⟨compareOrder⟩

instance : Std.TransOrd BAddr := inferInstanceAs (Std.TransCmp compareOrder)

theorem compareOrder_eq_iff {a b : BAddr} : compareOrder a b = .eq ↔ a = b :=
  Std.LawfulEqCmp.compare_eq_iff_eq

end BAddr

end Net
