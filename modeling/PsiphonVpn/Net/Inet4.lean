import Mathlib.Algebra.Group.Nat.Defs
import Mathlib.Data.Fintype.Basic

/-!
# IPv4 address の数値と text

`java.net.Inet4Address` と、その `hostAddress` が返す四つ組の十進 text。subnet に入るかどうかは数値で決まり、
text の先頭で決まるわけではない。両者を結ぶ lemma をここに置く。
-/

namespace Net

/-! ## 区切りのある text -/

section Separator

variable {α : Type*} {c : α}

/-- 区切りの前に区切りが現れなければ、区切りまでの一致はそのまま field の一致である。 -/
theorem isPrefix_sep_iff {p q u v : List α} (hp : c ∉ p) (hu : c ∉ u) :
    p ++ c :: q <+: u ++ c :: v ↔ p = u ∧ q <+: v := by
  induction p generalizing u with
  | nil =>
    cases u with
    | nil => simp [List.cons_prefix_cons]
    | cons x u =>
      have hx : c ≠ x := fun h => hu (h ▸ List.mem_cons_self)
      simp [List.cons_prefix_cons, hx]
  | cons x p ih =>
    have hxc : x ≠ c := fun h => hp (h ▸ List.mem_cons_self)
    cases u with
    | nil => simp [List.cons_prefix_cons, hxc]
    | cons y u =>
      have hp' : c ∉ p := fun h => hp (List.mem_cons_of_mem _ h)
      have hu' : c ∉ u := fun h => hu (List.mem_cons_of_mem _ h)
      simp only [List.cons_append, List.cons_prefix_cons, ih hp' hu', List.cons.injEq, and_assoc]

/-- 区切りを含まない頭は、最初の区切りより前で決まる。 -/
theorem isPrefix_before_sep_iff {p u v : List α} (hp : c ∉ p) : p <+: u ++ c :: v ↔ p <+: u := by
  induction p generalizing u with
  | nil => simp
  | cons x p ih =>
    have hxc : x ≠ c := fun h => hp (h ▸ List.mem_cons_self)
    have hp' : c ∉ p := fun h => hp (List.mem_cons_of_mem _ h)
    cases u with
    | nil => simp [List.cons_prefix_cons, hxc]
    | cons y u => simp only [List.cons_append, List.cons_prefix_cons, ih hp']

end Separator

/-- Kotlin の `String` の `<=`。違う所まで先頭から比べる。 -/
def textLe : List Char → List Char → Bool
  | [], _ => true
  | _ :: _, [] => false
  | c :: s, d :: t => c.toNat < d.toNat || (c == d && textLe s t)

theorem textLe_cons_iff {c d : Char} {s t : List Char} :
    textLe (c :: s) (d :: t) ↔ c.toNat < d.toNat ∨ (c = d ∧ textLe s t) := by
  simp [textLe]

/-- 共通の頭 `p` を持つ二つの text に挟まれた text は、同じ頭を持つ。 -/
theorem between_append_iff {p u v x : List Char} :
    (textLe (p ++ u) x ∧ textLe x (p ++ v)) ↔ ∃ y, x = p ++ y ∧ textLe u y ∧ textLe y v := by
  induction p generalizing x with
  | nil => simp
  | cons c p ih =>
    cases x with
    | nil =>
      constructor
      · rintro ⟨h, -⟩
        cases h
      · rintro ⟨y, h, -⟩
        cases h
    | cons d x =>
      rw [List.cons_append, List.cons_append, textLe_cons_iff, textLe_cons_iff]
      constructor
      · rintro ⟨hl, hr⟩
        rcases hl with hlt | ⟨rfl, hl⟩
        · -- 先頭で上回れば、上の端を越えている
          rcases hr with hlt' | ⟨rfl, -⟩ <;> omega
        · rcases hr with hlt | ⟨-, hr⟩
          · omega
          · obtain ⟨y, rfl, h⟩ := ih.mp ⟨hl, hr⟩
            exact ⟨y, rfl, h⟩
      · rintro ⟨y, hx, h⟩
        obtain ⟨rfl, hxy⟩ := List.cons.inj hx
        obtain ⟨hl, hr⟩ := ih.mpr ⟨y, hxy, h⟩
        exact ⟨.inr ⟨rfl, hl⟩, .inr ⟨rfl, hr⟩⟩

/-! ## address -/

/-- `Inet4Address`。四つの octet を上位から持つ。 -/
structure Inet4Address where
  a : UInt8
  b : UInt8
  c : UInt8
  d : UInt8
  deriving DecidableEq, Repr

/-- octet の十進 text。 -/
def octet (n : UInt8) : List Char := Nat.toDigits 10 n.toNat

namespace Inet4Address

/-- `getHostAddress` -/
def hostAddress (x : Inet4Address) : List Char :=
  octet x.a ++ '.' :: (octet x.b ++ '.' :: (octet x.c ++ '.' :: octet x.d))

/-- 32 bit の数としての address。 -/
def toNat (x : Inet4Address) : Nat :=
  x.a.toNat * 2 ^ 24 + x.b.toNat * 2 ^ 16 + x.c.toNat * 2 ^ 8 + x.d.toNat

end Inet4Address

/-- `base/prefixLength` の形の subnet。 -/
structure Network where
  base : Inet4Address
  prefixLength : Nat
  deriving DecidableEq, Repr

/-- 上位 `prefixLength` bit が `base` と同じ address を含む。 -/
def Network.Contains (n : Network) (x : Inet4Address) : Prop :=
  x.toNat / 2 ^ (32 - n.prefixLength) = n.base.toNat / 2 ^ (32 - n.prefixLength)

instance (n : Network) (x : Inet4Address) : Decidable (n.Contains x) :=
  inferInstanceAs (Decidable (_ = _))

/-- どの address も含まない。 -/
def Network.Free (n : Network) (xs : List Inet4Address) : Prop := ∀ x ∈ xs, ¬ n.Contains x

instance (n : Network) (xs : List Inet4Address) : Decidable (n.Free xs) :=
  inferInstanceAs (Decidable (∀ x ∈ xs, ¬ n.Contains x))

/-! ## octet の text -/

theorem forall_octet {P : UInt8 → Prop} (h : ∀ i : Fin 256, P (UInt8.ofFin i)) (n : UInt8) :
    P n := by
  simpa using h n.toFin

theorem dot_notMem_octet (n : UInt8) : '.' ∉ octet n := by
  revert n
  exact forall_octet (by decide +kernel)

theorem octet_ne_nil (n : UInt8) : octet n ≠ [] := by
  revert n
  exact forall_octet (by decide +kernel)

theorem octet_inj {m n : UInt8} (h : octet m = octet n) : m = n := by
  have hmod : m.toNat = n.toNat := by
    have := congrArg (Nat.ofDigitChars 10 · 0) h
    simpa [octet, Nat.ofDigitChars_toDigits] using this
  exact UInt8.toNat_inj.mp hmod

theorem sep_isPrefix_hostAddress_iff {x : Inet4Address} {n : UInt8} {q : List Char} :
    octet n ++ '.' :: q <+: x.hostAddress ↔
      x.a = n ∧ q <+: octet x.b ++ '.' :: (octet x.c ++ '.' :: octet x.d) := by
  rw [Inet4Address.hostAddress, isPrefix_sep_iff (dot_notMem_octet n) (dot_notMem_octet x.a)]
  exact and_congr_left fun _ => ⟨fun h => (octet_inj h).symm, fun h => h ▸ rfl⟩

end Net
