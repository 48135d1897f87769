import Mathlib.Data.List.Basic

/-!
# buffer

長さの決まった buffer の一部を書き換える操作と、message 一つを何度かに分けて buffer に受け取る時の規則。
-/

namespace Infra

variable {α : Type*}

/-- `memcpy(b + i, data, len)` -/
def writeAt (b : List α) (i : Nat) (data : List α) : List α :=
  b.take i ++ data ++ b.drop (i + data.length)

/-- `realloc(b, size)`。増えた分は `fresh` から取り、足りなければ `fill` とする。 -/
def resize (b : List α) (size : Nat) (fresh : List α) (fill : α) : List α :=
  (b ++ fresh ++ List.replicate size fill).take size

@[simp] theorem length_resize (b : List α) (size : Nat) (fresh : List α) (fill : α) :
    (resize b size fresh fill).length = size := by
  unfold resize
  rw [List.length_take, List.length_append, List.length_replicate]
  omega

variable {b data : List α} {i : Nat}

theorem length_writeAt (h : i + data.length ≤ b.length) : (writeAt b i data).length = b.length := by
  unfold writeAt
  rw [List.length_append, List.length_append, List.length_take, List.length_drop]
  omega

/-- 書いた所の手前から読めば、前の中身に書いた data が続く。 -/
theorem take_writeAt (h : i ≤ b.length) :
    (writeAt b i data).take (i + data.length) = b.take i ++ data := by
  unfold writeAt
  have hlen : (b.take i ++ data).length = i + data.length := by
    rw [List.length_append, List.length_take]
    omega
  rw [← hlen, List.take_left']
  rfl

theorem writeAt_zero (h : data.length = b.length) : writeAt b 0 data = data := by
  unfold writeAt
  rw [Nat.zero_add, h, List.drop_length, List.take_zero, List.nil_append, List.append_nil]

theorem writeAt_append {first : List α} (h : first.length + data.length = b.length) :
    writeAt (writeAt b 0 first) first.length data = first ++ data := by
  have hlen : (writeAt b 0 first).length = b.length := length_writeAt (by omega)
  have htake : (writeAt b 0 first).take first.length = first := by
    have := @take_writeAt _ b first 0 (Nat.zero_le _)
    rwa [Nat.zero_add, List.take_zero, List.nil_append] at this
  have hdrop : (writeAt b 0 first).drop (first.length + data.length) = [] :=
    List.drop_eq_nil_of_le (by omega)
  show (writeAt b 0 first).take first.length ++ data ++ _ = _
  rw [htake, hdrop, List.append_nil]

/-- 後ろから先に書いても同じである。 -/
theorem writeAt_append_rev {first : List α} (h : first.length + data.length = b.length) :
    writeAt (writeAt b first.length data) 0 first = first ++ data := by
  have hdrop : (writeAt b first.length data).drop first.length = data := by
    unfold writeAt
    rw [List.drop_eq_nil_of_le (by omega : b.length ≤ first.length + data.length), List.append_nil,
      List.drop_left' (by rw [List.length_take]; omega)]
  show (writeAt b first.length data).take 0 ++ first ++ (writeAt b first.length data).drop (0 + _) =
    _
  rw [List.take_zero, List.nil_append, Nat.zero_add, hdrop]

/-! ## 分けて受け取る -/

/-- `b[dest .. dest + total)` に受け取る message のうち、先頭の `len` byte `got` が届いている。 -/
structure Filling (b : List α) (dest len total : Nat) (got : List α) : Prop where
  room : dest + total ≤ b.length
  le : len ≤ total
  length : got.length = len
  content : (b.drop dest).take len = got

theorem Filling.start {dest total : Nat} (h : dest + total ≤ b.length) :
    Filling b dest 0 total [] :=
  ⟨h, Nat.zero_le _, rfl, rfl⟩

/-- 続きが届く。 -/
theorem Filling.write {dest len total : Nat} {got : List α} (h : Filling b dest len total got)
    (hdata : len + data.length ≤ total) :
    Filling (writeAt b (dest + len) data) dest (len + data.length) total (got ++ data) := by
  have hroom := h.room
  refine ⟨?_, hdata, by rw [List.length_append, h.length], ?_⟩
  · rw [length_writeAt (by omega)]
    exact hroom
  · have hread := @take_writeAt _ b data (dest + len) (by omega)
    have hsplit : ((writeAt b (dest + len) data).drop dest).take (len + data.length) =
        ((writeAt b (dest + len) data).take (dest + len + data.length)).drop dest := by
      rw [List.drop_take]
      congr 1
      omega
    rw [hsplit, hread, List.drop_append_of_le_length (by rw [List.length_take]; omega), ← h.content,
      List.drop_take]
    congr 2
    omega

end Infra
