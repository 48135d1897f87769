import Mathlib.Data.List.Basic

/-!
# 数字の列の値

数字を左から読み、上限を超えたら止める loop と、その結果。
-/

namespace Infra

/-- `if (v > max / base) 失敗; v *= base; if (d > max - v) 失敗; v += d;` -/
def accum (base max v d : Nat) : Option Nat :=
  if max / base < v then none
  else if max - v * base < d then none
  else some (v * base + d)

/-- `v` に続けて読んだ数字の列の値。 -/
def numValue (base v : Nat) (ds : List Nat) : Nat := ds.foldl (fun v d => v * base + d) v

variable {base max v d : Nat} {ds : List Nat}

theorem accum_eq (hbase : 0 < base) :
    accum base max v d = if v * base + d ≤ max then some (v * base + d) else none := by
  unfold accum
  by_cases hv : max / base < v
  · have hlt : max < v * base := (Nat.div_lt_iff_lt_mul hbase).mp hv
    rw [if_pos hv, if_neg (by omega)]
  · have hle : v * base ≤ max := (Nat.le_div_iff_mul_le hbase).mp (Nat.not_lt.mp hv)
    rw [if_neg hv]
    by_cases hd : max - v * base < d
    · rw [if_pos hd, if_neg (by omega)]
    · rw [if_neg hd, if_pos (by omega)]

theorem numValue_cons : numValue base v (d :: ds) = numValue base (v * base + d) ds := rfl

theorem numValue_append_singleton :
    numValue base v (ds ++ [d]) = numValue base v ds * base + d := by
  rw [numValue, List.foldl_append]
  rfl

/-- 読み進めても値は減らない。 -/
theorem le_numValue (hbase : 0 < base) : v ≤ numValue base v ds := by
  induction ds generalizing v with
  | nil => exact Nat.le_refl v
  | cons d ds ih =>
    have hmul : v ≤ v * base := Nat.le_mul_of_pos_right v hbase
    have hle : v ≤ v * base + d := by omega
    rw [numValue_cons]
    exact Nat.le_trans hle ih

end Infra
