import Mathlib.Data.Nat.Init

/-!
# 1 の補数の和

Internet の checksum が使う、16 bit の語の 1 の補数の和。語は big endian で、奇数の byte が余れば下位に 0 を補う。

整数としての和 `wordSum` と、桁上げを畳む loop `foldCarries` とに分ける。畳んだ値は `0xFFFF` を法とする代表で、
0 になるのは和が 0 のときだけである。二つある零のうち、畳んで現れるのは `0xFFFF` のほうだという点が、
checksum の場合分けの元になる。
-/

namespace Infra

/-- 語の整数としての和。 -/
def wordSum : List UInt8 → Nat
  | hi :: lo :: rest => hi.toNat * 256 + lo.toNat + wordSum rest
  | [hi] => hi.toNat * 256
  | [] => 0

/-- 上位 16 bit を下位に足し込むことを、上位が無くなるまで続ける。 -/
def foldCarries (t : Nat) : Nat :=
  if t / 65536 = 0 then t else foldCarries (t % 65536 + t / 65536)
termination_by t

/-! ## 和 -/

/-- 偶数 byte の後ろでは語の切れ目が変わらない。 -/
theorem wordSum_append {a b : List UInt8} (h : a.length % 2 = 0) :
    wordSum (a ++ b) = wordSum a + wordSum b := by
  fun_induction wordSum a with
  | case1 hi lo rest ih =>
    have hrest : rest.length % 2 = 0 := by
      simp only [List.length_cons] at h
      omega
    simp only [List.cons_append, wordSum, ih hrest]
    omega
  | case2 hi => simp at h
  | case3 => simp

theorem wordSum_le (l : List UInt8) : wordSum l ≤ 65535 * ((l.length + 1) / 2) := by
  fun_induction wordSum l with
  | case1 hi lo rest ih =>
    have hhi := hi.toNat_lt
    have hlo := lo.toNat_lt
    simp only [List.length_cons]
    omega
  | case2 hi =>
    have hhi := hi.toNat_lt
    simp only [List.length_singleton]
    omega
  | case3 => simp

/-! ## 桁上げ -/

theorem foldCarries_eq (t : Nat) : foldCarries t = if t = 0 then 0 else (t - 1) % 65535 + 1 := by
  fun_induction foldCarries t with
  | case1 t h =>
    split
    next ht => exact ht
    next ht => omega
  | case2 t h ih =>
    rw [ih, if_neg (by omega), if_neg (by omega)]
    omega

theorem foldCarries_le (t : Nat) : foldCarries t ≤ 65535 := by
  rw [foldCarries_eq]
  split <;> omega

theorem foldCarries_pos {t : Nat} (h : 0 < t) : 0 < foldCarries t := by
  rw [foldCarries_eq, if_neg (by omega)]
  omega

theorem foldCarries_eq_max_iff {t : Nat} : foldCarries t = 65535 ↔ 0 < t ∧ t % 65535 = 0 := by
  rw [foldCarries_eq]
  split <;> omega

/-- 和の補数を加えると全 bit が 1 になる。 -/
theorem foldCarries_add_complement (t : Nat) :
    foldCarries (t + (65535 - foldCarries t)) = 65535 := by
  rw [foldCarries_eq_max_iff, foldCarries_eq]
  split <;> omega

/-- 和が法の倍数でなければ、全 bit を 1 にする語は一つしかない。 -/
theorem eq_complement_of_foldCarries {t c : Nat} (ht : t % 65535 ≠ 0) (hc : c ≤ 65535)
    (h : foldCarries (t + c) = 65535) : c = 65535 - foldCarries t := by
  rw [foldCarries_eq_max_iff] at h
  rw [foldCarries_eq]
  split <;> omega

theorem complement_pos_iff {t : Nat} (h : 0 < t) : 0 < 65535 - foldCarries t ↔ t % 65535 ≠ 0 := by
  have hle := foldCarries_le t
  have hmax := foldCarries_eq_max_iff (t := t)
  omega

end Infra
