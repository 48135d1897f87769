import Mathlib.Logic.Basic

/-!
# 二つの計算の一致

故障しうる計算 `x : Except φ α` が、起こるかどうかだけを言う計算 `y : Option β` に従うこと。`y` が `none` の時に限って、`x` は決まった
止まり方 `stop` をする。`y` が値を返す時は `x` も返し、二つの値は `R` で結ばれる。だから `x` はほかの止まり方をしない。
-/

namespace Infra

variable {φ α β γ δ : Type}

inductive Agree (stop : φ) (R : α → β → Prop) : Except φ α → Option β → Prop
  | ok {a : α} {b : β} (h : R a b) : Agree stop R (.ok a) (some b)
  | stop : Agree stop R (.error stop) none

variable {stop : φ} {R : α → β → Prop} {S : γ → δ → Prop} {x : Except φ α} {y : Option β}

theorem Agree.bind (h : Agree stop R x y) {f : α → Except φ γ} {g : β → Option δ}
    (hf : ∀ a b, R a b → Agree stop S (f a) (g b)) : Agree stop S (x >>= f) (y.bind g) := by
  cases h with
  | ok hab => exact hf _ _ hab
  | stop => exact .stop

theorem Agree.bind_ok {a : α} (hx : x = .ok a) {f : α → Except φ γ} {z : Option δ}
    (h : Agree stop S (f a) z) :
    Agree stop S (x >>= f) z := by
  rw [hx]
  exact h

theorem Agree.ite {p q : Prop} [Decidable p] [Decidable q] (hpq : p ↔ q) {x' : Except φ α}
    {y' : Option β} (h : p → q → Agree stop R x y) (h' : ¬p → ¬q → Agree stop R x' y') :
    Agree stop R (if p then x else x') (if q then y else y') := by
  by_cases hp : p
  · rw [if_pos hp, if_pos (hpq.mp hp)]
    exact h hp (hpq.mp hp)
  · have hq : ¬q := fun hq => hp (hpq.mpr hq)
    rw [if_neg hp, if_neg hq]
    exact h' hp hq

theorem Agree.eq_stop (h : Agree stop R x none) : x = .error stop := by
  cases h
  rfl

theorem Agree.exists_ok {b : β} (h : Agree stop R x (some b)) : ∃ a, x = .ok a ∧ R a b := by
  cases h with
  | ok hab => exact ⟨_, rfl, hab⟩

theorem Agree.map {R' : γ → β → Prop} (h : Agree stop R x y) {f : α → γ}
    (hf : ∀ a b, y = some b → R a b → R' (f a) b) :
    Agree stop R' (x >>= fun a => .ok (f a)) y := by
  cases h with
  | ok hab => exact .ok (hf _ _ rfl hab)
  | stop => exact .stop

end Infra
