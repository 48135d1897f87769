import Mathlib.Logic.Function.Basic

/-!
# 資源の収支

通し番号で区別される資源の台帳。`next` 番より前の資源が手に入っていて、`held` が持ち主のある資源、
`closes` が閉じた回数である。台帳が合っているとは、持ち主のある資源はまだ閉じられておらず、
持ち主のいなくなった資源はちょうど一回閉じられていることを言う。

漏れ（持ち主が無いのに閉じられていない）も二重の close も、ここで破れる。
-/

namespace Infra

/-- 台帳が合っている。 -/
structure Ledger (held : Nat → Prop) (next : Nat) (closes : Nat → Nat) : Prop where
  bound : ∀ i, held i → i < next
  openHeld : ∀ i, held i → closes i = 0
  closedOnce : ∀ i, i < next → ¬ held i → closes i = 1
  untouched : ∀ i, next ≤ i → closes i = 0

namespace Ledger

variable {held held' : Nat → Prop} {next : Nat} {closes : Nat → Nat}

theorem empty : Ledger (fun _ => False) 0 (fun _ => 0) where
  bound := fun _ h => h.elim
  openHeld := fun _ h => h.elim
  closedOnce := fun _ h => absurd h (Nat.not_lt_zero _)
  untouched := fun _ _ => rfl

theorem congr (h : Ledger held next closes) (hh : ∀ i, held' i ↔ held i) :
    Ledger held' next closes := by
  have heq : held' = held := funext fun i => propext (hh i)
  rw [heq]
  exact h

/-- 資源を一つ手に入れる。 -/
theorem acquire (h : Ledger held next closes) (hh : ∀ i, held' i ↔ held i ∨ i = next) :
    Ledger held' (next + 1) closes where
  bound := by
    intro i hi
    rcases (hh i).mp hi with hi | hi
    · have := h.bound i hi
      omega
    · omega
  openHeld := by
    intro i hi
    rcases (hh i).mp hi with hi | hi
    · exact h.openHeld i hi
    · exact h.untouched i (by omega)
  closedOnce := by
    intro i hlt hi
    have hold : ¬ held i ∧ i ≠ next := by
      simpa [hh i] using hi
    exact h.closedOnce i (by omega) hold.1
  untouched := fun i hi => h.untouched i (by omega)

/-- 持ち主が資源を閉じて手放す。 -/
theorem release (h : Ledger held next closes) {k : Nat} (hk : held k)
    (hh : ∀ i, held' i ↔ held i ∧ i ≠ k) :
    Ledger held' next (Function.update closes k (closes k + 1)) := by
  have hlt : k < next := h.bound k hk
  constructor
  · exact fun i hi => h.bound i ((hh i).mp hi).1
  · intro i hi
    obtain ⟨hold, hne⟩ := (hh i).mp hi
    rw [Function.update_of_ne hne]
    exact h.openHeld i hold
  · intro i hi hnot
    by_cases hik : i = k
    · subst hik
      rw [Function.update_self, h.openHeld i hk]
    · rw [Function.update_of_ne hik]
      exact h.closedOnce i hi fun hold => hnot ((hh i).mpr ⟨hold, hik⟩)
  · intro i hi
    rw [Function.update_of_ne (by omega)]
    exact h.untouched i hi

/-- 誰も何も持っていなければ、すべてちょうど一回閉じられている。 -/
theorem closed_of_none (h : Ledger held next closes) (hnone : ∀ i, ¬ held i) :
    ∀ i, i < next → closes i = 1 :=
  fun i hi => h.closedOnce i hi (hnone i)

end Ledger

end Infra
