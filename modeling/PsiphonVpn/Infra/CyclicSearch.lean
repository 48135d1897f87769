import Mathlib.Data.Finset.Card
import Mathlib.Data.Finset.Range

/-!
# 巡回する探索

番号 `0, …, bound - 1` の中から空いているものを、前に止まった所から順に、端で折り返しながら探す。
`fuel` は繰り返しの回数の上限で、`none` はその回数では終わらないことを言う。

* `cyclicSearch_mono` — 終わった探索の結果は、回数の上限を増やしても変わらない
-/

namespace Infra

def cyclicSearch (bound : Nat) (used : Nat → Bool) : Nat → Nat → Option Nat
  | 0, _ => none
  | fuel + 1, c =>
    if used c then cyclicSearch bound used fuel (if c = bound - 1 then 0 else c + 1) else some c

variable {bound : Nat} {used : Nat → Bool}

theorem cyclicSearch_mono {fuel fuel' c r : Nat} (h : cyclicSearch bound used fuel c = some r)
    (hle : fuel ≤ fuel') : cyclicSearch bound used fuel' c = some r := by
  induction fuel generalizing c fuel' with
  | zero => cases h
  | succ fuel ih =>
    obtain ⟨fuel', rfl⟩ : ∃ n, fuel' = n + 1 := ⟨fuel' - 1, by omega⟩
    unfold cyclicSearch at h ⊢
    split at h
    next hused =>
      rw [if_pos hused]
      exact ih h (by omega)
    next hfree =>
      rw [if_neg hfree]
      exact h

/-- `d` 個先に空きがあれば、`d + 1` 回のうちに見つかる。 -/
theorem cyclicSearch_reaches {u : Nat} (hu : used u = false) (d : Nat) {c fuel : Nat}
    (hc : c < bound) (hd : (c + d) % bound = u) (hfuel : d < fuel) :
    ∃ r, cyclicSearch bound used fuel c = some r ∧ r < bound ∧ used r = false := by
  induction d generalizing c fuel with
  | zero =>
    obtain ⟨fuel, rfl⟩ : ∃ n, fuel = n + 1 := ⟨fuel - 1, by omega⟩
    rw [Nat.add_zero, Nat.mod_eq_of_lt hc] at hd
    subst hd
    exact ⟨c, by rw [cyclicSearch, hu]; rfl, hc, hu⟩
  | succ d ih =>
    obtain ⟨fuel, rfl⟩ : ∃ n, fuel = n + 1 := ⟨fuel - 1, by omega⟩
    by_cases hused : used c = true
    · have hnext : (if c = bound - 1 then 0 else c + 1) = (c + 1) % bound := by
        split
        next hlast =>
          rw [hlast, Nat.sub_add_cancel (by omega), Nat.mod_self]
        next hlast => rw [Nat.mod_eq_of_lt (by omega)]
      rw [cyclicSearch, if_pos hused, hnext]
      refine ih (Nat.mod_lt _ (by omega)) ?_ (by omega)
      rw [Nat.mod_add_mod, ← hd]
      congr 1
      omega
    · exact ⟨c, by rw [cyclicSearch, if_neg hused], hc, by simpa using hused⟩

/-- 使われている番号が `ids` に並び、`ids` が `bound` より短ければ、一周のうちに空きが見つかる。 -/
theorem cyclicSearch_some {ids : List Nat} (hids : ∀ c < bound, used c = true → c ∈ ids)
    (hlen : ids.length < bound) {c : Nat} (hc : c < bound) :
    ∃ r, cyclicSearch bound used bound c = some r ∧ r < bound ∧ used r = false := by
  have hcard : ids.toFinset.card < (Finset.range bound).card := by
    rw [Finset.card_range]
    exact lt_of_le_of_lt ids.toFinset_card_le hlen
  obtain ⟨u, hu, hfree⟩ := Finset.exists_mem_notMem_of_card_lt_card hcard
  have hu' : u < bound := Finset.mem_range.mp hu
  have hunused : used u = false := by
    by_contra h
    exact hfree (List.mem_toFinset.mpr (hids u hu' (by simpa using h)))
  refine cyclicSearch_reaches hunused ((u + bound - c) % bound) hc ?_ (Nat.mod_lt _ (by omega))
  rw [Nat.add_mod_mod, show c + (u + bound - c) = u + bound by omega, Nat.add_mod_right,
    Nat.mod_eq_of_lt hu']

end Infra
