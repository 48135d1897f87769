import Mathlib.Data.List.Nodup

/-!
# job の stack

番を待つ job の列。後に積んだものから走る。同じ job を積み直すと、前の位置から外れて一番上に移る。

* `set`・`unset` — 積むことと外すこと
-/

namespace Infra

/-- 一つの job は、列に高々一度だけ現れる。 -/
structure JobStack (J : Type) where
  jobs : List J
  nodup : jobs.Nodup
  deriving DecidableEq

namespace JobStack

variable {J : Type}

instance : Membership J (JobStack J) := ⟨fun s j => j ∈ s.jobs⟩

variable {s rest : JobStack J} {j k : J} {l : List J}

theorem mem_def : j ∈ s ↔ j ∈ s.jobs := Iff.rfl

/-- 名前を付け替える。 -/
def map {K : Type} (f : J → K) (hf : Function.Injective f) (s : JobStack J) : JobStack K :=
  ⟨s.jobs.map f, s.nodup.map hf⟩

@[simp] theorem mem_map {K : Type} {f : J → K} {hf : Function.Injective f} {k : K} :
    k ∈ s.map f hf ↔ ∃ j ∈ s, f j = k := List.mem_map

/-- 一番上の job と残り。 -/
def pop (s : JobStack J) : Option (J × JobStack J) :=
  match s with
  | ⟨[], _⟩ => none
  | ⟨j :: rest, h⟩ => some (j, ⟨rest, h.of_cons⟩)

theorem pop_eq_none : s.pop = none ↔ s.jobs = [] := by
  obtain ⟨jobs, hs⟩ := s
  cases jobs with
  | nil => exact iff_of_true rfl rfl
  | cons j jobs => exact iff_of_false (by simp [pop]) (by simp)

theorem jobs_of_pop (h : s.pop = some (j, rest)) : s.jobs = j :: rest.jobs := by
  obtain ⟨jobs, hs⟩ := s
  cases jobs with
  | nil => cases h
  | cons k jobs =>
    obtain ⟨rfl, rfl⟩ := Prod.mk.inj (Option.some.inj h)
    rfl

theorem mem_of_pop (h : s.pop = some (j, rest)) (k : J) : k ∈ s ↔ k = j ∨ k ∈ rest := by
  rw [mem_def, jobs_of_pop h]
  exact List.mem_cons

theorem notMem_of_pop (h : s.pop = some (j, rest)) : j ∉ rest := by
  have hnodup := s.nodup
  rw [jobs_of_pop h] at hnodup
  exact (List.nodup_cons.mp hnodup).1

variable [DecidableEq J]

def set (s : JobStack J) (j : J) : JobStack J :=
  ⟨j :: s.jobs.erase j, List.nodup_cons.mpr ⟨s.nodup.not_mem_erase, s.nodup.erase j⟩⟩

def unset (s : JobStack J) (j : J) : JobStack J := ⟨s.jobs.erase j, s.nodup.erase j⟩

/-- 順に積む。最後のものが一番上に来る。 -/
def setAll (s : JobStack J) (js : List J) : JobStack J := js.foldl set s

@[simp] theorem mem_set : k ∈ s.set j ↔ k = j ∨ k ∈ s := by
  show k ∈ j :: s.jobs.erase j ↔ _
  by_cases h : k = j
  · simp [h]
  · simp [h, List.mem_erase_of_ne h, mem_def]

@[simp] theorem mem_unset : k ∈ s.unset j ↔ k ≠ j ∧ k ∈ s := s.nodup.mem_erase_iff

@[simp] theorem mem_setAll {js : List J} : k ∈ s.setAll js ↔ k ∈ js ∨ k ∈ s := by
  induction js generalizing s with
  | nil => simp [setAll]
  | cons j js ih =>
    rw [setAll, List.foldl_cons, ← setAll, ih, mem_set, List.mem_cons]
    exact ⟨fun h => by tauto, fun h => by tauto⟩

/-- 積んだばかりの job が一番上にある。元から無ければ、下は元のままである。 -/
theorem pop_set (h : j ∉ s) : (s.set j).pop = some (j, s) := by
  have herase : s.jobs.erase j = s.jobs := List.erase_of_not_mem h
  simp only [set, pop, herase]

/-! ## ある job の上と下 -/

/-- `j` より上にあるもの。`j` が積まれていなければ、すべてである。 -/
def above (s : JobStack J) (j : J) : List J := s.jobs.takeWhile (· ≠ j)

/-- `j` より下にあるもの。 -/
def below (s : JobStack J) (j : J) : List J := (s.jobs.dropWhile (· ≠ j)).tail

theorem erase_eq_filter (h : l.Nodup) (i : J) : l.erase i = l.filter (· ≠ i) := by
  rw [h.erase_eq_filter]
  refine List.filter_congr fun x _ => ?_
  by_cases hx : x = i <;> simp [hx]

theorem dropWhile_eq_cons (h : j ∈ l) : l.dropWhile (· ≠ j) = j :: (l.dropWhile (· ≠ j)).tail := by
  induction l with
  | nil => exact absurd h List.not_mem_nil
  | cons k l ih =>
    by_cases hkj : k = j
    · subst hkj
      rw [List.dropWhile_cons_of_neg (by simp), List.tail_cons]
    · rw [List.dropWhile_cons_of_pos (by simpa using hkj)]
      exact ih (List.mem_of_ne_of_mem (Ne.symm hkj) h)

theorem jobs_eq (h : j ∈ s) : s.jobs = s.above j ++ j :: s.below j := by
  rw [above, below, ← dropWhile_eq_cons h, List.takeWhile_append_dropWhile]

theorem mem_of_mem_below (h : k ∈ s.below j) : k ∈ s :=
  List.Sublist.mem h ((List.tail_sublist _).trans (List.dropWhile_sublist _))

theorem not_mem_above (hj : j ∈ s) (h : k ∈ s.below j) : k ∉ s.above j := by
  have hnodup := s.nodup
  rw [jobs_eq hj] at hnodup
  intro habove
  exact (List.nodup_append.mp hnodup).2.2 k habove k (List.mem_cons_of_mem _ h) rfl

theorem takeWhile_filter {p : J → Bool} (hp : p j = true) :
    (l.filter p).takeWhile (· ≠ j) = (l.takeWhile (· ≠ j)).filter p := by
  induction l with
  | nil => rfl
  | cons k l ih =>
    by_cases hkj : k = j
    · subst hkj
      rw [List.filter_cons_of_pos hp, List.takeWhile_cons_of_neg (by simp),
        List.takeWhile_cons_of_neg (by simp)]
      rfl
    · rw [List.takeWhile_cons_of_pos (by simpa using hkj)]
      by_cases hpk : p k = true
      · rw [List.filter_cons_of_pos hpk, List.filter_cons_of_pos hpk,
          List.takeWhile_cons_of_pos (by simpa using hkj), ih]
      · rw [List.filter_cons_of_neg hpk, List.filter_cons_of_neg hpk, ih]

theorem dropWhile_filter {p : J → Bool} (hp : p j = true) :
    (l.filter p).dropWhile (· ≠ j) = (l.dropWhile (· ≠ j)).filter p := by
  induction l with
  | nil => rfl
  | cons k l ih =>
    by_cases hkj : k = j
    · subst hkj
      rw [List.filter_cons_of_pos hp, List.dropWhile_cons_of_neg (by simp),
        List.dropWhile_cons_of_neg (by simp), List.filter_cons_of_pos hp]
    · rw [List.dropWhile_cons_of_pos (by simpa using hkj)]
      by_cases hpk : p k = true
      · rw [List.filter_cons_of_pos hpk, List.dropWhile_cons_of_pos (by simpa using hkj), ih]
      · rw [List.filter_cons_of_neg hpk, ih]

variable {s rest : JobStack J} {i j : J}

theorem above_unset (hij : i ≠ j) : (s.unset i).above j = (s.above j).filter (· ≠ i) := by
  show (s.jobs.erase i).takeWhile _ = _
  rw [erase_eq_filter s.nodup]
  exact takeWhile_filter (decide_eq_true hij.symm)

theorem above_set (hij : i ≠ j) : (s.set i).above j = i :: (s.above j).filter (· ≠ i) := by
  show (i :: s.jobs.erase i).takeWhile _ = _
  rw [List.takeWhile_cons_of_pos (by simpa using hij)]
  exact congrArg (i :: ·) (above_unset hij)

theorem below_unset (hj : j ∈ s) (hij : i ≠ j) :
    (s.unset i).below j = (s.below j).filter (· ≠ i) := by
  show ((s.jobs.erase i).dropWhile _).tail = _
  rw [erase_eq_filter s.nodup, dropWhile_filter (by simpa using hij.symm), dropWhile_eq_cons hj,
    List.filter_cons_of_pos (by simpa using hij.symm), List.tail_cons]
  rfl

theorem below_set (hj : j ∈ s) (hij : i ≠ j) : (s.set i).below j = (s.below j).filter (· ≠ i) := by
  show ((i :: s.jobs.erase i).dropWhile _).tail = _
  rw [List.dropWhile_cons_of_pos (by simpa using hij)]
  exact below_unset hj hij

theorem above_of_pop (h : s.pop = some (i, rest)) (hij : i ≠ j) :
    s.above j = i :: rest.above j := by
  rw [above, jobs_of_pop h, List.takeWhile_cons_of_pos (by simpa using hij)]
  rfl

theorem below_of_pop (h : s.pop = some (i, rest)) (hij : i ≠ j) : s.below j = rest.below j := by
  rw [below, jobs_of_pop h, List.dropWhile_cons_of_pos (by simpa using hij)]
  rfl

end JobStack

end Infra
