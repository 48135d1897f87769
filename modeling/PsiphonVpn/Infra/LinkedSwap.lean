import Mathlib.Data.Bool.Basic
import PsiphonVpn.Infra.LinkedTree

/-!
# 節点の入れ替え

link で繋いだ木の二つの節点の場所を入れ替える。入れ替えた後の記憶は、すべての pointer を互換 `Equiv.swap n1 n2` で
付け替えたものになるので、木の形を調べなくても、節点ごとに field を比べればよい。

* `Represents.map` — record が付け替えで写っていれば、木も付け替えで写る
-/

namespace Infra.LinkedTree

open AvlTree AvlCtx

variable {P : Type} {s s' : Store P} {par q : Option P} {t : AvlTree P}

/-! ## 付け替え -/

theorem Sub.map (f : P → P) (h : Sub s par t)
    (hmap : ∀ x ∈ t.toList, (s'.heap (f x)).parent = (s.heap x).parent.map f ∧
      (∀ d, (s'.heap (f x)).link d = ((s.heap x).link d).map f) ∧
      (s'.heap (f x)).balance = (s.heap x).balance) : Sub s' (par.map f) (t.map f) := by
  induction t generalizing par with
  | nil => trivial
  | node a b child ih =>
    obtain ⟨hparent, hlink, hbal, hsub⟩ := h
    obtain ⟨hparent', hlink', hbal'⟩ := hmap a (mem_of_ptr rfl _)
    refine ⟨by rw [hparent', hparent], fun d => ?_, hbal'.trans hbal, fun d => ?_⟩
    · rw [hlink', hlink, ptr_map]
    · exact ih d (hsub d) fun x hx => hmap x (mem_list_child d hx)

theorem Represents.map {f : P → P} (hf : Function.Injective f) (h : Represents s t)
    (hroot : s'.root = s.root.map f)
    (hmap : ∀ x ∈ t.toList, (s'.heap (f x)).parent = (s.heap x).parent.map f ∧
      (∀ d, (s'.heap (f x)).link d = ((s.heap x).link d).map f) ∧
      (s'.heap (f x)).balance = (s.heap x).balance) : Represents s' (t.map f) where
  nodup := by
    rw [toList, list_map]
    exact h.nodup.map hf
  root := by rw [hroot, h.root, ptr_map]
  sub := h.sub.map f hmap

variable {n1 n2 x : P}

section Swap

variable [DecidableEq P]

theorem map_swap_of_ne (h1 : q ≠ some n1) (h2 : q ≠ some n2) : q.map (Equiv.swap n1 n2) = q := by
  cases q with
  | none => rfl
  | some x =>
    rw [Option.map_some, Equiv.swap_apply_of_ne_of_ne (fun e => h1 (congrArg some e)) fun e =>
      h2 (congrArg some e)]

/-- `d` の側の子を入れ替える。 -/
def Store.swapLinks (s : Store P) (n1 n2 : P) (d : Bool) : Store P :=
  let c1 := (s.heap n1).link d
  let c2 := (s.heap n2).link d
  (((s.setLink n1 d c2).adopt c2 (some n1)).setLink n2 d c1).adopt c1 (some n2)

def Store.swapBalances (s : Store P) (n1 n2 : P) : Store P :=
  (s.setBalance n1 (s.heap n2).balance).setBalance n2 (s.heap n1).balance

theorem swapBalances_balance (hne : n1 ≠ n2)
    (hbal : ∀ x, (s'.heap x).balance = (s.heap x).balance) (x : P) :
    ((s'.swapBalances n1 n2).heap (Equiv.swap n1 n2 x)).balance = (s.heap x).balance := by
  simp only [Store.swapBalances, Store.setBalance_balance, hbal]
  by_cases hxn1 : x = n1
  · simp [hxn1]
  · by_cases hxn2 : x = n2
    · simp [hxn2, hne]
    · rw [Equiv.swap_apply_of_ne_of_ne hxn1 hxn2, if_neg hxn2, if_neg hxn1]

/-! ## 離れた節点 -/

/-- 隣り合わない節点を入れ替える書き込み。 -/
def Store.swapApart (s : Store P) (n1 n2 : P) : Store P :=
  let p1 := (s.heap n1).parent
  let p2 := (s.heap n2).parent
  let s := (s.setParent n1 p2).replaceChild p2 n2 (some n1)
  let s := (s.setParent n2 p1).replaceChild p1 n1 (some n2)
  let s := s.swapLinks n1 n2 false
  let s := s.swapLinks n1 n2 true
  s.swapBalances n1 n2

theorem swapApart_parent (h : Represents s t) (h1 : n1 ∈ t.toList) (h2 : n2 ∈ t.toList)
    (hne : n1 ≠ n2) (h12 : (s.heap n1).parent ≠ some n2) (h21 : (s.heap n2).parent ≠ some n1)
    (hx : x ∈ t.toList) :
    ((s.swapApart n1 n2).heap (Equiv.swap n1 n2 x)).parent = (s.heap x).parent.map
      (Equiv.swap n1 n2) := by
  have h11 := h.parent_ne_self h1
  have h22 := h.parent_ne_self h2
  have hx1 := h.parent_iff_link hx h1
  have hx2 := h.parent_iff_link hx h2
  have e11 := h.parent_iff_link h1 h1
  have e12 := h.parent_iff_link h1 h2
  have e21 := h.parent_iff_link h2 h1
  have e22 := h.parent_iff_link h2 h2
  simp only [h11, h22, h12, h21, false_iff, not_or] at e11 e12 e21 e22
  simp [Store.swapApart, Store.swapLinks, Store.swapBalances, hne, hne.symm, h11, h22, h12, h21,
    e11, e12, e21, e22]
  by_cases hxn1 : x = n1
  · subst hxn1
    simp [e21, e22, map_swap_of_ne h11 h12]
  · by_cases hxn2 : x = n2
    · subst hxn2
      simp [e11, e12, hne, map_swap_of_ne h21 h22]
    · rw [Equiv.swap_apply_of_ne_of_ne hxn1 hxn2]
      simp only [hxn1, hxn2, if_false]
      by_cases hp1 : (s.heap x).parent = some n1
      · grind
      · by_cases hp2 : (s.heap x).parent = some n2
        · grind
        · rw [map_swap_of_ne hp1 hp2]
          grind

theorem swapApart_link (h : Represents s t) (h1 : n1 ∈ t.toList) (h2 : n2 ∈ t.toList)
    (hne : n1 ≠ n2) (h12 : (s.heap n1).parent ≠ some n2) (h21 : (s.heap n2).parent ≠ some n1)
    (hparents : (s.heap n1).parent ≠ (s.heap n2).parent) (hx : x ∈ t.toList) (d : Bool) :
    ((s.swapApart n1 n2).heap (Equiv.swap n1 n2 x)).link d = ((s.heap x).link d).map
      (Equiv.swap n1 n2) := by
  have h11 := h.parent_ne_self h1
  have h22 := h.parent_ne_self h2
  have hx1 := h.parent_iff_link h1 hx
  have hx2 := h.parent_iff_link h2 hx
  have e11 := h.parent_iff_link h1 h1
  have e12 := h.parent_iff_link h1 h2
  have e21 := h.parent_iff_link h2 h1
  have e22 := h.parent_iff_link h2 h2
  simp only [h11, h22, h12, h21, false_iff, not_or] at e11 e12 e21 e22
  simp [Store.swapApart, Store.swapLinks, Store.swapBalances, hne, hne.symm, h11, h22, h12, h21]
  by_cases hxn1 : x = n1
  · subst hxn1
    have hl1 : (s.heap x).link d ≠ some x := by cases d; exacts [e11.1, e11.2]
    have hl2 : (s.heap x).link d ≠ some n2 := by cases d; exacts [e21.1, e21.2]
    cases d <;> simp [hne.symm, map_swap_of_ne hl1 hl2]
  · by_cases hxn2 : x = n2
    · subst hxn2
      have hl1 : (s.heap x).link d ≠ some n1 := by cases d; exacts [e12.1, e12.2]
      have hl2 : (s.heap x).link d ≠ some x := by cases d; exacts [e22.1, e22.2]
      cases d <;> simp [hne, map_swap_of_ne hl1 hl2]
    · rw [Equiv.swap_apply_of_ne_of_ne hxn1 hxn2]
      simp only [hxn1, hxn2, false_and, if_false]
      -- `x` が親になるのは、二つの節点の高々一方である
      have hd1 : (s.heap x).link false = some n1 → (s.heap x).link true ≠ some n1 := h.link_ne hx
      have hd2 : (s.heap x).link false = some n2 → (s.heap x).link true ≠ some n2 := h.link_ne hx
      by_cases hl1 : (s.heap x).link d = some n1
      · rw [hl1, Option.map_some, Equiv.swap_apply_left]
        cases d <;> grind
      · by_cases hl2 : (s.heap x).link d = some n2
        · rw [hl2, Option.map_some, Equiv.swap_apply_right]
          cases d <;> grind
        · rw [map_swap_of_ne hl1 hl2]
          cases d <;> grind

theorem swapApart_root (h : Represents s t) (h1 : n1 ∈ t.toList) (h2 : n2 ∈ t.toList) :
    (s.swapApart n1 n2).root = s.root.map (Equiv.swap n1 n2) := by
  have hr1 := h.parent_eq_none h1
  have hr2 := h.parent_eq_none h2
  simp only [Store.swapApart, Store.swapLinks, Store.swapBalances, Store.setBalance_root,
    Store.adopt_root, Store.setLink_root, Store.replaceChild_root, Store.setParent_root]
  by_cases hroot1 : s.root = some n1
  · rw [if_pos (hr1.mpr hroot1), hroot1, Option.map_some, Equiv.swap_apply_left]
  · rw [if_neg fun hp => hroot1 (hr1.mp hp)]
    by_cases hroot2 : s.root = some n2
    · rw [if_pos (hr2.mpr hroot2), hroot2, Option.map_some, Equiv.swap_apply_right]
    · rw [if_neg fun hp => hroot2 (hr2.mp hp), map_swap_of_ne hroot1 hroot2]

/-- 隣り合わない節点の入れ替え。二つの節点が兄弟であってはならない。 -/
theorem Represents.swapApart (h : Represents s t) (h1 : n1 ∈ t.toList) (h2 : n2 ∈ t.toList)
    (hne : n1 ≠ n2) (h12 : (s.heap n1).parent ≠ some n2) (h21 : (s.heap n2).parent ≠ some n1)
    (hparents : (s.heap n1).parent ≠ (s.heap n2).parent) :
    Represents (s.swapApart n1 n2) (t.map (Equiv.swap n1 n2)) := by
  refine h.map (Equiv.swap n1 n2).injective (swapApart_root h h1 h2) fun x hx =>
    ⟨?_, fun d => ?_, ?_⟩
  · exact swapApart_parent h h1 h2 hne h12 h21 hx
  · exact swapApart_link h h1 h2 hne h12 h21 hparents hx d
  · exact swapBalances_balance hne (fun y => by simp [Store.swapLinks]) x

/-! ## 親と子 -/

/-- 親 `n1` と子 `n2` を入れ替える書き込み。 -/
def Store.swapAdjacent (s : Store P) (n1 n2 : P) : Store P :=
  let side := decide ((s.heap n1).link true = some n2)
  let c := (s.heap n1).link (!side)
  let s := (s.setLink n1 false ((s.heap n2).link false)).adopt ((s.heap n2).link false) (some n1)
  let s := (s.setLink n1 true ((s.heap n2).link true)).adopt ((s.heap n2).link true) (some n1)
  let p := (s.heap n1).parent
  let s := (s.setParent n2 p).replaceChild p n1 (some n2)
  let s := (s.setLink n2 side (some n1)).setParent n1 (some n2)
  let s := (s.setLink n2 (!side) c).adopt c (some n2)
  s.swapBalances n1 n2

/-- 親から子への link は、`side` の側の一つだけである。 -/
theorem Represents.adjacent (h : Represents s t) (h1 : n1 ∈ t.toList) (h2 : n2 ∈ t.toList)
    (h21 : (s.heap n2).parent = some n1) :
    n1 ≠ n2 ∧ (s.heap n1).parent ≠ some n2 ∧
      ∃ side, (s.heap n1).link side = some n2 ∧ (s.heap n1).link (!side) ≠ some n2 ∧
        decide ((s.heap n1).link true = some n2) = side := by
  obtain ⟨-, side, hside⟩ := h.parent_link h2 h21
  have hother := h.link_ne h1 hside
  refine ⟨?_, h.parent_asymm h1 ⟨side, hside⟩, side, hside, hother, ?_⟩
  · rintro rfl
    exact h.parent_ne_self h1 h21
  · cases side with
    | true => simpa using hside
    | false => simpa using hother

theorem swapAdjacent_parent (h : Represents s t) (h1 : n1 ∈ t.toList) (h2 : n2 ∈ t.toList)
    (h21 : (s.heap n2).parent = some n1) (hx : x ∈ t.toList) :
    ((s.swapAdjacent n1 n2).heap (Equiv.swap n1 n2 x)).parent = (s.heap x).parent.map
      (Equiv.swap n1 n2) := by
  obtain ⟨hne, h12, side, hside, hother, hdec⟩ := h.adjacent h1 h2 h21
  have h11 := h.parent_ne_self h1
  have h22 := h.parent_ne_self h2
  have hx1 := h.parent_iff_link hx h1
  have hx2 := h.parent_iff_link hx h2
  have e12 := h.parent_iff_link h1 h2
  have e22 := h.parent_iff_link h2 h2
  have e11 := h.parent_iff_link h1 h1
  simp only [h11, h12, h22, false_iff, not_or] at e12 e22 e11
  simp only [Store.swapAdjacent, Store.swapBalances, hdec, Store.setBalance_parent,
    Store.adopt_parent, Store.setLink_parent, Store.setParent_parent, Store.replaceChild_parent,
    Store.setLink_link, Store.adopt_link]
  by_cases hxn1 : x = n1
  · subst hxn1
    rw [map_swap_of_ne h11 h12, Equiv.swap_apply_left]
    grind
  · by_cases hxn2 : x = n2
    · subst hxn2
      rw [h21, Option.map_some, Equiv.swap_apply_left, Equiv.swap_apply_right]
      grind
    · rw [Equiv.swap_apply_of_ne_of_ne hxn1 hxn2]
      by_cases hp1 : (s.heap x).parent = some n1
      · rw [hp1, Option.map_some, Equiv.swap_apply_left]
        cases side <;> grind
      · by_cases hp2 : (s.heap x).parent = some n2
        · rw [hp2, Option.map_some, Equiv.swap_apply_right]
          cases side <;> grind
        · rw [map_swap_of_ne hp1 hp2]
          cases side <;> grind

theorem swapAdjacent_link (h : Represents s t) (h1 : n1 ∈ t.toList) (h2 : n2 ∈ t.toList)
    (h21 : (s.heap n2).parent = some n1) (hx : x ∈ t.toList) (d : Bool) :
    ((s.swapAdjacent n1 n2).heap (Equiv.swap n1 n2 x)).link d = ((s.heap x).link d).map
      (Equiv.swap n1 n2) := by
  obtain ⟨hne, h12, side, hside, hother, hdec⟩ := h.adjacent h1 h2 h21
  have h11 := h.parent_ne_self h1
  have h22 := h.parent_ne_self h2
  have hx1 := h.parent_iff_link h1 hx
  have hx2 := h.parent_iff_link h2 hx
  have e12 := h.parent_iff_link h1 h2
  have e22 := h.parent_iff_link h2 h2
  have e11 := h.parent_iff_link h1 h1
  simp only [h11, h12, h22, false_iff, not_or] at e12 e22 e11
  have hp1 : (if (s.heap n2).link true = some n1 then some n1
      else if (s.heap n2).link false = some n1 then some n1 else (s.heap n1).parent) =
        (s.heap n1).parent := by
    rw [if_neg e12.2, if_neg e12.1]
  simp only [Store.swapAdjacent, Store.swapBalances, hdec, Store.setBalance_link,
    Store.adopt_parent, Store.adopt_link, Store.setLink_parent, Store.setParent_link,
    Store.replaceChild_link, Store.setLink_link]
  by_cases hxn1 : x = n1
  · subst hxn1
    rw [Equiv.swap_apply_left]
    rcases eq_or_eq_not d side with rfl | rfl
    · rw [hside, Option.map_some, Equiv.swap_apply_right]
      grind
    · rw [map_swap_of_ne (by cases side; exacts [e11.2, e11.1]) hother]
      grind
  · by_cases hxn2 : x = n2
    · subst hxn2
      have hl1 : (s.heap x).link d ≠ some n1 := by cases d; exacts [e12.1, e12.2]
      have hl2 : (s.heap x).link d ≠ some x := by cases d; exacts [e22.1, e22.2]
      rw [map_swap_of_ne hl1 hl2, Equiv.swap_apply_right]
      cases d <;> grind
    · rw [Equiv.swap_apply_of_ne_of_ne hxn1 hxn2]
      have hd1 : (s.heap x).link false = some n1 → (s.heap x).link true ≠ some n1 := h.link_ne hx
      have hl2 : (s.heap x).link d ≠ some n2 := by
        intro hl2
        exact hxn1 (Option.some.inj ((h.link_parent hx hl2).2.symm.trans h21))
      by_cases hl1 : (s.heap x).link d = some n1
      · rw [hl1, Option.map_some, Equiv.swap_apply_left]
        cases d <;> grind
      · rw [map_swap_of_ne hl1 hl2]
        cases d <;> grind

theorem swapAdjacent_root (h : Represents s t) (h1 : n1 ∈ t.toList) (h2 : n2 ∈ t.toList)
    (h21 : (s.heap n2).parent = some n1) :
    (s.swapAdjacent n1 n2).root = s.root.map (Equiv.swap n1 n2) := by
  have hr1 := h.parent_eq_none h1
  have hroot2 : s.root ≠ some n2 := by
    rw [ne_eq, ← h.parent_eq_none h2, h21]
    exact nofun
  have e12 := h.parent_iff_link h1 h2
  simp only [(h.adjacent h1 h2 h21).2.1, false_iff, not_or] at e12
  simp only [Store.swapAdjacent, Store.swapBalances, Store.setBalance_root, Store.adopt_root,
    Store.setLink_root, Store.setParent_root, Store.replaceChild_root, Store.adopt_parent,
    Store.setLink_parent, Store.adopt_link, Store.setLink_link]
  by_cases hroot1 : s.root = some n1
  · rw [hroot1, Option.map_some, Equiv.swap_apply_left]
    grind
  · rw [map_swap_of_ne hroot1 hroot2]
    grind

/-- 親と子の入れ替え。 -/
theorem Represents.swapAdjacent (h : Represents s t) (h1 : n1 ∈ t.toList) (h2 : n2 ∈ t.toList)
    (h21 : (s.heap n2).parent = some n1) :
    Represents (s.swapAdjacent n1 n2) (t.map (Equiv.swap n1 n2)) := by
  refine h.map (Equiv.swap n1 n2).injective (swapAdjacent_root h h1 h2 h21) fun x hx =>
    ⟨?_, fun d => ?_, ?_⟩
  · exact swapAdjacent_parent h h1 h2 h21 hx
  · exact swapAdjacent_link h h1 h2 h21 hx d
  · exact swapBalances_balance (h.adjacent h1 h2 h21).1 (fun y => by simp) x

end Swap

end Infra.LinkedTree
