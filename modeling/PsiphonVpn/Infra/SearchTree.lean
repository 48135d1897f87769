import Mathlib.Data.List.Basic
import Mathlib.Data.List.Induction
import Mathlib.Order.Defs.LinearOrder

/-!
# 節点の外に鍵を持つ探索木

C の侵入的な（intrusive）探索木は、節点だけを繋ぎ、鍵は節点を埋め込んだ構造体の中に置く。鍵は節点の側から
読まれるので、木に入っている間に鍵を書き換えると木は壊れる。

ここでは木を、その通りがけ順の列で表す。鍵は関数 `key` で節点から読む。探索は順序を使って途中で打ち切るので、
`Ordered` が成り立っていなければ正しくない。

* `lookup`・`insert` — 探索と挿入。同じ鍵があれば挿入は失敗する
* `Ordered.insert_eq_some` — 挿入の結果は、昇順で節点が一つ多いことだけで決まる
* `Ordered` — 今の鍵について狭義に昇順である
* `Ordered.congr` — 木にない節点の鍵は自由に書き換えてよい
* `ordered_foldl_add` — 同じ鍵の節点を捨てながら加えた集合は、最初に現れたものを残す
-/

namespace Infra.SearchTree

variable {ν κ : Type*} (cmp : κ → κ → Ordering) (key : ν → κ)

def lookup (k : κ) : List ν → Option ν
  | [] => none
  | n :: t =>
    match cmp k (key n) with
    | .lt => none
    | .eq => some n
    | .gt => lookup k t

/-- 同じ鍵の節点があれば `none`。 -/
def insert (n : ν) : List ν → Option (List ν)
  | [] => some [n]
  | m :: t =>
    match cmp (key n) (key m) with
    | .lt => some (n :: m :: t)
    | .eq => none
    | .gt => (insert n t).map (m :: ·)

/-- 同じ鍵の節点があれば木をそのままにする。 -/
def add (n : ν) (t : List ν) : List ν := (insert cmp key n t).getD t

/-- 今の鍵について狭義に昇順である。 -/
def Ordered (t : List ν) : Prop := t.Pairwise fun a b => cmp (key a) (key b) = .lt

variable {cmp key} {t : List ν}

theorem ordered_nil : Ordered cmp key [] := List.Pairwise.nil

/-- 木の中の節点の鍵が変わらなければ、木は壊れない。 -/
theorem Ordered.congr {key' : ν → κ} (h : Ordered cmp key t) (hkey : ∀ n ∈ t, key' n = key n) :
    Ordered cmp key' t := by
  refine h.imp_of_mem fun ha hb hlt => ?_
  rw [hkey _ ha, hkey _ hb]
  exact hlt

theorem Ordered.erase [BEq ν] [LawfulBEq ν] (h : Ordered cmp key t) (n : ν) :
    Ordered cmp key (t.erase n) := List.Pairwise.erase n h

variable (cmp key) in
/-- 列 `l` の中で、自分と同じ鍵の要素が前にない。 -/
def FirstOfKey (l : List ν) (n : ν) : Prop :=
  ∃ before after, l = before ++ n :: after ∧ ∀ m ∈ before, cmp (key n) (key m) ≠ .eq

variable {n : ν} {k : κ}

theorem firstOfKey_concat {l : List ν} {x : ν} :
    FirstOfKey cmp key (l ++ [n]) x ↔
      FirstOfKey cmp key l x ∨ x = n ∧ ∀ m ∈ l, cmp (key n) (key m) ≠ .eq := by
  constructor
  · rintro ⟨before, after, heq, hne⟩
    rcases List.eq_nil_or_concat after with rfl | ⟨after, y, rfl⟩
    · obtain ⟨rfl, hx⟩ := List.append_inj' heq rfl
      obtain rfl : n = x := List.singleton_inj.mp hx
      exact Or.inr ⟨rfl, hne⟩
    · rw [List.concat_eq_append, ← List.cons_append, ← List.append_assoc] at heq
      exact Or.inl ⟨before, after, (List.append_inj' heq rfl).1, hne⟩
  · rintro (⟨before, after, rfl, hne⟩ | ⟨rfl, hne⟩)
    · exact ⟨before, after ++ [n], by simp, hne⟩
    · exact ⟨l, [], rfl, hne⟩

theorem perm_of_insert {t' : List ν} (hins : SearchTree.insert cmp key n t = some t') :
    t'.Perm (n :: t) := by
  induction t generalizing t' with
  | nil =>
    obtain rfl := Option.some.inj hins
    exact List.Perm.refl _
  | cons m t ih =>
    unfold SearchTree.insert at hins
    split at hins
    · obtain rfl := Option.some.inj hins
      exact List.Perm.refl _
    · simp at hins
    · obtain ⟨t₁, ht₁, rfl⟩ := Option.map_eq_some_iff.mp hins
      exact ((ih ht₁).cons m).trans (List.Perm.swap n m t)

theorem lookup_of_ne (hne : ∀ n ∈ t, cmp k (key n) ≠ .eq) : lookup cmp key k t = none := by
  induction t with
  | nil => rfl
  | cons m t ih =>
    unfold lookup
    split
    · rfl
    next heq => exact absurd heq (hne m List.mem_cons_self)
    · exact ih fun n hn => hne n (List.mem_cons_of_mem _ hn)

section Lawful

variable [Std.TransCmp cmp]

theorem ne_of_cmp {l : κ} {o : Ordering} (h : cmp k l = o) (ho : o ≠ .eq) : k ≠ l := by
  rintro rfl
  exact ho (h.symm.trans Std.ReflCmp.compare_self)

/-- 鍵の等しい節点は一つしかない。 -/
theorem Ordered.key_inj (h : Ordered cmp key t) {a b : ν} (ha : a ∈ t) (hb : b ∈ t)
    (hkey : key a = key b) : a = b := by
  induction t with
  | nil => exact absurd ha List.not_mem_nil
  | cons n t ih =>
    have hne : ∀ m ∈ t, key n ≠ key m := fun m hm =>
      ne_of_cmp (List.rel_of_pairwise_cons h hm) (by decide)
    rcases List.mem_cons.mp ha with rfl | ha'
    · rcases List.mem_cons.mp hb with rfl | hb'
      · rfl
      · exact absurd hkey (hne b hb')
    · rcases List.mem_cons.mp hb with rfl | hb'
      · exact absurd hkey.symm (hne a ha')
      · exact ih h.of_cons ha' hb'

/-- 同じ鍵の節点がなければ挿入は成功し、木は節点を一つ増やして昇順のままである。 -/
theorem Ordered.insert_of_ne (h : Ordered cmp key t) (hnew : ∀ m ∈ t, cmp (key n) (key m) ≠ .eq) :
    ∃ t', insert cmp key n t = some t' ∧ Ordered cmp key t' ∧ t'.Perm (n :: t) := by
  induction t with
  | nil => exact ⟨[n], rfl, List.pairwise_singleton _ _, List.Perm.refl _⟩
  | cons m t ih =>
    have hlt : ∀ x ∈ t, cmp (key m) (key x) = .lt := fun x hx => List.rel_of_pairwise_cons h hx
    cases hcmp : cmp (key n) (key m) with
    | lt =>
      refine ⟨n :: m :: t, by simp only [SearchTree.insert, hcmp], ?_, List.Perm.refl _⟩
      refine List.Pairwise.cons (fun x hx => ?_) h
      rcases List.mem_cons.mp hx with rfl | hx
      · exact hcmp
      · exact Std.TransCmp.lt_trans hcmp (hlt x hx)
    | eq => exact absurd hcmp (hnew m List.mem_cons_self)
    | gt =>
      obtain ⟨t', hins, hord, hperm⟩ := ih h.of_cons fun x hx => hnew x (List.mem_cons_of_mem _ hx)
      refine ⟨m :: t', by simp only [SearchTree.insert, hcmp, hins, Option.map_some], ?_, ?_⟩
      · refine List.Pairwise.cons (fun x hx => ?_) hord
        rcases List.mem_cons.mp (hperm.mem_iff.mp hx) with rfl | hx
        · exact Std.OrientedCmp.gt_iff_lt.mp hcmp
        · exact hlt x hx
      · exact (hperm.cons m).trans (List.Perm.swap n m t)

theorem Ordered.insert_of_eq (h : Ordered cmp key t) {m : ν} (hm : m ∈ t)
    (heq : cmp (key n) (key m) = .eq) : insert cmp key n t = none := by
  induction t with
  | nil => exact absurd hm List.not_mem_nil
  | cons x t ih =>
    rcases List.mem_cons.mp hm with rfl | hm
    · simp only [SearchTree.insert, heq]
    · have hgt : cmp (key n) (key x) = .gt := by
        rw [Std.TransCmp.congr_left heq]
        exact Std.OrientedCmp.gt_iff_lt.mpr (List.rel_of_pairwise_cons h hm)
      simp only [SearchTree.insert, hgt, ih h.of_cons hm, Option.map_none]

theorem Ordered.insert_eq_none (h : Ordered cmp key t) :
    SearchTree.insert cmp key n t = none ↔ ∃ m ∈ t, cmp (key n) (key m) = .eq := by
  refine ⟨fun hnone => ?_, fun ⟨m, hm, heq⟩ => h.insert_of_eq hm heq⟩
  by_contra hnew
  obtain ⟨t', hins, -⟩ := h.insert_of_ne (n := n) fun m hm heq => hnew ⟨m, hm, heq⟩
  simp [hnone] at hins

/-- 挿入の結果は、昇順で節点が一つ多いことだけで決まる。 -/
theorem Ordered.insert_eq_some (h : Ordered cmp key t) {t' : List ν}
    (hnew : ∀ m ∈ t, cmp (key n) (key m) ≠ .eq) (h' : Ordered cmp key t')
    (hperm : t'.Perm (n :: t)) : SearchTree.insert cmp key n t = some t' := by
  obtain ⟨t₁, hins, hord, hperm₁⟩ := h.insert_of_ne hnew
  rw [hins, (hperm₁.trans hperm.symm).eq_of_pairwise (fun a b _ _ hab hba => ?_) hord h']
  rw [Std.OrientedCmp.gt_iff_lt.mpr hab] at hba
  simp at hba

theorem Ordered.lookup_of_eq (h : Ordered cmp key t) (hn : n ∈ t) (heq : cmp k (key n) = .eq) :
    lookup cmp key k t = some n := by
  induction t with
  | nil => exact absurd hn List.not_mem_nil
  | cons m t ih =>
    rcases List.mem_cons.mp hn with rfl | hn
    · simp only [lookup, heq]
    · have hgt : cmp k (key m) = .gt := by
        rw [Std.TransCmp.congr_left heq]
        exact Std.OrientedCmp.gt_iff_lt.mpr (List.rel_of_pairwise_cons h hn)
      simp only [lookup, hgt, ih h.of_cons hn]

/-! ### 先に入った節点を残す集合 -/

/-- 追加は昇順を保ち、同じ鍵の節点がないときだけ要素を一つ増やす。 -/
theorem Ordered.add (h : Ordered cmp key t) (n : ν) :
    Ordered cmp key (add cmp key n t) ∧
      ∀ x, x ∈ add cmp key n t ↔ x ∈ t ∨ x = n ∧ ∀ m ∈ t, cmp (key n) (key m) ≠ .eq := by
  unfold SearchTree.add
  by_cases hnew : ∀ m ∈ t, cmp (key n) (key m) ≠ .eq
  · obtain ⟨t', hins, hord, hperm⟩ := h.insert_of_ne hnew
    rw [hins, Option.getD_some]
    refine ⟨hord, fun x => ?_⟩
    rw [hperm.mem_iff, List.mem_cons, and_iff_left hnew, or_comm]
  · have hnone : SearchTree.insert cmp key n t = none := by
      push Not at hnew
      obtain ⟨m, hm, heq⟩ := hnew
      exact h.insert_of_eq hm heq
    rw [hnone, Option.getD_none]
    exact ⟨h,
      fun x => by
        rw [and_iff_right_of_imp (fun h' => absurd h' hnew), iff_false_intro hnew, or_false]⟩

theorem exists_firstOfKey {l : List ν} (hn : n ∈ l) :
    ∃ x, FirstOfKey cmp key l x ∧ cmp (key n) (key x) = .eq := by
  induction l using List.reverseRecOn generalizing n with
  | nil => exact absurd hn List.not_mem_nil
  | append_singleton l y ih =>
    rcases List.mem_append.mp hn with hn | hn
    · obtain ⟨x, hfirst, heq⟩ := ih hn
      exact ⟨x, firstOfKey_concat.mpr (Or.inl hfirst), heq⟩
    · obtain rfl := List.mem_singleton.mp hn
      by_cases hnew : ∀ m ∈ l, cmp (key n) (key m) ≠ .eq
      · exact ⟨n, firstOfKey_concat.mpr (Or.inr ⟨rfl, hnew⟩), Std.ReflCmp.compare_self⟩
      · push Not at hnew
        obtain ⟨m, hm, heq⟩ := hnew
        obtain ⟨x, hfirst, hmx⟩ := ih hm
        exact ⟨x, firstOfKey_concat.mpr (Or.inl hfirst), (Std.TransCmp.congr_left heq).trans hmx⟩

/-- 一つずつ加えた集合は昇順で、同じ鍵の要素のうち最初に現れたものだけを持つ。 -/
theorem ordered_foldl_add (l : List ν) :
    Ordered cmp key (l.foldl (fun t n => add cmp key n t) []) ∧
      ∀ x, x ∈ l.foldl (fun t n => add cmp key n t) [] ↔ FirstOfKey cmp key l x := by
  induction l using List.reverseRecOn with
  | nil => exact ⟨ordered_nil, fun x => by simp [FirstOfKey]⟩
  | append_singleton l n ih =>
    obtain ⟨hord, hmem⟩ := ih
    rw [List.foldl_concat]
    refine ⟨(hord.add n).1, fun x => ?_⟩
    rw [(hord.add n).2, hmem, firstOfKey_concat]
    -- 集合に同じ鍵がないことは、列に同じ鍵がないことに等しい
    refine or_congr Iff.rfl (and_congr Iff.rfl ⟨fun h m hm heq => ?_, fun h m hm => ?_⟩)
    · obtain ⟨y, hfirst, hmy⟩ : ∃ y, FirstOfKey cmp key l y ∧ cmp (key m) (key y) = .eq :=
        exists_firstOfKey hm
      exact h y ((hmem y).mpr hfirst) ((Std.TransCmp.congr_left heq).trans hmy)
    · obtain ⟨before, after, rfl, -⟩ := (hmem m).mp hm
      exact h m (List.mem_append_right _ List.mem_cons_self)

variable [Std.LawfulEqCmp cmp]

theorem Ordered.lookup_eq_some (h : Ordered cmp key t) :
    lookup cmp key k t = some n ↔ n ∈ t ∧ key n = k := by
  constructor
  · intro hsome
    by_cases hne : ∀ m ∈ t, cmp k (key m) ≠ .eq
    · simp [lookup_of_ne hne] at hsome
    · push Not at hne
      obtain ⟨m, hm, heq⟩ := hne
      rw [h.lookup_of_eq hm heq] at hsome
      obtain rfl := Option.some.inj hsome
      exact ⟨hm, (Std.LawfulEqCmp.eq_of_compare heq).symm⟩
  · rintro ⟨hn, rfl⟩
    exact h.lookup_of_eq hn Std.ReflCmp.compare_self

theorem Ordered.lookup_eq_none (h : Ordered cmp key t) :
    lookup cmp key k t = none ↔ ∀ n ∈ t, key n ≠ k := by
  rw [Option.eq_none_iff_forall_ne_some]
  constructor
  · intro hnone n hn hk
    exact hnone n (h.lookup_eq_some.mpr ⟨hn, hk⟩)
  · intro hne n hsome
    obtain ⟨hn, hk⟩ := h.lookup_eq_some.mp hsome
    exact hne n hn hk

/-- 鍵が新しければ挿入は成功し、木は節点を一つ増やして昇順のままである。 -/
theorem Ordered.insert (h : Ordered cmp key t) (hnew : ∀ m ∈ t, key m ≠ key n) :
    ∃ t', insert cmp key n t = some t' ∧ Ordered cmp key t' ∧ t'.Perm (n :: t) :=
  h.insert_of_ne fun m hm heq => hnew m hm (Std.LawfulEqCmp.eq_of_compare heq).symm

end Lawful

end Infra.SearchTree
