import Mathlib.Data.List.Chain
import Mathlib.Data.List.Nodup
import Mathlib.Logic.Function.Basic
import PsiphonVpn.Infra.Checked

/-!
# 侵入型の双方向 list

`structure/SLinkedList_impl.h`（`SLINKEDLIST_PARAM_FEATURE_LAST` は 0）。要素の中に前後への pointer を置く。

* 先頭の要素の `prev` は書かれない。古い値が残る
* list に無い要素は、`next` が自分を指す（`markRemoved`）

`Linked o l` は、memory が列 `l` を表すことを言う。`prev` については、隣り合う二つの要素の間でだけ述べる。
-/

namespace Base

open Infra

inductive Fault where
  /-- `ASSERT` の失敗 -/
  | assertion
  /-- `NULL` をたどった -/
  | nullDeref
  deriving DecidableEq, Repr

/-- `SLinkedListNode` -/
structure SLinkedListNode (P : Type) where
  prev : Option P
  next : Option P
  deriving DecidableEq, Repr

/-- `SLinkedList` の `first` と、要素の memory。 -/
structure SLinkedList (P : Type) where
  first : Option P
  node : P → SLinkedListNode P

namespace SLinkedList

variable {P : Type} [DecidableEq P]

def setNext (o : SLinkedList P) (entry : P) (next : Option P) : SLinkedList P :=
  { o with node := Function.update o.node entry { o.node entry with next := next } }

def setPrev (o : SLinkedList P) (entry : P) (prev : Option P) : SLinkedList P :=
  { o with node := Function.update o.node entry { o.node entry with prev := prev } }

/-- pointer をたどる。 -/
def deref (p : Option P) : Except Fault P :=
  match p with
  | some a => .ok a
  | none => .error .nullDeref

def markRemoved (o : SLinkedList P) (entry : P) : SLinkedList P := o.setNext entry (some entry)

def isRemoved (o : SLinkedList P) (entry : P) : Bool := (o.node entry).next == some entry

def prepend (o : SLinkedList P) (entry : P) : SLinkedList P :=
  let o₁ := o.setNext entry o.first
  let o₂ := match o₁.first with
    | some f => o₁.setPrev f (some entry)
    | none => o₁
  { o₂ with first := some entry }

def remove (o : SLinkedList P) (entry : P) : Except Fault (SLinkedList P) :=
  if o.first ≠ some entry then do
    let q ← deref (o.node entry).prev
    let o₁ := o.setNext q (o.node entry).next
    match (o₁.node entry).next with
    | some n => pure (o₁.setPrev n (o₁.node entry).prev)
    | none => pure o₁
  else pure { o with first := (o.node entry).next }

def removeFirst (o : SLinkedList P) : Except Fault (SLinkedList P) := do
  let f ← deref o.first
  pure { o with first := (o.node f).next }

def isEmpty (o : SLinkedList P) : Bool := o.first.isNone

/-- `First` から `Next` で高々 `n` 個たどった列。 -/
def walk (node : P → SLinkedListNode P) : Nat → Option P → List P
  | 0, _ => []
  | _ + 1, none => []
  | n + 1, some a => a :: walk node n (node a).next

/-! ## 書き込みの後の pointer -/

@[simp] theorem setNext_first (o : SLinkedList P) (a : P) (v : Option P) :
    (o.setNext a v).first = o.first := rfl

@[simp] theorem setPrev_first (o : SLinkedList P) (a : P) (v : Option P) :
    (o.setPrev a v).first = o.first := rfl

theorem next_setNext (o : SLinkedList P) (a : P) (v : Option P) (x : P) :
    ((o.setNext a v).node x).next = if x = a then v else (o.node x).next := by
  by_cases hx : x = a
  · subst hx
    simp [setNext]
  · simp [setNext, hx]

@[simp] theorem prev_setNext (o : SLinkedList P) (a : P) (v : Option P) (x : P) :
    ((o.setNext a v).node x).prev = (o.node x).prev := by
  by_cases hx : x = a
  · subst hx
    simp [setNext]
  · simp [setNext, hx]

theorem prev_setPrev (o : SLinkedList P) (a : P) (v : Option P) (x : P) :
    ((o.setPrev a v).node x).prev = if x = a then v else (o.node x).prev := by
  by_cases hx : x = a
  · subst hx
    simp [setPrev]
  · simp [setPrev, hx]

@[simp] theorem next_setPrev (o : SLinkedList P) (a : P) (v : Option P) (x : P) :
    ((o.setPrev a v).node x).next = (o.node x).next := by
  by_cases hx : x = a
  · subst hx
    simp [setPrev]
  · simp [setPrev, hx]

theorem next_prepend (o : SLinkedList P) (p x : P) :
    ((o.prepend p).node x).next = if x = p then o.first else (o.node x).next := by
  rw [← next_setNext]
  cases hfirst : o.first with
  | none => simp [prepend, hfirst]
  | some f => simp [prepend, hfirst]

/-! ## 列を表すこと -/

/-- 隣り合う二つの要素が互いを指す。 -/
def Adjacent (o : SLinkedList P) (a b : P) : Prop := (o.node a).next = some b ∧
    (o.node b).prev = some a

structure Linked (o : SLinkedList P) (l : List P) : Prop where
  first : o.first = l.head?
  nodup : l.Nodup
  adjacent : l.IsChain o.Adjacent
  last : ∀ a ∈ l.getLast?, (o.node a).next = none

variable {o o' : SLinkedList P} {l : List P} {p : P}

omit [DecidableEq P] in
theorem Linked.next_eq_head (l₁ : List P) {l₂ : List P} (h : o.Linked (l₁ ++ p :: l₂)) :
    (o.node p).next = l₂.head? := by
  cases l₂ with
  | nil => exact h.last p (by simp)
  | cons b l₂ => exact (List.isChain_append_cons_cons.mp h.adjacent).2.1.1

omit [DecidableEq P] in
theorem Linked.tail (h : o.Linked (p :: l)) :
    ({ o with first := (o.node p).next } : SLinkedList P).Linked l := by
  refine ⟨Linked.next_eq_head [] h, h.nodup.of_cons, h.adjacent.of_cons, fun a ha => h.last a ?_⟩
  rw [List.getLast?_cons]
  simp [Option.mem_def.mp ha]

theorem Linked.isRemoved_eq_false (h : o.Linked l) (hp : p ∈ l) : o.isRemoved p = false := by
  obtain ⟨l₁, l₂, rfl⟩ := List.append_of_mem hp
  have hnot : p ∉ l₂ := (List.nodup_cons.mp (List.nodup_append.mp h.nodup).2.1).1
  rw [isRemoved, h.next_eq_head l₁, beq_eq_false_iff_ne]
  intro he
  exact hnot (List.mem_of_mem_head? he)

omit [DecidableEq P] in
/-- 列の要素の pointer が同じなら、同じ列を表す。先頭の `prev` は問わない。 -/
theorem Linked.congr (h : o.Linked l) (hfirst : o'.first = o.first)
    (hnext : ∀ a ∈ l, (o'.node a).next = (o.node a).next)
    (hprev : ∀ a ∈ l.tail, (o'.node a).prev = (o.node a).prev) : o'.Linked l := by
  refine ⟨hfirst.trans h.first, h.nodup, ?_, fun a ha => ?_⟩
  · refine h.adjacent.imp_of_mem_tail_imp fun a b ha hb hab => ⟨?_, ?_⟩
    · rw [hnext a ha, hab.1]
    · rw [hprev b hb, hab.2]
  · rw [hnext a (List.mem_of_getLast? ha), h.last a ha]

theorem Linked.setNext (h : o.Linked l) (hp : p ∉ l) (v : Option P) : (o.setNext p v).Linked l := by
  refine h.congr rfl (fun a ha => ?_) fun a _ => prev_setNext o p v a
  rw [next_setNext, if_neg fun he : a = p => hp (he ▸ ha)]

omit [DecidableEq P] in
theorem mem_tail_ne_head (hnodup : l.Nodup) {a b : P} (ha : a ∈ l.tail) (hb : l.head? = some b) :
    a ≠ b := by
  cases l with
  | nil => cases hb
  | cons c l =>
    rw [List.head?_cons, Option.some.injEq] at hb
    subst hb
    rintro rfl
    exact (List.nodup_cons.mp hnodup).1 ha

theorem Linked.prepend (h : o.Linked l) (hp : p ∉ l) : (o.prepend p).Linked (p :: l) := by
  have h₁ : (o.setNext p o.first).Linked l := h.setNext hp _
  cases hl : l with
  | nil =>
    have hfirst : o.first = none := by rw [h.first, hl]; rfl
    refine ⟨rfl, by simp, by simp, fun a ha => ?_⟩
    obtain rfl : p = a := by simpa using ha
    simp [SLinkedList.prepend, hfirst, next_setNext]
  | cons b l' =>
    have hfirst : o.first = some b := by rw [h.first, hl]; rfl
    rw [hl] at h₁ hp
    have hbp : b ≠ p := fun he => hp (he ▸ List.mem_cons_self)
    have heq : o.prepend p = { (o.setNext p (some b)).setPrev b (some p) with
        first := some p } := by
      simp [SLinkedList.prepend, hfirst]
    have hrest : ((o.setNext p o.first).setPrev b (some p)).Linked (b :: l') := by
      refine h₁.congr rfl (fun a _ => next_setPrev _ _ _ _) fun a ha => ?_
      rw [prev_setPrev, if_neg (mem_tail_ne_head h₁.nodup ha rfl)]
    rw [hfirst] at hrest
    rw [heq]
    refine ⟨rfl, List.nodup_cons.mpr ⟨hp, hrest.nodup⟩,
      List.isChain_cons_cons.mpr ⟨⟨?_, ?_⟩, hrest.adjacent⟩, ?_⟩
    · rw [next_setPrev, next_setNext, if_pos rfl]
    · rw [prev_setPrev, if_pos rfl]
    · intro a ha
      exact hrest.last a (by simpa using ha)

/-- 列の中ほどの要素 `p` を外した memory。前の要素 `q` と後の要素が繋がる。 -/
theorem Linked.unlink {l₁ l₂ : List P} {q : P} (h : o.Linked (l₁ ++ q :: p :: l₂))
    (hfirst : o'.first = o.first)
    (hnext : ∀ a, (o'.node a).next = if a = q then (o.node p).next else (o.node a).next)
    (hprev : ∀ a, (o'.node a).prev = if some a = (o.node p).next then some q else (o.node a).prev) :
    o'.Linked (l₁ ++ q :: l₂) := by
  have hpl : (o.node p).next = l₂.head? := Linked.next_eq_head (l₁ ++ [q]) (by simpa using h)
  have hq : (o.node q).next = some p := Linked.next_eq_head l₁ h
  have hnodup := h.nodup
  have hsub : (l₁ ++ q :: l₂).Sublist (l₁ ++ q :: p :: l₂) :=
    List.Sublist.append_left (List.Sublist.cons_cons _ (List.sublist_cons_self _ _)) _
  have hnodup' : ((l₁ ++ [q]) ++ (p :: l₂)).Nodup := by simpa using hnodup
  obtain ⟨-, hn₂, hdisj⟩ := List.nodup_append.mp hnodup'
  have hchain : ((l₁ ++ [q]) ++ (p :: l₂)).IsChain o.Adjacent := by simpa using h.adjacent
  obtain ⟨hc₁, hc₂, -⟩ := List.isChain_append.mp hchain
  have hq₂ : ∀ a ∈ l₂, a ≠ q := fun a ha he => hdisj q (by simp) a (List.mem_cons_of_mem _ ha)
    he.symm
  refine ⟨?_, hnodup.sublist hsub, ?_, fun a ha => ?_⟩
  · rw [hfirst, h.first]
    cases l₁ <;> rfl
  · rw [List.append_cons]
    refine List.isChain_append.mpr ⟨?_, ?_, ?_⟩
    · -- `q` より前の対では、`next` は変わらない
      refine hc₁.imp_of_mem_imp fun a b _ hb hab => ⟨?_, ?_⟩
      · rw [hnext, if_neg, hab.1]
        rintro rfl
        have hbp : b = p := Option.some.inj (hab.1.symm.trans hq)
        exact hdisj b hb p List.mem_cons_self hbp
      · rw [hprev, if_neg, hab.2]
        rw [hpl]
        intro he
        exact hdisj b hb b (List.mem_cons_of_mem _ (List.mem_of_mem_head? he.symm)) rfl
    · refine hc₂.of_cons.imp_of_mem_tail_imp fun a b ha hb hab => ⟨?_, ?_⟩
      · rw [hnext, if_neg (hq₂ a ha), hab.1]
      · rw [hprev, if_neg, hab.2]
        rw [hpl]
        intro he
        exact mem_tail_ne_head hn₂.of_cons hb he.symm rfl
    · intro a ha b hb
      obtain rfl : q = a := by simpa using ha
      refine ⟨?_, ?_⟩
      · rw [hnext, if_pos rfl, hpl, hb]
      · rw [hprev, hpl, if_pos (Option.mem_def.mp hb).symm]
  · rw [hnext]
    split
    · next he =>
      -- 最後が `q` なら、`p` が元の最後であった
      subst he
      cases l₂ with
      | nil => rw [hpl]; rfl
      | cons b l₂ =>
        have hmem : a ∈ b :: l₂ := List.mem_of_getLast? (by simpa [List.getLast?_append] using ha)
        exact absurd rfl (hq₂ a hmem)
    · next hne =>
      refine h.last a ?_
      cases l₂ with
      | nil => exact absurd (by simpa using ha : q = a).symm hne
      | cons b l₂ => simpa [List.getLast?_append] using ha

/-- `remove` は列から `p` を除く。列に無い要素の `next` には触れない。 -/
theorem Linked.remove (h : o.Linked l) (hp : p ∈ l) :
    ∃ o', o.remove p = .ok o' ∧ o'.Linked (l.erase p) ∧
      ∀ a ∉ l, (o'.node a).next = (o.node a).next := by
  obtain ⟨l₁, l₂, rfl⟩ := List.append_of_mem hp
  have hp₁ : p ∉ l₁ := fun hmem => (List.nodup_append.mp h.nodup).2.2 p hmem p List.mem_cons_self
    rfl
  rw [List.erase_append_right _ hp₁, List.erase_cons_head]
  rcases List.eq_nil_or_concat' l₁ with rfl | ⟨l₀, q, rfl⟩
  · have hfirst : o.first = some p := h.first
    exact ⟨_, by simp [SLinkedList.remove, hfirst]; rfl, h.tail, fun _ _ => rfl⟩
  · have hlinked : o.Linked (l₀ ++ q :: p :: l₂) := by simpa using h
    have hadj : o.Adjacent q p := (List.isChain_append_cons_cons.mp hlinked.adjacent).2.1
    have hqp : p ≠ q := fun he => hp₁ (by simp [he])
    have hfirst : o.first ≠ some p := by
      rw [h.first]
      intro he
      exact hp₁ (List.mem_of_mem_head? (by simpa [List.head?_append] using he))
    have hnext₁ : ((o.setNext q (o.node p).next).node p).next = (o.node p).next := by
      rw [next_setNext, if_neg hqp]
    have hframe : ∀ a ∉ l₀ ++ [q] ++ p :: l₂, a ≠ q := fun a ha he => ha (by simp [he])
    rw [List.append_assoc l₀, List.singleton_append]
    cases hn : (o.node p).next with
    | none =>
      refine ⟨o.setNext q none, ?_, hlinked.unlink rfl (fun a => ?_) fun a => ?_, fun a ha => ?_⟩
      · rw [hn] at hnext₁
        simp [SLinkedList.remove, hfirst, hadj.2, deref, hn, hnext₁]
        rfl
      · rw [next_setNext, hn]
      · rw [prev_setNext, hn, if_neg (by simp)]
      · rw [next_setNext, if_neg (hframe a (by simpa using ha))]
    | some n =>
      refine ⟨(o.setNext q (some n)).setPrev n (some q), ?_,
        hlinked.unlink rfl (fun a => ?_) fun a => ?_, fun a ha => ?_⟩
      · rw [hn] at hnext₁
        simp [SLinkedList.remove, hfirst, hadj.2, deref, hn, hnext₁]
        rfl
      · rw [next_setPrev, next_setNext, hn]
      · rw [prev_setPrev, prev_setNext, hn]
        simp only [Option.some.injEq]
      · rw [next_setPrev, next_setNext, if_neg (hframe a (by simpa using ha))]

omit [DecidableEq P] in
theorem Linked.removeFirst (h : o.Linked (p :: l)) :
    o.removeFirst = .ok { o with first := (o.node p).next } := by
  have hfirst : o.first = some p := h.first
  simp [SLinkedList.removeFirst, hfirst, deref, pure, Except.pure]

omit [DecidableEq P] in
theorem Linked.walk_eq (h : o.Linked l) {n : Nat} (hn : l.length ≤ n) :
    walk o.node n o.first = l := by
  induction l generalizing n o with
  | nil =>
    rw [h.first]
    cases n <;> rfl
  | cons a l ih =>
    obtain ⟨n, rfl⟩ : ∃ m, n = m + 1 := ⟨n - 1, by simp at hn; omega⟩
    rw [h.first]
    exact congrArg (a :: ·) (ih h.tail (by simpa using hn))

end SLinkedList

end Base
