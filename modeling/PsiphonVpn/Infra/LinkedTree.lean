import PsiphonVpn.Infra.AvlTree
import Mathlib.Logic.Function.Basic
import Mathlib.Logic.Equiv.Basic

/-!
# 親と子の link で繋いだ木

C の木は、節点の中に親と二つの子への pointer を置く。記憶を「節点の番地から record への関数」とし、pointer の
書き込みを一つずつ行う。

* `Store` — 根と記憶。`setParent`・`setLink`・`setBalance` が一つの書き込み
* `Represents s t` — 記憶 `s` が木 `t` を表す。節点は重ならず、親と子の link は互いに合う
* `Represents.link_parent`・`Represents.parent_link` — 親と子の link は互いに合う
-/

namespace Infra.LinkedTree

open AvlTree AvlCtx

structure Node (P : Type) where
  parent : Option P
  link : Bool → Option P
  balance : Int

structure Store (P : Type) where
  root : Option P
  heap : P → Node P

inductive Fault
  | nullDeref
  | assertion
  | outOfFuel
  deriving DecidableEq, Repr

variable {P : Type}

def deref : Option P → Except Fault P
  | some p => .ok p
  | none => .error .nullDeref

@[simp] theorem deref_some (p : P) : deref (some p) = .ok p := rfl

namespace Store

variable [DecidableEq P] (s : Store P) (p x : P) (q new : Option P) (side : Bool)

/-! ## 書き込み -/

/-- 節点 `p` の record を書き換える。 -/
def modify (f : Node P → Node P) : Store P :=
  { s with heap := Function.update s.heap p (f (s.heap p)) }

def setParent (q : Option P) : Store P := s.modify p fun n => { n with parent := q }

def setLink (side : Bool) (q : Option P) : Store P :=
  s.modify p fun n => { n with link := Function.update n.link side q }

def setBalance (b : Int) : Store P := s.modify p fun n => { n with balance := b }

/-- `if (q) q->parent = new;` -/
def adopt (q new : Option P) : Store P :=
  match q with
  | some p => s.setParent p new
  | none => s

/-- `if (q) q->link[old == q->link[1]] = new; else root = new;` -/
def replaceChild (q : Option P) (old : P) (new : Option P) : Store P :=
  match q with
  | some p => s.setLink p (decide ((s.heap p).link true = some old)) new
  | none => { s with root := new }

theorem modify_heap (f : Node P → Node P) :
    (s.modify p f).heap x = if x = p then f (s.heap x) else s.heap x := by
  by_cases h : x = p
  · subst h
    simp [modify]
  · simp [modify, h]

@[simp] theorem setParent_root : (s.setParent p q).root = s.root := rfl

@[simp] theorem setParent_parent :
    ((s.setParent p q).heap x).parent = if x = p then q else (s.heap x).parent := by
  rw [setParent, modify_heap, apply_ite Node.parent]

@[simp] theorem setParent_link : ((s.setParent p q).heap x).link = (s.heap x).link := by
  rw [setParent, modify_heap, apply_ite Node.link, ite_self]

@[simp] theorem setParent_balance : ((s.setParent p q).heap x).balance = (s.heap x).balance := by
  rw [setParent, modify_heap, apply_ite Node.balance, ite_self]

@[simp] theorem setLink_root : (s.setLink p side q).root = s.root := rfl

@[simp] theorem setLink_parent : ((s.setLink p side q).heap x).parent = (s.heap x).parent := by
  rw [setLink, modify_heap, apply_ite Node.parent, ite_self]

@[simp] theorem setLink_link (d : Bool) :
    ((s.setLink p side q).heap x).link d = if x = p ∧ d = side then q else (s.heap x).link d := by
  rw [setLink, modify_heap]
  by_cases h : x = p
  · by_cases hd : d = side <;> simp [h, hd]
  · simp [h]

@[simp] theorem setLink_balance : ((s.setLink p side q).heap x).balance = (s.heap x).balance := by
  rw [setLink, modify_heap, apply_ite Node.balance, ite_self]

@[simp] theorem setBalance_root (b : Int) : (s.setBalance p b).root = s.root := rfl

@[simp] theorem setBalance_parent (b : Int) :
    ((s.setBalance p b).heap x).parent = (s.heap x).parent := by
  rw [setBalance, modify_heap, apply_ite Node.parent, ite_self]

@[simp] theorem setBalance_link (b : Int) : ((s.setBalance p b).heap x).link = (s.heap x).link := by
  rw [setBalance, modify_heap, apply_ite Node.link, ite_self]

@[simp] theorem setBalance_balance (b : Int) :
    ((s.setBalance p b).heap x).balance = if x = p then b else (s.heap x).balance := by
  rw [setBalance, modify_heap, apply_ite Node.balance]

@[simp] theorem adopt_root : (s.adopt q new).root = s.root := by
  cases q <;> rfl

@[simp] theorem adopt_parent :
    ((s.adopt q new).heap x).parent = if q = some x then new else (s.heap x).parent := by
  cases q with
  | none => simp [adopt]
  | some p => simp [adopt, eq_comm]

@[simp] theorem adopt_link : ((s.adopt q new).heap x).link = (s.heap x).link := by
  cases q <;> simp [adopt]

@[simp] theorem adopt_balance : ((s.adopt q new).heap x).balance = (s.heap x).balance := by
  cases q <;> simp [adopt]

@[simp] theorem replaceChild_root (old : P) :
    (s.replaceChild q old new).root = if q = none then new else s.root := by
  cases q <;> simp [replaceChild]

@[simp] theorem replaceChild_parent (old : P) :
    ((s.replaceChild q old new).heap x).parent = (s.heap x).parent := by
  cases q <;> simp [replaceChild]

@[simp] theorem replaceChild_link (old : P) (d : Bool) :
    ((s.replaceChild q old new).heap x).link d =
      if q = some x ∧ d = decide ((s.heap x).link true = some old) then new
        else (s.heap x).link d := by
  cases q with
  | none => simp [replaceChild]
  | some p =>
    by_cases h : x = p
    · subst h
      simp [replaceChild]
    · simp [replaceChild, h, Ne.symm h]

@[simp] theorem replaceChild_balance (old : P) :
    ((s.replaceChild q old new).heap x).balance = (s.heap x).balance := by
  cases q <;> simp [replaceChild]

end Store

/-! ## 記憶の表す木 -/

/-- 記憶の中に、親が `par` の木 `t` がある。 -/
def Sub (s : Store P) (par : Option P) : AvlTree P → Prop
  | .nil => True
  | .node a b child =>
    (s.heap a).parent = par ∧ (∀ d, (s.heap a).link d = (child d).ptr) ∧ (s.heap a).balance = b ∧
      ∀ d, Sub s (some a) (child d)

/-- 記憶の中に穴のある木 `c` があり、穴への pointer は `q` である。 -/
def Above (s : Store P) : AvlCtx P → Option P → Prop
  | .top, q => s.root = q
  | .frame side a b sibling up, q =>
    (s.heap a).parent = up.ptr ∧ (s.heap a).link side = q ∧ (s.heap a).link (!side) = sibling.ptr ∧
      (s.heap a).balance = b ∧ Sub s (some a) sibling ∧ Above s up (some a)

/-- 記憶が木 `t` を表す。 -/
structure Represents (s : Store P) (t : AvlTree P) : Prop where
  nodup : t.toList.Nodup
  root : s.root = t.ptr
  sub : Sub s none t

/-- 節点の record が三つの field とも等しい。 -/
def Same (s s' : Store P) (x : P) : Prop :=
  (s'.heap x).parent = (s.heap x).parent ∧ (∀ d, (s'.heap x).link d = (s.heap x).link d) ∧
    (s'.heap x).balance = (s.heap x).balance


variable {s s' : Store P} {par par' q : Option P} {t : AvlTree P} {c : AvlCtx P}

theorem Sub.congr (h : Sub s par t) (hsame : ∀ x ∈ t.toList, Same s s' x) : Sub s' par t := by
  induction t generalizing par with
  | nil => trivial
  | node a b child ih =>
    obtain ⟨hparent, hlink, hbal, hsub⟩ := h
    obtain ⟨hparent', hlink', hbal'⟩ := hsame a (mem_of_ptr rfl _)
    refine ⟨hparent'.trans hparent, fun d => (hlink' d).trans (hlink d), hbal'.trans hbal,
      fun d => ?_⟩
    exact ih d (hsub d) fun x hx => hsame x (mem_list_child d hx)

/-- 根の親だけを書き換える。 -/
theorem Sub.reparent [DecidableEq P] (h : Sub s par t) (hnodup : t.toList.Nodup)
    (hparent : ∀ x ∈ t.toList, (s'.heap x).parent = if t.ptr = some x then par'
      else (s.heap x).parent)
    (hlink : ∀ x ∈ t.toList, ∀ d, (s'.heap x).link d = (s.heap x).link d)
    (hbal : ∀ x ∈ t.toList, (s'.heap x).balance = (s.heap x).balance) : Sub s' par' t := by
  cases t with
  | nil => trivial
  | node a b child =>
    obtain ⟨-, hlink₀, hbal₀, hsub⟩ := h
    have ha : a ∈ (node a b child).toList := mem_of_ptr rfl _
    refine ⟨by simp [hparent a ha], fun d => (hlink a ha d).trans (hlink₀ d),
      (hbal a ha).trans hbal₀, fun d => (hsub d).congr fun x hx => ?_⟩
    have hx' : x ∈ (node a b child).toList := mem_list_child d hx
    have hne : a ≠ x := by
      rintro rfl
      rw [(toList_node_perm d a b child).nodup_iff] at hnodup
      exact (List.nodup_cons.mp hnodup).1 (List.mem_append_left _ hx)
    exact ⟨by rw [hparent x hx', if_neg (by simpa using hne)], hlink x hx', hbal x hx'⟩

theorem Above.congr (h : Above s c q) (hroot : s'.root = s.root)
    (hsame : ∀ x ∈ c.nodes, Same s s' x) :
    Above s' c q := by
  induction c generalizing q with
  | top => exact hroot.trans h
  | frame side a b sibling up ih =>
    obtain ⟨hparent, hlink, hlink', hbal, hsub, habove⟩ := h
    simp only [(nodes_frame_perm side a b sibling up).mem_iff, List.mem_cons, List.mem_append]
      at hsame
    obtain ⟨hp, hl, hb⟩ := hsame a (Or.inl rfl)
    exact ⟨hp.trans hparent, (hl _).trans hlink, (hl _).trans hlink', hb.trans hbal,
      hsub.congr fun x hx => hsame x (Or.inr (Or.inl hx)),
      ih habove fun x hx => hsame x (Or.inr (Or.inr hx))⟩

/-- 穴への pointer だけを書き換える。 -/
theorem Above.redirect [DecidableEq P] {r : P} (h : Above s c (some r)) (hnodup : c.nodes.Nodup)
    (hr : r ∉ c.nodes) (hroot : s'.root = if c.ptr = none then q else s.root)
    (hparent : ∀ x ∈ c.nodes, (s'.heap x).parent = (s.heap x).parent)
    (hlink : ∀ x ∈ c.nodes, ∀ d, (s'.heap x).link d =
      if c.ptr = some x ∧ d = decide ((s.heap x).link true = some r) then q else (s.heap x).link d)
    (hbal : ∀ x ∈ c.nodes, (s'.heap x).balance = (s.heap x).balance) : Above s' c q := by
  cases c with
  | top => exact hroot
  | frame side a b sibling up =>
    obtain ⟨hparent₀, hlink₀, hlink₁, hbal₀, hsub, habove⟩ := h
    have hperm := nodes_frame_perm side a b sibling up
    simp only [hperm.mem_iff, List.mem_cons, List.mem_append] at hr hparent hlink hbal
    rw [hperm.nodup_iff, List.nodup_cons, List.mem_append] at hnodup
    -- 穴の側は、右の子が `r` かどうかで分かる
    have hside : decide ((s.heap a).link true = some r) = side := by
      cases side with
      | true => simpa using hlink₀
      | false =>
        have hne : sibling.ptr ≠ some r := fun hptr => hr (Or.inr (Or.inl (mem_of_ptr hptr _)))
        rw [show (s.heap a).link true = sibling.ptr from hlink₁]
        simpa using hne
    have hsame : ∀ x, x ∈ sibling.toList ∨ x ∈ up.nodes → Same s s' x := by
      intro x hx
      have hne : a ≠ x := by
        rintro rfl
        exact hnodup.1 hx
      refine ⟨hparent x (Or.inr hx), fun d => ?_, hbal x (Or.inr hx)⟩
      rw [hlink x (Or.inr hx) d, if_neg]
      rintro ⟨hax, -⟩
      exact hne (Option.some.inj hax)
    refine ⟨(hparent a (Or.inl rfl)).trans hparent₀, ?_, ?_, (hbal a (Or.inl rfl)).trans hbal₀,
      hsub.congr fun x hx => hsame x (Or.inl hx),
      habove.congr (hroot.trans (if_neg (by simp [AvlCtx.ptr]))) fun x hx => hsame x (Or.inr hx)⟩
    · rw [hlink a (Or.inl rfl), if_pos ⟨rfl, hside.symm⟩]
    · rw [hlink a (Or.inl rfl), if_neg (by rw [hside]; simp), hlink₁]

theorem sub_plug :
    (s.root = (c.plug t).ptr ∧ Sub s none (c.plug t)) ↔ Sub s c.ptr t ∧ Above s c t.ptr := by
  induction c generalizing t with
  | top => exact and_comm
  | frame side a b sibling up ih =>
    rw [AvlCtx.plug, ih, Above, Sub]
    have hforall (f : Bool → Prop) : (∀ d, f d) ↔ f side ∧ f (!side) := by
      cases side <;> simp [Bool.forall_bool, and_comm]
    rw [hforall, hforall]
    simp only [kids_self, kids_not, ptr_node, AvlCtx.ptr]
    tauto

theorem represents_plug : Represents s (c.plug t) ↔
    (t.toList ++ c.nodes).Nodup ∧ Sub s c.ptr t ∧ Above s c t.ptr := by
  rw [← sub_plug, ← (toList_plug_perm c t).nodup_iff]
  exact ⟨fun ⟨h1, h2, h3⟩ => ⟨h1, h2, h3⟩, fun ⟨h1, h2, h3⟩ => ⟨h1, h2, h3⟩⟩

/-! ## 回転 -/

/-- `r` の `dir` でない側の子 `nr` を上に回す書き込み。`par` は `r` の親である。 -/
def Store.rotate [DecidableEq P] (s : Store P) (r nr : P) (dir : Bool) (par : Option P) : Store P :=
  let inner := (s.heap nr).link dir
  (((((s.setLink r (!dir) inner).adopt inner (some r)).setLink nr dir (some r)).setParent
    nr par).replaceChild par r (some nr)).setParent r (some nr)

variable {b : Int} {d : Bool} {x y : P}

theorem Represents.rotate [DecidableEq P] {r nr : P} {b' : Int} {child child' : Bool → AvlTree P}
    {dir : Bool} (h : Represents s (c.plug (node r b child)))
    (hchild : child (!dir) = node nr b' child') :
    Represents (s.rotate r nr dir c.ptr) (c.plug (rotated dir r b child nr b' child')) := by
  rw [represents_plug] at h ⊢
  obtain ⟨hnodup, ⟨hparent, hlink, hbal, hsub⟩, habove⟩ := h
  rw [show (rotated dir r b child nr b' child').toList = (node r b child).toList from list_rotated
    dir true hchild]
  refine ⟨hnodup, ?_⟩
  have hsubA := hsub dir
  have hsubN := hsub (!dir)
  rw [hchild] at hsubN
  obtain ⟨hparent', hlink', hbal', hsub'⟩ := hsubN
  have hsubB := hsub' dir
  have hsubC := hsub' (!dir)
  rw [((toList_node_perm dir r b child).append_right _).nodup_iff, hchild,
    (((((toList_node_perm dir nr b' child').append_left _).cons r)).append_right _).nodup_iff]
      at hnodup
  have hBptr : ∀ x, (child' dir).ptr = some x →
    x ∈ (child' dir).toList := fun x hx => mem_of_ptr hx _
  have hcptr : ∀ x, c.ptr = some x → x ∈ c.nodes := fun x hx => mem_nodes_of_ptr hx
  simp only [List.cons_append, List.nodup_cons, List.nodup_append, List.mem_cons, List.mem_append]
    at hnodup
  have hA : ∀ x ∈ (child dir).toList, x ≠ r ∧ x ≠ nr ∧ (child' dir).ptr ≠ some x ∧
    c.ptr ≠ some x := by grind
  have hB : ∀ x ∈ (child' dir).toList, x ≠ r ∧ x ≠ nr ∧ c.ptr ≠ some x := by grind
  have hC : ∀ x ∈ (child' (!dir)).toList, x ≠ r ∧ x ≠ nr ∧ (child' dir).ptr ≠ some x ∧
    c.ptr ≠ some x := by grind
  have hc : ∀ x ∈ c.nodes, x ≠ r ∧ x ≠ nr ∧ (child' dir).ptr ≠ some x := by grind
  have hr : r ≠ nr ∧ (child' dir).ptr ≠ some r ∧ c.ptr ≠ some r := by grind
  have hnr : (child' dir).ptr ≠ some nr ∧ c.ptr ≠ some nr := by grind
  have hnodupB : (child' dir).toList.Nodup := by grind
  have hnodupc : c.nodes.Nodup := by grind
  have hcases (f : Bool → Prop) (h1 : f dir) (h2 : f (!dir)) : ∀ d, f d := by
    intro d
    rcases eq_or_eq_not d dir with rfl | rfl
    · exact h1
    · exact h2
  refine ⟨⟨?_, hcases _ ?_ ?_, ?_, hcases _ ?_ ?_⟩, ?_⟩
  · simp [Store.rotate, hr.1.symm]
  · simp [Store.rotate, hnr]
  · simp [Store.rotate, hr.1.symm, hnr, hlink']
  · simpa [Store.rotate] using hbal'
  · rw [kids_self]
    refine ⟨?_, hcases _ ?_ ?_, ?_, hcases _ ?_ ?_⟩
    · simp [Store.rotate]
    · simp [Store.rotate, hr, hlink]
    · simp [Store.rotate, hr, hlink']
    · simpa [Store.rotate] using hbal
    · rw [kids_self]
      refine hsubA.congr fun x hx => ?_
      obtain ⟨h1, h2, h3, h4⟩ := hA x hx
      simp [Same, Store.rotate, h1, h2, h3, h4, hlink']
    · rw [kids_not]
      refine hsubB.reparent ?_ (fun x hx => ?_) (fun x hx d => ?_) (fun x hx => ?_)
      · exact hnodupB
      · obtain ⟨h1, h2, -⟩ := hB x hx
        simp [Store.rotate, h1, h2, hlink']
      · obtain ⟨h1, h2, h3⟩ := hB x hx
        simp [Store.rotate, h1, h2, h3]
      · simp [Store.rotate]
  · rw [kids_not]
    refine hsubC.congr fun x hx => ?_
    obtain ⟨h1, h2, h3, h4⟩ := hC x hx
    simp [Same, Store.rotate, h1, h2, h3, h4, hlink']
  · refine habove.redirect ?_ ?_ ?_ (fun x hx => ?_) (fun x hx d => ?_) (fun x hx => ?_)
    · exact hnodupc
    · exact fun hrc => (hc r hrc).1 rfl
    · simp [Store.rotate, rotated]
    · obtain ⟨h1, h2, h3⟩ := hc x hx
      simp [Store.rotate, h1, h2, h3, hlink']
    · obtain ⟨h1, h2, -⟩ := hc x hx
      simp [Store.rotate, h1, h2, rotated]
    · simp [Store.rotate]

/-! ## 節点の書き換え・取り外し・取り付け -/

theorem Represents.congr (h : Represents s t) (hroot : s'.root = s.root)
    (hsame : ∀ x ∈ t.toList, Same s s' x) :
    Represents s' t :=
  ⟨h.nodup, hroot.trans h.root, h.sub.congr hsame⟩

section Write

variable [DecidableEq P] {a : P} {b : Int} {child : Bool → AvlTree P}

theorem Represents.setBalance (h : Represents s (c.plug (node a b child))) (b' : Int) :
    Represents (s.setBalance a b') (c.plug (node a b' child)) := by
  rw [represents_plug] at h ⊢
  obtain ⟨hnodup, ⟨hparent, hlink, -, hsub⟩, habove⟩ := h
  have hout : ∀ x, (∃ d, x ∈ (child d).toList) ∨ x ∈ c.nodes → x ≠ a := by
    rintro x hx rfl
    rw [((toList_node_perm true x b child).append_right _).nodup_iff, List.cons_append,
      List.nodup_cons] at hnodup
    refine hnodup.1 ?_
    rcases hx with ⟨d, hx⟩ | hx
    · cases d <;> simp [hx]
    · simp [hx]
  refine ⟨hnodup, ⟨?_, ?_, ?_, fun d => ?_⟩, ?_⟩
  · simpa using hparent
  · simpa using hlink
  · simp
  · exact (hsub d).congr fun x hx => by simp [Same, hout x (Or.inl ⟨d, hx⟩)]
  · exact habove.congr rfl fun x hx => by simp [Same, hout x (Or.inr hx)]

/-- `dest` を根とする部分木を `n` の木に置き換える。 -/
def Store.replaceSubtree (s : Store P) (par : Option P) (dest : P) (n : Option P) : Store P :=
  (s.replaceChild par dest n).adopt n par

/-- 子が高々一つの節点を、その子で置き換える。 -/
theorem Represents.replaceSubtree (h : Represents s (c.plug (node a b child)))
    (hnil : child (!d) = .nil) :
    Represents (s.replaceSubtree c.ptr a (child d).ptr) (c.plug (child d)) := by
  rw [represents_plug] at h ⊢
  obtain ⟨hnodup, ⟨-, -, -, hsub⟩, habove⟩ := h
  rw [((toList_node_perm d a b child).append_right _).nodup_iff, hnil, toList, toList, list_nil,
    List.append_nil, List.cons_append, List.nodup_cons] at hnodup
  obtain ⟨ha, hnodup⟩ := hnodup
  have hcptr : ∀ x ∈ (child d).toList, c.ptr ≠ some x := fun x hx hptr =>
    List.disjoint_of_nodup_append hnodup hx (mem_nodes_of_ptr hptr)
  have hdptr : ∀ x ∈ c.nodes, (child d).ptr ≠ some x := fun x hx hptr =>
    List.disjoint_of_nodup_append hnodup (mem_of_ptr hptr _) hx
  refine ⟨hnodup, ?_, ?_⟩
  · refine (hsub d).reparent hnodup.of_append_left (fun x hx => ?_) (fun x hx d => ?_)
      (fun x hx => ?_)
    · simp [Store.replaceSubtree]
    · simp [Store.replaceSubtree, hcptr x hx]
    · simp [Store.replaceSubtree]
  · refine habove.redirect hnodup.of_append_right (fun hac => ha (List.mem_append_right _ hac)) ?_
      (fun x hx => ?_) (fun x hx d => ?_) (fun x hx => ?_)
    · simp [Store.replaceSubtree]
    · simp [Store.replaceSubtree, hdptr x hx]
    · simp [Store.replaceSubtree]
    · simp [Store.replaceSubtree]

/-- 子のない節点にする。 -/
def Store.initNode (s : Store P) (n : P) (par : Option P) : Store P :=
  (((s.setParent n par).setLink n false none).setLink n true none).setBalance n 0

theorem represents_singleton (s : Store P) (n : P) :
    Represents ({ s with root := some n }.initNode n none) (.node n 0 fun _ => .nil) where
  nodup := List.nodup_singleton n
  root := rfl
  sub := by
    refine ⟨?_, fun d => ?_, ?_, fun d => trivial⟩
    · simp [Store.initNode]
    · cases d <;> simp [Store.initNode]
    · simp [Store.initNode]

/-- 空いている穴に節点を取り付ける。 -/
theorem Represents.attach {side : Bool} {p n : P} {sibling : AvlTree P} {up : AvlCtx P}
    (h : Represents s ((AvlCtx.frame side p b sibling up).plug .nil))
    (hn : n ∉ ((AvlCtx.frame side p b sibling up).plug .nil).toList) :
    Represents ((s.setLink p side (some n)).initNode n (some p))
      ((AvlCtx.frame side p b sibling up).plug (.node n 0 fun _ => .nil)) := by
  rw [(toList_plug_perm _ _).mem_iff, toList, list_nil, List.nil_append] at hn
  rw [represents_plug] at h ⊢
  obtain ⟨hnodup, -, hparent, hlink, hlink', hbal, hsub, habove⟩ := h
  have hperm := nodes_frame_perm side p b sibling up
  have hn' : ∀ x ∈ (AvlCtx.frame side p b sibling up).nodes, x ≠ n := by
    rintro x hx rfl
    exact hn hx
  have hnodup' := hperm.nodup_iff.mp hnodup
  rw [List.nodup_cons, List.mem_append] at hnodup'
  simp only [hperm.mem_iff, List.mem_cons, List.mem_append] at hn'
  have hp := hn' p (Or.inl rfl)
  have hout : ∀ x, x ∈ sibling.toList ∨ x ∈ up.nodes →
      Same s ((s.setLink p side (some n)).initNode n (some p)) x := by
    intro x hx
    have hxn : x ≠ n := hn' x (Or.inr hx)
    have hxp : x ≠ p := by
      rintro rfl
      exact hnodup'.1 hx
    simp [Same, Store.initNode, hxn, hxp]
  refine ⟨?_, ⟨?_, fun d => ?_, ?_, fun d => trivial⟩, ?_, ?_, ?_, ?_, ?_, ?_⟩
  · exact List.nodup_cons.mpr ⟨hn, hnodup⟩
  · simp [Store.initNode, AvlCtx.ptr]
  · cases d <;> simp [Store.initNode]
  · simp [Store.initNode]
  · simpa [Store.initNode, hp] using hparent
  · simp [Store.initNode, hp]
  · simpa [Store.initNode, hp] using hlink'
  · simpa [Store.initNode, hp] using hbal
  · exact hsub.congr fun x hx => hout x (Or.inl hx)
  · exact habove.congr rfl fun x hx => hout x (Or.inr hx)

end Write

/-! ## 節点を読む -/

theorem Represents.read {a : P} {child : Bool → AvlTree P}
    (h : Represents s (c.plug (node a b child))) :
    (s.heap a).parent = c.ptr ∧ (∀ d, (s.heap a).link d = (child d).ptr) ∧
      (s.heap a).balance = b := by
  obtain ⟨-, ⟨hparent, hlink, hbal, -⟩, -⟩ := represents_plug.mp h
  exact ⟨hparent, hlink, hbal⟩

theorem Represents.link_parent (h : Represents s t) (hx : x ∈ t.toList)
    (hlink : (s.heap x).link d = some y) : y ∈ t.toList ∧ (s.heap y).parent = some x := by
  obtain ⟨c, b, child, rfl⟩ := exists_plug_of_mem hx
  rw [h.read.2.1] at hlink
  obtain ⟨b', child', hchild⟩ := exists_node_of_ptr hlink
  rw [← kids_eta d child, hchild] at h ⊢
  have hread := @Represents.read _ s (.frame d x b (child (!d)) c) b' y child' h
  refine ⟨(toList_plug_perm c _).mem_iff.mpr (List.mem_append_left _ ?_), hread.1⟩
  exact mem_list_child d (by rw [kids_self]; exact mem_of_ptr rfl _)

theorem Represents.parent_link (h : Represents s t) (hx : x ∈ t.toList)
    (hparent : (s.heap x).parent = some y) : y ∈ t.toList ∧ ∃ d, (s.heap y).link d = some x := by
  obtain ⟨c, b, child, rfl⟩ := exists_plug_of_mem hx
  rw [h.read.1] at hparent
  cases c with
  | top => cases hparent
  | frame side a b' sibling up =>
    cases hparent
    have hread := @Represents.read _ s up _ _ _ h
    refine ⟨(toList_plug_perm up _).mem_iff.mpr (List.mem_append_left _ (mem_of_ptr rfl _)), side,
      ?_⟩
    rw [hread.2.1, kids_self, ptr_node]

theorem Represents.parent_eq_none (h : Represents s t) (hx : x ∈ t.toList) :
    (s.heap x).parent = none ↔ s.root = some x := by
  obtain ⟨c, b, child, rfl⟩ := exists_plug_of_mem hx
  rw [h.read.1, h.root]
  cases c with
  | top => simp [AvlCtx.ptr]
  | frame side a b' sibling up =>
    refine iff_of_false (by simp [AvlCtx.ptr]) fun hptr => ?_
    have hmem := mem_nodes_of_ptr_plug (by simp) hptr
    have hnodup := (represents_plug.mp h).1
    exact List.disjoint_of_nodup_append hnodup (mem_of_ptr rfl _) hmem

theorem Represents.parent_ne_self (h : Represents s t) (hx : x ∈ t.toList) :
    (s.heap x).parent ≠ some x := by
  obtain ⟨c, b, child, rfl⟩ := exists_plug_of_mem hx
  rw [h.read.1]
  intro hptr
  exact List.disjoint_of_nodup_append (represents_plug.mp h).1 (mem_of_ptr rfl _)
    (mem_nodes_of_ptr hptr)

theorem Represents.parent_asymm (h : Represents s t) (hx : x ∈ t.toList)
    (hlink : ∃ d, (s.heap x).link d = some y) : (s.heap x).parent ≠ some y := by
  obtain ⟨c, b, child, rfl⟩ := exists_plug_of_mem hx
  obtain ⟨d, hlink⟩ := hlink
  rw [h.read.2.1] at hlink
  rw [h.read.1]
  intro hptr
  exact List.disjoint_of_nodup_append (represents_plug.mp h).1
    (mem_list_child d (mem_of_ptr hlink _))
    (mem_nodes_of_ptr hptr)

theorem Represents.link_asymm (h : Represents s t) {d' : Bool} (hx : x ∈ t.toList)
    (hlink : (s.heap x).link d = some y) : (s.heap y).link d' ≠ some x := by
  intro hback
  have hy := (h.link_parent hx hlink).1
  exact h.parent_asymm hx ⟨d, hlink⟩ (h.link_parent hy hback).2

theorem Represents.parent_iff_link (h : Represents s t) (hx : x ∈ t.toList) (hy : y ∈ t.toList) :
    (s.heap x).parent = some y ↔ (s.heap y).link false = some x ∨
      (s.heap y).link true = some x := by
  constructor
  · intro hparent
    obtain ⟨-, d, hd⟩ := h.parent_link hx hparent
    cases d
    · exact Or.inl hd
    · exact Or.inr hd
  · rintro (hd | hd)
    · exact (h.link_parent hy hd).2
    · exact (h.link_parent hy hd).2

theorem Represents.link_ne (h : Represents s t) (hx : x ∈ t.toList)
    (hlink : (s.heap x).link d = some y) : (s.heap x).link (!d) ≠ some y := by
  obtain ⟨c, b, child, rfl⟩ := exists_plug_of_mem hx
  obtain ⟨hnodup, ⟨-, hlink', -⟩, -⟩ := represents_plug.mp h
  rw [hlink'] at hlink ⊢
  intro hlink''
  rw [((toList_node_perm d x b child).append_right _).nodup_iff] at hnodup
  have hdisj := List.disjoint_of_nodup_append (List.nodup_cons.mp hnodup.of_append_left).2
  exact hdisj (mem_of_ptr hlink _) (mem_of_ptr hlink'' _)

/-- 部分木の節点の親は、部分木の親か、部分木の節点である。 -/
theorem Sub.parent_mem (h : Sub s par t) (hx : x ∈ t.toList) :
    (s.heap x).parent = par ∨ ∃ y ∈ t.toList, (s.heap x).parent = some y := by
  induction t generalizing par with
  | nil => exact absurd hx List.not_mem_nil
  | node a b child ih =>
    obtain ⟨hparent, -, -, hsub⟩ := h
    have hchild : ∀ d, x ∈ (child d).toList →
        ∃ y ∈ (node a b child).toList, (s.heap x).parent = some y := by
      intro d hd
      rcases ih d (hsub d) hd with hp | ⟨y, hy, hp⟩
      · exact ⟨a, mem_of_ptr rfl _, hp⟩
      · exact ⟨y, mem_list_child d hy, hp⟩
    rcases List.mem_append.mp hx with hx | hx
    · exact Or.inr (hchild _ hx)
    · rcases List.mem_cons.mp hx with rfl | hx
      · exact Or.inl hparent
      · exact Or.inr (hchild _ hx)

/-- 穴の側は、親の右の子かどうかで分かる。 -/
theorem Represents.side_eq [DecidableEq P] {side : Bool} {p a : P} {sibling : AvlTree P}
    {up : AvlCtx P} (h : Represents s ((AvlCtx.frame side p b sibling up).plug t))
    (ha : t.ptr = some a) :
    (s.heap p).link side = some a ∧ (s.heap p).link (!side) ≠ some a ∧
      decide ((s.heap p).link true = some a) = side := by
  have hup : Represents s (up.plug (node p b (kids side t sibling))) := h
  have hlink : (s.heap p).link side = some a := by rw [hup.read.2.1, kids_self, ha]
  have hother : (s.heap p).link (!side) ≠ some a :=
    hup.link_ne ((toList_plug_perm _ _).mem_iff.mpr (List.mem_append_left _ (mem_of_ptr rfl _)))
      hlink
  refine ⟨hlink, hother, ?_⟩
  cases side with
  | true => simpa using hlink
  | false => simpa using hother

end Infra.LinkedTree
