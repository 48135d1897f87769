import PsiphonVpn.Structure.Operations

/-!
# `CAvl`

badvpn の `structure/CAvl_impl.h` を、数も鍵による探索も持たない形（timer の木と、`SAvl` を通した fair queue の木）で展開した
もの。節点の親を引数で渡し、渡された親が節点の親であることを `ASSERT` で確かめる。

* `impl_correct` — `ASSERT` は成り立ち、link の付け替えは木の上の操作を表す
-/

namespace Structure.CAvl

open Infra Infra.LinkedTree

variable {P κ : Type} [DecidableEq P]

/-! ## 操作 -/

/-- `CAvl_check_parent` -/
def checkParent (s : Store P) (p : Option P) (c : P) : Prop :=
  p = (s.heap c).parent ∧ ∀ q ∈ p, (s.heap q).link false = some c ∨ (s.heap q).link true = some c

instance (s : Store P) (p : Option P) (c : P) : Decidable (checkParent s p c) :=
  inferInstanceAs (Decidable (_ ∧ _))

/-- `CAvl_rotate` -/
def rotate (s : Store P) (r : P) (dir : Bool) (rParent : Option P) : Except Fault (Store P) := do
  check .assertion (checkParent s rParent r)
  let nr ← deref ((s.heap r).link (!dir))
  let s := s.setLink r (!dir) ((s.heap nr).link dir)
  let s := s.adopt ((s.heap r).link (!dir)) (some r)
  let s := s.setLink nr dir (some r)
  let s := s.setParent nr rParent
  let s := s.replaceChild rParent r (some nr)
  return s.setParent r (some nr)

/-- `CAvl_replace_subtree_fix_assoc` -/
def replaceSubtreeFixAssoc (s : Store P) (dest : P) (n destParent : Option P) :
    Except Fault (Store P) := do
  check .assertion (checkParent s destParent dest)
  let s := s.replaceChild destParent dest n
  return s.adopt n (s.heap dest).parent

/-- `CAvl_swap_for_remove` の、`enode` が `node` の子である場合。 -/
def swapChild (s : Store P) (node enode : P) (nodeParent : Option P) : Store P :=
  let side := decide ((s.heap node).link true = some enode)
  let c := (s.heap node).link (!side)
  let s := s.setLink node false ((s.heap enode).link false)
  let s := s.adopt ((s.heap node).link false) (some node)
  let s := s.setLink node true ((s.heap enode).link true)
  let s := s.adopt ((s.heap node).link true) (some node)
  let s := s.setParent enode (s.heap node).parent
  let s := s.replaceChild nodeParent node (some enode)
  let s := s.setLink enode side (some node)
  let s := s.setParent node (some enode)
  let s := s.setLink enode (!side) c
  let s := s.adopt c (some enode)
  s.swapBalances node enode

/-- `CAvl_swap_for_remove` の、隣り合わない場合。 -/
def swapDescendant (s : Store P) (node enode : P) (nodeParent enodeParent : Option P) : Store P :=
  let s := s.setParent node (s.heap enode).parent
  let s := s.replaceChild enodeParent enode (some node)
  let s := s.setParent enode nodeParent
  let s := s.replaceChild nodeParent node (some enode)
  let s := s.swapLinks node enode false
  let s := s.swapLinks node enode true
  s.swapBalances node enode

/-- `CAvl_swap_for_remove` -/
def swapForRemove (s : Store P) (node enode : P) (nodeParent enodeParent : Option P) :
    Except Fault (Store P) := do
  check .assertion (checkParent s nodeParent node)
  check .assertion (checkParent s enodeParent enode)
  if enodeParent = some node then return swapChild s node enode nodeParent
  else return swapDescendant s node enode nodeParent enodeParent

def impl : Impl P where
  rotate := rotate
  swap s node max := swapForRemove s node max (s.heap node).parent (s.heap max).parent
  replaceSubtree s node child := replaceSubtreeFixAssoc s node child (s.heap node).parent

section

variable (cmp : κ → κ → Ordering) (key : P → κ) (fuel : Nat) (s : Store P)

/-- `CAvl_Insert` -/
def insert (node : P) : Except Fault (Inserted P) := Structure.insert impl cmp key fuel s node

/-- `CAvl_Remove` -/
def remove (node : P) : Except Fault (Store P) := do
  check .assertion (s.root ≠ none)
  Structure.remove impl fuel s node

/-- `CAvl_IsEmpty` -/
def isEmpty : Bool := s.root.isNone

/-- `CAvl_GetFirst` -/
def getFirst : Except Fault (Option P) := extreme fuel s false

/-- `CAvl_GetLast` -/
def getLast : Except Fault (Option P) := extreme fuel s true

/-- `CAvl_GetNext` -/
def getNext (node : P) : Except Fault (Option P) := do
  check .assertion (s.root ≠ none)
  s.neighbour true fuel node

/-- `CAvl_GetPrev` -/
def getPrev (node : P) : Except Fault (Option P) := do
  check .assertion (s.root ≠ none)
  s.neighbour false fuel node

/-- `CAvl_GetFirst` から `CAvl_GetNext` で辿った節点。 -/
def traverse : Except Fault (List P) := (getFirst fuel s).bind (walk (getNext fuel s) fuel)

end

/-- entry を `cmp` で比べる木の操作。 -/
def ops (cmp : κ → κ → Ordering) : Ops P κ where
  insert key fuel s node := insert cmp key fuel s node
  remove fuel s node := remove fuel s node

/-! ## 木の上の操作 -/

open AvlTree AvlCtx

variable {s : Store P} {t : AvlTree P}

omit [DecidableEq P] in
theorem checkParent_parent (h : Represents s t) {n : P} (hn : n ∈ t.toList) :
    checkParent s (s.heap n).parent n := by
  refine ⟨rfl, fun q hq => ?_⟩
  obtain ⟨hq', -⟩ := h.parent_link hn hq
  exact (h.parent_iff_link hn hq').mp hq

omit [DecidableEq P] in
theorem root_ne_none (h : Represents s t) {n : P} (hn : n ∈ t.toList) : s.root ≠ none := by
  rw [h.root]
  intro hptr
  rw [ptr_eq_none.mp hptr] at hn
  exact absurd hn List.not_mem_nil

theorem rotates : Rotates (impl : Impl P).rotate := by
  intro s c r b child dir nr b' child' h hchild
  obtain ⟨hparent, hlink, -⟩ := h.read
  have hr : r ∈ (c.plug (node r b child)).toList :=
    (toList_plug_perm _ _).mem_iff.mpr (List.mem_append_left _ (mem_of_ptr rfl _))
  have hcheck := checkParent_parent h hr
  rw [hparent] at hcheck
  have hnr : (s.heap r).link (!dir) = some nr := by rw [hlink, hchild, ptr_node]
  show rotate s r dir c.ptr = _
  rw [rotate, check_bind hcheck, hnr, deref_some, ok_bind]
  simp only [Store.setLink_link, and_self, if_true]
  rfl

theorem swapChild_eq (h : Represents s t) {n m : P} (hn : n ∈ t.toList) (hm : m ∈ t.toList)
    (hmn : (s.heap m).parent = some n) :
    swapChild s n m (s.heap n).parent = s.swapAdjacent n m := by
  obtain ⟨hne, hnm, -⟩ := h.adjacent hn hm hmn
  have hlink := (not_congr (h.parent_iff_link hn hm)).mp hnm
  rw [not_or] at hlink
  simp [swapChild, Store.swapAdjacent, hne.symm, hlink]

theorem swapForRemove_spec (h : Represents s t) {n m : P} (hn : n ∈ t.toList) (hm : m ∈ t.toList)
    (hne : n ≠ m) (hnm : (s.heap n).parent ≠ some m)
    (hparents : (s.heap n).parent ≠ (s.heap m).parent) :
    ∃ s', swapForRemove s n m (s.heap n).parent (s.heap m).parent = .ok s' ∧
      Represents s' (t.map (Equiv.swap n m)) := by
  rw [swapForRemove, check_bind (checkParent_parent h hn), check_bind (checkParent_parent h hm)]
  by_cases hmn : (s.heap m).parent = some n
  · rw [if_pos hmn, swapChild_eq h hn hm hmn]
    exact ⟨_, rfl, h.swapAdjacent hn hm hmn⟩
  · rw [if_neg hmn]
    exact ⟨s.swapApart n m, rfl, h.swapApart hn hm hne hnm hmn hparents⟩

theorem replaceSubtreeFixAssoc_eq {c : AvlCtx P} {a : P} {b : Int} {child : Bool → AvlTree P}
    (h : Represents s (c.plug (node a b child))) (n : Option P) :
    replaceSubtreeFixAssoc s a n (s.heap a).parent = .ok (s.replaceSubtree c.ptr a n) := by
  have ha : a ∈ (c.plug (node a b child)).toList :=
    (toList_plug_perm _ _).mem_iff.mpr (List.mem_append_left _ (mem_of_ptr rfl _))
  rw [replaceSubtreeFixAssoc, check_bind (checkParent_parent h ha), h.read.1]
  dsimp only
  rw [Store.replaceChild_parent, h.read.1]
  rfl

theorem impl_correct : (impl : Impl P).Correct where
  rotates := rotates
  swaps _ _ _ _ h hn hm hne hnm hparents := swapForRemove_spec h hn hm hne hnm hparents
  replaces _ _ _ _ _ n h := replaceSubtreeFixAssoc_eq h n

variable {cmp : κ → κ → Ordering} {fuel : Nat}

theorem ops_correct [Std.TransCmp cmp] : (ops cmp : Ops P κ).Correct cmp where
  insert _ _ _ _ n h hfuel := insert_spec impl_correct h n hfuel
  remove key fuel s t n h hn hfuel := by
    show ∃ s' t', remove fuel s n = .ok s' ∧ _
    rw [remove, check_bind (root_ne_none h.represents hn)]
    exact remove_spec impl_correct h hn hfuel

theorem traverse_eq (h : Represents s t) (hfuel : t.toList.length < fuel) :
    traverse fuel s = .ok t.toList := by
  show (extreme fuel s (!true)).bind (walk (getNext fuel s) fuel) = .ok (t.list true)
  refine walk_neighbour h (fun n hn => ?_) hfuel
  rw [getNext, check_bind (root_ne_none h hn)]

omit [DecidableEq P] in
theorem getFirst_eq (h : Represents s t) (hfuel : t.toList.length < fuel) :
    getFirst fuel s = .ok t.toList.head? := by
  rw [getFirst, extreme_spec h hfuel]
  exact congrArg _ (head?_list true t).symm

/-- 挿入と取り外しをどう重ねても、釣り合った探索木である。`CAvl_GetFirst` と `CAvl_GetNext` は木の節点を昇順に並べ、
`CAvl_GetFirst` は最小の節点を、木が空のときに限って null を返し、`CAvl_Insert` は等しい節点があるときに限って何も変えずに
失敗する。 -/
theorem run_ordered_tree [Std.TransCmp cmp] (heap : P → Node P) (key : P → κ)
    {es : List (Event P κ)} {r : Except Fault (World P κ)} (hfuel : es.length < fuel)
    (hrun : exec (guarded (step (ops cmp) fuel)) (.ok (World.init heap key)) es = some r) :
    ∃ w t, r = .ok w ∧ w.WellFormed cmp t ∧
      traverse fuel w.tree = .ok t.toList ∧
      (∃ first, getFirst fuel w.tree = .ok first ∧ (first = none ↔ w.members = []) ∧
        ∀ n, first = some n → n ∈ w.members ∧ ∀ m ∈ w.members, m ≠ n →
          cmp (w.key n) (w.key m) = .lt) ∧
      ∀ n, ∃ res, insert cmp w.key fuel w.tree n = .ok res ∧
        (res.inserted = false ↔ ∃ m ∈ w.members, cmp (w.key n) (w.key m) = .eq) ∧
        (res.inserted = false → res.tree = w.tree) := by
  obtain ⟨w, rfl, hvalid, hlen⟩ := run_valid ops_correct (World.valid_init cmp heap key)
    (by simpa [World.init] using hfuel) hrun
  obtain ⟨t, hwf⟩ := hvalid.wellFormed
  have hfuel' : t.toList.length < fuel := by rwa [hwf.members.length_eq]
  refine ⟨w, t, rfl, hwf, traverse_eq hwf.represents hfuel',
    ⟨_, getFirst_eq hwf.represents hfuel', ?_, ?_⟩, ops_correct.insert_fails_iff hvalid hlen⟩
  · rw [List.head?_eq_none_iff, ← List.length_eq_zero_iff, hwf.members.length_eq,
      List.length_eq_zero_iff]
  · intro n hn
    obtain ⟨l, hl⟩ := List.head?_eq_some_iff.mp hn
    have hmem (x : P) : x ∈ w.members ↔ x ∈ n :: l := by rw [← hwf.members.mem_iff, hl]
    have hlt := hwf.increasing
    rw [hl, List.pairwise_cons] at hlt
    refine ⟨(hmem n).mpr List.mem_cons_self, fun m hm hne => hlt.1 m ?_⟩
    exact (List.mem_cons.mp ((hmem m).mp hm)).resolve_left hne

-- 節点 2 の取り外しは子の節点 1 と入れ替え、根の節点 4 の取り外しは離れた節点 3 と入れ替える
theorem run_ordered_tree_five :
    ∃ w t, exec (guarded (step (ops compare) 10))
      (.ok (World.init (fun _ => ⟨none, fun _ => none, 0⟩) id))
        [.insert 7, .insert 6, .insert 5, .insert 4, .insert 3, .insert 2, .insert 1, .remove 2,
          .remove 4] =
          some (.ok w) ∧
      w.members = [1, 3, 5, 6, 7] ∧ w.WellFormed (compare : Nat → Nat → Ordering) t ∧
      traverse 10 w.tree = .ok t.toList ∧ ∃ first, getFirst 10 w.tree = .ok first ∧
        (first = none ↔ w.members = []) := by
  obtain ⟨w, hrun, hmembers⟩ := exec_ok_exists (step (ops (compare : Nat → Nat → Ordering)) 10)
    (World.init (fun _ => ⟨none, fun _ => none, 0⟩) id)
    [.insert 7, .insert 6, .insert 5, .insert 4, .insert 3, .insert 2, .insert 1, .remove 2,
      .remove 4]
    (fun w => w.members = [1, 3, 5, 6, 7]) (by decide +kernel)
  obtain ⟨_, t, ⟨⟩, hwf, htraverse, ⟨first, hfirst, hnone, -⟩, -⟩ :=
    run_ordered_tree _ _ (by decide) hrun
  exact ⟨w, t, hrun, hmembers, hwf, htraverse, first, hfirst, hnone⟩

end Structure.CAvl
