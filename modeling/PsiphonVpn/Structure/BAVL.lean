import PsiphonVpn.Structure.Operations

/-!
# `BAVL`

badvpn の `structure/BAVL.h`。親への pointer を持つ AVL 木で、挿入と取り外しを一つの `_BAVL_rebalance` で釣り合わせる。
節点の鍵は節点を埋め込んだ構造体の中にあり、`key` で読む。

* `impl_correct` — link の付け替えは、木の上の操作を表す
-/

namespace Structure.BAVL

open Infra Infra.LinkedTree

variable {P κ : Type} [DecidableEq P]

/-! ## 操作 -/

/-- `_BAVL_rotate` -/
def rotate (s : Store P) (r : P) (dir : Bool) : Except Fault (Store P) := do
  let nr ← deref ((s.heap r).link (!dir))
  let s := s.setLink r (!dir) ((s.heap nr).link dir)
  let s := s.adopt ((s.heap r).link (!dir)) (some r)
  let s := s.setLink nr dir (some r)
  let s := s.setParent nr (s.heap r).parent
  let s := s.replaceChild (s.heap nr).parent r (some nr)
  return s.setParent r (some nr)

/-- `_BAVL_replace_subtree` -/
def replaceSubtree (s : Store P) (dest : P) (n : Option P) : Store P :=
  s.replaceSubtree (s.heap dest).parent dest n

/-- `_BAVL_swap_nodes`。隣り合うときは、上にある方を `n1` とする。 -/
def swapNodes (s : Store P) (n1 n2 : P) : Store P :=
  if (s.heap n2).parent = some n1 ∨ (s.heap n1).parent = some n2 then
    if (s.heap n1).parent = some n2 then s.swapAdjacent n2 n1 else s.swapAdjacent n1 n2
  else s.swapApart n1 n2

def impl : Impl P where
  rotate s r dir _ := rotate s r dir
  swap s n1 n2 := .ok (swapNodes s n1 n2)
  replaceSubtree s dest n := .ok (replaceSubtree s dest n)

section

variable (cmp : κ → κ → Ordering) (key : P → κ) (fuel : Nat) (s : Store P)

/-- `BAVL_Insert` -/
def insert (node : P) : Except Fault (Inserted P) := Structure.insert impl cmp key fuel s node

/-- `BAVL_Remove` -/
def remove (node : P) : Except Fault (Store P) := Structure.remove impl fuel s node

/-- `BAVL_IsEmpty` -/
def isEmpty : Bool := s.root.isNone

/-- `BAVL_Lookup` -/
def lookup (val : κ) : Except Fault (Option P) := Structure.lookup cmp key fuel s val

/-- `BAVL_LookupExact` -/
def lookupExact (val : κ) : Except Fault (Option P) := Structure.lookupExact cmp key fuel s val

/-- `BAVL_GetFirst` -/
def getFirst : Except Fault (Option P) := extreme fuel s false

/-- `BAVL_GetLast` -/
def getLast : Except Fault (Option P) := extreme fuel s true

/-- `BAVL_GetNext` -/
def getNext (n : P) : Except Fault (Option P) := s.neighbour true fuel n

/-- `BAVL_GetPrev` -/
def getPrev (n : P) : Except Fault (Option P) := s.neighbour false fuel n

/-- `BAVL_GetFirst` から `BAVL_GetNext` で辿った節点。 -/
def traverse : Except Fault (List P) := (getFirst fuel s).bind (walk (getNext fuel s) fuel)

end

/-- 鍵を `cmp` で比べる木の操作。 -/
def ops (cmp : κ → κ → Ordering) : Ops P κ where
  insert key fuel s node := insert cmp key fuel s node
  remove fuel s node := remove fuel s node

/-! ## 木の上の操作 -/

open AvlTree AvlCtx

theorem rotates : Rotates (impl : Impl P).rotate := by
  intro s c r b child dir nr b' child' h hchild
  obtain ⟨hparent, hlink, -⟩ := h.read
  have hr : r ∈ (c.plug (node r b child)).toList :=
    (toList_plug_perm _ _).mem_iff.mpr (List.mem_append_left _ (mem_of_ptr rfl _))
  have hnr : (s.heap r).link (!dir) = some nr := by rw [hlink, hchild, ptr_node]
  have hinner : (s.heap nr).link dir ≠ some r := h.link_asymm hr hnr
  show rotate s r dir = _
  simp [rotate, Store.rotate, hnr, hinner, hparent]

theorem impl_correct : (impl : Impl P).Correct where
  rotates := rotates
  swaps s t n m h hn hm hne hnm hparents := by
    refine ⟨_, rfl, ?_⟩
    unfold swapNodes
    by_cases hmn : (s.heap m).parent = some n
    · rw [if_pos (Or.inl hmn), if_neg hnm]
      exact h.swapAdjacent hn hm hmn
    · rw [if_neg (not_or.mpr ⟨hmn, hnm⟩)]
      exact h.swapApart hn hm hne hnm hmn hparents
  replaces s c a b child n h := by
    show Except.ok (replaceSubtree s a n) = _
    rw [replaceSubtree, h.read.1]

variable {cmp : κ → κ → Ordering}

theorem ops_correct [Std.TransCmp cmp] : (ops cmp : Ops P κ).Correct cmp where
  insert _ _ _ _ n h hfuel := insert_spec impl_correct h n hfuel
  remove _ _ _ _ _ h hn hfuel := remove_spec impl_correct h hn hfuel

theorem traverse_eq {s : Store P} {t : AvlTree P} {fuel : Nat} (h : Represents s t)
    (hfuel : t.toList.length < fuel) :
    traverse fuel s = .ok t.toList := by
  show (extreme fuel s (!true)).bind (walk (getNext fuel s) fuel) = .ok (t.list true)
  exact walk_neighbour h (fun _ _ => rfl) hfuel

/-- 挿入と取り外しをどう重ねても、釣り合った探索木である。`BAVL_GetFirst` と `BAVL_GetNext` は木の節点を鍵の昇順に並べ、
`BAVL_Insert` は同じ鍵があるときに限って何も変えずに失敗し、`BAVL_LookupExact` は鍵があるときに限って節点を返す。 -/
theorem run_search_tree [Std.TransCmp cmp] (heap : P → Node P) (key : P → κ) {fuel : Nat}
    {es : List (Event P κ)} {r : Except Fault (World P κ)} (hfuel : es.length < fuel)
    (hrun : exec (guarded (step (ops cmp) fuel)) (.ok (World.init heap key)) es = some r) :
    ∃ w t, r = .ok w ∧ w.WellFormed cmp t ∧
      traverse fuel w.tree = .ok t.toList ∧
      (∀ n, ∃ res, insert cmp w.key fuel w.tree n = .ok res ∧
        (res.inserted = false ↔ ∃ m ∈ w.members, cmp (w.key n) (w.key m) = .eq) ∧
        (res.inserted = false → res.tree = w.tree)) ∧
      ∀ k, ∃ found, lookupExact cmp w.key fuel w.tree k = .ok found ∧
        (found = none ↔ ∀ n ∈ w.members, cmp k (w.key n) ≠ .eq) ∧
        ∀ n, found = some n → n ∈ w.members ∧ cmp k (w.key n) = .eq := by
  obtain ⟨w, rfl, hvalid, hlen⟩ := run_valid ops_correct (World.valid_init cmp heap key)
    (by simpa [World.init] using hfuel) hrun
  obtain ⟨t, hwf⟩ := hvalid.wellFormed
  have hvalid' : Structure.Valid cmp w.key w.tree t :=
    ⟨⟨hwf.represents, hwf.balanced⟩, hwf.increasing⟩
  have hfuel' : t.toList.length < fuel := by rwa [hwf.members.length_eq]
  refine ⟨w, t, rfl, hwf, ?_, ops_correct.insert_fails_iff hvalid hlen, fun k => ?_⟩
  · exact traverse_eq hwf.represents hfuel'
  · refine ⟨_, lookupExact_spec hvalid' k hfuel', ?_⟩
    by_cases hne : ∀ n ∈ t.toList, cmp k (w.key n) ≠ .eq
    · rw [SearchTree.lookup_of_ne hne]
      exact ⟨⟨fun _ n hn => hne n (hwf.members.mem_iff.mpr hn), fun _ => rfl⟩, by simp⟩
    · push Not at hne
      obtain ⟨n, hn, heq⟩ := hne
      rw [hwf.members.mem_iff] at hn
      rw [hvalid'.ordered.lookup_of_eq (hwf.members.mem_iff.mpr hn) heq]
      refine ⟨⟨by simp, fun hall => absurd heq (hall n hn)⟩, ?_⟩
      rintro _ ⟨⟩
      exact ⟨hn, heq⟩

-- 鍵 3 の節点 9 の挿入は失敗し、根の節点 4 の取り外しは離れた節点 3 と入れ替えて行う
theorem run_search_tree_seven :
    ∃ w t, exec (guarded (step (ops compare) 12))
      (.ok (World.init (fun _ => ⟨none, fun _ => none, 0⟩) id))
        [.insert 1, .insert 2, .insert 3, .insert 4, .insert 5, .insert 6, .insert 7,
          .write 9 ⟨none, fun _ => none, 0⟩ 3, .insert 9, .remove 4] = some (.ok w) ∧
      w.members = [7, 6, 5, 3, 2, 1] ∧ w.WellFormed (compare : Nat → Nat → Ordering) t ∧
      traverse 12 w.tree = .ok t.toList := by
  obtain ⟨w, hrun, hmembers⟩ := exec_ok_exists (step (ops (compare : Nat → Nat → Ordering)) 12)
    (World.init (fun _ => ⟨none, fun _ => none, 0⟩) id)
    [.insert 1, .insert 2, .insert 3, .insert 4, .insert 5, .insert 6, .insert 7,
      .write 9 ⟨none, fun _ => none, 0⟩ 3, .insert 9, .remove 4]
    (fun w => w.members = [7, 6, 5, 3, 2, 1]) (by decide +kernel)
  obtain ⟨_, t, ⟨⟩, hwf, htraverse, -⟩ := run_search_tree _ _ (by decide) hrun
  exact ⟨w, t, hrun, hmembers, hwf, htraverse⟩

end Structure.BAVL
