import PsiphonVpn.Structure.Edit

/-!
# AVL 木の操作

`BAVL` と `CAvl` の操作は、三つの書き込み（回転・入れ替え・部分木の置き換え）の書き方のほかは同じである。その三つを `Impl` に
まとめ、操作と、操作の列の意味をここで一度だけ調べる。

* `insert`・`remove`・`lookupExact`・`first`・`last` — 操作
* `Impl.Correct` — 三つの書き込みが、木の回転・節点の付け替え・部分木の置き換えを表す
* `insert_spec`・`remove_spec`・`lookupExact_spec` — 木の操作は、通りがけ順の列の上の `SearchTree` の操作である
* `Ops`・`step`・`run_valid` — 操作の列。木にない節点の記憶と鍵は、いつでも書き換えてよい
-/

namespace Structure

open Infra Infra.LinkedTree

variable {P κ : Type} [DecidableEq P]

/-- 実装ごとに異なる書き込み。 -/
structure Impl (P : Type) where
  rotate : Rotate P
  /-- 取り外す節点と、その左の部分木の最後の節点を入れ替える。 -/
  swap : Store P → P → P → Except Fault (Store P)
  replaceSubtree : Store P → P → Option P → Except Fault (Store P)

/-- 挿入の結果。`ref` は、同じ鍵の節点か、取り付けた所の親である。 -/
structure Inserted (P : Type) where
  inserted : Bool
  ref : Option P
  tree : Store P

section Operations

variable (impl : Impl P) (cmp : κ → κ → Ordering) (key : P → κ) (fuel : Nat) (s : Store P)

def insert (node : P) : Except Fault (Inserted P) :=
  match s.root with
  | none => .ok ⟨true, none, { s with root := some node }.initNode node none⟩
  | some root => do
    match ← s.search cmp key (key node) fuel root with
    | (c, none) => return ⟨false, some c, s⟩
    | (c, some side) =>
      let s ← rebalance impl.rotate fuel ((s.setLink c side (some node)).initNode node (some c)) c
        side 1
      return ⟨true, some c, s⟩

/-- 両側に子があれば、左の部分木の最後の節点と入れ替える。 -/
def swapMax (node : P) : Except Fault (Store P) :=
  match (s.heap node).link false, (s.heap node).link true with
  | some left, some _ => do
    let max ← s.farthest true fuel left
    impl.swap s node max
  | _, _ => .ok s

/-- 子が高々一つの節点を、その子で置き換える。 -/
def detach (node : P) : Except Fault (Store P) := do
  check .assertion (¬ ((s.heap node).link false ≠ none ∧ (s.heap node).link true ≠ none))
  let replaced ← impl.replaceSubtree s node ((s.heap node).link false <|> (s.heap node).link true)
  match (s.heap node).parent with
  | some parent =>
    rebalance impl.rotate fuel replaced parent (decide ((s.heap parent).link true = some node)) (-1)
  | none => return replaced

def remove (node : P) : Except Fault (Store P) := do
  let s ← swapMax impl fuel s node
  detach impl fuel s node

/-- 同じ鍵の節点か、その鍵の入るべき穴の親。 -/
def lookup (val : κ) : Except Fault (Option P) :=
  match s.root with
  | none => .ok none
  | some root => (s.search cmp key val fuel root).map fun r => some r.1

def lookupExact (val : κ) : Except Fault (Option P) :=
  match s.root with
  | none => .ok none
  | some root => (s.search cmp key val fuel root).map fun r => if r.2 = none then some r.1 else none

/-- `dir` の向きの列の最後。 -/
def extreme (dir : Bool) : Except Fault (Option P) :=
  match s.root with
  | none => .ok none
  | some root => (s.farthest dir fuel root).map some

end Operations

/-! ## 操作の意味 -/

open AvlTree AvlCtx

/-- 三つの書き込みは、木の上の操作を表す。 -/
structure Impl.Correct (impl : Impl P) : Prop where
  rotates : Rotates impl.rotate
  swaps : ∀ (s : Store P) (t : AvlTree P) (n m : P), Represents s t → n ∈ t.toList → m ∈ t.toList →
    n ≠ m →
    (s.heap n).parent ≠ some m → (s.heap n).parent ≠ (s.heap m).parent →
    ∃ s', impl.swap s n m = .ok s' ∧ Represents s' (t.map (Equiv.swap n m))
  replaces : ∀ (s : Store P) (c : AvlCtx P) (a : P) (b : Int) (child : Bool → AvlTree P)
    (n : Option P),
    Represents s (c.plug (node a b child)) →
      impl.replaceSubtree s a n = .ok (s.replaceSubtree c.ptr a n)

variable {impl : Impl P} {cmp : κ → κ → Ordering} {key : P → κ} {fuel : Nat} {s : Store P}
  {t : AvlTree P}

/--
挿入は、通りがけ順の列への挿入である。

timer の木・fair queue の木・udpgw の二つの木を列で表すとき、その列の操作はこの定理で実際の木の操作になる。
-/
theorem insert_spec [Std.TransCmp cmp] (himpl : impl.Correct) (h : Valid cmp key s t) (n : P)
    (hfuel : t.toList.length < fuel) :
    ∃ r t', insert impl cmp key fuel s n = .ok r ∧ Valid cmp key r.tree t' ∧
      SearchTree.insert cmp key n t.toList = (if r.inserted then some t'.toList else none) ∧
      (r.inserted = false → r.tree = s) := by
  have hheight : t.height ≤ t.toList.length := height_le_length true t
  unfold insert
  rw [h.represents.root]
  cases hptr : t.ptr with
  | none =>
    obtain rfl := ptr_eq_none.mp hptr
    refine ⟨⟨true, none, _⟩, .node n 0 fun _ => .nil, rfl, ⟨⟨represents_singleton s n, ?_⟩, ?_⟩,
      rfl, by simp⟩
    · exact ⟨rfl, by decide, by decide, fun _ => trivial⟩
    · exact List.pairwise_singleton _ _
  | some root =>
    have hbetween : Between cmp key (key n) (.top : AvlCtx P) := ⟨by simp [rest], by simp [rest]⟩
    rcases Represents.search (c := .top) h.represents hptr h.ordered hbetween
      (by omega : t.height ≤ fuel) with
      ⟨p, hp, hrun, heq⟩ | ⟨side, p, b, sibling, up, hrun, hplug, hbetween'⟩
    · refine ⟨⟨false, some p, s⟩, t, ?_, h, h.ordered.insert_of_eq hp heq, fun _ => rfl⟩
      dsimp only
      rw [hrun]
      rfl
    · dsimp only
      rw [hrun, ok_bind]
      rw [AvlCtx.plug_top] at hplug
      subst hplug
      have hne : ∀ m ∈ (AvlCtx.plug (.frame side p b sibling up) .nil).toList,
          cmp (key n) (key m) ≠ .eq :=
        fun m hm => hbetween'.ne_eq hm
      have hn : n ∉ (AvlCtx.plug (.frame side p b sibling up) .nil).toList :=
        fun hn => hne n hn Std.ReflCmp.compare_self
      obtain ⟨s', t', hreb, hshape, hlist⟩ :=
        Shaped.attach himpl.rotates h.toShaped hn (by omega : _ ≤ fuel)
      have hord : SearchTree.Ordered cmp key t'.toList := by
        rw [hlist]
        exact ordered_attach h.ordered hbetween'
      refine ⟨⟨true, some p, s'⟩, t', ?_, ⟨hshape, hord⟩, ?_, by simp⟩
      · dsimp only
        rw [hreb]
        rfl
      · refine h.ordered.insert_eq_some hne hord ?_
        rw [hlist]
        exact (toList_plug_perm _ _).trans ((toList_plug_perm _ _).symm.cons n)

/-- 子が高々一つの節点の取り外しは、列から節点を一つ消す。 -/
theorem detach_spec (himpl : impl.Correct) {c : AvlCtx P} {a : P} {b : Int}
    {child : Bool → AvlTree P} {d : Bool} (h : Shaped s (c.plug (node a b child)))
    (hnil : child (!d) = .nil) (hfuel : (c.plug (node a b child)).toList.length ≤ fuel) :
    ∃ s' t', detach impl fuel s a = .ok s' ∧ Shaped s' t' ∧
      t'.toList = (c.plug (node a b child)).toList.erase a := by
  obtain ⟨hparent, hlink, -⟩ := h.represents.read
  have hlink' : (s.heap a).link (!d) = none := by rw [hlink, hnil, ptr_nil]
  have hassert : ¬ ((s.heap a).link false ≠ none ∧ (s.heap a).link true ≠ none) := by
    rintro ⟨h0, h1⟩
    cases d
    · exact h1 hlink'
    · exact h0 hlink'
  have hchild : ((s.heap a).link false <|> (s.heap a).link true) = (child d).ptr := by
    rw [← hlink d]
    cases d with
    | false =>
      rw [show (s.heap a).link true = none from hlink']
      cases (s.heap a).link false <;> rfl
    | true =>
      rw [show (s.heap a).link false = none from hlink']
      rfl
  unfold detach
  rw [check_bind hassert, hchild, himpl.replaces s c a b child _ h.represents, ok_bind, hparent]
  cases c with
  | top =>
    obtain ⟨hshape, hlist⟩ := Shaped.detachRoot h hnil
    exact ⟨_, _, rfl, hshape, hlist⟩
  | frame side p bp sibling up =>
    dsimp only [AvlCtx.ptr]
    rw [(h.represents.side_eq rfl).2.2]
    exact Shaped.detach himpl.rotates h hnil hfuel

/-- 木にある節点の取り外しは、列から節点を一つ消す。 -/
theorem remove_spec (himpl : impl.Correct) (h : Valid cmp key s t) {n : P} (hn : n ∈ t.toList)
    (hfuel : t.toList.length < fuel) :
    ∃ s' t', remove impl fuel s n = .ok s' ∧ Valid cmp key s' t' ∧
      t'.toList = t.toList.erase n := by
  obtain ⟨c, b, child, rfl⟩ := exists_plug_of_mem hn
  obtain ⟨-, ⟨-, hlink, -, hsub⟩, -⟩ := represents_plug.mp h.represents
  suffices hsuff : ∃ s₁ s' t', swapMax impl fuel s n = .ok s₁ ∧ detach impl fuel s₁ n = .ok s' ∧
      Shaped s' t' ∧
      t'.toList = (c.plug (node n b child)).toList.erase n by
    obtain ⟨s₁, s', t', hswap, hdetach, hshape, hlist⟩ := hsuff
    refine ⟨s', t', ?_, ⟨hshape, ?_⟩, hlist⟩
    · rw [remove, hswap, ok_bind, hdetach]
    · rw [hlist]
      exact h.ordered.erase n
  unfold swapMax
  rw [hlink, hlink]
  cases hleft : (child false).ptr with
  | none =>
    obtain ⟨s', t', hrun, hshape, hlist⟩ :=
      detach_spec (d := true) himpl h.toShaped (ptr_eq_none.mp hleft)
      (by omega : _ ≤ fuel)
    exact ⟨s, s', t', rfl, hrun, hshape, hlist⟩
  | some left =>
    cases hright : (child true).ptr with
    | none =>
      obtain ⟨s', t', hrun, hshape, hlist⟩ :=
        detach_spec (d := false) himpl h.toShaped (ptr_eq_none.mp hright)
        (by omega : _ ≤ fuel)
      exact ⟨s, s', t', rfl, hrun, hshape, hlist⟩
    | some right =>
      -- 左の部分木の最後の節点と入れ替える
      have hheight : (child false).height ≤ fuel := by
        have hle := height_le_length true (node n b child)
        have hlen := (toList_plug_perm c (node n b child)).length_eq
        rw [List.length_append] at hlen
        rw [height_node false] at hle
        have : (list true (node n b child)).length = (node n b child).toList.length := rfl
        omega
      obtain ⟨m, hm, hlast, hmlink⟩ := (hsub false).farthest true hleft hheight
      obtain ⟨hne, hnm, hparents, before, after, hlist⟩ := beforeSwap h.represents hlast
      obtain ⟨s₁, hswap, hrep⟩ := himpl.swaps s _ n m h.represents hn (by simp [hlist]) hne hnm
        hparents
      obtain ⟨c', b', child', hshape, hnil, herase, hlen⟩ :=
        Shaped.afterSwap h.toShaped hlast hmlink hrep
      obtain ⟨s', t', hrun, hshape', hlist'⟩ :=
        detach_spec (d := false) himpl hshape hnil (by omega : _ ≤ fuel)
      refine ⟨s₁, s', t', ?_, hrun, hshape', hlist'.trans herase⟩
      dsimp only
      rw [hm, ok_bind, hswap]

omit [DecidableEq P] in
/-- 鍵による探索は、通りがけ順の列の探索である。 -/
theorem lookupExact_spec [Std.TransCmp cmp] (h : Valid cmp key s t) (k : κ)
    (hfuel : t.toList.length < fuel) :
    lookupExact cmp key fuel s k = .ok (SearchTree.lookup cmp key k t.toList) := by
  have hheight : t.height ≤ t.toList.length := height_le_length true t
  unfold lookupExact
  rw [h.represents.root]
  cases hptr : t.ptr with
  | none =>
    obtain rfl := ptr_eq_none.mp hptr
    rfl
  | some root =>
    have hbetween : Between cmp key k (.top : AvlCtx P) := ⟨by simp [rest], by simp [rest]⟩
    dsimp only
    rcases Represents.search (c := .top) h.represents hptr h.ordered hbetween
      (by omega : t.height ≤ fuel) with
      ⟨p, hp, hrun, heq⟩ | ⟨side, p, b, sibling, up, hrun, hplug, hbetween'⟩
    · rw [hrun, h.ordered.lookup_of_eq hp heq]
      rfl
    · rw [AvlCtx.plug_top] at hplug
      rw [hrun, hplug, SearchTree.lookup_of_ne fun n hn => hbetween'.ne_eq hn]
      rfl

omit [DecidableEq P] in
/-- 片端の節点。木が空のときに限って null である。 -/
theorem extreme_spec {dir : Bool} (h : Represents s t) (hfuel : t.toList.length < fuel) :
    extreme fuel s dir = .ok (t.list dir).getLast? := by
  have hheight : t.height ≤ t.toList.length := height_le_length true t
  unfold extreme
  rw [h.root]
  cases hptr : t.ptr with
  | none =>
    obtain rfl := ptr_eq_none.mp hptr
    rfl
  | some root =>
    obtain ⟨m, hm, hlast, -⟩ := h.sub.farthest dir hptr (by omega : t.height ≤ fuel)
    dsimp only
    rw [hm, hlast]
    rfl

/-- 端から次の節点を辿れば、列を端から並べる。 -/
theorem walk_neighbour {dir : Bool} {next : P → Except Fault (Option P)} (h : Represents s t)
    (hnext : ∀ n ∈ t.toList, next n = s.neighbour dir fuel n) (hfuel : t.toList.length < fuel) :
    (extreme fuel s (!dir)).bind (walk next fuel) = .ok (t.list dir) := by
  rw [extreme_spec h hfuel, ← head?_list]
  refine walk_eq (fun before a after hlist => ?_) ?_
  · have ha : a ∈ t.list dir := by simp [hlist]
    rw [hnext a (mem_list_iff.mp ha), h.neighbour hfuel hlist]
  have hlen : (t.list dir).length = t.toList.length := by
    rcases eq_or_eq_not dir true with rfl | rfl
    · rfl
    · rw [list_not, List.length_reverse]
  omega

/-! ## 操作の列 -/

/-- 木と、節点の鍵。`members` は挿入されてまだ取り外されていない節点で、操作はこれを読まない。 -/
structure World (P κ : Type) where
  tree : Store P
  key : P → κ
  members : List P

/-- 空の木。節点の記憶と鍵は何でもよい。 -/
def World.init (heap : P → Node P) (key : P → κ) : World P κ := ⟨⟨none, heap⟩, key, []⟩

inductive Event (P κ : Type)
  | insert (n : P)
  | remove (n : P)
  /-- 木にない節点の記憶を使い回す。 -/
  | write (n : P) (record : Node P) (k : κ)

/-- 公開された、木を変える操作。鍵は記憶から読む。 -/
structure Ops (P κ : Type) where
  insert : (P → κ) → Nat → Store P → P → Except Fault (Inserted P)
  remove : Nat → Store P → P → Except Fault (Store P)

/-- 取り外しは木にある節点に、記憶の書き換えは木にない節点に限る。 -/
def step (ops : Ops P κ) (fuel : Nat) (w : World P κ) : Event P κ →
    Option (Except Fault (World P κ))
  | .insert n => some do
    let r ← ops.insert w.key fuel w.tree n
    return { w with tree := r.tree, members := if r.inserted then n :: w.members else w.members }
  | .remove n =>
    if n ∈ w.members then
      some do
        let tree ← ops.remove fuel w.tree n
        return { w with tree, members := w.members.erase n }
    else none
  | .write n record k =>
    if n ∈ w.members then none
    else some
      (.ok { w with tree := w.tree.modify n fun _ => record, key := Function.update w.key n k })

/-- 操作の仕様。 -/
structure Ops.Correct (ops : Ops P κ) (cmp : κ → κ → Ordering) : Prop where
  /-- 挿入は、通りがけ順の列への挿入である。 -/
  insert : ∀ (key : P → κ) (fuel : Nat) (s : Store P) (t : AvlTree P) (n : P),
    Structure.Valid cmp key s t → t.toList.length < fuel →
    ∃ r t', ops.insert key fuel s n = .ok r ∧ Structure.Valid cmp key r.tree t' ∧
      SearchTree.insert cmp key n t.toList = (if r.inserted then some t'.toList else none) ∧
      (r.inserted = false → r.tree = s)
  /-- 木にある節点の取り外しは、列から節点を一つ消す。 -/
  remove : ∀ (key : P → κ) (fuel : Nat) (s : Store P) (t : AvlTree P) (n : P),
    Structure.Valid cmp key s t →
    n ∈ t.toList → t.toList.length < fuel →
    ∃ s' t', ops.remove fuel s n = .ok s' ∧ Structure.Valid cmp key s' t' ∧
      t'.toList = t.toList.erase n

variable {ops : Ops P κ}

/-- 木は `members` の節点をちょうど持つ。 -/
def World.Valid (cmp : κ → κ → Ordering) (w : World P κ) : Prop :=
  ∃ t, Structure.Valid cmp w.key w.tree t ∧ t.toList.Perm w.members

omit [DecidableEq P] in
theorem World.valid_init (cmp : κ → κ → Ordering) (heap : P → Node P) (key : P → κ) :
    (World.init heap key).Valid cmp :=
  ⟨.nil, ⟨⟨⟨List.nodup_nil, rfl, trivial⟩, trivial⟩, SearchTree.ordered_nil⟩, List.Perm.refl _⟩

/-- 一つの操作は故障せず、木を保つ。節点は高々一つ増える。 -/
theorem step_valid (hops : ops.Correct cmp) {w : World P κ} {e : Event P κ}
    {r : Except Fault (World P κ)} (h : w.Valid cmp) (hfuel : w.members.length < fuel)
    (hstep : step ops fuel w e = some r) :
    ∃ w', r = .ok w' ∧ w'.Valid cmp ∧ w'.members.length ≤ w.members.length + 1 := by
  obtain ⟨t, hvalid, hperm⟩ := h
  rw [← hperm.length_eq] at hfuel
  cases e with
  | insert n =>
    obtain rfl := Option.some.inj hstep
    obtain ⟨⟨inserted, ref, s'⟩, t', hrun, hvalid', hins, hsame⟩ :=
      hops.insert _ _ _ _ n hvalid hfuel
    rw [hrun]
    cases inserted with
    | false =>
      obtain rfl := hsame rfl
      exact ⟨_, rfl, ⟨t, hvalid, hperm⟩, Nat.le_succ _⟩
    | true =>
      have hperm' := SearchTree.perm_of_insert hins
      exact ⟨_, rfl, ⟨t', hvalid', hperm'.trans (hperm.cons n)⟩, Nat.le_refl _⟩
  | remove n =>
    obtain ⟨hn, rfl⟩ := of_ite_eq_some hstep
    rw [← hperm.mem_iff] at hn
    obtain ⟨s', t', hrun, hvalid', hlist⟩ := hops.remove _ _ _ _ _ hvalid hn hfuel
    rw [hrun]
    refine ⟨_, rfl, ⟨t', hvalid', ?_⟩, (List.length_erase_le).trans (Nat.le_succ _)⟩
    rw [hlist]
    exact hperm.erase n
  | write n record k =>
    obtain ⟨hn, rfl⟩ := Option.ite_none_left_eq_some.mp hstep |>.imp_right Option.some.inj
    rw [← hperm.mem_iff] at hn
    have hne : ∀ x ∈ t.toList, x ≠ n := by
      rintro x hx rfl
      exact hn hx
    refine ⟨_, rfl, ⟨t, ⟨⟨?_, hvalid.balanced⟩, ?_⟩, hperm⟩, Nat.le_succ _⟩
    · refine hvalid.represents.congr rfl fun x hx => ?_
      simp [Same, Store.modify_heap, hne x hx]
    · exact hvalid.ordered.congr fun x hx => Function.update_of_ne (hne x hx) _ _

/-- 操作の列は故障せず、木を保つ。 -/
theorem run_valid (hops : ops.Correct cmp) {es : List (Event P κ)} {w : World P κ}
    {r : Except Fault (World P κ)} (h : w.Valid cmp) (hfuel : w.members.length + es.length < fuel)
    (hrun : exec (guarded (step ops fuel)) (.ok w) es = some r) :
    ∃ w', r = .ok w' ∧ w'.Valid cmp ∧ w'.members.length < fuel := by
  induction es generalizing w with
  | nil =>
    rw [exec_nil, Option.some.injEq] at hrun
    exact ⟨w, hrun.symm, h, by simpa using hfuel⟩
  | cons e es ih =>
    obtain ⟨r₁, hstep, hrest⟩ := exec_cons_eq_some.mp hrun
    rw [List.length_cons] at hfuel
    obtain ⟨w₁, rfl, hvalid, hlen⟩ := step_valid hops h (by omega) hstep
    exact ih hvalid (by omega) hrest

/-- 挿入は、同じ鍵の節点があるときに限って失敗し、そのとき何も変えない。 -/
theorem Ops.Correct.insert_fails_iff [Std.TransCmp cmp] (hops : ops.Correct cmp) {w : World P κ}
    (h : w.Valid cmp) (hfuel : w.members.length < fuel) (n : P) :
    ∃ r, ops.insert w.key fuel w.tree n = .ok r ∧
      (r.inserted = false ↔ ∃ m ∈ w.members, cmp (w.key n) (w.key m) = .eq) ∧
      (r.inserted = false → r.tree = w.tree) := by
  obtain ⟨t, hvalid, hperm⟩ := h
  rw [← hperm.length_eq] at hfuel
  obtain ⟨r, t', hrun, -, hins, hsame⟩ := hops.insert _ _ _ _ n hvalid hfuel
  refine ⟨r, hrun, ?_, hsame⟩
  have hnone : r.inserted = false ↔ SearchTree.insert cmp w.key n t.toList = none := by
    rw [hins]
    cases r.inserted <;> simp
  rw [hnone, hvalid.ordered.insert_eq_none]
  exact exists_congr fun m => and_congr_left fun _ => hperm.mem_iff

/-! ## 釣り合った探索木 -/

/-- 親と子の link が互いに合う。 -/
structure LinksAgree (s : Store P) (l : List P) : Prop where
  child : ∀ n ∈ l, ∀ d m, (s.heap n).link d = some m → m ∈ l ∧ (s.heap m).parent = some n
  parent : ∀ n ∈ l, ∀ m, (s.heap n).parent = some m → m ∈ l ∧ ∃ d, (s.heap m).link d = some n
  root : ∀ n ∈ l, (s.heap n).parent = none ↔ s.root = some n

omit [DecidableEq P] in
theorem linksAgree (h : Represents s t) : LinksAgree s t.toList where
  child _ hn _ _ hm := h.link_parent hn hm
  parent _ hn _ hm := h.parent_link hn hm
  root _ hn := h.parent_eq_none hn

/-- `members` をちょうど節点に持つ、釣り合った探索木 `t` を表す。 -/
structure World.WellFormed (cmp : κ → κ → Ordering) (w : World P κ) (t : AvlTree P) : Prop where
  represents : Represents w.tree t
  links : LinksAgree w.tree w.members
  /-- 節点の値は両側の高さの差で、-1 か 0 か 1 である。 -/
  balanced : t.Balanced
  members : t.toList.Perm w.members
  increasing : t.toList.Pairwise fun n m => cmp (w.key n) (w.key m) = .lt

omit [DecidableEq P] in
theorem World.Valid.wellFormed {w : World P κ} (h : w.Valid cmp) : ∃ t, w.WellFormed cmp t := by
  obtain ⟨t, hvalid, hperm⟩ := h
  refine ⟨t, hvalid.represents, ?_, hvalid.balanced, hperm, hvalid.ordered⟩
  have hlinks := linksAgree hvalid.represents
  constructor
  · intro n hn d m hm
    have h := hlinks.child n (hperm.mem_iff.mpr hn) d m hm
    exact ⟨hperm.mem_iff.mp h.1, h.2⟩
  · intro n hn m hm
    have h := hlinks.parent n (hperm.mem_iff.mpr hn) m hm
    exact ⟨hperm.mem_iff.mp h.1, h.2⟩
  · intro n hn
    exact hlinks.root n (hperm.mem_iff.mpr hn)

end Structure
