import PsiphonVpn.Infra.LinkedTree
import PsiphonVpn.Infra.SearchTree
import PsiphonVpn.Infra.Checked

/-!
# link を辿る loop

link で繋いだ木を辿る loop と、その結果。loop は fuel を持ち、尽きれば故障とする。木の高さや深さに足りる fuel があれば
尽きない。

* `Store.farthest` — 片側の子を辿り尽くす
* `Store.climb` — 片側の子である間だけ親へ上る
* `Store.neighbour` — 列の次の節点
* `Store.search` — 鍵を比べながら根から下りる
* `Represents.neighbour` — 列の次の節点を返す
* `Represents.search` — 同じ鍵の節点か、その鍵の入るべき穴を返す
-/

namespace Infra.LinkedTree

open AvlTree AvlCtx

variable {P : Type} {s : Store P} {t : AvlTree P} {c : AvlCtx P} {dir : Bool} {fuel : Nat}

/-! ## 片側に辿る -/

/-- `while (n->link[dir]) n = n->link[dir];` -/
def Store.farthest (s : Store P) (dir : Bool) : Nat → P → Except Fault P
  | 0, _ => .error .outOfFuel
  | fuel + 1, n =>
    match (s.heap n).link dir with
    | none => .ok n
    | some m => s.farthest dir fuel m

/-- 列の最後の節点に着く。 -/
theorem Sub.farthest {par : Option P} {a : P} (h : Sub s par t) (dir : Bool) (ha : t.ptr = some a)
    (hfuel : t.height ≤ fuel) :
    ∃ m, s.farthest dir fuel a = .ok m ∧ (t.list dir).getLast? = some m ∧
      (s.heap m).link dir = none := by
  induction t generalizing par a fuel with
  | nil => cases ha
  | node a' b child ih =>
    cases ha
    obtain ⟨-, hlink, -, hsub⟩ := h
    rw [height_node dir] at hfuel
    obtain ⟨fuel, rfl⟩ : ∃ k, fuel = k + 1 := ⟨fuel - 1, by omega⟩
    rw [Store.farthest, hlink, list_node]
    cases hptr : (child dir).ptr with
    | none =>
      rw [ptr_eq_none.mp hptr]
      refine ⟨a', rfl, by simp, ?_⟩
      rw [hlink, hptr]
    | some m =>
      obtain ⟨m', hm, hlast, hnone⟩ := ih dir (hsub dir) hptr (by omega : _ ≤ fuel)
      refine ⟨m', hm, ?_, hnone⟩
      rw [List.getLast?_append, List.getLast?_cons, hlast]
      rfl

theorem head?_list (dir : Bool) (t : AvlTree P) :
    (t.list dir).head? = (t.list (!dir)).getLast? := by
  rw [list_not, List.getLast?_reverse]

variable [DecidableEq P]

/-- `while (n->parent && n == n->parent->link[dir]) n = n->parent; n = n->parent;` -/
def Store.climb (s : Store P) (dir : Bool) : Nat → P → Except Fault (Option P)
  | 0, _ => .error .outOfFuel
  | fuel + 1, n =>
    match (s.heap n).parent with
    | none => .ok none
    | some p => if (s.heap p).link dir = some n then s.climb dir fuel p else .ok (some p)

/-- 穴の外の最初の節点に着く。 -/
theorem Represents.climb {a : P} (h : Represents s (c.plug t)) (ha : t.ptr = some a)
    (hfuel : c.depth < fuel) :
    s.climb dir fuel a = .ok (c.rest dir).head? := by
  induction c generalizing t a fuel with
  | top =>
    obtain ⟨b, child, rfl⟩ := exists_node_of_ptr ha
    obtain ⟨fuel, rfl⟩ : ∃ k, fuel = k + 1 := ⟨fuel - 1, by omega⟩
    rw [Store.climb, h.read.1]
    rfl
  | frame side p b sibling up ih =>
    obtain ⟨b', child, rfl⟩ := exists_node_of_ptr ha
    obtain ⟨fuel, rfl⟩ : ∃ k, fuel = k + 1 := ⟨fuel - 1, by omega⟩
    have hup : Represents s (up.plug (node p b (kids side (node a b' child) sibling))) := h
    obtain ⟨hlink, hother, -⟩ := h.side_eq rfl
    rw [Store.climb, h.read.1]
    simp only [AvlCtx.ptr, rest]
    rcases eq_or_eq_not dir side with rfl | rfl
    · rw [if_pos hlink, if_pos rfl]
      exact ih hup rfl (by simpa [depth] using hfuel)
    · rw [if_neg hother, if_neg (by simp)]
      rfl

/-- 列の `dir` の向きに次の節点。 -/
def Store.neighbour (s : Store P) (dir : Bool) (fuel : Nat) (n : P) : Except Fault (Option P) :=
  match (s.heap n).link dir with
  | some m => (s.farthest (!dir) fuel m).map some
  | none => s.climb dir fuel n

theorem neighbour_plug {a : P} {b : Int} {child : Bool → AvlTree P}
    (h : Represents s (c.plug (node a b child)))
    (hfuel : (c.plug (node a b child)).toList.length < fuel) :
    s.neighbour dir fuel a = .ok ((child dir).list dir ++ c.rest dir).head? := by
  have hlen := (toList_plug_perm c (node a b child)).length_eq
  rw [List.length_append] at hlen
  have hheight : (node a b child).height ≤ (node a b child).toList.length := height_le_length true _
  have hdepth := depth_le_length c
  obtain ⟨-, ⟨-, hlink, -, hsub⟩, -⟩ := represents_plug.mp h
  rw [Store.neighbour, hlink]
  cases hptr : (child dir).ptr with
  | none =>
    rw [ptr_eq_none.mp hptr]
    exact h.climb rfl (by omega)
  | some m =>
    rw [height_node dir] at hheight
    obtain ⟨m', hm, hlast, -⟩ := (hsub dir).farthest (!dir) hptr (by omega : _ ≤ fuel)
    rw [← head?_list] at hlast
    simp only [hm, List.head?_append, hlast]
    rfl

/-- 列の次の節点を返す。 -/
theorem Represents.neighbour (h : Represents s t) (hfuel : t.toList.length < fuel)
    {before after : List P} {a : P} (hlist : t.list dir = before ++ a :: after) :
    s.neighbour dir fuel a = .ok after.head? := by
  obtain ⟨c, b, child, rfl⟩ := exists_plug_of_mem (show a ∈ t.list dir by simp [hlist])
  have hnodup : ((c.plug (node a b child)).list dir).Nodup := nodup_list_iff.mpr h.nodup
  have hsplit : (c.plug (node a b child)).list dir =
      ((c.rest (!dir)).reverse ++ (child (!dir)).list dir) ++
        a :: ((child dir).list dir ++ c.rest dir) := by
    simp [list_plug, list_node]
  -- 節点は重ならないので、列の `a` の後ろは一通りに決まる
  rw [hsplit] at hlist hnodup
  have hbefore := List.disjoint_of_nodup_append hnodup
  have hafter := List.nodup_cons.mp hnodup.of_append_right
  have hinj := (List.append_cons_inj_of_notMem (fun hm => hbefore hm List.mem_cons_self)
    hafter.1).mp hlist
  rw [neighbour_plug h hfuel, hinj.2.2]

/-- `next` を繰り返して節点を並べる。 -/
def walk (next : P → Except Fault (Option P)) : Nat → Option P → Except Fault (List P)
  | _, none => .ok []
  | 0, some _ => .error .outOfFuel
  | fuel + 1, some n => do
    let m ← next n
    let l ← walk next fuel m
    return n :: l

omit [DecidableEq P] in
theorem walk_eq {next : P → Except Fault (Option P)} {l : List P}
    (hnext : ∀ before a after, l = before ++ a :: after → next a = .ok after.head?)
    (hfuel : l.length ≤ fuel) :
    walk next fuel l.head? = .ok l := by
  induction l generalizing fuel with
  | nil => rw [List.head?_nil, walk]
  | cons a l ih =>
    obtain ⟨fuel, rfl⟩ : ∃ k, fuel = k + 1 := ⟨fuel - 1, by rw [List.length_cons] at hfuel; omega⟩
    rw [List.head?_cons, walk, hnext [] a l rfl, ok_bind,
      ih (fun before b after heq => hnext (a :: before) b after (by rw [heq]; rfl))
        (by simpa using hfuel)]
    rfl

/-! ## 鍵の探索 -/

section Search

variable {κ : Type} (cmp : κ → κ → Ordering) (key : P → κ) (k : κ)

/-- 根から鍵を比べて下りる。同じ鍵の節点か、子のない側に着いた節点とその側を返す。 -/
def Store.search (s : Store P) : Nat → P → Except Fault (P × Option Bool)
  | 0, _ => .error .outOfFuel
  | fuel + 1, c =>
    match cmp k (key c) with
    | .eq => .ok (c, none)
    | comp =>
      match (s.heap c).link (decide (comp = .gt)) with
      | none => .ok (c, some (decide (comp = .gt)))
      | some m => s.search fuel m

/-- 穴は鍵 `k` の入るべき所にある。 -/
def Between (c : AvlCtx P) : Prop :=
  (∀ x ∈ c.rest false, cmp k (key x) = .gt) ∧ ∀ x ∈ c.rest true, cmp k (key x) = .lt

variable {cmp key k}

omit [DecidableEq P] in
/-- 鍵の大小の側へ下りても、穴は入るべき所にある。 -/
theorem Between.frame [Std.TransCmp cmp] {side : Bool} {a : P} {b : Int} {child : Bool → AvlTree P}
    (h : Between cmp key k c) (hord : SearchTree.Ordered cmp key (node a b child).toList)
    (hcmp : cmp k (key a) = if side then .gt else .lt) :
    Between cmp key k (.frame side a b (child (!side)) c) := by
  obtain ⟨hlow, hhigh⟩ := h
  obtain ⟨-, hright, hcross⟩ := List.pairwise_append.mp hord
  rw [List.pairwise_cons] at hright
  cases side with
  | true =>
    refine ⟨?_, by simpa [rest] using hhigh⟩
    simp only [rest, Bool.true_eq_false, if_false, List.mem_cons, List.mem_append]
    rintro x (rfl | hx | hx)
    · exact hcmp
    · have hlt := hcross x (mem_list_iff.mp hx) a List.mem_cons_self
      exact Std.OrientedCmp.gt_iff_lt.mpr
        (Std.TransCmp.lt_trans hlt (Std.OrientedCmp.gt_iff_lt.mp hcmp))
    · exact hlow x hx
  | false =>
    refine ⟨by simpa [rest] using hlow, ?_⟩
    simp only [rest, Bool.false_eq_true, if_false, List.mem_cons, List.mem_append]
    rintro x (rfl | hx | hx)
    · exact hcmp
    · exact Std.TransCmp.lt_trans hcmp (hright.1 x hx)
    · exact hhigh x hx

omit [DecidableEq P] in
theorem Between.ne_eq (h : Between cmp key k c) {x : P} (hx : x ∈ (c.plug .nil).toList) :
    cmp k (key x) ≠ .eq := by
  rw [(toList_plug_perm c .nil).mem_iff, toList, list_nil, List.nil_append, nodes] at hx
  rcases List.mem_append.mp hx with hx | hx
  · rw [h.1 x hx]
    decide
  · rw [h.2 x hx]
    decide

omit [DecidableEq P] in
/-- 同じ鍵の節点か、鍵の入るべき穴に着く。 -/
theorem Represents.search [Std.TransCmp cmp] {a : P} (h : Represents s (c.plug t))
    (ha : t.ptr = some a) (hord : SearchTree.Ordered cmp key (c.plug t).toList)
    (hbetween : Between cmp key k c) (hfuel : t.height ≤ fuel) :
    (∃ p ∈ (c.plug t).toList, s.search cmp key k fuel a = .ok (p, none) ∧ cmp k (key p) = .eq) ∨
      ∃ side p b sibling up, s.search cmp key k fuel a = .ok (p, some side) ∧
        c.plug t = (AvlCtx.frame side p b sibling up).plug .nil ∧
        Between cmp key k (.frame side p b sibling up) := by
  induction t generalizing c a fuel with
  | nil => cases ha
  | node a' b child ih =>
    cases ha
    obtain ⟨fuel, rfl⟩ : ∃ k, fuel = k + 1 := ⟨fuel - 1, by rw [height_node true] at hfuel; omega⟩
    have hmem : a' ∈ (c.plug (node a' b child)).toList :=
      (toList_plug_perm _ _).mem_iff.mpr (List.mem_append_left _ (mem_of_ptr rfl _))
    have hord' : SearchTree.Ordered cmp key (node a' b child).toList := by
      rw [toList, list_plug] at hord
      exact (List.pairwise_append.mp (List.pairwise_append.mp hord).2.1).1
    -- 大小の側 `side` へ下りる
    have hdown (side : Bool) (hcmp : cmp k (key a') = if side then .gt else .lt) :
        s.search cmp key k (fuel + 1) a' = match (s.heap a').link side with
          | none => .ok (a', some side)
          | some m => s.search cmp key k fuel m := by
      rw [Store.search]
      cases side <;> simp only [hcmp] <;> rfl
    have hside : cmp k (key a') = .eq ∨ ∃ side : Bool, cmp k (key a') = if side then .gt
        else .lt := by
      cases hcmp : cmp k (key a') with
      | lt => exact Or.inr ⟨false, rfl⟩
      | eq => exact Or.inl rfl
      | gt => exact Or.inr ⟨true, rfl⟩
    rcases hside with heq | ⟨side, hcmp⟩
    · refine Or.inl ⟨a', hmem, ?_, heq⟩
      simp only [Store.search, heq]
    · rw [hdown side hcmp, h.read.2.1]
      have hbetween' := hbetween.frame hord' hcmp
      have hplug : c.plug (node a' b child) = (AvlCtx.frame side a' b (child (!side)) c).plug
          (child side) := by
        rw [AvlCtx.plug, kids_eta]
      cases hptr : (child side).ptr with
      | none =>
        refine Or.inr ⟨side, a', b, child (!side), c, rfl, ?_, hbetween'⟩
        rw [hplug, ptr_eq_none.mp hptr]
      | some m =>
        rw [hplug] at h hord ⊢
        rw [height_node side] at hfuel
        exact ih side h hptr hord hbetween' (by omega)

end Search

end Infra.LinkedTree
