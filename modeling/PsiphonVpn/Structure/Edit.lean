import PsiphonVpn.Infra.LinkedSwap
import PsiphonVpn.Structure.Rebalance

/-!
# AVL 木への挿入と取り外し

`BAVL` と `CAvl` の挿入と取り外しに共通する、書き込みの列の意味。
-/

namespace Structure

open Infra Infra.LinkedTree AvlTree AvlCtx

variable {P : Type} [DecidableEq P] {κ : Type}

/-- 記憶 `s` は釣り合った木 `t` を表す。 -/
structure Shaped (s : Store P) (t : AvlTree P) : Prop where
  represents : Represents s t
  balanced : t.Balanced

/-- さらに、節点は今の鍵について狭義に昇順である。 -/
structure Valid (cmp : κ → κ → Ordering) (key : P → κ) (s : Store P) (t : AvlTree P) :
    Prop extends Shaped s t where
  ordered : SearchTree.Ordered cmp key t.toList

variable {cmp : κ → κ → Ordering} {key : P → κ} {s : Store P} {t : AvlTree P} {c : AvlCtx P}
  {rotate : Rotate P}
  {fuel : Nat}

/-! ## 取り付け -/

variable {n a m : P} {b : Int} {child : Bool → AvlTree P} {d : Bool}

/-- 空いている穴に節点を取り付けて釣り合わせる。 -/
theorem Shaped.attach (hrot : Rotates rotate) {side : Bool} {p : P} {sibling : AvlTree P}
    {up : AvlCtx P} (h : Shaped s ((AvlCtx.frame side p b sibling up).plug .nil))
    (hn : n ∉ ((AvlCtx.frame side p b sibling up).plug .nil).toList)
    (hfuel : ((AvlCtx.frame side p b sibling up).plug .nil).toList.length ≤ fuel) :
    ∃ s' t', rebalance rotate fuel ((s.setLink p side (some n)).initNode n (some p)) p side 1 =
      .ok s' ∧
      Shaped s' t' ∧
      t'.toList = ((AvlCtx.frame side p b sibling up).plug (.node n 0 fun _ => .nil)).toList := by
  have hrep := h.represents.attach hn
  obtain ⟨-, hctx⟩ := balanced_plug.mp h.balanced
  have hleaf : (AvlTree.node n 0 fun _ => .nil).Balanced :=
    ⟨rfl, by decide, by decide, fun _ => trivial⟩
  have hdepth := depth_le_length (AvlCtx.frame side p b sibling up)
  rw [(toList_plug_perm _ _).length_eq, List.length_append] at hfuel
  have hheight : ((AvlTree.node n 0 fun _ => .nil).height : Int) = (.nil : AvlTree P).height + 1 :=
    rfl
  obtain ⟨s', t', hrun, hrep', hlist, hbal⟩ :=
    rebalance_spec hrot hrep hctx hleaf hheight (by decide)
      (by rw [depth] at hdepth; omega : up.depth < fuel)
  exact ⟨s', t', hrun, ⟨hrep', hbal⟩, hlist⟩

omit [DecidableEq P] in
/-- 鍵の入るべき穴を節点で埋めれば、昇順のままである。 -/
theorem ordered_attach [Std.TransCmp cmp] (hord : SearchTree.Ordered cmp key (c.plug .nil).toList)
    (hbetween : Between cmp key (key n) c) :
    SearchTree.Ordered cmp key (c.plug (.node n 0 fun _ => .nil)).toList := by
  have hlist : (c.plug (.node n 0 fun _ => .nil)).toList = (c.rest false).reverse ++
      n :: c.rest true :=
    list_plug true c _
  have hlist' : (c.plug .nil).toList = (c.rest false).reverse ++ c.rest true := list_plug true c _
  rw [hlist'] at hord
  rw [hlist]
  obtain ⟨hlow, hhigh, hcross⟩ := List.pairwise_append.mp hord
  refine List.pairwise_append.mpr
    ⟨hlow, List.pairwise_cons.mpr ⟨hbetween.2, hhigh⟩, fun x hx y hy => ?_⟩
  rcases List.mem_cons.mp hy with rfl | hy
  · exact Std.OrientedCmp.gt_iff_lt.mp (hbetween.1 x (List.mem_reverse.mp hx))
  · exact hcross x hx y hy

/-! ## 取り外し -/

/-- 子が高々一つの節点を子で置き換えれば、列から節点が一つ消える。 -/
theorem toList_detach (hnodup : (c.plug (node a b child)).toList.Nodup) (hnil : child (!d) = .nil) :
    (c.plug (child d)).toList = (c.plug (node a b child)).toList.erase a := by
  obtain ⟨before, after, hlist, hlist'⟩ : ∃ before after, (c.plug (node a b child)).toList =
      before ++ a :: after ∧
      (c.plug (child d)).toList = before ++ after := by
    rw [toList, toList, list_plug, list_plug, list_node]
    cases d with
    | true =>
      refine ⟨(c.rest false).reverse, (child true).toList ++ c.rest true, ?_, rfl⟩
      rw [hnil]
      rfl
    | false =>
      refine ⟨(c.rest false).reverse ++ (child false).toList, c.rest true, ?_, by simp⟩
      rw [show child true = .nil from hnil]
      simp
  rw [hlist] at hnodup ⊢
  rw [hlist', List.erase_append_right _ fun hm => List.disjoint_of_nodup_append hnodup hm
    List.mem_cons_self,
    List.erase_cons_head]

/-- 根でない節点を子で置き換えて釣り合わせる。 -/
theorem Shaped.detach (hrot : Rotates rotate) {side : Bool} {p : P} {bp : Int}
    {sibling : AvlTree P} {up : AvlCtx P}
    (h : Shaped s ((AvlCtx.frame side p bp sibling up).plug (node a b child)))
    (hnil : child (!d) = .nil)
    (hfuel : ((AvlCtx.frame side p bp sibling up).plug (node a b child)).toList.length ≤ fuel) :
    ∃ s' t', rebalance rotate fuel (s.replaceSubtree (some p) a (child d).ptr) p side (-1) =
      .ok s' ∧
      Shaped s' t' ∧
        t'.toList = ((AvlCtx.frame side p bp sibling up).plug (node a b child)).toList.erase a := by
  have hrep := h.represents.replaceSubtree hnil
  obtain ⟨hbal, hctx⟩ := balanced_plug.mp h.balanced
  have hheight : ((child d).height : Int) = (node a b child).height + (-1) := by
    rw [height_node d, hnil, height_nil]
    omega
  have hdepth := depth_le_length (AvlCtx.frame side p bp sibling up)
  rw [(toList_plug_perm _ _).length_eq, List.length_append] at hfuel
  obtain ⟨s', t', hrun, hrep', hlist, hbal'⟩ :=
    rebalance_spec hrot hrep hctx (hbal.2.2.2 d) hheight (by decide)
      (by rw [depth] at hdepth; omega : up.depth < fuel)
  exact ⟨s', t', hrun, ⟨hrep', hbal'⟩, hlist.trans (toList_detach h.represents.nodup hnil)⟩

theorem Shaped.detachRoot (h : Shaped s (node a b child)) (hnil : child (!d) = .nil) :
    Shaped (s.replaceSubtree none a (child d).ptr) (child d) ∧
      (child d).toList = (node a b child).toList.erase a :=
  ⟨⟨Represents.replaceSubtree (c := .top) h.represents hnil, h.balanced.2.2.2 d⟩,
    toList_detach (c := .top) h.represents.nodup hnil⟩

/-! ## 両側に子を持つ節点 -/

omit [DecidableEq P] in
/-- 左の部分木の最後の節点 `m` は、列で `n` のすぐ前にあり、`n` の親でも兄弟でもない。 -/
theorem beforeSwap (h : Represents s (c.plug (node n b child)))
    (hm : (child false).toList.getLast? = some m) :
    n ≠ m ∧ (s.heap n).parent ≠ some m ∧ (s.heap n).parent ≠ (s.heap m).parent ∧
      ∃ before after, (c.plug (node n b child)).toList = before ++ m :: n :: after := by
  obtain ⟨hnodup, ⟨hparent, -, -, hsub⟩, -⟩ := represents_plug.mp h
  obtain ⟨init, hinit⟩ := List.getLast?_eq_some_iff.mp hm
  have hmem : m ∈ (child false).toList := by simp [hinit]
  have hdisj := List.disjoint_of_nodup_append hnodup
  refine ⟨?_, ?_, ?_, (c.rest false).reverse ++ init, (child true).toList ++ c.rest true, ?_⟩
  · rintro rfl
    have hnodup' := hnodup.of_append_left
    rw [(toList_node_perm false n b child).nodup_iff, List.nodup_cons] at hnodup'
    exact hnodup'.1 (List.mem_append_left _ hmem)
  · rw [hparent]
    intro hptr
    exact hdisj (mem_list_child false hmem) (mem_nodes_of_ptr hptr)
  · rw [hparent]
    intro heq
    rcases (hsub false).parent_mem hmem with hp | ⟨y, hy, hp⟩
    · exact hdisj (mem_of_ptr rfl _) (mem_nodes_of_ptr (heq.trans hp))
    · exact hdisj (mem_list_child false hy) (mem_nodes_of_ptr (heq.trans hp))
  · rw [toList, list_plug, list_node]
    simp only [Bool.not_true, hinit]
    simp

theorem erase_map_swap {before after : List P} (hnodup : (before ++ m :: n :: after).Nodup) :
    ((before ++ m :: n :: after).map (Equiv.swap n m)).erase n = (before ++ m :: n :: after).erase
      n := by
  simp only [List.nodup_append, List.nodup_cons, List.mem_cons, not_or] at hnodup
  obtain ⟨-, ⟨⟨hmn, hma⟩, hna, -⟩, hcross⟩ := hnodup
  have hnb : n ∉ before := fun hn => hcross n hn n (Or.inr (Or.inl rfl)) rfl
  have hmb : m ∉ before := fun hm => hcross m hm m (Or.inl rfl) rfl
  have hid : ∀ l : List P, n ∉ l → m ∉ l → l.map (Equiv.swap n m) = l := by
    intro l hn hm
    refine (List.map_congr_left fun x hx => ?_).trans (List.map_id l)
    exact Equiv.swap_apply_of_ne_of_ne (fun e => hn (e ▸ hx)) fun e => hm (e ▸ hx)
  rw [List.map_append, List.map_cons, List.map_cons, hid before hnb hmb, hid after hna hma,
    Equiv.swap_apply_left, Equiv.swap_apply_right, List.erase_append_right _ hnb,
    List.erase_append_right _ hnb, List.erase_cons_head, List.erase_cons_tail (by simpa using hmn),
    List.erase_cons_head]

/-- 入れ替えた後の `n` は右に子を持たない。`n` を消した列は、入れ替える前と同じである。 -/
theorem Shaped.afterSwap {s' : Store P} (h : Shaped s (c.plug (node n b child)))
    (hm : (child false).toList.getLast? = some m) (hlink : (s.heap m).link true = none)
    (hrep : Represents s' ((c.plug (node n b child)).map (Equiv.swap n m))) :
    ∃ (c' : AvlCtx P) (b' : Int) (child' : Bool → AvlTree P),
      Shaped s' (c'.plug (node n b' child')) ∧
      child' true = .nil ∧ (c'.plug (node n b' child')).toList.erase n =
        (c.plug (node n b child)).toList.erase n ∧
      (c'.plug (node n b' child')).toList.length = (c.plug (node n b child)).toList.length := by
  obtain ⟨-, -, -, before, after, hlist⟩ := beforeSwap h.represents hm
  have hmem : m ∈ (c.plug (node n b child)).toList := by simp [hlist]
  have hbal := (balanced_map (Equiv.swap n m)).mpr h.balanced
  have hmap : ((c.plug (node n b child)).map (Equiv.swap n m)).toList =
      (c.plug (node n b child)).toList.map (Equiv.swap n m) := list_map _ _ _
  have hnodup := h.represents.nodup
  -- 入れ替えた後の `n` の場所は、前の `m` の場所である
  obtain ⟨cm, bm, chm, heq⟩ := exists_plug_of_mem hmem
  have hnil : chm true = .nil := by
    have hread := h.represents
    rw [heq] at hread
    rw [hread.read.2.1] at hlink
    exact ptr_eq_none.mp hlink
  obtain ⟨c', hc'⟩ := exists_plug_map (Equiv.swap n m) cm (node m bm chm)
  rw [← heq, AvlTree.map, Equiv.swap_apply_right] at hc'
  refine ⟨c', bm, fun d => (chm d).map (Equiv.swap n m), ?_, ?_, ?_, ?_⟩
  · rw [← hc']
    exact ⟨hrep, hbal⟩
  · simp only [hnil, AvlTree.map]
  · rw [hlist] at hnodup
    rw [← hc', hmap, hlist]
    exact erase_map_swap hnodup
  · rw [← hc', hmap, List.length_map]

end Structure
