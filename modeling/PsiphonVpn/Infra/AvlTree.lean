import Mathlib.Data.List.Basic
import Mathlib.Data.List.Nodup
import Mathlib.Logic.Basic
import Mathlib.Tactic.Cases

/-!
# 釣り合いの値を持つ二分木

節点ごとに「右の高さ引く左の高さ」を持つ木と、その中の一点までの道。左右は `Bool` で表し（`false` が左）、左右対称な
事柄は向き `dir` についての一つの補題にする。

* `list dir` — `dir` の向きに節点を並べた列。`list true` が昇順である
* `balanced_plug` — 木が釣り合っていることは、穴の中と外がそれぞれ釣り合っていることである
* `balanced_restore_single`・`balanced_restore_double` — 片側が二つ高い節点を回転で直す
-/

namespace Infra

/-- `false` が左、`true` が右の子である。 -/
inductive AvlTree (P : Type*)
  | nil
  | node (a : P) (b : Int) (child : Bool → AvlTree P)

/-- 穴のある木。`frame` は穴の側、すぐ上の節点とその値、もう一方の子、さらに上を並べる。 -/
inductive AvlCtx (P : Type*)
  | top
  | frame (side : Bool) (a : P) (b : Int) (sibling : AvlTree P) (up : AvlCtx P)

/-- `neg ? -a : a` -/
def optneg (a : Int) (neg : Bool) : Int := if neg then -a else a

/-- 側の符号。右が 1、左が -1。 -/
def sgn (side : Bool) : Int := if side then 1 else -1

theorem mul_sgn_not (a : Int) (side : Bool) : a * sgn (!side) = -(a * sgn side) := by
  cases side <;> simp [sgn]

@[simp] theorem mul_sgn_sgn (a : Int) (side : Bool) : a * sgn side * sgn side = a := by
  cases side <;> simp [sgn]

theorem mul_sgn_range {a : Int} (h : -1 ≤ a ∧ a ≤ 1) (side : Bool) :
    -1 ≤ a * sgn side ∧ a * sgn side ≤ 1 := by
  cases side
  · simp only [sgn, Bool.false_eq_true, if_false]
    omega
  · simp only [sgn, if_true]
    omega

theorem eq_or_eq_not (d dir : Bool) : d = dir ∨ d = !dir := by
  cases d <;> cases dir <;> simp

variable {P : Type*}

variable {t u : AvlTree P} {a : P} {dir side : Bool} {b : Int} {c : AvlCtx P}

variable {child child' : Bool → AvlTree P}

namespace AvlTree

def ptr : AvlTree P → Option P
  | nil => none
  | node a _ _ => some a

/-- `side` の側が `t`、もう一方が `u`。 -/
def kids (side : Bool) (t u : AvlTree P) : Bool → AvlTree P := fun d => if d = side then t else u

/-- `dir` の向きに並べた節点。 -/
def list (dir : Bool) : AvlTree P → List P
  | nil => []
  | node a _ child => (child (!dir)).list dir ++ a :: (child dir).list dir

/-- 昇順に並べた節点。 -/
abbrev toList (t : AvlTree P) : List P := t.list true

def height : AvlTree P → Nat
  | nil => 0
  | node _ _ child => max (child false).height (child true).height + 1

/-- どの節点の値も子の高さの差で、その差は 1 を超えない。 -/
def Balanced : AvlTree P → Prop
  | nil => True
  | node _ b child =>
    b = (child true).height - (child false).height ∧ -1 ≤ b ∧ b ≤ 1 ∧ ∀ d, (child d).Balanced

@[simp] theorem kids_self (side : Bool) (t u : AvlTree P) : kids side t u side = t := if_pos rfl

@[simp] theorem kids_not (side : Bool) (t u : AvlTree P) : kids side t u (!side) = u :=
  if_neg (by simp)

@[simp] theorem kids_not_self (side : Bool) (t u : AvlTree P) : kids (!side) t u side = u :=
  if_neg (by simp)

theorem kids_comm (side : Bool) (t u : AvlTree P) : kids (!side) t u = kids side u t := by
  funext d
  cases d <;> cases side <;> rfl

theorem kids_eta (side : Bool) (child : Bool → AvlTree P) :
    kids side (child side) (child (!side)) = child := by
  funext d
  cases d <;> cases side <;> rfl

@[simp] theorem ptr_nil : (nil : AvlTree P).ptr = none := rfl

@[simp] theorem ptr_node (a : P) (b : Int) (child : Bool → AvlTree P) :
    (node a b child).ptr = some a := rfl

@[simp] theorem list_nil (dir : Bool) : (nil : AvlTree P).list dir = [] := rfl

theorem list_node (dir : Bool) (a : P) (b : Int) (child : Bool → AvlTree P) :
    (node a b child).list dir = (child (!dir)).list dir ++ a :: (child dir).list dir := rfl

@[simp] theorem height_nil : (nil : AvlTree P).height = 0 := rfl

theorem height_node (dir : Bool) (a : P) (b : Int) (child : Bool → AvlTree P) :
    (node a b child).height = max (child dir).height (child (!dir)).height + 1 := by
  cases dir
  · rfl
  · exact congrArg (· + 1) (Nat.max_comm _ _)

theorem ptr_eq_none : t.ptr = none ↔ t = nil := by
  cases t <;> simp

theorem exists_node_of_ptr (h : t.ptr = some a) : ∃ b child, t = node a b child := by
  cases t with
  | nil => cases h
  | node a' b child =>
    cases h
    exact ⟨b, child, rfl⟩

/-- 逆の向きの列は逆順である。 -/
theorem list_not (dir : Bool) (t : AvlTree P) : t.list (!dir) = (t.list dir).reverse := by
  induction t with
  | nil => rfl
  | node a b child ih =>
    rw [list_node, list_node, Bool.not_not, ih, ih]
    simp

theorem list_eq_of_list_eq (h : t.list dir = u.list dir) (dir' : Bool) :
    t.list dir' = u.list dir' := by
  rcases eq_or_eq_not dir' dir with rfl | rfl
  · exact h
  · rw [list_not, list_not, h]

theorem mem_list_iff {dir' : Bool} {x : P} : x ∈ t.list dir ↔ x ∈ t.list dir' := by
  rcases eq_or_eq_not dir dir' with rfl | rfl
  · rfl
  · rw [list_not, List.mem_reverse]

theorem nodup_list_iff {dir' : Bool} : (t.list dir).Nodup ↔ (t.list dir').Nodup := by
  rcases eq_or_eq_not dir dir' with rfl | rfl
  · rfl
  · rw [list_not, List.nodup_reverse]

theorem mem_of_ptr (h : t.ptr = some a) (dir : Bool) : a ∈ t.list dir := by
  obtain ⟨b, child, rfl⟩ := exists_node_of_ptr h
  simp [list_node]

theorem mem_list_child {x : P} (d : Bool) (h : x ∈ (child d).list dir) :
    x ∈ (node a b child).list dir := by
  rcases eq_or_eq_not d dir with rfl | rfl
  · exact List.mem_append_right _ (List.mem_cons_of_mem _ h)
  · exact List.mem_append_left _ h

theorem toList_node_perm (dir : Bool) (a : P) (b : Int) (child : Bool → AvlTree P) :
    (node a b child).toList.Perm (a :: ((child dir).toList ++ (child (!dir)).toList)) := by
  refine List.perm_middle.trans (List.Perm.cons a ?_)
  cases dir
  · exact List.Perm.refl _
  · exact List.perm_append_comm

theorem height_le_length (dir : Bool) (t : AvlTree P) : t.height ≤ (t.list dir).length := by
  induction t with
  | nil => exact Nat.zero_le _
  | node a b child ih =>
    have h1 := ih dir
    have h2 := ih (!dir)
    rw [height_node dir, list_node, List.length_append, List.length_cons]
    omega

/-! ## 釣り合い -/

theorem balanced_node_iff (side : Bool) :
    (node a b child).Balanced ↔
      b * sgn side = (child side).height - (child (!side)).height ∧ -1 ≤ b ∧ b ≤ 1 ∧
        (child side).Balanced ∧ (child (!side)).Balanced := by
  rw [Balanced, Bool.forall_bool]
  cases side
  · simp only [sgn, Bool.not_false, Bool.false_eq_true, if_false]
    constructor
    · rintro ⟨h, h1, h2, h3, h4⟩
      exact ⟨by omega, h1, h2, h3, h4⟩
    · rintro ⟨h, h1, h2, h3, h4⟩
      exact ⟨by omega, h1, h2, h3, h4⟩
  · simp only [sgn, Bool.not_true, if_true]
    constructor
    · rintro ⟨h, h1, h2, h3, h4⟩
      exact ⟨by omega, h1, h2, h4, h3⟩
    · rintro ⟨h, h1, h2, h3, h4⟩
      exact ⟨by omega, h1, h2, h4, h3⟩

theorem diff_of_diff (h : b * sgn side = (child side).height - (child (!side)).height) (d : Bool) :
    b * sgn d = (child d).height - (child (!d)).height := by
  rcases eq_or_eq_not d side with rfl | rfl
  · exact h
  · rw [mul_sgn_not, h, Bool.not_not]
    omega

theorem balanced_kids :
    (node a b (kids side t u)).Balanced ↔
      b * sgn side = t.height - u.height ∧ -1 ≤ b ∧ b ≤ 1 ∧ t.Balanced ∧ u.Balanced := by
  rw [balanced_node_iff side, kids_self, kids_not]

theorem height_kids : (node a b (kids side t u)).height = max t.height u.height + 1 := by
  rw [height_node side, kids_self, kids_not]

/-- `r` の `dir` でない側の子 `nr` を上に回した木。 -/
def rotated (dir : Bool) (r : P) (b : Int) (child : Bool → AvlTree P) (nr : P) (b' : Int)
    (child' : Bool → AvlTree P) : AvlTree P :=
  node nr b' (kids dir (node r b (kids dir (child dir) (child' dir))) (child' (!dir)))

theorem list_rotated (dir dir' : Bool) {r nr : P} {b' b₁ b₂ : Int}
    (h : child (!dir) = node nr b₂ child') :
    (rotated dir r b child nr b' child').list dir' = (node r b₁ child).list dir' := by
  refine @list_eq_of_list_eq _ _ _ dir ?_ dir'
  simp [rotated, list_node, h]

theorem rotated_rotated (side : Bool) {cb g : P} {bc bg : Int} {child'' : Bool → AvlTree P} :
    rotated (!side) a b (kids side (rotated side cb bc child' g bg child'') t) g bg
        (kids side (node cb bc (kids side (child' side) (child'' side))) (child'' (!side))) =
      node g bg (kids side (node cb bc (kids side (child' side) (child'' side)))
        (node a b (kids side (child'' (!side)) t))) := by
  simp [rotated, kids_comm]

theorem list_inner (side dir : Bool) {cb g : P} {bc bg b₁ b₂ b₃ : Int}
    {child'' : Bool → AvlTree P} (h : child side = node cb b₁ child')
    (h' : child' (!side) = node g b₂ child'') :
    (node g bg (kids side (node cb bc (kids side (child' side) (child'' side)))
      (node a b (kids side (child'' (!side)) (child (!side)))))).list dir =
        (node a b₃ child).list dir := by
  refine @list_eq_of_list_eq _ _ _ side ?_ dir
  simp [list_node, h, h']

section Restore

variable {r cb g : P} {bc bg : Int} {child child' child'' : Bool → AvlTree P} {bside : Bool}

/-- 高い側の子も同じ側が高ければ、一回の回転で低くなる。 -/
theorem balanced_restore_outer (hchild : child bside = node cb bc child')
    (hA : (child (!bside)).Balanced) (hbal : (child bside).Balanced)
    (hheight : (child bside).height = (child (!bside)).height + 2) (hb : bc * sgn bside = 1) :
    (rotated (!bside) r 0 child cb 0 child').Balanced ∧
      (rotated (!bside) r 0 child cb 0 child').height = (child (!bside)).height + 2 := by
  rw [hchild, balanced_node_iff bside] at hbal
  rw [hchild, height_node bside] at hheight
  obtain ⟨hdiff, -, -, hC, hB⟩ := hbal
  simp only [rotated, kids_comm, balanced_kids, height_kids, Bool.not_not, Int.zero_mul]
  exact ⟨⟨by omega, by omega, by omega, hC, by omega, by omega, by omega, hB, hA⟩, by omega⟩

/-- 高い側の子が釣り合っていれば、一回の回転で直り、高さは変わらない。 -/
theorem balanced_restore_level (hchild : child bside = node cb bc child')
    (hA : (child (!bside)).Balanced) (hbal : (child bside).Balanced)
    (hheight : (child bside).height = (child (!bside)).height + 2) (hb : bc * sgn bside = 0) :
    (rotated (!bside) r (1 * sgn bside) child cb (-1 * sgn bside) child').Balanced ∧
      (rotated (!bside) r (1 * sgn bside) child cb (-1 * sgn bside) child').height =
        (child (!bside)).height + 3 := by
  rw [hchild, balanced_node_iff bside] at hbal
  rw [hchild, height_node bside] at hheight
  obtain ⟨hdiff, -, -, hC, hB⟩ := hbal
  have h1 : -1 ≤ 1 * sgn bside ∧ 1 * sgn bside ≤ 1 := mul_sgn_range (by decide) bside
  have h2 : -1 ≤ -1 * sgn bside ∧ -1 * sgn bside ≤ 1 := mul_sgn_range (by decide) bside
  simp only [rotated, kids_comm, balanced_kids, height_kids, Bool.not_not, mul_sgn_sgn]
  exact ⟨⟨by omega, h2.1, h2.2, hC, by omega, h1.1, h1.2, hB, hA⟩, by omega⟩

/-- 高い側の子の逆の側が高ければ、二回の回転で低くなる。 -/
theorem balanced_restore_inner (hchild : child bside = node cb bc child')
    (hgchild : child' (!bside) = node g bg child'') (hA : (child (!bside)).Balanced)
    (hbal : (child bside).Balanced) (hheight : (child bside).height = (child (!bside)).height + 2)
    (hb : bc * sgn bside = -1) :
    (node g 0 (kids bside
        (node cb (max 0 (-bg * sgn bside) * sgn bside) (kids bside (child' bside) (child'' bside)))
        (node r (-max 0 (bg * sgn bside) * sgn bside)
          (kids bside (child'' (!bside)) (child (!bside)))))).Balanced ∧
      (node g 0 (kids bside
        (node cb (max 0 (-bg * sgn bside) * sgn bside) (kids bside (child' bside) (child'' bside)))
        (node r (-max 0 (bg * sgn bside) * sgn bside)
          (kids bside (child'' (!bside)) (child (!bside)))))).height =
        (child (!bside)).height + 2 := by
  rw [hchild, balanced_node_iff bside, hgchild, balanced_node_iff bside] at hbal
  rw [hchild, height_node bside, hgchild, height_node bside] at hheight
  obtain ⟨hdiff, -, -, hC, hdiff', hbg1, hbg2, hD, hE⟩ := hbal
  rw [height_node bside] at hdiff
  have hrange := mul_sgn_range ⟨hbg1, hbg2⟩ bside
  have hneg : -bg * sgn bside = -(bg * sgn bside) := Int.neg_mul _ _
  have h1 : -1 ≤ max 0 (-bg * sgn bside) ∧ max 0 (-bg * sgn bside) ≤ 1 := by omega
  have h2 : -1 ≤ -max 0 (bg * sgn bside) ∧ -max 0 (bg * sgn bside) ≤ 1 := by omega
  have h1' := mul_sgn_range h1 bside
  have h2' := mul_sgn_range h2 bside
  simp only [balanced_kids, height_kids, mul_sgn_sgn, Int.zero_mul]
  exact ⟨⟨by omega, by omega, by omega, ⟨by omega, h1'.1, h1'.2, hC, hD⟩, by omega, h2'.1, h2'.2,
    hE, hA⟩, by omega⟩

end Restore

/-! ## 節点の付け替え -/

def map {Q : Type*} (f : P → Q) : AvlTree P → AvlTree Q
  | nil => nil
  | node a b child => node (f a) b fun d => (child d).map f

section Map

variable {Q : Type*} (f : P → Q)

theorem ptr_map (t : AvlTree P) : (t.map f).ptr = t.ptr.map f := by
  cases t <;> rfl

theorem list_map (dir : Bool) (t : AvlTree P) : (t.map f).list dir = (t.list dir).map f := by
  induction t with
  | nil => rfl
  | node a b child ih => simp [map, list_node, ih]

theorem height_map (t : AvlTree P) : (t.map f).height = t.height := by
  induction t with
  | nil => rfl
  | node a b child ih => simp only [map, height, ih]

theorem balanced_map : (t.map f).Balanced ↔ t.Balanced := by
  induction t with
  | nil => exact Iff.rfl
  | node a b child ih => simp only [map, Balanced, height_map, ih]

end Map

end AvlTree

/-! ## 穴のある木 -/

namespace AvlCtx

open AvlTree

/-- 穴のすぐ上の節点。 -/
def ptr : AvlCtx P → Option P
  | top => none
  | frame _ a _ _ _ => some a

def plug : AvlCtx P → AvlTree P → AvlTree P
  | top, t => t
  | frame side a b sibling up, t => up.plug (node a b (kids side t sibling))

/-- 穴から `dir` の向きに進んで出会う節点。 -/
def rest (dir : Bool) : AvlCtx P → List P
  | top => []
  | frame side a _ sibling up =>
    if side = dir then up.rest dir else a :: (sibling.list dir ++ up.rest dir)

/-- 穴の外の節点。 -/
def nodes (c : AvlCtx P) : List P := c.rest false ++ c.rest true

def depth : AvlCtx P → Nat
  | top => 0
  | frame _ _ _ _ up => up.depth + 1

/-- 高さ `H` の木で穴を埋めれば、穴の外は釣り合っている。 -/
def Balanced : AvlCtx P → Nat → Prop
  | top, _ => True
  | frame side _ b sibling up, H =>
    b * sgn side = H - sibling.height ∧ -1 ≤ b ∧ b ≤ 1 ∧ sibling.Balanced ∧
      up.Balanced (max H sibling.height + 1)

@[simp] theorem plug_top (t : AvlTree P) : plug top t = t := rfl

theorem list_plug (dir : Bool) (c : AvlCtx P) (t : AvlTree P) :
    (c.plug t).list dir = (c.rest (!dir)).reverse ++ (t.list dir ++ c.rest dir) := by
  induction c generalizing t with
  | top => simp [rest]
  | frame side a b sibling up ih =>
    rw [plug, ih, list_node]
    rcases eq_or_eq_not side dir with rfl | rfl
    · simp [rest, list_not]
    · simp [rest]

theorem nodes_frame_perm (side : Bool) (a : P) (b : Int) (sibling : AvlTree P) (up : AvlCtx P) :
    (frame side a b sibling up).nodes.Perm (a :: (sibling.toList ++ up.nodes)) := by
  unfold nodes
  cases side
  · simp only [rest, if_true, Bool.false_eq_true, if_false]
    refine List.perm_middle.trans (List.Perm.cons a ?_)
    rw [← List.append_assoc, ← List.append_assoc]
    exact List.perm_append_comm.append_right _
  · simp only [rest, if_true, Bool.true_eq_false, if_false, List.cons_append, List.append_assoc]
    refine List.Perm.cons a (List.Perm.append_right _ ?_)
    exact (list_not true sibling).symm ▸ List.reverse_perm _

theorem mem_nodes_of_ptr (h : c.ptr = some a) : a ∈ c.nodes := by
  cases c with
  | top => cases h
  | frame side a' b sibling up =>
    cases h
    exact (nodes_frame_perm side a b sibling up).mem_iff.mpr List.mem_cons_self

theorem mem_nodes_of_ptr_plug (hc : c ≠ top) (h : (c.plug t).ptr = some a) : a ∈ c.nodes := by
  induction c generalizing t with
  | top => exact absurd rfl hc
  | frame side a' b sibling up ih =>
    rw [(nodes_frame_perm side a' b sibling up).mem_iff]
    cases up with
    | top =>
      cases h
      exact List.mem_cons_self
    | frame side' a'' b' sibling' up' =>
      exact List.mem_cons_of_mem _ (List.mem_append_right _ (ih (by simp) h))

theorem toList_plug_perm (c : AvlCtx P) (t : AvlTree P) :
    (c.plug t).toList.Perm (t.toList ++ c.nodes) := by
  rw [toList, list_plug, nodes, ← List.append_assoc, ← List.append_assoc]
  exact ((List.reverse_perm _).append_right _ |>.trans List.perm_append_comm).append_right _

theorem list_plug_congr (h : t.list dir = u.list dir) (c : AvlCtx P) :
    (c.plug t).list dir = (c.plug u).list dir := by
  rw [list_plug, list_plug, h]

theorem balanced_plug : (c.plug t).Balanced ↔ t.Balanced ∧ c.Balanced t.height := by
  induction c generalizing t with
  | top => simp [Balanced]
  | frame side a b sibling up ih =>
    rw [plug, ih, balanced_kids, height_kids, Balanced]
    tauto

/-- どの節点も、ある穴に埋められた木の根である。 -/
theorem exists_plug_of_mem (h : a ∈ t.list dir) :
    ∃ (c : AvlCtx P) (b : Int) (child : Bool → AvlTree P), t = c.plug (node a b child) := by
  suffices hsuff : ∀ c : AvlCtx P, ∃ (c' : AvlCtx P) (b : Int) (child : Bool → AvlTree P),
      c.plug t = c'.plug (node a b child) from hsuff top
  intro c
  induction t generalizing c with
  | nil => exact absurd h List.not_mem_nil
  | node a' b child ih =>
    rcases List.mem_append.mp h with h | h
    · rw [← kids_eta (!dir) child]
      exact ih (!dir) h (frame (!dir) a' b (child (!!dir)) c)
    · rcases List.mem_cons.mp h with rfl | h
      · exact ⟨c, b, child, rfl⟩
      · rw [← kids_eta dir child]
        exact ih dir h (frame dir a' b (child (!dir)) c)

/-- 節点を付け替えても、木の中の場所は変わらない。 -/
theorem exists_plug_map {Q : Type*} (f : P → Q) (c : AvlCtx P) (t : AvlTree P) :
    ∃ c' : AvlCtx Q, (c.plug t).map f = c'.plug (t.map f) := by
  induction c generalizing t with
  | top => exact ⟨top, rfl⟩
  | frame side a b sibling up ih =>
    obtain ⟨c', hc'⟩ := ih (node a b (kids side t sibling))
    refine ⟨frame side (f a) b (sibling.map f) c', ?_⟩
    rw [plug, hc', plug, AvlTree.map]
    congr 2
    funext d
    rcases eq_or_eq_not d side with rfl | rfl
    · rw [kids_self, kids_self]
    · rw [kids_not, kids_not]

theorem depth_le_length (c : AvlCtx P) : c.depth ≤ c.nodes.length := by
  induction c with
  | top => exact Nat.zero_le _
  | frame side a b sibling up ih =>
    rw [(nodes_frame_perm side a b sibling up).length_eq, List.length_cons, List.length_append,
      depth]
    omega

end AvlCtx

end Infra
