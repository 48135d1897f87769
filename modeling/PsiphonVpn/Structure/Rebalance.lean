import PsiphonVpn.Infra.LinkedWalk
import PsiphonVpn.Infra.Checked

/-!
# AVL 木の釣り合わせ

`BAVL.h` の `_BAVL_rebalance` と `CAvl_impl.h` の `CAvl_rebalance` は、回転の関数の呼び方のほかは同じである。ここでは回転を
引数 `rotate` とし、部分木の高さが変わった節点から根へ向かって釣り合いの値を直す。

* `restore` — 値が 2 か -2 になった節点を回転で直す
* `rebalance` — 根へ向かう loop
* `Rotates` — `rotate` が link の付け替え `Store.rotate` を行う
* `rebalance_spec` — 節点の列を変えずに、木全体を釣り合わせる。`ASSERT` は成り立ち、null を辿らない
-/

namespace Structure

open Infra Infra.LinkedTree

variable {P : Type} [DecidableEq P]

/-- 節点を向き `dir` に回す。最後の引数は節点の親である。 -/
abbrev Rotate (P : Type) := Store P → P → Bool → Option P → Except Fault (Store P)

/-- 釣り合いを失った節点を直す。部分木の新しい根と、部分木の高さの変化を返す。 -/
def restore (rotate : Rotate P) (s : Store P) (node : P) (delta : Int) :
    Except Fault (Store P × P × Int) :=
  if (s.heap node).balance = 2 ∨ (s.heap node).balance = -2 then do
    let bside := decide ((s.heap node).balance = 2)
    let bsidef := sgn bside
    let child ← deref ((s.heap node).link bside)
    if (s.heap child).balance * bsidef = 1 then
      let s ← rotate s node (!bside) (s.heap node).parent
      return ((s.setBalance node 0).setBalance child 0, child, delta - 1)
    else if (s.heap child).balance * bsidef = 0 then
      let s ← rotate s node (!bside) (s.heap node).parent
      return ((s.setBalance node (1 * bsidef)).setBalance child (-1 * bsidef), child, delta)
    else if (s.heap child).balance * bsidef = -1 then
      let gchild ← deref ((s.heap child).link (!bside))
      let s ← rotate s child bside (some node)
      let s ← rotate s node (!bside) (s.heap node).parent
      let s := s.setBalance node (-max 0 ((s.heap gchild).balance * bsidef) * bsidef)
      let s := s.setBalance child (max 0 (-(s.heap gchild).balance * bsidef) * bsidef)
      return (s.setBalance gchild 0, gchild, delta - 1)
    else throw .assertion
  else return (s, node, delta)

/-- `node` の `side` の側の高さが `deltac` だけ変わった所から、根まで直す。 -/
def rebalance (rotate : Rotate P) : Nat → Store P → P → Bool → Int → Except Fault (Store P)
  | 0, _, _, _, _ => .error .outOfFuel
  | fuel + 1, s, node, side, deltac => do
    check .assertion (-1 ≤ deltac ∧ deltac ≤ 1)
    check .assertion (-1 ≤ (s.heap node).balance ∧ (s.heap node).balance ≤ 1)
    if deltac = 0 then return s
    else
      let delta := max deltac (optneg (s.heap node).balance side) - max 0
        (optneg (s.heap node).balance side)
      check .assertion (-1 ≤ delta ∧ delta ≤ 1)
      let s := s.setBalance node ((s.heap node).balance - optneg deltac side)
      let (s, node, delta) ← restore rotate s node delta
      check .assertion (-1 ≤ delta ∧ delta ≤ 1)
      match (s.heap node).parent with
      | none => return s
      | some parent =>
        rebalance rotate fuel s parent (decide ((s.heap parent).link true = some node)) delta

open AvlTree AvlCtx

/-- `rotate` は、親を渡されれば、link を付け替えるだけである。 -/
def Rotates (rotate : Rotate P) : Prop :=
  ∀ (s : Store P) (c : AvlCtx P) (r : P) (b : Int) (child : Bool → AvlTree P) (dir : Bool) (nr : P)
    (b' : Int)
    (child' : Bool → AvlTree P), Represents s (c.plug (node r b child)) →
      child (!dir) = node nr b' child' →
    rotate s r dir c.ptr = .ok (s.rotate r nr dir c.ptr)

variable {rotate : Rotate P} {s : Store P} {c : AvlCtx P}

variable {b : Int} {child : Bool → AvlTree P} {side : Bool} {a : P} {sibling t : AvlTree P}
  {up : AvlCtx P} {fuel : Nat}

/-- 回転した二つの節点の値を書く。 -/
theorem Represents.setBalances_rotated {dir : Bool} {r nr : P} {b' : Int}
    {child' : Bool → AvlTree P} (h : Represents s (c.plug (rotated dir r b child nr b' child')))
    (br bn : Int) :
    Represents ((s.setBalance r br).setBalance nr bn)
      (c.plug (rotated dir r br child nr bn child')) := by
  have h0 : Represents s
      ((AvlCtx.frame dir nr b' (child' (!dir)) c).plug
        (node r b (kids dir (child dir) (child' dir)))) := h
  have h1 : Represents (s.setBalance r br)
      (c.plug
        (node nr b' (kids dir (node r br (kids dir (child dir) (child' dir))) (child' (!dir))))) :=
    h0.setBalance br
  exact h1.setBalance bn

/-- 二回の回転で上に出た節点と、その両側の節点の値を書く。 -/
theorem Represents.setBalances_inner {cb g : P} {bc bg : Int} {K L : Bool → AvlTree P}
    (h : Represents s (c.plug (node g bg (kids side (node cb bc K) (node a b L))))) (b' bc' : Int) :
    ((s.setBalance a b').heap g).balance = bg ∧
    Represents (((s.setBalance a b').setBalance cb bc').setBalance g 0)
      (c.plug (node g 0 (kids side (node cb bc' K) (node a b' L)))) := by
  rw [← kids_comm] at h
  have h0 : Represents s ((AvlCtx.frame (!side) g bg (node cb bc K) c).plug (node a b L)) := h
  have h1 : Represents (s.setBalance a b')
      (c.plug (node g bg (kids (!side) (node a b' L) (node cb bc K)))) :=
    h0.setBalance b'
  refine ⟨h1.read.2.2, ?_⟩
  rw [kids_comm] at h1
  have h1' : Represents (s.setBalance a b')
    ((AvlCtx.frame side g bg (node a b' L) c).plug (node cb bc K)) := h1
  have h2 : Represents ((s.setBalance a b').setBalance cb bc')
      (c.plug (node g bg (kids side (node cb bc' K) (node a b' L)))) := h1'.setBalance bc'
  exact h2.setBalance 0

/-- 片側が二つ高い節点は、回転で直る。 -/
theorem restore_heavy (hrot : Rotates rotate) {bside : Bool}
    (h : Represents s (c.plug (node a (2 * sgn bside) child))) (hA : (child (!bside)).Balanced)
    (hbal : (child bside).Balanced) (hheight : (child bside).height = (child (!bside)).height + 2)
    (delta : Int) :
    ∃ s' t n delta', restore rotate s a delta = .ok (s', n, delta') ∧ t.ptr = some n ∧
      Represents s' (c.plug t) ∧ t.toList = (node a (2 * sgn bside) child).toList ∧ t.Balanced ∧
      (t.height : Int) = (child (!bside)).height + 3 + (delta' - delta) ∧
    (delta' = delta ∨ delta' = delta - 1) := by
  obtain ⟨hparent, hlink, hb⟩ := h.read
  obtain ⟨cb, hcb⟩ : ∃ cb, (child bside).ptr = some cb := by
    cases hptr : (child bside).ptr with
    | none =>
      rw [ptr_eq_none.mp hptr, height_nil] at hheight
      omega
    | some cb => exact ⟨cb, rfl⟩
  obtain ⟨bc, child', hchild⟩ := exists_node_of_ptr hcb
  have hnotnot : child (!!bside) = node cb bc child' := by rw [Bool.not_not, hchild]
  have hinner : Represents s ((AvlCtx.frame bside a (2 * sgn bside) (child (!bside)) c).plug
      (node cb bc child')) := by
    rw [AvlCtx.plug, ← hchild, kids_eta]
    exact h
  have hdec : decide ((s.heap a).balance = 2) = bside := by
    rw [hb]
    cases bside <;> rfl
  have hcond : (s.heap a).balance = 2 ∨ (s.heap a).balance = -2 := by
    rw [hb]
    cases bside <;> decide
  have hbc : (s.heap cb).balance = bc := hinner.read.2.2
  have hbal' := hbal
  rw [hchild, balanced_node_iff bside] at hbal'
  obtain ⟨hdiff, hbc1, hbc2, -, -⟩ := hbal'
  have hrange := mul_sgn_range ⟨hbc1, hbc2⟩ bside
  unfold restore
  rw [if_pos hcond]
  simp only [hdec, hlink, hcb, deref_some, ok_bind, hbc, hparent]
  have hrotate := hrot s c a _ child (!bside) cb bc child' h hnotnot
  have hrotated := h.rotate hnotnot
  by_cases h1 : bc * sgn bside = 1
  · obtain ⟨hbal1, hheight1⟩ := balanced_restore_outer (r := a) hchild hA hbal hheight h1
    rw [if_pos h1, hrotate]
    refine ⟨_, _, cb, delta - 1, rfl, rfl, Represents.setBalances_rotated hrotated 0 0,
      list_rotated (!bside) true hnotnot, hbal1, ?_, Or.inr rfl⟩
    rw [hheight1]
    omega
  · by_cases h0 : bc * sgn bside = 0
    · obtain ⟨hbal0, hheight0⟩ := balanced_restore_level (r := a) hchild hA hbal hheight h0
      rw [if_neg h1, if_pos h0, hrotate]
      refine ⟨_, _, cb, delta, rfl, rfl, Represents.setBalances_rotated hrotated (1 * sgn bside)
        (-1 * sgn bside),
        list_rotated (!bside) true hnotnot, hbal0, ?_, Or.inl rfl⟩
      rw [hheight0]
      omega
    · have hm1 : bc * sgn bside = -1 := by omega
      rw [if_neg h1, if_neg h0, if_pos hm1, hinner.read.2.1]
      obtain ⟨g, hg⟩ : ∃ g, (child' (!bside)).ptr = some g := by
        cases hptr : (child' (!bside)).ptr with
        | none =>
          rw [ptr_eq_none.mp hptr, height_nil] at hdiff
          omega
        | some g => exact ⟨g, rfl⟩
      obtain ⟨bg, child'', hgchild⟩ := exists_node_of_ptr hg
      obtain ⟨hbalm, hheightm⟩ := balanced_restore_inner (r := a) hchild hgchild hA hbal hheight hm1
      -- 一回目は子の所で、二回目は節点の所で回す
      have hrep1 : Represents (s.rotate cb g bside (some a)) (c.plug (node a (2 * sgn bside)
          (kids bside (rotated bside cb bc child' g bg child'') (child (!bside))))) := hinner.rotate
            hgchild
      have hnotnot1 : kids bside (rotated bside cb bc child' g bg child'') (child (!bside))
          (!!bside) =
          rotated bside cb bc child' g bg child'' := by rw [Bool.not_not, kids_self]
      have hrep2 := hrep1.rotate hnotnot1
      rw [rotated_rotated] at hrep2
      have hrot1 : rotate s cb bside (some a) = .ok (s.rotate cb g bside (some a)) :=
        hrot _ _ _ _ _ _ _ _ _ hinner hgchild
      have hrot2 := hrot _ _ _ _ _ _ _ _ _ hrep1 hnotnot1
      obtain ⟨hbg, hrep3⟩ := Represents.setBalances_inner hrep2
        (-max 0 (bg * sgn bside) * sgn bside)
        (max 0 (-bg * sgn bside) * sgn bside)
      simp only [hg, deref_some, ok_bind, hrot1, hrep1.read.1, hrot2, hrep2.read.2.2, hbg]
      refine ⟨_, _, g, delta - 1, rfl, rfl, hrep3, list_inner bside true hchild hgchild, hbalm, ?_,
        Or.inr rfl⟩
      rw [hheightm]
      omega

/-- 釣り合いの値が子の高さの差に等しい節点を、必要なら回転で直す。 -/
theorem restore_spec (hrot : Rotates rotate) (h : Represents s (c.plug (node a b child)))
    (hdiff : ∀ d, b * sgn d = (child d).height - (child (!d)).height)
    (hbal : ∀ d, (child d).Balanced) (hb : -2 ≤ b ∧ b ≤ 2) (delta : Int) :
    ∃ s' t n delta', restore rotate s a delta = .ok (s', n, delta') ∧ t.ptr = some n ∧
      Represents s' (c.plug t) ∧ t.toList = (node a b child).toList ∧ t.Balanced ∧
      (t.height : Int) = (node a b child).height + (delta' - delta) ∧
      (delta' = delta ∨ delta' = delta - 1 ∧ (b = 2 ∨ b = -2)) := by
  by_cases hheavy : b = 2 ∨ b = -2
  · obtain ⟨bside, rfl⟩ : ∃ bside, b = 2 * sgn bside := by
      rcases hheavy with rfl | rfl
      · exact ⟨true, rfl⟩
      · exact ⟨false, rfl⟩
    have hheight := hdiff bside
    rw [mul_sgn_sgn] at hheight
    obtain ⟨s', t, n, delta', hrun, hptr, hrep, hlist, htbal, hth, hdelta⟩ :=
      restore_heavy hrot h (hbal (!bside)) (hbal bside) (by omega) delta
    refine ⟨s', t, n, delta', hrun, hptr, hrep, hlist, htbal, ?_, hdelta.imp_right fun hd =>
      ⟨hd, hheavy⟩⟩
    rw [hth, height_node bside]
    omega
  · refine ⟨s, node a b child, a, delta, ?_, rfl, h, rfl, ?_, by omega, Or.inl rfl⟩
    · rw [restore, h.read.2.2, if_neg hheavy]
      rfl
    · exact (balanced_node_iff true).mpr ⟨hdiff true, by omega, by omega, hbal true, hbal (!true)⟩

theorem optneg_eq (a : Int) (side : Bool) : optneg a side = -(a * sgn side) := by
  cases side <;> simp [optneg, sgn]

/-- 一つの節点での一歩。直した部分木を `up` の穴に入れ、その親へ進む。 -/
theorem rebalance_step (hrot : Rotates rotate) {H : Nat} {deltac : Int}
    (h : Represents s ((AvlCtx.frame side a b sibling up).plug t))
    (hctx : (AvlCtx.frame side a b sibling up).Balanced H) (ht : t.Balanced)
    (hheight : (t.height : Int) = H + deltac) (hdelta : deltac = -1 ∨ deltac = 1) :
    ∃ s' t' n delta, t'.ptr = some n ∧ Represents s' (up.plug t') ∧
      t'.toList = (node a b (kids side t sibling)).toList ∧ t'.Balanced ∧
      (t'.height : Int) = (max H sibling.height + 1 : Nat) + delta ∧ (-1 ≤ delta ∧ delta ≤ 1) ∧
      rebalance rotate (fuel + 1) s a side deltac = match (s'.heap n).parent with
        | none => .ok s'
        | some parent =>
          rebalance rotate fuel s' parent (decide ((s'.heap parent).link true = some n)) delta := by
  have hup : Represents s (up.plug (node a b (kids side t sibling))) := h
  obtain ⟨hdiff, hb1, hb2, hsib, -⟩ := hctx
  have hx : optneg b side = sibling.height - H := by
    rw [optneg_eq, hdiff]
    omega
  have hbal : (s.heap a).balance = b := hup.read.2.2
  have hdiff' : (b - optneg deltac side) * sgn side = t.height - sibling.height := by
    have hexpand : (b - optneg deltac side) * sgn side = b * sgn side + deltac := by
      rw [optneg_eq, Int.sub_mul, Int.neg_mul, mul_sgn_sgn]
      omega
    omega
  have hbal' : ∀ d, (kids side t sibling d).Balanced := by
    intro d
    rcases eq_or_eq_not d side with rfl | rfl
    · rwa [kids_self]
    · rwa [kids_not]
  obtain ⟨s', t', n, delta, hrun, hptr, hrep, hlist, htbal, hth, hcase⟩ :=
    restore_spec hrot (hup.setBalance (b - optneg deltac side))
      (diff_of_diff (by rw [kids_self, kids_not]; exact hdiff')) hbal'
      (by rcases hdelta with rfl | rfl <;> cases side <;> simp only [optneg] <;> omega)
      (max deltac (optneg b side) - max 0 (optneg b side))
  rw [height_kids] at hth
  -- 回して低くなるのは、高い側が伸びたか、低い側が縮んだときに限る
  have hrange : -1 ≤ delta ∧ delta ≤ 1 := by
    rcases hdelta with rfl | rfl <;> cases side <;>
      simp only [optneg, Bool.false_eq_true, if_true, if_false] at hcase <;> omega
  refine ⟨s', t', n, delta, hptr, hrep, hlist, htbal, ?_, hrange, ?_⟩
  · omega
  · rw [rebalance, hbal, check_bind (by omega), check_bind ⟨hb1, hb2⟩, if_neg (by omega)]
    simp only
    rw [check_bind (by omega), hrun, ok_bind]
    simp only
    rw [check_bind hrange]
    cases (s'.heap n).parent <;> rfl

theorem rebalance_zero (h : Represents s ((AvlCtx.frame side a b sibling up).plug t))
    (hctx : (AvlCtx.frame side a b sibling up).Balanced t.height) (ht : t.Balanced) :
    rebalance rotate (fuel + 1) s a side 0 = .ok s ∧
      ((AvlCtx.frame side a b sibling up).plug t).Balanced := by
  have hup : Represents s (up.plug (node a b (kids side t sibling))) := h
  refine ⟨?_, balanced_plug.mpr ⟨ht, hctx⟩⟩
  rw [rebalance, hup.read.2.2, check_bind (by decide), check_bind ⟨hctx.2.1, hctx.2.2.1⟩,
    if_pos rfl]
  rfl

/-- 高さの変わった部分木から根まで直すと、木全体が釣り合う。節点の列は変わらない。 -/
theorem rebalance_spec (hrot : Rotates rotate) {H : Nat} {deltac : Int}
    (h : Represents s ((AvlCtx.frame side a b sibling up).plug t))
    (hctx : (AvlCtx.frame side a b sibling up).Balanced H) (ht : t.Balanced)
    (hheight : (t.height : Int) = H + deltac) (hdelta : -1 ≤ deltac ∧ deltac ≤ 1)
    (hfuel : up.depth < fuel) :
    ∃ s' t', rebalance rotate fuel s a side deltac = .ok s' ∧ Represents s' t' ∧
      t'.toList = ((AvlCtx.frame side a b sibling up).plug t).toList ∧ t'.Balanced := by
  induction up generalizing s side a b sibling t H fuel deltac with
  | top =>
    obtain ⟨fuel, rfl⟩ : ∃ k, fuel = k + 1 := ⟨fuel - 1, by omega⟩
    rcases (by omega : deltac = 0 ∨ deltac = -1 ∨ deltac = 1) with rfl | hone
    · obtain rfl : H = t.height := by omega
      obtain ⟨hrun, hbal⟩ := rebalance_zero h hctx ht
      exact ⟨s, _, hrun, h, rfl, hbal⟩
    · obtain ⟨s', t', n, delta, hptr, hrep, hlist, htbal, -, -, hrun⟩ :=
        rebalance_step hrot h hctx ht hheight hone
      obtain ⟨b', child', rfl⟩ := exists_node_of_ptr hptr
      refine ⟨s', _, ?_, hrep, hlist, htbal⟩
      rw [hrun, hrep.read.1]
      rfl
  | frame side' a' b' sibling' up ih =>
    obtain ⟨fuel, rfl⟩ : ∃ k, fuel = k + 1 := ⟨fuel - 1, by omega⟩
    rcases (by omega : deltac = 0 ∨ deltac = -1 ∨ deltac = 1) with rfl | hone
    · obtain rfl : H = t.height := by omega
      obtain ⟨hrun, hbal⟩ := rebalance_zero h hctx ht
      exact ⟨s, _, hrun, h, rfl, hbal⟩
    · obtain ⟨s₁, t₁, n, delta, hptr, hrep, hlist, htbal, hth, hrange, hrun⟩ :=
        rebalance_step hrot h hctx ht hheight hone
      obtain ⟨b₁, child₁, rfl⟩ := exists_node_of_ptr hptr
      rw [hrun, hrep.read.1]
      dsimp only [AvlCtx.ptr]
      rw [(hrep.side_eq rfl).2.2]
      obtain ⟨s', t', hrun', hrep', hlist', hbal'⟩ :=
        ih hrep hctx.2.2.2.2 htbal hth hrange (by simpa [depth] using hfuel)
      refine ⟨s', t', hrun', hrep', ?_, hbal'⟩
      rw [hlist']
      exact list_plug_congr hlist (AvlCtx.frame side' a' b' sibling' up)

end Structure
