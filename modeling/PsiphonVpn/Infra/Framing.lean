import Mathlib.Algebra.GroupWithZero.Nat
import PsiphonVpn.Infra.Reader

/-!
# 長さを前に付けた frame の列

`w` 個の要素からなる header が中身の長さを示し、その後に中身が続く frame を、隙間なく並べた列。header の読み方
`lenOf` と、受け入れる長さの上限 `limit` は問わない。

* `headFrame` — 列の頭の frame
* `Frames c ps` — `c` はちょうど frame `ps` の並びで、後ろに何が続いても変わらない
-/

namespace Infra

/-- 列の頭にあるもの。 -/
inductive Head (α : Type) where
  | incomplete
  | tooLong
  | frame (packet rest : List α)
  deriving DecidableEq, Repr

/-- 列から切り出したもの。`tooLong` は、上限を超える header に当たって止まったことを示す。 -/
structure Deframed (α : Type) where
  packets : List (List α)
  tooLong : Bool
  deriving DecidableEq, Repr

section

variable {α : Type} {w : Nat}

def headFrame (lenOf : Vector α w → Nat) (limit : Nat) (s : List α) : Head α :=
  if h : w ≤ s.length then
    let n := lenOf ⟨(s.take w).toArray, by simp [h]⟩
    if limit < n then .tooLong
    else if (s.drop w).length < n then .incomplete
    else .frame ((s.drop w).take n) ((s.drop w).drop n)
  else .incomplete

variable {lenOf : Vector α w → Nat} {limit : Nat} {s t p rest : List α} {v : Vector α w}

/-! ## 頭の frame -/

theorem exists_header (w : Nat) (s : List α) :
    s.length < w ∨ ∃ (v : Vector α w) (t : List α), s = v.toList ++ t := by
  by_cases h : w ≤ s.length
  · exact .inr ⟨⟨(s.take w).toArray, by simp [h]⟩, s.drop w, by simp⟩
  · exact .inl (by omega)

theorem headFrame_of_short (h : s.length < w) : headFrame lenOf limit s = .incomplete :=
  dif_neg (by omega)

theorem headFrame_header :
    headFrame lenOf limit (v.toList ++ t) =
      if limit < lenOf v then .tooLong
      else if t.length < lenOf v then .incomplete
      else .frame (t.take (lenOf v)) (t.drop (lenOf v)) := by
  have hv : (⟨((v.toList ++ t).take w).toArray, by simp⟩ : Vector α w) = v := by
    apply Vector.toList_inj.mp
    simp [List.take_left' Vector.length_toList]
  rw [headFrame, dif_pos (by simp), List.drop_left' Vector.length_toList]
  dsimp only
  rw [hv]

theorem headFrame_frame (hlen : lenOf v = p.length) (hle : p.length ≤ limit) :
    headFrame lenOf limit (v.toList ++ (p ++ rest)) = .frame p rest := by
  rw [headFrame_header, hlen, if_neg (by omega), if_neg (by simp), List.take_left' rfl,
    List.drop_left' rfl]

theorem headFrame_tooLong (h : limit < lenOf v) :
    headFrame lenOf limit (v.toList ++ t) = .tooLong := by
  rw [headFrame_header, if_pos h]

/-- 切り出した frame は、header と、その示す長さの中身である。 -/
theorem of_headFrame_eq_frame (h : headFrame lenOf limit s = .frame p rest) :
    ∃ v : Vector α w, s = v.toList ++ (p ++ rest) ∧ lenOf v = p.length ∧ p.length ≤ limit := by
  rcases exists_header w s with hs | ⟨v, t, rfl⟩
  · rw [headFrame_of_short hs] at h
    cases h
  · rw [headFrame_header] at h
    split at h
    next => cases h
    next hle =>
      split at h
      next => cases h
      next hlen =>
        obtain ⟨rfl, rfl⟩ := Head.frame.inj h
        have hp : (t.take (lenOf v)).length = lenOf v := by
          rw [List.length_take]
          omega
        exact ⟨v, by rw [List.take_append_drop], hp.symm, by omega⟩

theorem of_headFrame_eq_tooLong (h : headFrame lenOf limit s = .tooLong) :
    ∃ (v : Vector α w) (t : List α), s = v.toList ++ t ∧ limit < lenOf v := by
  rcases exists_header w s with hs | ⟨v, t, rfl⟩
  · rw [headFrame_of_short hs] at h
    cases h
  · rw [headFrame_header] at h
    split at h
    next hlt => exact ⟨v, t, rfl, hlt⟩
    next => split at h <;> cases h

/-! ## 切り出し -/

def deframe [NeZero w] (lenOf : Vector α w → Nat) (limit : Nat) (s : List α) : Deframed α :=
  match _hs : headFrame lenOf limit s with
  | .incomplete => ⟨[], false⟩
  | .tooLong => ⟨[], true⟩
  | .frame p rest => ⟨p :: (deframe lenOf limit rest).packets, (deframe lenOf limit rest).tooLong⟩
termination_by s.length
decreasing_by
  all_goals
    obtain ⟨v, rfl, -⟩ := of_headFrame_eq_frame _hs
    have hw : 0 < w := Nat.pos_of_neZero w
    simp only [List.length_append, Vector.length_toList]
    omega

variable [NeZero w]

theorem deframe_of_incomplete (h : headFrame lenOf limit s = .incomplete) :
    deframe lenOf limit s = ⟨[], false⟩ := by
  rw [deframe]
  split
  next => rfl
  next h' => rw [h] at h'; cases h'
  next h' => rw [h] at h'; cases h'

theorem deframe_of_tooLong (h : headFrame lenOf limit s = .tooLong) :
    deframe lenOf limit s = ⟨[], true⟩ := by
  rw [deframe]
  split
  next h' => rw [h] at h'; cases h'
  next => rfl
  next h' => rw [h] at h'; cases h'

theorem deframe_of_frame (h : headFrame lenOf limit s = .frame p rest) :
    deframe lenOf limit s = ⟨p :: (deframe lenOf limit rest).packets,
      (deframe lenOf limit rest).tooLong⟩ := by
  rw [deframe]
  split
  next h' => rw [h] at h'; cases h'
  next h' => rw [h] at h'; cases h'
  next h' =>
    rw [h] at h'
    obtain ⟨rfl, rfl⟩ := Head.frame.inj h'
    rfl

/-- 上限を超える header に当たった後は、何が続いても結果は変わらない。 -/
theorem deframe_append_of_tooLong (h : (deframe lenOf limit s).tooLong = true) (t : List α) :
    deframe lenOf limit (s ++ t) = deframe lenOf limit s := by
  fun_induction deframe lenOf limit s with
  | case1 s hs => cases h
  | case2 s hs =>
    obtain ⟨v, u, rfl, hlt⟩ := of_headFrame_eq_tooLong hs
    rw [List.append_assoc, deframe_of_tooLong (headFrame_tooLong hlt)]
  | case3 s p rest hs ih =>
    obtain ⟨v, rfl, hlen, hle⟩ := of_headFrame_eq_frame hs
    rw [List.append_assoc, List.append_assoc, deframe_of_frame (headFrame_frame hlen hle), ih h]

/-! ## ちょうど frame の並び -/

variable (lenOf limit) in
/-- `c` はちょうど frame `ps` の並びである。 -/
def Frames (c : List α) (ps : List (List α)) : Prop :=
  ∀ t, deframe lenOf limit (c ++ t) =
    ⟨ps ++ (deframe lenOf limit t).packets, (deframe lenOf limit t).tooLong⟩

theorem frames_nil : Frames lenOf limit [] [] := fun _ => rfl

theorem frames_singleton (hlen : lenOf v = p.length) (hle : p.length ≤ limit) :
    Frames lenOf limit (v.toList ++ p) [p] := by
  intro t
  rw [List.append_assoc, deframe_of_frame (headFrame_frame hlen hle)]
  rfl

theorem Frames.append {c d : List α} {ps qs : List (List α)} (hc : Frames lenOf limit c ps)
    (hd : Frames lenOf limit d qs) : Frames lenOf limit (c ++ d) (ps ++ qs) := by
  intro t
  rw [List.append_assoc, hc, hd, List.append_assoc]

theorem Frames.deframe {c : List α} {ps : List (List α)} (h : Frames lenOf limit c ps) :
    deframe lenOf limit c = ⟨ps, false⟩ := by
  have hnil : Infra.deframe lenOf limit [] = ⟨[], false⟩ :=
    deframe_of_incomplete (headFrame_of_short (Nat.pos_of_neZero w))
  have := h []
  rwa [List.append_nil, hnil, List.append_nil] at this

end

end Infra
