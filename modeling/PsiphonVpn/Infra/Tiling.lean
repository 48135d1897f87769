import Mathlib.Algebra.GroupWithZero.Nat
import PsiphonVpn.Infra.Buffer
import PsiphonVpn.Infra.Reader

/-!
# 隙間なく並んだ記録

記憶の中に、幅の異なる記録が隙間なく並んでいる様子。`recAt m o e` は記憶 `m` の位置 `o` に記録 `e` があること、
`width e` はその幅である。記録の中身をどう表すかは問わない。

* `Tiles recAt width m o l` — 位置 `o` から記録 `l` が並ぶ
-/

namespace Infra

/-! ## 書き込みと並び -/

section WriteAt

variable {α : Type} {b data l : List α} {i off : Nat}

theorem at_writeAt (h : i ≤ b.length) : At (writeAt b i data) i data :=
  ⟨b.take i, b.drop (i + data.length), List.append_assoc _ _ _, by simp [h]⟩

theorem at_iff_getElem? :
    At b off l ↔ off + l.length ≤ b.length ∧ ∀ k, k < l.length → b[off + k]? = l[k]? := by
  constructor
  · intro h
    refine ⟨h.le_length, fun k hk => ?_⟩
    obtain ⟨pre, post, rfl, rfl⟩ := h
    rw [List.getElem?_append_right (by omega), Nat.add_sub_cancel_left,
      List.getElem?_append_left hk]
  · rintro ⟨hlen, h⟩
    obtain ⟨l', hlen', hat⟩ := exists_at hlen
    suffices heq : l' = l by
      rwa [heq] at hat
    apply List.ext_getElem? fun k => ?_
    by_cases hk : k < l.length
    · obtain ⟨pre, post, rfl, rfl⟩ := hat
      rw [← h k hk, List.getElem?_append_right (by omega), Nat.add_sub_cancel_left,
        List.getElem?_append_left (by omega)]
    · rw [List.getElem?_eq_none (by omega), List.getElem?_eq_none (by omega)]

theorem getElem?_writeAt_of_disjoint {k : Nat} (hi : i + data.length ≤ b.length)
    (hk : k < i ∨ i + data.length ≤ k) : (writeAt b i data)[k]? = b[k]? := by
  have hlen : (b.take i ++ data).length = i + data.length := by
    rw [List.length_append, List.length_take]
    omega
  rw [writeAt]
  rcases hk with hk | hk
  · rw [List.getElem?_append_left (by omega),
      List.getElem?_append_left (by rw [List.length_take]; omega), List.getElem?_take_of_lt hk]
  · rw [List.getElem?_append_right (by omega), hlen, List.getElem?_drop]
    congr 1
    omega

theorem At.writeAt (h : At b off l) (hi : i + data.length ≤ b.length)
    (hd : off + l.length ≤ i ∨ i + data.length ≤ off) : At (writeAt b i data) off l := by
  rw [at_iff_getElem?] at h ⊢
  refine ⟨by rw [length_writeAt hi]; exact h.1, fun k hk => ?_⟩
  rw [getElem?_writeAt_of_disjoint hi (by omega), h.2 k hk]

end WriteAt

/-! ## 並び -/

section Tiles

variable {μ ε : Type*} (recAt : μ → Nat → ε → Prop) (width : ε → Nat)

/-- 記録の幅の和。 -/
def span (l : List ε) : Nat := (l.map width).sum

/-- 位置 `o` から記録が隙間なく並ぶ。 -/
def Tiles (m : μ) : Nat → List ε → Prop
  | _, [] => True
  | o, e :: l => recAt m o e ∧ Tiles m (o + width e) l

variable {recAt width} {m m' : μ} {o : Nat} {l l₁ l₂ : List ε}

@[simp] theorem span_nil : span width ([] : List ε) = 0 := rfl

@[simp] theorem span_cons (e : ε) : span width (e :: l) = width e + span width l := by simp [span]

@[simp] theorem span_append : span width (l₁ ++ l₂) = span width l₁ + span width l₂ := by
    simp [span]

theorem tiles_append_iff :
    Tiles recAt width m o (l₁ ++ l₂) ↔ Tiles recAt width m o l₁ ∧
      Tiles recAt width m (o + span width l₁) l₂ := by
  induction l₁ generalizing o with
  | nil => simp [Tiles]
  | cons e l₁ ih => simp [Tiles, ih, and_assoc, Nat.add_assoc]

theorem Tiles.exists_recAt {e : ε} (h : Tiles recAt width m o l) (he : e ∈ l) :
    ∃ o', o ≤ o' ∧ o' + width e ≤ o + span width l ∧ recAt m o' e := by
  induction l generalizing o with
  | nil => cases he
  | cons e' l ih =>
    rw [span_cons]
    rcases List.mem_cons.mp he with rfl | he
    · exact ⟨o, Nat.le_refl o, by omega, h.1⟩
    · obtain ⟨o', hle, hspan, hrec⟩ := ih h.2 he
      exact ⟨o', by omega, by omega, hrec⟩

/-- 並びの範囲にある記録が残れば、並びは残る。 -/
theorem Tiles.mono (h : Tiles recAt width m o l)
    (hrec : ∀ o' e, o ≤ o' → o' + width e ≤ o + span width l → recAt m o' e → recAt m' o' e) :
    Tiles recAt width m' o l := by
  induction l generalizing o with
  | nil => trivial
  | cons e l ih =>
    rw [span_cons] at hrec
    refine ⟨hrec o e (Nat.le_refl o) (by omega) h.1, ih h.2 fun o' e' hle hspan => ?_⟩
    exact hrec o' e' (by omega) (by omega)

end Tiles

end Infra
