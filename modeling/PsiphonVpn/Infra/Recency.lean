import Mathlib.Data.List.Basic

/-!
# 使った順に並ぶ列

使われたものを列の末尾に移していくと、列は最後に使った時の順に並ぶ。`uses` はそれまでに使われたものを
古い順に並べた履歴で、`lastUse` は最後に使った時刻（履歴の何番目か、一度もなければ 0）である。
-/

namespace Infra

variable {α : Type*} [DecidableEq α]

/-- 最後に使った時刻。 -/
def lastUse (uses : List α) (x : α) : Nat := uses.length - uses.reverse.idxOf x

theorem lastUse_snoc_self (uses : List α) (x : α) : lastUse (uses ++ [x]) x = uses.length + 1 := by
  simp [lastUse]

theorem lastUse_snoc_of_ne (uses : List α) {x y : α} (h : x ≠ y) :
    lastUse (uses ++ [y]) x = lastUse uses x := by
  have hidx : (y :: uses.reverse).idxOf x = uses.reverse.idxOf x + 1 :=
    List.idxOf_cons_ne _ h.symm
  unfold lastUse
  rw [List.reverse_append, List.reverse_singleton, List.singleton_append, hidx, List.length_append,
    List.length_singleton]
  omega

theorem lastUse_le (uses : List α) (x : α) : lastUse uses x ≤ uses.length := Nat.sub_le _ _

/-- 列は最後に使った時の順に並んでいる。 -/
structure ByLastUse (uses l : List α) : Prop where
  ordered : l.Pairwise fun x y => lastUse uses x < lastUse uses y
  used : ∀ x ∈ l, x ∈ uses

variable {uses l : List α} {x : α}

theorem byLastUse_nil : ByLastUse ([] : List α) [] := ⟨List.Pairwise.nil, by simp⟩

/-- 先頭は、最後に使ったのが最も古い。 -/
theorem ByLastUse.head_oldest (h : ByLastUse uses (x :: l)) :
    ∀ y ∈ x :: l, y ≠ x → lastUse uses x < lastUse uses y := by
  intro y hy hne
  rcases List.mem_cons.mp hy with rfl | hy
  · exact absurd rfl hne
  · exact List.rel_of_pairwise_cons h.ordered hy

/-- 列にないものを使って、末尾に加える。 -/
theorem ByLastUse.append (h : ByLastUse uses l) (hx : x ∉ l) :
    ByLastUse (uses ++ [x]) (l ++ [x]) := by
  have hne : ∀ a ∈ l, a ≠ x := fun a ha heq => hx (heq ▸ ha)
  constructor
  · rw [List.pairwise_append]
    refine ⟨?_, List.pairwise_singleton _ _, ?_⟩
    · refine h.ordered.imp_of_mem fun ha hb hlt => ?_
      rw [lastUse_snoc_of_ne uses (hne _ ha), lastUse_snoc_of_ne uses (hne _ hb)]
      exact hlt
    · intro a ha b hb
      obtain rfl := List.mem_singleton.mp hb
      rw [lastUse_snoc_self, lastUse_snoc_of_ne uses (hne a ha)]
      exact Nat.lt_succ_of_le (lastUse_le uses a)
  · intro y hy
    rcases List.mem_append.mp hy with hy | hy
    · exact List.mem_append_left _ (h.used y hy)
    · exact List.mem_append_right _ hy

theorem ByLastUse.nodup (h : ByLastUse uses l) : l.Nodup :=
  h.ordered.imp fun hlt heq => absurd (heq ▸ hlt) (Nat.lt_irrefl _)

theorem ByLastUse.move (h : ByLastUse uses l) (x : α) :
    ByLastUse (uses ++ [x]) (l.erase x ++ [x]) := by
  have hsub : ByLastUse uses (l.erase x) :=
    ⟨List.Pairwise.erase x h.ordered, fun y hy => h.used y (List.mem_of_mem_erase hy)⟩
  exact hsub.append fun hmem => (h.nodup.mem_erase_iff.mp hmem).1 rfl

end Infra
