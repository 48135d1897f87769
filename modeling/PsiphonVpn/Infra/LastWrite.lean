import Mathlib.Data.List.Basic

/-!
# 最後の書き込み

順に適用される更新の列が一つの変数に残す値。`w b` は更新 `b` がその変数に書く値で、触れなければ
`none` である。残るのは最後に触れた更新の値で、誰も触れなければ初めの値である。

更新が FIFO の queue で遅れて適用されても、queue が空になったときの値は post した順だけで決まる。
`lastWrite_append` がその理由である。
-/

namespace Infra

variable {α β : Type*} {w : β → Option α}

/-- 更新の列 `l` が、初めの値 `a` の変数に残す値。 -/
def lastWrite (w : β → Option α) (a : α) (l : List β) : α :=
  l.foldl (fun a b => (w b).getD a) a

@[simp] theorem lastWrite_nil (a : α) : lastWrite w a [] = a := rfl

@[simp] theorem lastWrite_cons (a : α) (b : β) (l : List β) :
    lastWrite w a (b :: l) = lastWrite w ((w b).getD a) l := rfl

theorem lastWrite_append (a : α) (l m : List β) :
    lastWrite w a (l ++ m) = lastWrite w (lastWrite w a l) m := by
  unfold lastWrite
  rw [List.foldl_append]

theorem lastWrite_snoc (a : α) (l : List β) (b : β) :
    lastWrite w a (l ++ [b]) = (w b).getD (lastWrite w a l) := by
  rw [lastWrite_append]
  rfl

theorem lastWrite_of_untouched {l : List β} (h : ∀ b ∈ l, w b = none) (a : α) :
    lastWrite w a l = a := by
  induction l generalizing a with
  | nil => rfl
  | cons b l ih =>
    rw [lastWrite_cons, h b (by simp), Option.getD_none]
    exact ih (fun c hc => h c (by simp [hc])) a

end Infra
