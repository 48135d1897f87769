import Mathlib.Data.List.Chain
import Mathlib.Logic.Function.Basic

/-!
# 事象の列に沿った実行

並行な program の interleaving を「どの thread の次の一歩か」を名指す事象の列で表す。
一歩は `step : σ → ε → Option σ` で、`none` はその状態ではその事象が起こりえないことを言う。

* `exec` — 列を順に実行する。到達可能な状態とは、ある列の `exec` の結果のことである
* `Meets` — 列のどの一歩も、その直前の状態で条件 `ok` を満たしている
* `exec_induct` — 条件を満たす一歩が不変量を保てば、条件を満たす列も保つ
* `exec_reaches` — 残りの歩数が減り続ければ、目標に着く
* `trace` — 通る状態の列。隣り合う状態の関係は `isChain_trace_iff` で調べる
* `history` — 一歩ごとに観測したものの列。状態との関係は `exec_history_induct` で調べる

条件を状態でなく **一歩** に付けるのは、「この瞬間にこの命令が走らなければ」という形の
前提を schedule についての前提として書くためである。
-/

namespace Infra

variable {σ ε : Type*}

/-- 事象の列を順に実行する。起こりえない事象に当たれば `none`。 -/
def exec (step : σ → ε → Option σ) : σ → List ε → Option σ
  | s, [] => some s
  | s, e :: es =>
    match step s e with
    | none => none
    | some s' => exec step s' es

/-- 列のどの一歩も、直前の状態で `ok` を満たす。 -/
def Meets (step : σ → ε → Option σ) (ok : σ → ε → Prop) : σ → List ε → Prop
  | _, [] => True
  | s, e :: es =>
    ok s e ∧ match step s e with
      | none => True
      | some s' => Meets step ok s' es

variable {step : σ → ε → Option σ} {ok : σ → ε → Prop}

instance Meets.decidable [∀ s e, Decidable (ok s e)] :
    ∀ (s : σ) (es : List ε), Decidable (Meets step ok s es)
  | _, [] => .isTrue trivial
  | s, e :: es =>
    have : Decidable (match step s e with
        | none => True
        | some s' => Meets step ok s' es) :=
      match step s e with
      | none => .isTrue trivial
      | some s' => Meets.decidable s' es
    inferInstanceAs (Decidable (_ ∧ _))

@[simp] theorem exec_nil (s : σ) : exec step s [] = some s := rfl

variable {s s' : σ} {e : ε} {es : List ε} {Inv : σ → Prop}

/-- 条件の付いた一歩が起きたのは、条件が成り立ったからである。 -/
theorem of_ite_eq_some {p : Prop} [Decidable p] (h : (if p then some s else none) = some s') :
    p ∧ s = s' := by
  rw [Option.ite_none_right_eq_some, Option.some.injEq] at h
  exact h

theorem exec_cons (h : step s e = some s') : exec step s (e :: es) = exec step s' es := by
  simp only [exec, h]

theorem exec_cons_eq_some {s'' : σ} :
    exec step s (e :: es) = some s'' ↔ ∃ s', step s e = some s' ∧ exec step s' es = some s'' := by
  cases h : step s e <;> simp [exec, h]

/-- 列を継ぐことは、実行を継ぐことである。 -/
theorem exec_append (s : σ) (es fs : List ε) :
    exec step s (es ++ fs) = (exec step s es).bind fun s' => exec step s' fs := by
  induction es generalizing s with
  | nil => rfl
  | cons e es ih =>
    cases h : step s e with
    | none => simp [exec, h]
    | some s' => simp only [List.cons_append, exec, h, ih]

/-- 列の中の事象が、どの状態でも条件を満たすなら、列は条件を満たす。 -/
theorem Meets.of_mem (h : ∀ e ∈ es, ∀ s, ok s e) (s : σ) : Meets step ok s es := by
  induction es generalizing s with
  | nil => trivial
  | cons e es ih =>
    refine ⟨h e (by simp) s, ?_⟩
    cases step s e with
    | none => trivial
    | some s' => exact ih (fun e he => h e (by simp [he])) s'

theorem Meets.tail (h : Meets step ok s (e :: es)) (he : step s e = some s') :
    Meets step ok s' es := by
  have h' := h.2
  rw [he] at h'
  exact h'

/-- 列の前半も条件を満たし、最後の一歩は前半の終わりの状態で条件を満たす。 -/
theorem Meets.snoc (h : Meets step ok s (es ++ [e])) (hrun : exec step s es = some s') :
    Meets step ok s es ∧ ok s' e := by
  induction es generalizing s with
  | nil =>
    rw [exec_nil, Option.some.injEq] at hrun
    exact ⟨trivial, hrun ▸ h.1⟩
  | cons e₀ es ih =>
    obtain ⟨s₁, he, hrest⟩ := exec_cons_eq_some.mp hrun
    obtain ⟨hm, hlast⟩ := ih (Meets.tail h he) hrest
    exact ⟨⟨h.1, by rw [he]; exact hm⟩, hlast⟩

/--
不変量の規則。

`ok` を満たす一歩が `Inv` を保つなら、どの一歩も `ok` を満たす列は `Inv` を保つ。
安全性の定理はすべてこれを経由するので、列についての帰納法はここに一度だけ現れる。
-/
theorem exec_induct (hstep : ∀ s e s', Inv s → ok s e → step s e = some s' → Inv s') :
    ∀ (es : List ε) (s s' : σ), Inv s → Meets step ok s es → exec step s es = some s' → Inv s' := by
  intro es
  induction es with
  | nil =>
    intro s s' hs _ h
    rw [exec_nil, Option.some.injEq] at h
    exact h ▸ hs
  | cons e es ih =>
    intro s s'' hs hm h
    obtain ⟨s', he, hrest⟩ := exec_cons_eq_some.mp h
    exact ih s' s'' (hstep s e s' hs hm.1 he) (hm.tail he) hrest

theorem exec_induct_all (hstep : ∀ s e s', Inv s → step s e = some s' → Inv s') (hs : Inv s)
    (h : exec step s es = some s') : Inv s' := by
  have hm : Meets step (fun _ _ => True) s es := Meets.of_mem (fun _ _ _ => trivial) s
  exact exec_induct (fun s e s' hi _ he => hstep s e s' hi he) es s s' hs hm h

/--
進行の規則。

`Inv n` の状態で事象 `e` がいつでも起こり、目標に着くか、`n` より小さい `m` の `Inv m` に移るなら、
`e` を繰り返すだけで目標に着く。
-/
theorem exec_reaches (Inv : Nat → σ → Prop) {goal : σ → Prop}
    (hstep : ∀ n s, Inv n s → ∃ s', step s e = some s' ∧ (goal s' ∨ ∃ m, m < n ∧ Inv m s')) :
    ∀ n s, Inv n s → ∃ k s', exec step s (List.replicate k e) = some s' ∧ goal s' := by
  intro n
  induction n using Nat.strong_induction_on with
  | _ n ih =>
    intro s hs
    obtain ⟨s₁, he, hgoal | ⟨m, hlt, hm⟩⟩ := hstep n s hs
    · exact ⟨1, s₁, by rw [List.replicate_one, exec_cons he, exec_nil], hgoal⟩
    · obtain ⟨k, s', hrun, hgoal⟩ := ih m hlt s₁ hm
      exact ⟨k + 1, s', by rw [List.replicate_succ, exec_cons he, hrun], hgoal⟩

/--
停止の規則。

不変量の下でどの一歩も測度 `μ` を減らすなら、列の長さは最初の測度を超えない。
-/
theorem exec_length_le {μ : σ → Nat}
    (hstep : ∀ s e s', Inv s → ok s e → step s e = some s' → Inv s' ∧ μ s' < μ s) :
    ∀ (es : List ε) (s s' : σ), Inv s → Meets step ok s es → exec step s es = some s' →
      es.length + μ s' ≤ μ s := by
  intro es
  induction es with
  | nil =>
    intro s s' _ _ h
    rw [exec_nil, Option.some.injEq] at h
    rw [h, List.length_nil, Nat.zero_add]
  | cons e es ih =>
    intro s s'' hs hm h
    obtain ⟨s', he, hrest⟩ := exec_cons_eq_some.mp h
    obtain ⟨hs', hlt⟩ := hstep s e s' hs hm.1 he
    have := ih s' s'' hs' (hm.tail he) hrest
    rw [List.length_cons]
    omega

/-- 列を実行する間に通る状態。最初の状態を含む。 -/
def trace (step : σ → ε → Option σ) : σ → List ε → List σ
  | s, [] => [s]
  | s, e :: es =>
    match step s e with
    | none => [s]
    | some s' => s :: trace step s' es

theorem trace_eq_cons (step : σ → ε → Option σ) (s : σ) (es : List ε) :
    ∃ l, trace step s es = s :: l := by
  cases es with
  | nil => exact ⟨[], rfl⟩
  | cons e es =>
    cases h : step s e with
    | none => exact ⟨[], by simp only [trace, h]⟩
    | some s' => exact ⟨trace step s' es, by simp only [trace, h]⟩

/--
隣り合う状態の関係を調べる規則。

不変量の下で、一歩の前後が `R` で結ばれることと一歩が `ok` を満たすことが同じなら、
通った状態が `R` の鎖になることと、列が `ok` を満たすことも同じである。
-/
theorem isChain_trace_iff {R : σ → σ → Prop}
    (hstep : ∀ s e s', Inv s → step s e = some s' → Inv s' ∧ (R s s' ↔ ok s e)) :
    ∀ (es : List ε) (s s' : σ), Inv s → exec step s es = some s' →
      ((trace step s es).IsChain R ↔ Meets step ok s es) := by
  intro es
  induction es with
  | nil =>
    intro s s' _ _
    simp [trace, Meets]
  | cons e es ih =>
    intro s s'' hs hrun
    obtain ⟨s', he, hrest⟩ := exec_cons_eq_some.mp hrun
    obtain ⟨hs', hiff⟩ := hstep s e s' hs he
    obtain ⟨l, hl⟩ := trace_eq_cons step s' es
    have ih' := ih s' s'' hs' hrest
    simp only [trace, Meets, he]
    rw [hl] at ih' ⊢
    rw [List.isChain_cons_cons, hiff, ih']

/-- 列を実行する間に、一歩ごとの前後から観測したものを並べる。 -/
def history {α : Type*} (step : σ → ε → Option σ) (obs : σ → ε → σ → List α) : σ → List ε → List α
  | _, [] => []
  | s, e :: es =>
    match step s e with
    | none => []
    | some s' => obs s e s' ++ history step obs s' es

/--
履歴についての不変量の規則。

状態とそれまでの履歴の関係 `Inv` が一歩ごとに保たれるなら、run の後でも成り立つ。
-/
theorem exec_history_induct {α : Type*} {obs : σ → ε → σ → List α} {Inv : σ → List α → Prop}
    (hstep : ∀ s e s' past, Inv s past → step s e = some s' → Inv s' (past ++ obs s e s')) :
    ∀ (es : List ε) (s s' : σ) (past : List α), Inv s past → exec step s es = some s' →
      Inv s' (past ++ history step obs s es) := by
  intro es
  induction es with
  | nil =>
    intro s s' past hs h
    rw [exec_nil, Option.some.injEq] at h
    rw [history, List.append_nil, ← h]
    exact hs
  | cons e es ih =>
    intro s s'' past hs h
    obtain ⟨s', he, hrest⟩ := exec_cons_eq_some.mp h
    have := ih s' s'' (past ++ obs s e s') (hstep s e s' past hs he) hrest
    simp only [history, he]
    rw [← List.append_assoc]
    exact this

/-- 具体的な列の最後の状態について、決定できる性質を計算で確かめる。 -/
theorem exec_exists (step : σ → ε → Option σ) (s : σ) (es : List ε) (P : σ → Prop)
    [DecidablePred P] (h : (exec step s es).any (fun s' => decide (P s')) = true) :
    ∃ s', exec step s es = some s' ∧ P s' := by
  obtain ⟨s', hs', hp⟩ := (Option.any_eq_true _ _).mp h
  exact ⟨s', hs', of_decide_eq_true hp⟩

/-- compare-and-swap。新しい値と、書き換えたかどうかを返す。 -/
def compareAndSwap {α : Type*} [DecidableEq α] (x old new : α) : α × Bool :=
  if x = old then (new, true) else (x, false)

end Infra
