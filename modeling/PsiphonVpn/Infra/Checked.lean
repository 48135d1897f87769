import PsiphonVpn.Infra.Run

/-!
# 故障しうる一歩

C の program は `ASSERT` に失敗したり、解放した記憶に触れたりしうる。そのような故障を値 `φ` で表し、
一歩を `step : σ → ε → Option (Except φ σ)` とする。外側の `Option` は事象が起こりうるかどうか、
内側の `Except` は起きた時に program が故障するかどうかである。
-/

namespace Infra

variable {σ ε φ : Type*} {α : Type}

/-- `ASSERT(p)` -/
def check (f : φ) (p : Prop) [Decidable p] : Except φ Unit := if p then .ok () else .error f

@[simp] theorem check_bind {f : φ} {p : Prop} [Decidable p] (h : p) (g : Unit → Except φ α) :
    (check f p >>= g) = g () := by
  simp only [check, h, if_true]
  rfl

@[simp] theorem ok_bind {α β : Type} (a : α) (f : α → Except φ β) :
    ((.ok a : Except φ α) >>= f) = f a := rfl

theorem bind_eq_ok {α β : Type} {x : Except φ α} {f : α → Except φ β} {b : β} :
    (x >>= f) = .ok b ↔ ∃ a, x = .ok a ∧ f a = .ok b := by
  cases x <;> simp [bind, Except.bind]

/-- 故障した状態からは進まない。 -/
def guarded (step : σ → ε → Option (Except φ σ)) : Except φ σ → ε → Option (Except φ σ)
  | .ok s, e => step s e
  | .error _, _ => none

/-- 故障していない状態での一歩の条件。 -/
def OkThen (ok : σ → ε → Prop) : Except φ σ → ε → Prop
  | .ok s, e => ok s e
  | .error _, _ => True

instance OkThen.decidable {ok : σ → ε → Prop} [∀ s e, Decidable (ok s e)] :
    ∀ (r : Except φ σ) (e : ε), Decidable (OkThen ok r e)
  | .ok s, e => inferInstanceAs (Decidable (ok s e))
  | .error _, _ => .isTrue trivial

variable {step : σ → ε → Option (Except φ σ)} {ok : σ → ε → Prop}

variable {Inv : σ → Prop} {es : List ε} {s : σ} {r : Except φ σ}

/--
故障しないことの規則。

不変量と条件の下で一歩が故障せず不変量を保つなら、どの一歩も条件を満たす run は故障せず、
不変量を保つ。
-/
theorem exec_safe
    (hstep : ∀ s e r, Inv s → ok s e → step s e = some r → ∃ s', r = .ok s' ∧ Inv s') (hs : Inv s)
    (hm : Meets (guarded step) (OkThen ok) (.ok s) es)
    (hrun : exec (guarded step) (.ok s) es = some r) : ∃ s', r = .ok s' ∧ Inv s' := by
  have hlift : ∀ (r : Except φ σ) (e : ε) (r' : Except φ σ), (∃ s', r = .ok s' ∧ Inv s') →
      OkThen ok r e → guarded step r e = some r' → ∃ s', r' = .ok s' ∧ Inv s' := by
    rintro _ e r' ⟨s₁, rfl, hs₁⟩ hok he
    exact hstep s₁ e r' hs₁ hok he
  exact exec_induct hlift es (.ok s) r ⟨s, rfl, hs⟩ hm hrun

/-- 条件のない run が故障しないことの規則。 -/
theorem exec_safe_all (hstep : ∀ s e r, Inv s → step s e = some r → ∃ s', r = .ok s' ∧ Inv s')
    (hs : Inv s) (hrun : exec (guarded step) (.ok s) es = some r) : ∃ s', r = .ok s' ∧ Inv s' := by
  have hm : Meets (guarded step) (OkThen fun _ _ => True) (.ok s) es :=
    Meets.of_mem (fun _ _ r => by cases r <;> trivial) _
  exact exec_safe (fun s e r hi _ he => hstep s e r hi he) hs hm hrun

/--
故障せずに止まることの規則。

不変量と条件の下で一歩が故障せず、不変量を保ち、測度 `μ` を減らすなら、run の長さは最初の測度を超えない。
-/
theorem exec_safe_length_le {μ : σ → Nat}
    (hstep : ∀ s e r, Inv s → ok s e → step s e = some r → ∃ s', r = .ok s' ∧ Inv s' ∧ μ s' < μ s)
    (hs : Inv s) (hm : Meets (guarded step) (OkThen ok) (.ok s) es)
    (hrun : exec (guarded step) (.ok s) es = some r) : es.length ≤ μ s := by
  have hlift : ∀ (r : Except φ σ) (e : ε) (r' : Except φ σ), (∃ s', r = .ok s' ∧ Inv s') →
      OkThen ok r e → guarded step r e = some r' →
      (∃ s', r' = .ok s' ∧ Inv s') ∧ r'.toOption.elim 0 μ < r.toOption.elim 0 μ := by
    rintro _ e r' ⟨s₁, rfl, hs₁⟩ hok he
    obtain ⟨s₂, rfl, hs₂, hlt⟩ := hstep s₁ e r' hs₁ hok he
    exact ⟨⟨s₂, rfl, hs₂⟩, hlt⟩
  have hle : es.length + r.toOption.elim 0 μ ≤ μ s :=
    exec_length_le hlift es (.ok s) r ⟨s, rfl, hs⟩ hm hrun
  omega

/--
記録の規則。

不変量の下で一歩が故障せず、不変量を保ち、state に添えた記録 `log` を事象の示す `obs e` だけ伸ばすなら、run も故障せず、
後の記録は事象の列の示すものを並べたものである。
-/
theorem exec_safe_log {β : Type*} {log : σ → List β} {obs : ε → List β}
    (hstep : ∀ s e r, Inv s → step s e = some r → ∃ s', r = .ok s' ∧ Inv s' ∧
      log s' = log s ++ obs e)
    (hs : Inv s) (hrun : exec (guarded step) (.ok s) es = some r) :
    ∃ s', r = .ok s' ∧ Inv s' ∧ log s' = log s ++ es.flatMap obs := by
  induction es generalizing s with
  | nil =>
    rw [exec_nil, Option.some.injEq] at hrun
    exact ⟨s, hrun.symm, hs, (List.append_nil _).symm⟩
  | cons e es ih =>
    obtain ⟨r₁, he, hrest⟩ := exec_cons_eq_some.mp hrun
    obtain ⟨s₁, rfl, hs₁, hlog₁⟩ := hstep s e r₁ hs he
    obtain ⟨s', hr, hs', hlog⟩ := ih hs₁ hrest
    refine ⟨s', hr, hs', ?_⟩
    rw [hlog, hlog₁, List.flatMap_cons, List.append_assoc]

/-- 具体的な列が故障せずに終わり、最後の状態が決定できる性質を満たすことを、計算で確かめる。 -/
theorem exec_ok_exists (step : σ → ε → Option (Except φ σ)) (s : σ) (es : List ε) (P : σ → Prop)
    [DecidablePred P]
    (h : (exec (guarded step) (.ok s) es).any
      (fun r => r.toOption.any fun s' => decide (P s')) = true) :
    ∃ s', exec (guarded step) (.ok s) es = some (.ok s') ∧ P s' := by
  obtain ⟨r, hr, hp⟩ := (Option.any_eq_true _ _).mp h
  cases r with
  | error f => exact absurd hp (by simp [Except.toOption])
  | ok s' => exact ⟨s', hr, of_decide_eq_true hp⟩

end Infra
