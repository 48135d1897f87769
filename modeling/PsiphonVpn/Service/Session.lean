import PsiphonVpn.Service.Finally

/-!
# session は重ならないか

job の `finally` は `tunnelTaskState` を `STOPPED` にしてから、状態の reset を post し、
`tunnelJob` を `null` にし、`stopForegroundAndService` を呼ぶ。`STOPPED` になれば次の
`startTunnel` は通るので、残りの後始末は次の session の中へ食い込みうる（`cleanup_overlaps`）。

前の job がすべて終わってから `startTunnel` が戻り、`tunnelJob = null` がほかの job への参照を
消さないかぎり、session は重ならない（`sessions_apart`）。
-/

namespace Service

open Infra

variable {p q : JobPhase} {s s' : State}

namespace JobPhase

/-- `STOPPED` にした後の後始末が残っている。 -/
def cleansUp : JobPhase → Bool
  | .postReset | .nullJob | .stopForeground | .clearForeground | .stopSelf => true
  | _ => false

/-- `tunnelJob = null` を済ませた。 -/
def nulled : JobPhase → Bool
  | .stopForeground | .clearForeground | .stopSelf | .done => true
  | _ => false

theorem Next.nulled (h : Next p q) (hq : q.nulled = false) : p.nulled = false := by
  cases h with
  | established o => rfl
  | configured o => rfl
  | started o => rfl
  | _ => simp_all [JobPhase.nulled]

theorem Next.ne_done (h : Next p q) : p ≠ .done := by
  cases h <;> simp

theorem Next.nulled_of_nullJob (h : Next p q) (hp : p = .nullJob) : q.nulled = true := by
  cases h <;> simp_all [JobPhase.nulled]

end JobPhase

/-- `k` 番目の `startTunnel` は戻っている。 -/
def Returned (s : State) (k : Nat) : Prop := (s.job k).isSome = true ∧ s.main ≠ .assignJob k

/-- 戻った `startTunnel` の job は、自分で後始末するまで `tunnelJob` から参照されている。 -/
def SessionOwned (s : State) : Prop :=
  ∀ k jb, s.job k = some jb → Returned s k → jb.phase.nulled = false → s.tunnelJob = some k

/-- 後の `startTunnel` が戻った後に、前の session の後始末は残っていない。 -/
def NoLateCleanup (s : State) : Prop :=
  ∀ j k jb, s.job j = some jb → j < k → Returned s k → jb.phase.cleansUp = false

/-- `tunnelJob` に代入するとき、前の job はすべて `finally` を終えている。 -/
def AssignsAfterCleanup (s : State) : MainPc → Prop
  | .assignJob j => ∀ k, k < j → (s.job k).map Job.phase = some .done
  | _ => True

instance (s : State) (pc : MainPc) : Decidable (AssignsAfterCleanup s pc) := by
  cases pc with
  | assignJob j => exact Nat.decidableBallLT _ _
  | _ => exact .isTrue trivial

/--
一歩の条件。

`startTunnel` が戻るとき、前の job はすべて `finally` を終えている。
`tunnelJob = null` は、ほかの job への参照を消さない。
-/
def StartsAfterCleanup (s : State) : Event → Prop
  | .main _ => AssignsAfterCleanup s s.main
  | .job j _ => (s.job j).map Job.phase = some .nullJob →
      s.tunnelJob = none ∨ s.tunnelJob = some j
  | _ => True

instance : ∀ (s : State) (e : Event), Decidable (StartsAfterCleanup s e)
  | s, .main _ => inferInstanceAs (Decidable (AssignsAfterCleanup s s.main))
  | _, .job _ _ => inferInstanceAs (Decidable (_ → _))
  | _, .command _ | _, .looper _ | _, .call _ _ | _, .thread _ | _, .dispatch _ => .isTrue trivial

/-! ## 不変量 -/

structure SessionInv (s : State) : Prop extends LifecycleInv s where
  owned : SessionOwned s
  earlier : ∀ j k jb, s.job j = some jb → j < k → Returned s k → jb.phase = .done

theorem sessionInv_init : SessionInv init where
  toLifecycleInv := lifecycleInv_init
  owned := by simp [SessionOwned, init]
  earlier := by simp [init]

/-- job と参照に触れず、`assignJob` に出入りしない一歩。 -/
theorem SessionInv.of_quiet (h : SessionInv s) (h' : LifecycleInv s') (hj : s'.job = s.job)
    (hr : s'.tunnelJob = s.tunnelJob) (ha : ∀ k, s.main = .assignJob k → s'.main = .assignJob k) :
    SessionInv s' := by
  have hret : ∀ k, Returned s' k → Returned s k := by
    rintro k ⟨h1, h2⟩
    rw [hj] at h1
    exact ⟨h1, fun hm => h2 (ha k hm)⟩
  refine ⟨h', ?_, ?_⟩
  · intro k jb hk hk' hp
    rw [hj] at hk
    rw [hr]
    exact h.owned k jb hk (hret k hk') hp
  · intro j k jb hk hlt hk'
    rw [hj] at hk
    exact h.earlier j k jb hk hlt (hret k hk')

/-- まだ生まれていない job の `startTunnel` は戻っていない。 -/
theorem LifecycleInv.lt_of_returned (h : LifecycleInv s) {k : Nat} (hk : Returned s k) :
    k < s.nextJob := by
  by_contra hge
  have h1 := hk.1
  rw [h.fresh k (by omega)] at h1
  simp at h1

/-- 新しい job が生まれても、その `startTunnel` はまだ戻っていない。 -/
theorem sessionInv_launches (h : SessionInv s) (h' : LifecycleInv s') (hs : Launches s s') :
    SessionInv s' := by
  obtain ⟨hpc, hs'⟩ := hs
  have hjob : ∀ k, k ≠ s.nextJob → s'.job k = s.job k := by
    intro k hk
    rw [hs']
    exact Function.update_of_ne hk _ _
  have hret : ∀ k, Returned s' k → k ≠ s.nextJob ∧ Returned s k := by
    rintro k ⟨h1, h2⟩
    have hne : k ≠ s.nextJob := fun hk => h2 (by rw [hs', hk])
    rw [hjob k hne] at h1
    exact ⟨hne, h1, by simp [hpc]⟩
  refine ⟨h', ?_, ?_⟩
  · intro k jb hk hk' hp
    obtain ⟨hne, hold⟩ := hret k hk'
    rw [hjob k hne] at hk
    rw [hs']
    exact h.owned k jb hk hold hp
  · intro j k jb hj hlt hk'
    obtain ⟨-, hold⟩ := hret k hk'
    have hklt := h.lt_of_returned hold
    rw [hjob j (by omega)] at hj
    exact h.earlier j k jb hj hlt hold

/-- `startTunnel` が戻るとき、前の job がすべて終わっていれば、後始末は残らない。 -/
theorem sessionInv_assigns {j : Nat} (h : SessionInv s) (hpc : s.main = .assignJob j)
    (hc : AssignsAfterCleanup s s.main)
    (h' : LifecycleInv { s with tunnelJob := some j, main := .idle }) :
    SessionInv { s with tunnelJob := some j, main := .idle } := by
  have hj := h.assignJob j hpc
  have hdone : ∀ k jb, s.job k = some jb → k < j → jb.phase = .done := by
    intro k jb hk hlt
    rw [hpc] at hc
    simpa [hk] using hc k hlt
  refine ⟨h', ?_, ?_⟩
  · intro k jb hk hret hp
    have hklt : k < s.nextJob := h'.lt_of_returned hret
    by_cases hkj : k = j
    · rw [hkj]
    · rw [hdone k jb hk (by omega)] at hp
      simp [JobPhase.nulled] at hp
  · intro i k jb hi hlt hret
    have hklt : k < s.nextJob := h'.lt_of_returned hret
    exact hdone i jb hi (by omega)

theorem sessionInv_cancel (h : SessionInv s) (h' : LifecycleInv s') (hc : CancelFrame s s') :
    SessionInv s' := by
  have hret : ∀ k, Returned s' k → Returned s k := by
    rintro k ⟨h1, h2⟩
    refine ⟨?_, by rwa [hc.main] at h2⟩
    obtain ⟨jb', hjb'⟩ := Option.isSome_iff_exists.mp h1
    obtain ⟨jb, hjb, -⟩ := hc.job k jb' hjb'
    simp [hjb]
  refine ⟨h', ?_, ?_⟩
  · intro k jb' hk hk' hp
    obtain ⟨jb, hjb, hph | ⟨hl, -⟩⟩ := hc.job k jb' hk
    · rw [hc.tunnelJob]; exact h.owned k jb hjb (hret k hk') (hph ▸ hp)
    · rw [hc.tunnelJob]; exact h.owned k jb hjb (hret k hk') (by rw [hl]; rfl)
  · intro j k jb' hj hlt hk'
    obtain ⟨jb, hjb, hph | ⟨hl, -⟩⟩ := hc.job j jb' hj
    · rw [hph]; exact h.earlier j k jb hjb hlt (hret k hk')
    · -- 前の job はもう終わっているので、dispatch を待っていることはない
      have := h.earlier j k jb hjb hlt (hret k hk')
      simp [hl] at this

theorem sessionInv_moves {j : Nat} {jb : Job} (h : SessionInv s) (h' : LifecycleInv s')
    (hj : s.job j = some jb) (hm : JobMoves s s' j jb p)
    (hc : jb.phase = .nullJob → s.tunnelJob = none ∨ s.tunnelJob = some j) : SessionInv s' := by
  have hret : ∀ k, Returned s' k → Returned s k := by
    rintro k ⟨h1, h2⟩
    refine ⟨?_, by rwa [hm.main] at h2⟩
    rw [hm.job] at h1
    by_cases hkj : k = j
    · simp [hkj, hj]
    · simpa [Function.update_of_ne hkj] using h1
  refine ⟨h', ?_, ?_⟩
  · intro k kb hk hk' hp
    rcases hm.job_cases hk with ⟨rfl, rfl⟩ | ⟨hkj, hk₀⟩
    · have hnn : jb.phase ≠ .nullJob := by
        intro hn
        simp [hm.next.nulled_of_nullJob hn] at hp
      rw [hm.tunnelJob, if_neg hnn]
      exact h.owned k jb hj (hret k hk') (hm.next.nulled hp)
    · exact hm.keeps_tunnelJob hkj hc (h.owned k kb hk₀ (hret k hk') hp)
  · intro i k ib hi hlt hk'
    rcases hm.job_cases hi with ⟨rfl, rfl⟩ | ⟨hij, hi₀⟩
    · -- 終わった job は動かない
      exact absurd (h.earlier i k jb hj hlt (hret k hk')) hm.next.ne_done
    · exact h.earlier i k ib hi₀ hlt (hret k hk')

theorem sessionInv_step {e : Event} (h : SessionInv s) (hc : StartsAfterCleanup s e)
    (he : step s e = some s') : SessionInv s' := by
  have h' : LifecycleInv s' := lifecycleInv_step h.toLifecycleInv he
  refine step_elim (P := fun s' => LifecycleInv s' → SessionInv s') he ?_ ?_ ?_ ?_ ?_ ?_ ?_ h'
  · intro c _ hidle h'
    exact h.of_quiet h' rfl rfl (fun k hk => by simp [hidle] at hk)
  · intro now m ms _ _ _ h'
    cases m with
    | update u => exact h.of_quiet h' rfl rfl (fun _ hk => hk)
    | cancelJob =>
      have hl : LifecycleInv { s with looper := ms } :=
        h.toLifecycleInv.of_quiet (quiet_of_same h.toLifecycleInv rfl rfl rfl rfl)
      have hs : SessionInv { s with looper := ms } := h.of_quiet hl rfl rfl (fun _ hk => hk)
      exact sessionInv_cancel hs h' (cancelJob_frame _)
  · intro o hev hm h'
    subst hev
    cases mainStep_change h.toStart hm with
    | other hf =>
      exact h.of_quiet h' hf.job hf.tunnelJob (fun k hk => absurd hk (hf.notAssignJob k))
    | acts a as hpc hs =>
      have hf := runAct_frame s a
      subst hs
      exact h.of_quiet h' hf.job hf.tunnelJob (fun k hk => by simp [hpc] at hk)
    | starts hs =>
      obtain ⟨hpc, -, rfl⟩ := hs
      exact h.of_quiet h' rfl rfl (fun k hk => by simp [hpc] at hk)
    | launches hs => exact sessionInv_launches h h' hs
    | assigns hs =>
      obtain ⟨j, hpc, rfl⟩ := hs
      exact sessionInv_assigns h hpc hc h'
  · intro t k _ _ h'
    exact h.of_quiet h' rfl rfl (fun _ hk => hk)
  · intro t a as _ _ h'
    have hf := runAct_frame s a
    exact h.of_quiet h' hf.job hf.tunnelJob (fun k hk => hf.main.trans hk)
  · intro j jb _ hj hp h'
    exact sessionInv_moves h h' hj (dispatch_moves hp) (fun hn => by simp [hp] at hn)
  · intro j jb o hev hj hs h'
    subst hev
    obtain ⟨p, hm⟩ := jobStep_moves hs
    exact sessionInv_moves h h' hj hm (fun hn => hc (by rw [hj, Option.map_some, hn]))

/-! ## 定理 -/

/--
どの一歩も `StartsAfterCleanup` を満たす run では、戻った `startTunnel` の job は自分で
後始末するまで `tunnelJob` から参照され、前の session の後始末はもう残っていない。
-/
theorem sessions_apart {es : List Event} {s : State} (hrun : exec step init es = some s)
    (hc : Meets step StartsAfterCleanup init es) : SessionOwned s ∧ NoLateCleanup s := by
  have hinv : SessionInv s :=
    exec_induct (fun _ _ _ hi hok he => sessionInv_step hi hok he) es init s sessionInv_init hc hrun
  refine ⟨hinv.owned, fun j k jb hj hlt hk => ?_⟩
  rw [hinv.earlier j k jb hj hlt hk]
  rfl

/-- 一つ目の session の後始末が終わってから、二つ目を始める run。 -/
def startAgain : List Event := [startThenStop, startCommand (some "CA"), [.dispatch 1]].flatten

theorem sessions_apart_startAgain :
    ∃ s, exec step init startAgain = some s ∧ s.tunnelJob = some 1 ∧ s.nextJob = 2 ∧
      SessionOwned s ∧ NoLateCleanup s := by
  obtain ⟨s, hs, htj, hn⟩ := exec_exists step init startAgain
    (fun s => s.tunnelJob = some 1 ∧ s.nextJob = 2) (by decide)
  exact ⟨s, hs, htj, hn, sessions_apart hs (by decide)⟩

/-- `STOPPED` にした直後の job を追い越して、次の start が通る run。 -/
def startDuringCleanup : List Event :=
  [stopDelivered, List.replicate 4 (.job 0 .ok),
    [.command (.start none)], List.replicate 6 (.main .ok), [.job 0 .ok, .job 0 .ok]].flatten

/--
二つ目の session が始まった後で、一つ目の `finally` が reset を post し、`tunnelJob` を消す。
二つ目の job は走っているのに参照されず、foreground もこれから外される。
-/
theorem cleanup_overlaps :
    ∃ s, exec step init startDuringCleanup = some s ∧ ¬ SessionOwned s ∧ ¬ NoLateCleanup s := by
  obtain ⟨s, hs, hidle, htj, h0, h1⟩ := exec_exists step init startDuringCleanup
    (fun s => s.main = .idle ∧ s.tunnelJob = none ∧
      s.job 0 = some ⟨.stopForeground, true⟩ ∧ s.job 1 = some ⟨.launched, false⟩) (by decide)
  have hret : Returned s 1 := ⟨by simp [h1], by simp [hidle]⟩
  refine ⟨s, hs, fun h => ?_, fun h => ?_⟩
  · have := h 1 _ h1 hret rfl
    simp [htj] at this
  · have := h 0 1 _ h0 (by omega) hret
    simp [JobPhase.cleansUp] at this

end Service
