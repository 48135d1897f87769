import PsiphonVpn.Service.TaskState

/-!
# `STOPPED` に戻れるか

`tunnelTaskState` を `STOPPED` に戻すのは tunnel job の `finally` だけである。したがって
`STOPPED` でない間は、`finally` を実行中か、これから実行する job がなければならない。
`FinallyAhead` がその job の条件で、次のどれかを言う。

* 本体を抜けて `catch` か `finally` にいる
* 本体にいて、cancel されている
* 本体にいるか dispatch を待っていて、`tunnelJob` から参照され、まだ stop できるか、
  cancel が post されて処理を待っている

二つの所で崩れる。cancel が最初の dispatch より前に処理されると、job は本体を一度も実行せずに終わり
（`stuck_in_stopping`）、前の session の `tunnelJob = null` が次の session の参照を消すと、cancel が
届かなくなる。どちらも起きない run では成り立つ（`finally_ahead`）。
-/

namespace Service

open Infra

namespace JobPhase

/-- `try` の本体の中。 -/
def inBody : JobPhase → Bool
  | .begin | .establish | .config | .starting | .setRunning | .suspended => true
  | _ => false

/-- 本体を抜けて、`STOPPED` にするまで。 -/
def inFinally : JobPhase → Bool
  | .failed _ _ | .teardown | .stopPsiphon | .setStopped => true
  | _ => false

end JobPhase

/-- cancel が post されたか、これから post される。 -/
def CancelPending (s : State) : Prop :=
  .cancelJob ∈ s.looper ∨ .post .cancelJob ∈ s.main.rest ∨ ∃ t, .post .cancelJob ∈ s.thread t

/-- cancel は job `j` に届く。 -/
def Reaches (s : State) (j : Nat) : Prop := s.tunnelJob = some j ∨ s.main = .assignJob j

/-- job `j` の `finally` は実行中か、これから実行される。 -/
def FinallyAhead (s : State) (j : Nat) : Prop :=
  ∃ jb, s.job j = some jb ∧
    (jb.phase.inFinally = true ∨
      (jb.phase.inBody = true ∧ jb.cancelled = true) ∨
      ((jb.phase = .launched ∨ jb.phase.inBody = true) ∧ Reaches s j ∧
        (s.tunnelTaskState ≠ .STOPPING ∨ CancelPending s)))

/-- `STOPPED` でないなら、`finally` がまだ先にある job がいる。`launch` の直前だけは job がまだ無い。 -/
def CanStop (s : State) : Prop :=
  s.tunnelTaskState ≠ .STOPPED → s.main = .launch ∨ ∃ j, FinallyAhead s j

/--
一歩の条件。

cancel は、参照している job が dispatch された後に処理される。
`finally` の `tunnelJob = null` は、ほかの job への参照を消さない。
-/
def CancelsSafely (s : State) : Event → Prop
  | .looper _ => s.looper.head? = some .cancelJob →
      (s.tunnelJob.bind s.job).map Job.phase ≠ some .launched
  | .job j _ => (s.job j).map Job.phase = some .nullJob →
      s.tunnelJob = none ∨ s.tunnelJob = some j
  | _ => True

instance : ∀ (s : State) (e : Event), Decidable (CancelsSafely s e)
  | _, .looper _ | _, .job _ _ => inferInstanceAs (Decidable (_ → _))
  | _, .command _ | _, .main _ | _, .call _ _ | _, .thread _ | _, .dispatch _ => .isTrue trivial

/-! ## 位相の進み方 -/

variable {p q : JobPhase} {a : Act} {as : List Act} {s s' : State} {j : Nat} {jb : Job}

namespace JobPhase

theorem Next.ahead (h : Next p q) (hp : p = .launched ∨ p.inBody = true) :
    q.inBody = true ∨ q.inFinally = true := by
  cases h with
  | established o => cases o <;> simp [JobPhase.after, inBody, inFinally]
  | configured o => cases o <;> simp [JobPhase.after, inBody, inFinally]
  | started o => cases o <;> simp [JobPhase.after, inBody, inFinally]
  | _ => simp_all [inBody, inFinally]

theorem Next.inFinally (h : Next p q) (hp : p.inFinally = true) (hne : p ≠ .setStopped) :
    q.inFinally = true := by
  cases h <;> simp_all [JobPhase.inFinally]

end JobPhase

/-! ## cancel は失われない -/

theorem runAct_looper_mono (s : State) (a : Act) {m : Message} (h : m ∈ s.looper) :
    m ∈ (runAct s a).1.looper := by
  cases a with
  | post m' => cases m' <;> simp [runAct, State.post, h]
  | _ => exact h

/-- 残りの列にある cancel の post は、実行されて looper に入るか、列に残る。 -/
theorem runAct_cancel (s : State) (h : .post .cancelJob ∈ a :: as) :
    .cancelJob ∈ (runAct s a).1.looper ∨ .post .cancelJob ∈ (runAct s a).2 ++ as := by
  rcases List.mem_cons.mp h with rfl | h
  · exact Or.inl (by simp [runAct, State.post])
  · exact Or.inr (List.mem_append_right _ h)

theorem cancelPending_acts (hpc : s.main = .acts (a :: as)) (h : CancelPending s) :
    CancelPending { (runAct s a).1 with main := .ofActs ((runAct s a).2 ++ as) } := by
  rcases h with h | h | ⟨t, h⟩
  · exact Or.inl (runAct_looper_mono s a h)
  · rw [hpc] at h
    rcases runAct_cancel s h with h | h
    · exact Or.inl h
    · exact Or.inr (Or.inl (by rw [rest_ofActs]; exact h))
  · refine Or.inr (Or.inr ⟨t, ?_⟩)
    rw [← (runAct_frame s a).thread] at h
    exact h

theorem cancelPending_thread {t : Nat} (ht : s.thread t = a :: as) (h : CancelPending s) :
    CancelPending { (runAct s a).1 with
      thread := Function.update (runAct s a).1.thread t ((runAct s a).2 ++ as) } := by
  have hf := runAct_frame s a
  rcases h with h | h | ⟨u, h⟩
  · exact Or.inl (runAct_looper_mono s a h)
  · exact Or.inr (Or.inl (by rw [← hf.main] at h; exact h))
  · by_cases hu : u = t
    · subst hu
      rw [ht] at h
      rcases runAct_cancel s h with h | h
      · exact Or.inl h
      · exact Or.inr (Or.inr ⟨u, by simpa using h⟩)
    · refine Or.inr (Or.inr ⟨u, ?_⟩)
      show Act.post .cancelJob ∈
        Function.update (runAct s a).1.thread t ((runAct s a).2 ++ as) u
      rw [Function.update_of_ne hu, hf.thread]
      exact h

/-- looper に足し、`main` の残りと thread を変えない一歩。 -/
theorem CancelPending.mono (h : CancelPending s)
    (hl : .cancelJob ∈ s.looper → .cancelJob ∈ s'.looper)
    (hm : .post .cancelJob ∈ s.main.rest → .post .cancelJob ∈ s'.main.rest)
    (ht : ∀ t, .post .cancelJob ∈ s.thread t → .post .cancelJob ∈ s'.thread t) :
    CancelPending s' := by
  rcases h with h | h | ⟨t, h⟩
  · exact Or.inl (hl h)
  · exact Or.inr (Or.inl (hm h))
  · exact Or.inr (Or.inr ⟨t, ht t h⟩)

/-! ## 不変量 -/

structure FinallyInv (s : State) : Prop extends LifecycleInv s where
  ahead : s.tunnelTaskState ≠ .STOPPED → s.main ≠ .launch → ∃ j, FinallyAhead s j
  launching : s.main = .launch → s.tunnelTaskState = .STOPPING → CancelPending s

theorem finallyInv_init : FinallyInv init where
  toLifecycleInv := lifecycleInv_init
  ahead := by simp [init]
  launching := by simp [init]

theorem FinallyInv.canStop (h : FinallyInv s) : CanStop s := by
  intro hst
  by_cases hl : s.main = .launch
  · exact Or.inl hl
  · exact Or.inr (h.ahead hst hl)

/-- job が変わらない一歩。参照と、stop できることが保たれればよい。 -/
theorem FinallyAhead.of_same (h : FinallyAhead s j) (hj : s'.job j = s.job j)
    (hr : Reaches s j → Reaches s' j) (hp : (s.tunnelTaskState ≠ .STOPPING ∨ CancelPending s) →
      (s'.tunnelTaskState ≠ .STOPPING ∨ CancelPending s')) : FinallyAhead s' j := by
  obtain ⟨jb, hjb, h | h | ⟨h1, h2, h3⟩⟩ := h
  · exact ⟨jb, hj.trans hjb, Or.inl h⟩
  · exact ⟨jb, hj.trans hjb, Or.inr (Or.inl h)⟩
  · exact ⟨jb, hj.trans hjb, Or.inr (Or.inr ⟨h1, hr h2, hp h3⟩)⟩

theorem FinallyAhead.active (h : FinallyAhead s j) :
    ∃ jb, s.job j = some jb ∧ jb.phase.active = true := by
  obtain ⟨jb, hjb, h⟩ := h
  refine ⟨jb, hjb, ?_⟩
  cases hp : jb.phase <;> simp_all [JobPhase.active, JobPhase.inFinally, JobPhase.inBody]

/-- job にも `tunnelTaskState` にも触れず、cancel の待ちを保つ一歩。 -/
theorem FinallyInv.of_quiet (h : FinallyInv s) (h' : LifecycleInv s')
    (ht : s'.tunnelTaskState = s.tunnelTaskState) (hj : s'.job = s.job)
    (hr : s'.tunnelJob = s.tunnelJob) (ha : ∀ j, s.main = .assignJob j → s'.main = .assignJob j)
    (hl : s'.main = .launch ↔ s.main = .launch) (hp : CancelPending s → CancelPending s') :
    FinallyInv s' where
  toLifecycleInv := h'
  ahead := by
    intro hst hm
    rw [ht] at hst
    obtain ⟨j, hja⟩ := h.ahead hst (fun hm' => hm (hl.mpr hm'))
    refine ⟨j, hja.of_same (by rw [hj]) ?_ ?_⟩
    · rintro (hr' | hm')
      · exact Or.inl (hr.trans hr')
      · exact Or.inr (ha j hm')
    · rw [ht]
      exact Or.imp_right hp
  launching := by
    intro hm hst
    rw [ht] at hst
    exact hp (h.launching (hl.mp hm) hst)

/-- 成功した `stopTunnel` は、続けて cancel を post する。 -/
theorem FinallyInv.of_stops (h : FinallyInv s) (h' : LifecycleInv s')
    (hb : s.tunnelTaskState = .RUNNING ∨ s.tunnelTaskState = .STARTING) (hj : s'.job = s.job)
    (hr : s'.tunnelJob = s.tunnelJob) (ha : ∀ j, s.main = .assignJob j → s'.main = .assignJob j)
    (hl : s.main = .launch → s'.main = .launch) (hp : CancelPending s') : FinallyInv s' where
  toLifecycleInv := h'
  ahead := by
    intro _ hm
    have hst : s.tunnelTaskState ≠ .STOPPED := by rcases hb with hb | hb <;> simp [hb]
    obtain ⟨j, hja⟩ := h.ahead hst (fun hm' => hm (hl hm'))
    refine ⟨j, hja.of_same (by rw [hj]) ?_ (fun _ => Or.inr hp)⟩
    rintro (hr' | hm')
    · exact Or.inl (hr.trans hr')
    · exact Or.inr (ha j hm')
  launching := fun _ _ => hp

theorem finallyInv_thread {t : Nat} (h : FinallyInv s) (ht : s.thread t = a :: as)
    (h' : LifecycleInv { (runAct s a).1 with
      thread := Function.update (runAct s a).1.thread t ((runAct s a).2 ++ as) }) :
    FinallyInv { (runAct s a).1 with
      thread := Function.update (runAct s a).1.thread t ((runAct s a).2 ++ as) } := by
  have hf := runAct_frame s a
  rcases runAct_tunnelTaskState s a with hst | ⟨hb, -, hpush⟩
  · exact h.of_quiet h' hst hf.job hf.tunnelJob (fun j hj => hf.main.trans hj)
      (by rw [← hf.main]) (cancelPending_thread ht)
  · refine h.of_stops h' hb hf.job hf.tunnelJob (fun j hj => hf.main.trans hj)
      (fun hl => hf.main.trans hl) (Or.inr (Or.inr ⟨t, ?_⟩))
    show Act.post .cancelJob ∈ Function.update (runAct s a).1.thread t ((runAct s a).2 ++ as) t
    rw [Function.update_self, hpush]
    simp [stopTunnelPosts]

theorem finallyInv_acts (h : FinallyInv s) (hpc : s.main = .acts (a :: as))
    (h' : LifecycleInv { (runAct s a).1 with main := .ofActs ((runAct s a).2 ++ as) }) :
    FinallyInv { (runAct s a).1 with main := .ofActs ((runAct s a).2 ++ as) } := by
  have hf := runAct_frame s a
  obtain ⟨-, hne, -⟩ := ofActs_ne ((runAct s a).2 ++ as)
  rcases runAct_tunnelTaskState s a with hst | ⟨hb, -, hpush⟩
  · exact h.of_quiet h' hst hf.job hf.tunnelJob (fun j hj => by simp [hpc] at hj)
      ⟨fun hl => absurd hl hne, fun hl => by simp [hpc] at hl⟩ (cancelPending_acts hpc)
  · refine h.of_stops h' hb hf.job hf.tunnelJob (fun j hj => by simp [hpc] at hj)
      (fun hl => by simp [hpc] at hl) (Or.inr (Or.inl ?_))
    rw [rest_ofActs, hpush]
    simp [stopTunnelPosts]

theorem finallyInv_launches (h : FinallyInv s) (h' : LifecycleInv s') (hs : Launches s s') :
    FinallyInv s' := by
  obtain ⟨hpc, rfl⟩ := hs
  refine ⟨h', fun _ _ => ⟨s.nextJob, _, Function.update_self .., ?_⟩, by simp⟩
  refine Or.inr (Or.inr ⟨Or.inl rfl, Or.inr rfl, ?_⟩)
  by_cases hst : s.tunnelTaskState = .STOPPING
  · -- launch の前に stop されていたなら、cancel がもう待っている
    refine Or.inr ((h.launching hpc hst).mono (fun hl => hl) ?_ (fun _ ht => ht))
    rw [hpc]
    simp [MainPc.rest]
  · exact Or.inl hst

theorem finallyInv_assigns (h : FinallyInv s) (h' : LifecycleInv s') (hs : Assigns s s') :
    FinallyInv s' := by
  obtain ⟨j, hpc, rfl⟩ := hs
  refine ⟨h', ?_, by simp⟩
  intro hst _
  obtain ⟨k, hk⟩ := h.ahead hst (by simp [hpc])
  -- active な job は最後に起こされた job なので、代入されるのはそれである
  have hkj : k = j := by
    obtain ⟨kb, hkb, hact⟩ := hk.active
    have h1 := (h.latest k kb hkb hact).1
    have h2 := h.assignJob j hpc
    omega
  subst hkj
  refine ⟨k, hk.of_same rfl (fun _ => Or.inl rfl) (Or.imp_right fun hp => ?_)⟩
  exact hp.mono (fun hl => hl) (by rw [hpc]; simp [MainPc.rest]) (fun _ ht => ht)

/-- dispatch された job に届く cancel は、その job の `finally` を走らせる。 -/
theorem finallyInv_cancel {ms : List Message} (h : FinallyInv s) (hidle : s.main = .idle)
    (hc : (s.tunnelJob.bind s.job).map Job.phase ≠ some .launched)
    (h' : LifecycleInv (cancelJob { s with looper := ms })) :
    FinallyInv (cancelJob { s with looper := ms }) := by
  have hf := cancelJob_frame { s with looper := ms }
  refine ⟨h', ?_, fun hl => by rw [hf.main] at hl; simp [hidle] at hl⟩
  intro hst _
  rw [hf.tunnelTaskState] at hst
  obtain ⟨k, jb, hjb, hcase⟩ := h.ahead hst (by simp [hidle])
  have hlive : jb.phase ≠ .done ∧ jb.phase ≠ .dropped := by
    constructor <;>
      (intro hp; rcases hcase with h1 | h1 | h1 <;>
        simp [hp, JobPhase.inFinally, JobPhase.inBody] at h1)
  refine ⟨k, ?_⟩
  unfold cancelJob
  by_cases htj : s.tunnelJob = some k
  · have hnl : jb.phase ≠ .launched := by simpa [htj, hjb] using hc
    refine ⟨{ jb with cancelled := true }, ?_, ?_⟩
    · simp only [htj, hjb]
      split <;> simp_all [State.setJob]
    · rcases hcase with h1 | ⟨h1, -⟩ | ⟨h1, -, -⟩
      · exact Or.inl h1
      · exact Or.inr (Or.inl ⟨h1, rfl⟩)
      · rcases h1 with h1 | h1
        · exact absurd h1 hnl
        · exact Or.inr (Or.inl ⟨h1, rfl⟩)
  · -- 参照されていない job には、待っている cancel も要らない
    refine ⟨jb, ?_, ?_⟩
    · cases htj' : s.tunnelJob with
      | none => exact hjb
      | some j =>
        have hne : k ≠ j := by rintro rfl; exact htj htj'
        cases hj : s.job j with
        | none => simpa [hj] using hjb
        | some jb' =>
          simp only [hj]
          split <;> simp [State.setJob, Function.update_of_ne hne, hjb]
    · rcases hcase with h1 | h1 | ⟨-, h1 | h1, -⟩
      · exact Or.inl h1
      · exact Or.inr (Or.inl h1)
      · exact absurd h1 htj
      · simp [hidle] at h1

theorem cancelPending_moves (hm : JobMoves s s' j jb p) (h : CancelPending s) :
    CancelPending s' := by
  refine h.mono (fun hl => ?_) (fun hl => ?_) (fun t hl => ?_)
  · rw [hm.looper]; exact List.mem_append_left _ hl
  · rw [hm.main]; exact hl
  · rw [hm.thread]; exact hl

theorem finallyInv_moves (h : FinallyInv s) (h' : LifecycleInv s') (hj : s.job j = some jb)
    (hm : JobMoves s s' j jb p)
    (hc : jb.phase = .nullJob → s.tunnelJob = none ∨ s.tunnelJob = some j) : FinallyInv s' := by
  refine ⟨h', ?_, ?_⟩
  · intro hst hl
    rw [hm.main] at hl
    -- STOPPED にした直後でなければ、動く前も STOPPED ではなかった
    have hns : jb.phase ≠ .setStopped := by
      intro hs
      rw [hm.tunnelTaskState, if_neg (by simp [hs]), if_pos hs] at hst
      exact hst rfl
    have hst₀ : s.tunnelTaskState ≠ .STOPPED := by
      intro hs
      rw [hm.tunnelTaskState, if_neg hns] at hst
      split at hst
      · next hr => exact (h.latest j jb hj (by rw [hr]; rfl)).2 hs
      · exact hst hs
    obtain ⟨k, hk⟩ := h.ahead hst₀ hl
    refine ⟨k, ?_⟩
    by_cases hkj : k = j
    · subst hkj
      obtain ⟨jb', hjb', hcase⟩ := hk
      rw [hj, Option.some.injEq] at hjb'
      subst hjb'
      refine ⟨{ jb with phase := p }, by rw [hm.job, Function.update_self], ?_⟩
      rcases hcase with h1 | ⟨h1, h2⟩ | ⟨h1, h2, h3⟩
      · exact Or.inl (hm.next.inFinally h1 hns)
      · rcases hm.next.ahead (Or.inr h1) with hb | hf
        · exact Or.inr (Or.inl ⟨hb, h2⟩)
        · exact Or.inl hf
      · rcases hm.next.ahead h1 with hb | hf
        · refine Or.inr (Or.inr ⟨Or.inr hb, ?_, ?_⟩)
          · have hnn : jb.phase ≠ .nullJob := by
              intro hn
              rcases h1 with h1 | h1 <;> simp [hn, JobPhase.inBody] at h1
            unfold Reaches
            rw [hm.tunnelJob, if_neg hnn, hm.main]
            exact h2
          · rw [hm.tunnelTaskState, if_neg hns]
            split
            · exact Or.inl (by simp)
            · exact Or.imp_right (cancelPending_moves hm) h3
        · exact Or.inl hf
    · -- ほかの job は、この job が active でないことから、参照のほかは変わらない
      obtain ⟨kb, hkb, hact⟩ := hk.active
      have hinact : jb.phase.active = false := by
        by_contra ha
        exact hkj (h.active_unique hkb hj hact (by simpa using ha))
      refine hk.of_same (by rw [hm.job, Function.update_of_ne hkj]) ?_ ?_
      · rintro (hr | hr)
        · exact Or.inl (hm.keeps_tunnelJob hkj hc hr)
        · exact Or.inr (hm.main.trans hr)
      · rw [hm.tunnelTaskState_of_inactive hinact]
        exact Or.imp_right (cancelPending_moves hm)
  · intro hl hst
    rw [hm.main] at hl
    refine cancelPending_moves hm (h.launching hl ?_)
    have hinact := (h.launch hl).2 j jb hj
    rw [hm.tunnelTaskState_of_inactive hinact] at hst
    exact hst

theorem finallyInv_step {e : Event} (h : FinallyInv s) (hc : CancelsSafely s e)
    (he : step s e = some s') : FinallyInv s' := by
  have h' : LifecycleInv s' := lifecycleInv_step h.toLifecycleInv he
  refine step_elim (P := fun s' => LifecycleInv s' → FinallyInv s') he ?_ ?_ ?_ ?_ ?_ ?_ ?_ h'
  · intro c _ hidle h'
    refine h.of_quiet h' rfl rfl rfl (fun j hj => by simp [hidle] at hj) ?_ ?_
    · cases c <;> simp [Command.entry, hidle]
    · exact fun hp => hp.mono (fun hl => hl) (by rw [hidle]; simp [MainPc.rest]) (fun _ ht => ht)
  · intro now m ms hev hidle hq h'
    subst hev
    cases m with
    | update u =>
      refine h.of_quiet h' rfl rfl rfl (fun _ hj => hj) Iff.rfl ?_
      intro hp
      refine hp.mono (fun hl => ?_) (fun hm => hm) (fun _ ht => ht)
      rw [hq] at hl
      show Message.cancelJob ∈ ms
      simpa using hl
    | cancelJob => exact finallyInv_cancel h hidle (hc (by rw [hq]; rfl)) h'
  · intro o _ hm h'
    cases mainStep_change h.toStart hm with
    | other hf =>
      refine h.of_quiet h' hf.tunnelTaskState hf.job hf.tunnelJob
        (fun j hj => absurd hj (hf.notAssignJob j))
        ⟨fun hl => absurd hl hf.launch, fun hl => absurd hl hf.notLaunch⟩ ?_
      intro hp
      refine hp.mono (hf.looper _) (fun hr => ?_) (fun t ht => by rw [hf.thread]; exact ht)
      rw [hf.notActs] at hr
      simp at hr
    | acts a as hpc hs =>
      subst hs
      exact finallyInv_acts h hpc h'
    | starts hs =>
      obtain ⟨-, -, rfl⟩ := hs
      exact ⟨h', fun _ hl => absurd rfl hl, by simp⟩
    | launches hs => exact finallyInv_launches h h' hs
    | assigns hs => exact finallyInv_assigns h h' hs
  · intro t k _ ht h'
    refine h.of_quiet h' rfl rfl rfl (fun _ hj => hj) Iff.rfl ?_
    intro hp
    refine hp.mono (fun hl => hl) (fun hm => hm) (fun u hu => ?_)
    have hne : u ≠ t := by rintro rfl; simp [ht] at hu
    simpa [Function.update_of_ne hne] using hu
  · intro t a as _ ht h'
    exact finallyInv_thread h ht h'
  · intro j jb _ hj hp h'
    exact finallyInv_moves h h' hj (dispatch_moves hp) (fun hn => by simp [hp] at hn)
  · intro j jb o hev hj hs h'
    subst hev
    obtain ⟨p, hm⟩ := jobStep_moves hs
    exact finallyInv_moves h h' hj hm (fun hn => hc (by rw [hj, Option.map_some, hn]))

/-! ## `finally` は `STOPPED` に着く

`FinallyAhead` のうち、cancel されているか本体を抜けた job は、ほかの thread を待たずに自分の
一歩だけで `STOPPED` に着く。
-/

namespace JobPhase

/-- `STOPPED` にするまでの歩数の上限。 -/
def stepsToStopped : JobPhase → Nat
  | .begin => 9
  | .establish => 8
  | .config => 7
  | .starting => 6
  | .setRunning => 5
  | .suspended | .failed _ _ => 4
  | .teardown => 3
  | .stopPsiphon => 2
  | .setStopped => 1
  | _ => 0

theorem Next.stepsToStopped_lt (h : Next p q) (hp : p.inFinally = true ∨ p.inBody = true) :
    q.stepsToStopped < p.stepsToStopped := by
  cases h with
  | established o => cases o <;> simp [JobPhase.after, stepsToStopped]
  | configured o => cases o <;> simp [JobPhase.after, stepsToStopped]
  | started o => cases o <;> simp [JobPhase.after, stepsToStopped]
  | _ => simp_all [JobPhase.inBody, JobPhase.inFinally, stepsToStopped]

end JobPhase

/-- job `j` はもう止まらずに `finally` へ進む。 -/
def Finishing (s : State) (j : Nat) (jb : Job) : Prop :=
  s.job j = some jb ∧ (jb.phase.inFinally = true ∨ jb.phase.inBody = true ∧ jb.cancelled = true)

theorem Finishing.enabled (h : Finishing s j jb) :
    ∃ s', step s (.job j .ok) = some s' ∧ jobStep s j jb .ok = some s' := by
  obtain ⟨hj, hcase⟩ := h
  have hstep : step s (.job j .ok) = jobStep s j jb .ok := by simp only [step, hj]
  have hsome : (jobStep s j jb .ok).isSome = true := by
    cases hp : jb.phase <;> simp_all [jobStep, JobPhase.inFinally, JobPhase.inBody]
  obtain ⟨s', hs'⟩ := Option.isSome_iff_exists.mp hsome
  exact ⟨s', hstep.trans hs', hs'⟩

/-- `Finishing` な job の一歩は、`STOPPED` にするか、残りの歩数を減らす。 -/
theorem Finishing.moves (h : Finishing s j jb) (hm : JobMoves s s' j jb p) :
    s'.tunnelTaskState = .STOPPED ∨ Finishing s' j { jb with phase := p } ∧
      p.stepsToStopped < jb.phase.stepsToStopped := by
  obtain ⟨hj, hcase⟩ := h
  by_cases hs : jb.phase = .setStopped
  · left
    rw [hm.tunnelTaskState, if_neg (by simp [hs]), if_pos hs]
  · refine Or.inr ⟨⟨by rw [hm.job, Function.update_self], ?_⟩,
      hm.next.stepsToStopped_lt (hcase.imp_right And.left)⟩
    rcases hcase with h1 | ⟨h1, h2⟩
    · exact Or.inl (hm.next.inFinally h1 hs)
    · rcases hm.next.ahead (Or.inr h1) with hb | hf
      · exact Or.inr ⟨hb, h2⟩
      · exact Or.inl hf

/-- `Finishing` な job は、自分の一歩だけで `tunnelTaskState` を `STOPPED` にする。 -/
theorem Finishing.reaches_stopped (h : Finishing s j jb) :
    ∃ n s', exec step s (List.replicate n (.job j .ok)) = some s' ∧
      s'.tunnelTaskState = .STOPPED := by
  refine exec_reaches (fun n s => ∃ kb, Finishing s j kb ∧ kb.phase.stepsToStopped = n) ?_
    jb.phase.stepsToStopped s ⟨jb, h, rfl⟩
  rintro n s ⟨kb, hk, rfl⟩
  obtain ⟨s', he, hs⟩ := hk.enabled
  obtain ⟨p, hm⟩ := jobStep_moves hs
  refine ⟨s', he, (hk.moves hm).imp_right ?_⟩
  rintro ⟨h', hlt⟩
  exact ⟨p.stepsToStopped, hlt, { kb with phase := p }, h', rfl⟩

/-! ## 定理 -/

/--
どの一歩も `CancelsSafely` を満たす run では、`STOPPED` でないかぎり、`finally` を実行中か、
これから実行する job がいる。
-/
theorem finally_ahead {es : List Event} {s : State} (hrun : exec step init es = some s)
    (hc : Meets step CancelsSafely init es) : CanStop s := by
  have hinv : FinallyInv s :=
    exec_induct (fun _ _ _ hi hok he => finallyInv_step hi hok he) es init s finallyInv_init hc hrun
  exact hinv.canStop

/-- dispatch された job に cancel が届いた所まで。 -/
def stopDelivered : List Event :=
  [startCommand none, [.dispatch 0], List.replicate 5 (.job 0 .ok),
    [.command .stop], List.replicate 5 (.main .ok), [.looper 0, .looper 0, .looper 0]].flatten

theorem finally_ahead_stopDelivered :
    ∃ s, exec step init stopDelivered = some s ∧ s.tunnelTaskState = .STOPPING ∧
      (s.job 0).map Job.cancelled = some true ∧ CanStop s := by
  obtain ⟨s, hs, hst, hcan⟩ := exec_exists step init stopDelivered
    (fun s => s.tunnelTaskState = .STOPPING ∧ (s.job 0).map Job.cancelled = some true) (by decide)
  exact ⟨s, hs, hst, hcan, finally_ahead hs (by decide)⟩

/-- `STOPPING` のまま、`STOPPED` にする job も、これから起こす job も無い。 -/
structure Stuck (s : State) : Prop where
  stopping : s.tunnelTaskState = .STOPPING
  notLaunch : s.main ≠ .launch
  inactive : ∀ j jb, s.job j = some jb → jb.phase.active = false

theorem stuck_step {e : Event} (h : LifecycleInv s ∧ Stuck s) (he : step s e = some s') :
    LifecycleInv s' ∧ Stuck s' := by
  obtain ⟨hinv, hst, hnl, hact⟩ := h
  refine ⟨lifecycleInv_step hinv he, ?_⟩
  cases step_change hinv he with
  | quiet hq =>
    exact ⟨hq.tunnelTaskState.trans hst, fun hl => hnl (hq.launch.mp hl),
      by rw [hq.job]; exact hact⟩
  | stops hs => rcases hs.before with hb | hb <;> simp [hb] at hst
  | starts hs => simp [hs.2.1] at hst
  | launches hs => exact absurd hs.1 hnl
  | assigns hs =>
    obtain ⟨j, -, rfl⟩ := hs
    exact ⟨hst, by simp, hact⟩
  | cancels now ms _ _ _ hs =>
    have hf := cancelJob_frame { s with looper := ms }
    rw [hs]
    refine ⟨hf.tunnelTaskState.trans hst, fun hl => hnl (hf.main ▸ hl), ?_⟩
    intro j jb' hj
    obtain ⟨jb, hjb, hp | ⟨-, hp⟩⟩ := hf.job j jb' hj
    · rw [hp]; exact hact j jb hjb
    · rw [hp]; rfl
  | moves j jb p _ hj hm =>
    have hinact := hact j jb hj
    refine ⟨?_, by rw [hm.main]; exact hnl, ?_⟩
    · rw [hm.tunnelTaskState_of_inactive hinact]
      exact hst
    · intro k kb hk
      rcases hm.job_cases hk with ⟨rfl, rfl⟩ | ⟨-, hk₀⟩
      · by_contra ha
        have hact' := (hm.next.active (by simpa using ha)).1
        simp [hinact] at hact'
      · exact hact k kb hk₀

theorem stuck_forever {es : List Event} (hinv : LifecycleInv s) (h : Stuck s)
    (hrun : exec step s es = some s') : s'.tunnelTaskState = .STOPPING :=
  (exec_induct_all (fun _ _ _ hi he => stuck_step hi he) (And.intro hinv h) hrun).2.stopping

/-- job が dispatch される前に stop の intent が届き、cancel も処理される run。 -/
def stopBeforeDispatch : List Event :=
  [startCommand none, [.command .stop], List.replicate 6 (.main .ok),
    [.looper 0, .looper 0]].flatten

/--
cancel が最初の dispatch より前に処理されると、job は `finally` を実行せずに終わる。
`tunnelTaskState` は `STOPPING` のままで、この後どんな run を続けても変わらない。
-/
theorem stuck_in_stopping :
    ∃ s, exec step init stopBeforeDispatch = some s ∧ ¬ CanStop s ∧
      ∀ es s', exec step s es = some s' → s'.tunnelTaskState = .STOPPING := by
  obtain ⟨s, hs, hst, hidle, hj, hn⟩ := exec_exists step init stopBeforeDispatch
    (fun s => s.tunnelTaskState = .STOPPING ∧ s.main = .idle ∧
      (s.job 0).map Job.phase = some .dropped ∧ s.nextJob = 1) (by decide)
  have hinv := lifecycleInv_exec hs
  have hinact : ∀ j jb, s.job j = some jb → jb.phase.active = false := by
    intro j jb hjb
    by_cases hj0 : j = 0
    · subst hj0
      rw [hjb, Option.map_some, Option.some.injEq] at hj
      rw [hj]
      rfl
    · rw [hinv.fresh j (by omega)] at hjb
      simp at hjb
  have hstuck : Stuck s := ⟨hst, by simp [hidle], hinact⟩
  refine ⟨s, hs, fun h => ?_, fun es s' hrun => stuck_forever hinv hstuck hrun⟩
  rcases h (by simp [hst]) with hl | ⟨j, hj'⟩
  · simp [hidle] at hl
  · obtain ⟨jb, hjb, hact⟩ := hj'.active
    simp [hinact j jb hjb] at hact

end Service
