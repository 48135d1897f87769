import PsiphonVpn.Service.Model

/-!
# tunnel job の一生と `tunnelTaskState`

`tunnelTaskState` が `STOPPED` を離れるのは `startTunnel` の `compareAndSet` だけ、
`STOPPED` に戻るのは job の `finally` だけである。そこから、`STOPPED` にするまで進んでいない job
（`JobPhase.active`）は高々一つで、それは最後に起こされた job であることが、
どの interleaving でも言える（`LifecycleInv`）。
-/

namespace Service

open Infra

namespace JobPhase

/-- まだ `tunnelTaskState` を `STOPPED` にしていない。 -/
def active : JobPhase → Bool
  | .postReset | .nullJob | .stopForeground | .clearForeground | .stopSelf | .done | .dropped =>
    false
  | _ => true

/-- まだ `tunnelTaskState` を `RUNNING` にしておらず、これからする可能性がある。 -/
def early : JobPhase → Bool
  | .launched | .begin | .establish | .config | .starting | .setRunning => true
  | _ => false

end JobPhase

/-- main thread は `tunnelTaskState` が `STOPPED` なのを見て、`startTunnel` へ向かっている。 -/
def MainPc.toStart : MainPc → Bool
  | .storeStart _ | .casStoppedStarting => true
  | _ => false

/-- main thread の、`stopTunnel` などの残り。 -/
def MainPc.rest : MainPc → List Act
  | .acts as => as
  | _ => []

@[simp] theorem rest_ofActs (as : List Act) : (MainPc.ofActs as).rest = as := by
  cases as <;> rfl

/-! ## 一歩が lifecycle にすること -/

/-- lifecycle に関わる field が変わらない。 -/
structure Quiet (s s' : State) : Prop where
  tunnelTaskState : s'.tunnelTaskState = s.tunnelTaskState
  job : s'.job = s.job
  nextJob : s'.nextJob = s.nextJob
  toStart : s'.main.toStart = true → s.tunnelTaskState = .STOPPED
  launch : s'.main = .launch ↔ s.main = .launch
  assignJob : ∀ j, s'.main = .assignJob j → s.main = .assignJob j

/-- `stopTunnel` が成功した。 -/
structure Stops (s s' : State) : Prop where
  before : s.tunnelTaskState = .RUNNING ∨ s.tunnelTaskState = .STARTING
  after : s'.tunnelTaskState = .STOPPING
  job : s'.job = s.job
  nextJob : s'.nextJob = s.nextJob
  toStart : s'.main.toStart = true → s.main.toStart = true
  launch : s'.main = .launch ↔ s.main = .launch
  assignJob : ∀ j, s'.main = .assignJob j → s.main = .assignJob j

theorem ofActs_ne (as : List Act) :
    (MainPc.ofActs as).toStart = false ∧ MainPc.ofActs as ≠ .launch ∧
      ∀ j, MainPc.ofActs as ≠ .assignJob j := by
  cases as <;> simp [MainPc.ofActs, MainPc.toStart]

theorem afterParams_ne (state : TunnelTaskState) (b : Bool) :
    (MainPc.afterParams state b).toStart = false ∧ MainPc.afterParams state b ≠ .launch ∧
      ∀ j, MainPc.afterParams state b ≠ .assignJob j := by
  cases state <;> cases b <;> simp [MainPc.afterParams, MainPc.toStart]

/-- 成功した `compareAndSet` で session が始まる。 -/
def Starts (s s' : State) : Prop :=
  s.main = .casStoppedStarting ∧ s.tunnelTaskState = .STOPPED ∧
    s' = { s with tunnelTaskState := .STARTING, posted := [], main := .launch }

/-- `launch` で job が生まれる。 -/
def Launches (s s' : State) : Prop :=
  s.main = .launch ∧
    s' = { s.setJob s.nextJob { phase := .launched, cancelled := false } with
      nextJob := s.nextJob + 1, main := .assignJob s.nextJob }

/-- `tunnelJob` に代入して `startTunnel` が戻る。 -/
def Assigns (s s' : State) : Prop :=
  ∃ j, s.main = .assignJob j ∧ s' = { s with tunnelJob := some j, main := .idle }

/-- `startTunnel` にも `stopTunnel` にも属さない、main thread の一歩の枠。 -/
structure MainFrame (s s' : State) : Prop where
  notActs : s.main.rest = []
  notLaunch : s.main ≠ .launch
  notAssignJob : ∀ j, s.main ≠ .assignJob j
  tunnelTaskState : s'.tunnelTaskState = s.tunnelTaskState
  job : s'.job = s.job
  nextJob : s'.nextJob = s.nextJob
  tunnelJob : s'.tunnelJob = s.tunnelJob
  thread : s'.thread = s.thread
  looper : ∀ m, m ∈ s.looper → m ∈ s'.looper
  toStart : s'.main.toStart = true → s.tunnelTaskState = .STOPPED
  launch : s'.main ≠ .launch
  assignJob : ∀ j, s'.main ≠ .assignJob j

/-- main thread の一歩の形。 -/
inductive MainChange (s s' : State) : Prop where
  | other (h : MainFrame s s')
  | acts (a : Act) (as : List Act) (hpc : s.main = .acts (a :: as))
      (h : s' = { (runAct s a).1 with main := .ofActs ((runAct s a).2 ++ as) })
  | starts (h : Starts s s')
  | launches (h : Launches s s')
  | assigns (h : Assigns s s')

theorem handle_main (s : State) (c : Command) :
    ((handle s c).main.toStart = true → s.tunnelTaskState = .STOPPED) ∧
      (handle s c).main ≠ .launch ∧ ∀ j, (handle s c).main ≠ .assignJob j := by
  cases c <;> cases h : s.tunnelTaskState <;> simp [handle, h, MainPc.toStart]

variable {s s' : State} {p : JobPhase} {j k : Nat} {jb : Job}

theorem mainFrame_handle {c : Command} (hpc : s.main = .handle c) : MainFrame s (handle s c) := by
  obtain ⟨h1, h2, h3⟩ := handle_main s c
  refine ⟨by rw [hpc]; rfl, by simp [hpc], by simp [hpc], ?_, ?_, ?_, ?_, ?_, ?_, h1, h2, h3⟩
  all_goals cases c <;> first | rfl | exact fun _ hm => hm

/-- `main` と foreground だけを動かす、`pc` からの一歩。 -/
theorem mainFrame_of_main {pc : MainPc} (hpc : s.main = pc)
    (hfrom : pc.rest = [] ∧ pc ≠ .launch ∧ ∀ j, pc ≠ .assignJob j)
    (ht : s'.tunnelTaskState = s.tunnelTaskState) (hj : s'.job = s.job)
    (hn : s'.nextJob = s.nextJob) (htj : s'.tunnelJob = s.tunnelJob) (hth : s'.thread = s.thread)
    (hq : ∀ m, m ∈ s.looper → m ∈ s'.looper)
    (hto : s'.main.toStart = false ∧ s'.main ≠ .launch ∧ ∀ j, s'.main ≠ .assignJob j) :
    MainFrame s s' := by
  subst hpc
  obtain ⟨hrest, hlaunch, hassign⟩ := hfrom
  exact ⟨hrest, hlaunch, hassign, ht, hj, hn, htj, hth, hq, fun h => by simp [hto.1] at h, hto.2.1,
    hto.2.2⟩

/--
main thread の一歩ができること。

`startTunnel` の三つの access と、残りの列にある access のほかは、lifecycle に触れない。
-/
theorem mainStep_change {o : Outcome}
    (hinv : s.main.toStart = true → s.tunnelTaskState = .STOPPED)
    (h : mainStep s o s.main = some s') : MainChange s s' := by
  cases hpc : s.main with
  | idle => simp [hpc, mainStep] at h
  | casStoppedStarting =>
    have hst : s.tunnelTaskState = .STOPPED := hinv (by rw [hpc]; rfl)
    rw [hpc] at h
    simp only [mainStep, hst, if_true, Option.some.injEq] at h
    exact .starts ⟨hpc, hst, h.symm⟩
  | launch =>
    rw [hpc] at h
    exact .launches ⟨hpc, (Option.some.inj h).symm⟩
  | assignJob j =>
    rw [hpc] at h
    exact .assigns ⟨j, hpc, (Option.some.inj h).symm⟩
  | handle c =>
    rw [hpc] at h
    rw [← Option.some.inj h]
    exact .other (mainFrame_handle hpc)
  | storeStart params =>
    rw [hpc] at h
    rw [← Option.some.inj h]
    exact .other ⟨by rw [hpc]; rfl, by simp [hpc], by simp [hpc], rfl, rfl, rfl, rfl, rfl,
      fun _ hm => hm, fun _ => hinv (by rw [hpc]; rfl), by simp, by simp⟩
  | acts as =>
    rw [hpc] at h
    cases as with
    | nil =>
      rw [← Option.some.inj h]
      exact .other (mainFrame_of_main hpc (by simp [MainPc.rest]) rfl rfl rfl rfl rfl
        (fun _ hm => hm) (by simp [MainPc.toStart]))
    | cons a as => exact .acts a as hpc (Option.some.inj h).symm
  | casForeground c =>
    rw [hpc] at h
    refine .other ?_
    cases hb : s.isInForeground <;>
      (simp only [mainStep, hb, compareAndSwap, Option.some.injEq] at h
       subst h
       exact mainFrame_of_main hpc (by simp [MainPc.rest]) rfl rfl rfl rfl rfl
         (fun _ hm => hm) (by simp [MainPc.toStart]))
  | getParams b =>
    rw [hpc] at h
    rw [← Option.some.inj h]
    exact .other (mainFrame_of_main hpc (by simp [MainPc.rest]) rfl rfl rfl rfl rfl
      (fun _ hm => hm) (afterParams_ne s.tunnelTaskState b))
  | restartConnecting =>
    rw [hpc] at h
    rw [← Option.some.inj h]
    exact .other (mainFrame_of_main hpc (by simp [MainPc.rest]) rfl rfl rfl rfl rfl
      (fun _ hm => List.mem_append_left _ hm) (by simp [MainPc.toStart]))
  | restartConfig =>
    rw [hpc] at h
    cases o with
    | exception m => simp [mainStep] at h
    | _ =>
      rw [← Option.some.inj h]
      exact .other (mainFrame_of_main hpc (by simp [MainPc.rest]) rfl rfl rfl rfl rfl
        (fun _ hm => hm) (by simp [MainPc.toStart]))
  | restartPsiphon =>
    rw [hpc] at h
    cases o with
    | exception m => simp [mainStep] at h
    | _ =>
      rw [← Option.some.inj h]
      exact .other (mainFrame_of_main hpc (by simp [MainPc.rest]) rfl rfl rfl rfl rfl
        (fun _ hm => hm) (by simp [MainPc.toStart]))
  | _ =>
    rw [hpc] at h
    rw [← Option.some.inj h]
    exact .other (mainFrame_of_main hpc (by simp [MainPc.rest]) rfl rfl rfl rfl rfl
      (fun _ hm => hm) (by simp [MainPc.toStart]))

/-- 位相の進み方。 -/
inductive JobPhase.Next : JobPhase → JobPhase → Prop where
  | dispatched : Next .launched .begin
  | begun : Next .begin .establish
  | established (o : Outcome) : Next .establish (JobPhase.config.after o)
  | configured (o : Outcome) : Next .config (JobPhase.starting.after o)
  | started (o : Outcome) : Next .starting (JobPhase.setRunning.after o)
  | running : Next .setRunning .suspended
  | resumed : Next .suspended .teardown
  | caught (code : ErrorCode) (message : Option String) : Next (.failed code message) .teardown
  | tornDown : Next .teardown .stopPsiphon
  | psiphonStopped : Next .stopPsiphon .setStopped
  | stopped : Next .setStopped .postReset
  | resetPosted : Next .postReset .nullJob
  | jobNulled : Next .nullJob .stopForeground
  | foregroundStopped : Next .stopForeground .clearForeground
  | foregroundCleared : Next .clearForeground .stopSelf
  | selfStopped : Next .stopSelf .done

namespace JobPhase

/-- 位相の中で post する更新。 -/
def posts : JobPhase → List Update
  | .begin => [.started]
  | .failed code message => [.setError code message]
  | .postReset => [.reset]
  | _ => []

theorem Next.active {q : JobPhase} (h : Next p q) (hq : q.active = true) :
    p.active = true ∧ p ≠ .setStopped := by
  cases h <;> simp_all [JobPhase.active]

theorem Next.early {q : JobPhase} (h : Next p q) (hq : q.early = true) :
    p.early = true ∧ p ≠ .setRunning := by
  cases h <;> simp_all [JobPhase.early]

end JobPhase

/-- job の一歩の仕様。位相が進み、その位相に応じた変数だけが変わる。 -/
structure JobMoves (s s' : State) (j : Nat) (jb : Job) (p : JobPhase) : Prop where
  next : jb.phase.Next p
  job : s'.job = Function.update s.job j (some { jb with phase := p })
  nextJob : s'.nextJob = s.nextJob
  main : s'.main = s.main
  thread : s'.thread = s.thread
  stored : s'.stored = s.stored
  currentPsiphonState : s'.currentPsiphonState = s.currentPsiphonState
  tunnelTaskState : s'.tunnelTaskState =
    if jb.phase = .setRunning then .RUNNING
    else if jb.phase = .setStopped then .STOPPED
    else s.tunnelTaskState
  tunnelJob : s'.tunnelJob = if jb.phase = .nullJob then none else s.tunnelJob
  config : s'.config = if p = .starting then s.stored else s.config
  looper : s'.looper = s.looper ++ jb.phase.posts.map .update
  posted : s'.posted = s.posted ++ jb.phase.posts

theorem jobStep_moves {o : Outcome} (h : jobStep s j jb o = some s') :
    ∃ p, JobMoves s s' j jb p := by
  unfold jobStep at h
  cases hp : jb.phase with
  | launched => simp [hp] at h
  | done => simp [hp] at h
  | dropped => simp [hp] at h
  | suspended =>
    simp only [hp] at h
    split at h
    · rw [← Option.some.inj h]
      refine ⟨.teardown, by rw [hp]; constructor, rfl, rfl, rfl, rfl, rfl, rfl, ?_, ?_, ?_, ?_, ?_⟩
      all_goals simp [hp, State.setJob, JobPhase.posts]
    · simp at h
  | establish =>
    simp only [hp, Option.some.injEq] at h
    subst h
    refine ⟨_, by rw [hp]; exact .established o, rfl, rfl, rfl, rfl, rfl, rfl, ?_, ?_, ?_, ?_, ?_⟩
    all_goals simp [hp, State.setJob, JobPhase.posts]
    cases o <;> simp [JobPhase.after]
  | starting =>
    simp only [hp, Option.some.injEq] at h
    subst h
    refine ⟨_, by rw [hp]; exact .started o, rfl, rfl, rfl, rfl, rfl, rfl, ?_, ?_, ?_, ?_, ?_⟩
    all_goals simp [hp, State.setJob, JobPhase.posts]
    cases o <;> simp [JobPhase.after]
  | config =>
    simp only [hp] at h
    cases o with
    | ok =>
      rw [← Option.some.inj h]
      refine ⟨_, by rw [hp]; exact .configured .ok, rfl, rfl, rfl, rfl, rfl, rfl, ?_, ?_, ?_, ?_,
        ?_⟩
      all_goals simp [hp, State.setJob, JobPhase.posts]
    | psiphonException m =>
      rw [← Option.some.inj h]
      refine ⟨_, by rw [hp]; exact .configured (.psiphonException m), rfl, rfl, rfl, rfl, rfl, rfl,
        ?_, ?_, ?_, ?_, ?_⟩
      all_goals simp [hp, State.setJob, JobPhase.posts, JobPhase.after]
    | exception m =>
      rw [← Option.some.inj h]
      refine ⟨_, by rw [hp]; exact .configured (.exception m), rfl, rfl, rfl, rfl, rfl, rfl,
        ?_, ?_, ?_, ?_, ?_⟩
      all_goals simp [hp, State.setJob, JobPhase.posts, JobPhase.after]
  | _ =>
    simp only [hp, Option.some.injEq] at h
    subst h
    refine ⟨_, by rw [hp]; constructor, rfl, rfl, rfl, rfl, rfl, rfl, ?_, ?_, ?_, ?_, ?_⟩
    all_goals simp [hp, State.setJob, State.post, JobPhase.posts]

theorem active_of_early (h : p.early = true) : p.active = true := by
  cases p <;> simp_all [JobPhase.early, JobPhase.active]

/-- cancel が変えるのは、参照されている job だけである。 -/
structure CancelFrame (s s' : State) : Prop where
  tunnelTaskState : s'.tunnelTaskState = s.tunnelTaskState
  currentPsiphonState : s'.currentPsiphonState = s.currentPsiphonState
  tunnelJob : s'.tunnelJob = s.tunnelJob
  nextJob : s'.nextJob = s.nextJob
  looper : s'.looper = s.looper
  main : s'.main = s.main
  thread : s'.thread = s.thread
  stored : s'.stored = s.stored
  config : s'.config = s.config
  posted : s'.posted = s.posted
  born : ∀ j, s.job j = none → s'.job j = none
  job : ∀ j jb', s'.job j = some jb' → ∃ jb, s.job j = some jb ∧
    (jb'.phase = jb.phase ∨ jb.phase = .launched ∧ jb'.phase = .dropped)

theorem cancelFrame_setJob {jb' : Job} (h : s.job j = some jb)
    (hp : jb'.phase = jb.phase ∨ jb.phase = .launched ∧ jb'.phase = .dropped) :
    CancelFrame s (s.setJob j jb') := by
  refine ⟨rfl, rfl, rfl, rfl, rfl, rfl, rfl, rfl, rfl, rfl, ?_, ?_⟩
  · intro k hk
    have hne : k ≠ j := by rintro rfl; simp [h] at hk
    simpa [State.setJob, Function.update_of_ne hne] using hk
  · intro k jb'' hk
    by_cases hkj : k = j
    · subst hkj
      simp only [State.setJob, Function.update_self, Option.some.injEq] at hk
      exact ⟨jb, h, hk ▸ hp⟩
    · simp only [State.setJob, Function.update_of_ne hkj] at hk
      exact ⟨jb'', hk, Or.inl rfl⟩

theorem cancelJob_frame (s : State) : CancelFrame s (cancelJob s) := by
  have hrefl : CancelFrame s s :=
    ⟨rfl, rfl, rfl, rfl, rfl, rfl, rfl, rfl, rfl, rfl, fun _ h => h,
      fun _ jb h => ⟨jb, h, Or.inl rfl⟩⟩
  unfold cancelJob
  cases htj : s.tunnelJob with
  | none => exact hrefl
  | some j =>
    cases hj : s.job j with
    | none => simpa [hj] using hrefl
    | some jb =>
      simp only [hj]
      split
      · next hp => exact cancelFrame_setJob hj (Or.inr ⟨hp, rfl⟩)
      · exact hrefl
      · exact hrefl
      · exact cancelFrame_setJob hj (Or.inl rfl)

/-! ## 不変量 -/

structure LifecycleInv (s : State) : Prop where
  fresh : ∀ j, s.nextJob ≤ j → s.job j = none
  latest : ∀ j jb, s.job j = some jb → jb.phase.active = true →
    j + 1 = s.nextJob ∧ s.tunnelTaskState ≠ .STOPPED
  early : ∀ j jb, s.job j = some jb → jb.phase.early = true → s.tunnelTaskState ≠ .RUNNING
  toStart : s.main.toStart = true → s.tunnelTaskState = .STOPPED
  launch : s.main = .launch →
    (s.tunnelTaskState = .STARTING ∨ s.tunnelTaskState = .STOPPING) ∧
      ∀ j jb, s.job j = some jb → jb.phase.active = false
  assignJob : ∀ j, s.main = .assignJob j → j + 1 = s.nextJob

theorem lifecycleInv_init : LifecycleInv init := by
  constructor <;> simp [init, MainPc.toStart]

/-- `STOPPED` にしていない job は高々一つである。 -/
theorem LifecycleInv.active_unique (h : LifecycleInv s) {kb : Job} (hj : s.job j = some jb)
    (hk : s.job k = some kb) (hja : jb.phase.active = true) (hka : kb.phase.active = true) :
    j = k := by
  have h1 := (h.latest j jb hj hja).1
  have h2 := (h.latest k kb hk hka).1
  omega

theorem LifecycleInv.of_quiet (h : LifecycleInv s) (hq : Quiet s s') : LifecycleInv s' where
  fresh := by rw [hq.job, hq.nextJob]; exact h.fresh
  latest := by rw [hq.job, hq.nextJob, hq.tunnelTaskState]; exact h.latest
  early := by rw [hq.job, hq.tunnelTaskState]; exact h.early
  toStart := fun hs => by rw [hq.tunnelTaskState]; exact hq.toStart hs
  launch := fun hl => by rw [hq.job, hq.tunnelTaskState]; exact h.launch (hq.launch.mp hl)
  assignJob := fun j hj => by rw [hq.nextJob]; exact h.assignJob j (hq.assignJob j hj)

theorem LifecycleInv.of_stops (h : LifecycleInv s) (hs : Stops s s') : LifecycleInv s' where
  fresh := by rw [hs.job, hs.nextJob]; exact h.fresh
  latest := by
    intro j jb hj ha
    rw [hs.job] at hj
    rw [hs.nextJob, hs.after]
    exact ⟨(h.latest j jb hj ha).1, by simp⟩
  early := fun _ _ _ _ => by rw [hs.after]; simp
  toStart := by
    intro hst
    have hstop := h.toStart (hs.toStart hst)
    rcases hs.before with hb | hb <;> simp [hb] at hstop
  launch := by
    intro hl
    rw [hs.job]
    exact ⟨Or.inr hs.after, (h.launch (hs.launch.mp hl)).2⟩
  assignJob := fun j hj => by rw [hs.nextJob]; exact h.assignJob j (hs.assignJob j hj)

theorem lifecycleInv_starts (h : LifecycleInv s) (hs : Starts s s') : LifecycleInv s' := by
  obtain ⟨-, hst, rfl⟩ := hs
  have hnone : ∀ j jb, s.job j = some jb → jb.phase.active = false := by
    intro j jb hj
    by_contra ha
    exact (h.latest j jb hj (by simpa using ha)).2 hst
  refine ⟨h.fresh, ?_, fun _ _ _ _ => by simp, by simp [MainPc.toStart],
    fun _ => ⟨Or.inl rfl, hnone⟩, by simp⟩
  intro j jb hj ha
  rw [hnone j jb hj] at ha
  simp at ha

theorem lifecycleInv_launches (h : LifecycleInv s) (hs : Launches s s') : LifecycleInv s' := by
  obtain ⟨hpc, rfl⟩ := hs
  obtain ⟨hst, hnone⟩ := h.launch hpc
  -- 新しい job のほかに active なものは無い
  have hnew : ∀ j jb, Function.update s.job s.nextJob
      (some { phase := .launched, cancelled := false }) j = some jb → jb.phase.active = true →
      j = s.nextJob := by
    intro j jb hj ha
    by_contra hne
    rw [Function.update_of_ne hne] at hj
    rw [hnone j jb hj] at ha
    simp at ha
  refine ⟨?_, ?_, ?_, by simp [MainPc.toStart], by simp, ?_⟩
  · intro j hj
    have hj' : s.nextJob + 1 ≤ j := hj
    show Function.update s.job s.nextJob _ j = none
    rw [Function.update_of_ne (by omega)]
    exact h.fresh j (by omega)
  · intro j jb hj ha
    refine ⟨by rw [hnew j jb hj ha], ?_⟩
    show s.tunnelTaskState ≠ .STOPPED
    rcases hst with hst | hst <;> simp [hst]
  · intro j jb _ _
    show s.tunnelTaskState ≠ .RUNNING
    rcases hst with hst | hst <;> simp [hst]
  · intro j hj
    simp only [MainPc.assignJob.injEq] at hj
    rw [← hj]

theorem lifecycleInv_cancel (h : LifecycleInv s) (hc : CancelFrame s s') : LifecycleInv s' := by
  refine ⟨?_, ?_, ?_, ?_, ?_, ?_⟩
  · intro j hj
    rw [hc.nextJob] at hj
    exact hc.born j (h.fresh j hj)
  · intro j jb' hj ha
    obtain ⟨jb, hjb, hp | ⟨-, hp⟩⟩ := hc.job j jb' hj
    · rw [hp] at ha
      rw [hc.nextJob, hc.tunnelTaskState]
      exact h.latest j jb hjb ha
    · simp [hp, JobPhase.active] at ha
  · intro j jb' hj ha
    obtain ⟨jb, hjb, hp | ⟨-, hp⟩⟩ := hc.job j jb' hj
    · rw [hp] at ha
      rw [hc.tunnelTaskState]
      exact h.early j jb hjb ha
    · simp [hp, JobPhase.early] at ha
  · rw [hc.main, hc.tunnelTaskState]; exact h.toStart
  · intro hl
    rw [hc.main] at hl
    rw [hc.tunnelTaskState]
    refine ⟨(h.launch hl).1, fun j jb' hj => ?_⟩
    obtain ⟨jb, hjb, hp | ⟨-, hp⟩⟩ := hc.job j jb' hj
    · rw [hp]; exact (h.launch hl).2 j jb hjb
    · rw [hp]; rfl
  · rw [hc.main, hc.nextJob]; exact h.assignJob

theorem JobMoves.job_cases {kb : Job} (hm : JobMoves s s' j jb p) (hk : s'.job k = some kb) :
    k = j ∧ kb = { jb with phase := p } ∨ k ≠ j ∧ s.job k = some kb := by
  rw [hm.job] at hk
  by_cases hkj : k = j
  · subst hkj
    rw [Function.update_self, Option.some.injEq] at hk
    exact Or.inl ⟨rfl, hk.symm⟩
  · rw [Function.update_of_ne hkj] at hk
    exact Or.inr ⟨hkj, hk⟩

/-- active でない job は `tunnelTaskState` を書かない。 -/
theorem JobMoves.tunnelTaskState_of_inactive (hm : JobMoves s s' j jb p)
    (hinact : jb.phase.active = false) :
    s'.tunnelTaskState = s.tunnelTaskState := by
  have hrunning : jb.phase ≠ .setRunning := by
    intro hr
    simp [hr, JobPhase.active] at hinact
  have hstopped : jb.phase ≠ .setStopped := by
    intro hr
    simp [hr, JobPhase.active] at hinact
  rw [hm.tunnelTaskState, if_neg hrunning, if_neg hstopped]

/-- 参照を消すのがその持ち主だけなら、ほかの job への参照は残る。 -/
theorem JobMoves.keeps_tunnelJob (hm : JobMoves s s' j jb p) (hkj : k ≠ j)
    (hc : jb.phase = .nullJob → s.tunnelJob = none ∨ s.tunnelJob = some j)
    (hown : s.tunnelJob = some k) : s'.tunnelJob = some k := by
  rw [hm.tunnelJob]
  split
  · next hn =>
    rcases hc hn with hc | hc <;> rw [hown] at hc
    · simp at hc
    · exact absurd (Option.some.inj hc) hkj
  · exact hown

theorem lifecycleInv_moves (h : LifecycleInv s) (hj : s.job j = some jb)
    (hm : JobMoves s s' j jb p) :
    LifecycleInv s' := by
  refine ⟨?_, ?_, ?_, ?_, ?_, ?_⟩
  · intro k hk
    rw [hm.nextJob] at hk
    have hne : k ≠ j := by
      rintro rfl
      rw [h.fresh k hk] at hj
      simp at hj
    rw [hm.job, Function.update_of_ne hne]
    exact h.fresh k hk
  · intro k kb hk ha
    rw [hm.nextJob, hm.tunnelTaskState]
    rcases hm.job_cases hk with ⟨rfl, rfl⟩ | ⟨hkj, hk'⟩
    · obtain ⟨hact, hne⟩ := hm.next.active ha
      obtain ⟨h1, h2⟩ := h.latest k jb hj hact
      refine ⟨h1, ?_⟩
      rw [if_neg hne]
      split <;> simp [h2]
    · obtain ⟨h1, h2⟩ := h.latest k kb hk' ha
      refine ⟨h1, ?_⟩
      split
      · simp
      · split
        · next hst =>
          exact absurd (h.active_unique hk' hj ha (by rw [hst]; rfl)) hkj
        · exact h2
  · intro k kb hk ha
    rw [hm.tunnelTaskState]
    rcases hm.job_cases hk with ⟨rfl, rfl⟩ | ⟨hkj, hk'⟩
    · obtain ⟨hearly, hne⟩ := hm.next.early ha
      rw [if_neg hne]
      split
      · simp
      · exact h.early k jb hj hearly
    · split
      · next hr =>
        exact absurd (h.active_unique hk' hj (active_of_early ha) (by rw [hr]; rfl)) hkj
      · split
        · simp
        · exact h.early k kb hk' ha
  · intro hs
    rw [hm.main] at hs
    have hst := h.toStart hs
    rw [hm.tunnelTaskState]
    split
    · next hr => exact absurd hst (h.latest j jb hj (by rw [hr]; rfl)).2
    · split
      · rfl
      · exact hst
  · intro hl
    rw [hm.main] at hl
    obtain ⟨hst, hnone⟩ := h.launch hl
    have hinactive := hnone j jb hj
    refine ⟨?_, ?_⟩
    · rw [hm.tunnelTaskState_of_inactive hinactive]
      exact hst
    · intro k kb hk
      rcases hm.job_cases hk with ⟨rfl, rfl⟩ | ⟨-, hk'⟩
      · by_contra ha
        have hact := (hm.next.active (by simpa using ha)).1
        simp [hinactive] at hact
      · exact hnone k kb hk'
  · rw [hm.main, hm.nextJob]; exact h.assignJob

theorem dispatch_moves (hp : jb.phase = .launched) :
    JobMoves s (s.setJob j { jb with phase := .begin }) j jb .begin := by
  refine ⟨by rw [hp]; constructor, rfl, rfl, rfl, rfl, rfl, rfl, ?_, ?_, ?_, ?_, ?_⟩
  all_goals simp [hp, State.setJob, JobPhase.posts]

theorem quiet_of_main (hl₀ : s.main ≠ .launch) (ht : s'.tunnelTaskState = s.tunnelTaskState)
    (hj : s'.job = s.job) (hn : s'.nextJob = s.nextJob) (hs : s'.main.toStart = false)
    (hl : s'.main ≠ .launch) (ha : ∀ j, s'.main ≠ .assignJob j) : Quiet s s' :=
  ⟨ht, hj, hn, fun h => by simp [hs] at h, ⟨fun h => absurd h hl, fun h => absurd h hl₀⟩,
    fun j h => absurd h (ha j)⟩

theorem quiet_of_same (h : LifecycleInv s) (ht : s'.tunnelTaskState = s.tunnelTaskState)
    (hj : s'.job = s.job) (hn : s'.nextJob = s.nextJob) (hm : s'.main = s.main) : Quiet s s' :=
  ⟨ht, hj, hn, fun hs => h.toStart (hm ▸ hs), by rw [hm], fun _ hj => hm ▸ hj⟩

/-- 一歩が lifecycle にすることのすべて。 -/
inductive Change (s : State) (e : Event) (s' : State) : Prop where
  | quiet (h : Quiet s s')
  | stops (h : Stops s s')
  | starts (h : Starts s s')
  | launches (h : Launches s s')
  | assigns (h : Assigns s s')
  | cancels (now : Int) (ms : List Message) (he : e = .looper now) (hidle : s.main = .idle)
      (hq : s.looper = .cancelJob :: ms) (h : s' = cancelJob { s with looper := ms })
  | moves (j : Nat) (jb : Job) (p : JobPhase)
      (he : e = .dispatch j ∧ jb.phase = .launched ∨ ∃ o, e = .job j o)
      (hj : s.job j = some jb) (h : JobMoves s s' j jb p)

theorem step_change {e : Event} (h : LifecycleInv s) (he : step s e = some s') : Change s e s' := by
  refine step_elim (P := Change s e) he ?_ ?_ ?_ ?_ ?_ ?_ ?_
  · intro c _ hidle
    refine .quiet (quiet_of_main (by simp [hidle]) rfl rfl rfl ?_ ?_ ?_) <;>
      cases c <;> simp [Command.entry, MainPc.toStart]
  · intro now m ms hev hidle hq
    cases m with
    | update u => exact .quiet (quiet_of_same h rfl rfl rfl rfl)
    | cancelJob => exact .cancels now ms hev hidle hq rfl
  · intro o _ hm
    cases mainStep_change h.toStart hm with
    | other hf =>
      exact .quiet ⟨hf.tunnelTaskState, hf.job, hf.nextJob, hf.toStart,
        ⟨fun hl => absurd hl hf.launch, fun hl => absurd hl hf.notLaunch⟩,
        fun j hj => absurd hj (hf.assignJob j)⟩
    | acts a as hpc hs =>
      rw [hs]
      have hf := runAct_frame s a
      obtain ⟨h1, h2, h3⟩ := ofActs_ne ((runAct s a).2 ++ as)
      rcases runAct_tunnelTaskState s a with ht | ⟨hb, ha, -⟩
      · exact .quiet (quiet_of_main (by simp [hpc]) ht hf.job hf.nextJob h1 h2 h3)
      · exact .stops ⟨hb, ha, hf.job, hf.nextJob, fun hs => absurd (h1.symm.trans hs) (by simp),
          ⟨fun hl => absurd hl h2, fun hl => by simp [hpc] at hl⟩, fun j hj => absurd hj (h3 j)⟩
    | starts hs => exact .starts hs
    | launches hs => exact .launches hs
    | assigns hs => exact .assigns hs
  · intro t k _ _
    exact .quiet (quiet_of_same h rfl rfl rfl rfl)
  · intro t a as _ _
    have hf := runAct_frame s a
    rcases runAct_tunnelTaskState s a with ht | ⟨hb, ha, -⟩
    · exact .quiet (quiet_of_same h ht hf.job hf.nextJob hf.main)
    · exact .stops ⟨hb, ha, hf.job, hf.nextJob, fun hs => hf.main ▸ hs,
        ⟨fun hl => hf.main ▸ hl, fun hl => hf.main.trans hl⟩, fun _ hj => hf.main ▸ hj⟩
  · intro j jb hev hj hp
    exact .moves j jb .begin (Or.inl ⟨hev, hp⟩) hj (dispatch_moves hp)
  · intro j jb o hev hj hs
    obtain ⟨p, hm⟩ := jobStep_moves hs
    exact .moves j jb p (Or.inr ⟨o, hev⟩) hj hm

theorem lifecycleInv_step {e : Event} (h : LifecycleInv s) (he : step s e = some s') :
    LifecycleInv s' := by
  cases step_change h he with
  | quiet hq => exact h.of_quiet hq
  | stops hs => exact h.of_stops hs
  | starts hs => exact lifecycleInv_starts h hs
  | launches hs => exact lifecycleInv_launches h hs
  | assigns hs =>
    obtain ⟨j, -, rfl⟩ := hs
    exact ⟨h.fresh, h.latest, h.early, by simp [MainPc.toStart], by simp, by simp⟩
  | cancels now ms _ _ _ hs =>
    have h₀ : LifecycleInv { s with looper := ms } :=
      h.of_quiet (quiet_of_same h rfl rfl rfl rfl)
    rw [hs]
    exact lifecycleInv_cancel h₀ (cancelJob_frame _)
  | moves j jb p _ hj hm => exact lifecycleInv_moves h hj hm

theorem lifecycleInv_exec {es : List Event} (hrun : exec step init es = some s) : LifecycleInv s :=
  exec_induct_all (fun _ _ _ hi he => lifecycleInv_step hi he) lifecycleInv_init hrun

end Service
