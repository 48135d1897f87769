import PsiphonVpn.Service.TaskState

/-!
# parameter の更新は失われないか

`handleParamsChangedAction` は parameter を保存し、`tunnelTaskState` が `RUNNING` なら tunnel を
restart する。`STARTING` や `STOPPING` の間の更新は、保存されるだけで無視される
（`ignore transitional states`）。

config は `startTunneling` の始めに一度だけ読まれるので、読まれてから `RUNNING` になるまでの間の
更新は、動き始めた tunnel に反映されない（`update_ignored`）。それ以外の更新は、すべて反映される
（`params_applied`）。
-/

namespace Service

open Infra

/-- config を読み、まだ `RUNNING` にしていない。 -/
def JobPhase.configRead : JobPhase → Bool
  | .starting | .setRunning => true
  | _ => false

/-- 動いている tunnel の config は、保存されている parameter から作られている。 -/
def ParamsApplied (s : State) : Prop :=
  s.tunnelTaskState = .RUNNING → s.main = .idle → s.config = s.stored

/-- どの job も config を読んだ後の起動中にない。 -/
def NotStartingUp (s : State) : Prop :=
  ∀ j, j < s.nextJob → (s.job j).any (·.phase.configRead) = false

instance (s : State) : Decidable (NotStartingUp s) := Nat.decidableBallLT _ _

/--
一歩の条件。

`RUNNING` でないために無視される更新は、config が読まれてから `RUNNING` になるまでの間には来ない。
来たとしても、config は更新の後に読まれている。
-/
def UpdatesOutsideStartUp (s : State) : Event → Prop
  | .main _ => s.main = .getParams true → s.tunnelTaskState ≠ .RUNNING →
      NotStartingUp s ∨ s.config = s.stored
  | _ => True

instance : ∀ (s : State) (e : Event), Decidable (UpdatesOutsideStartUp s e)
  | _, .main _ => inferInstanceAs (Decidable (_ → _))
  | _, .command _ | _, .looper _ | _, .call _ _ | _, .thread _ | _, .dispatch _ | _, .job _ _ =>
    .isTrue trivial

/-! ## 不変量 -/

/-- main thread はこれから restart するか、restart に失敗して tunnel を止めようとしている。 -/
def MainPc.repairs : MainPc → Bool
  | .getParams true | .restartConnecting | .restartConfig => true
  | .acts as => .casRunningStopping ∈ as
  | _ => false

structure ParamsInv (s : State) : Prop extends LifecycleInv s where
  startUp : ∀ j jb, s.job j = some jb → jb.phase.configRead = true →
    s.config = s.stored ∨ s.main = .getParams true
  running : s.tunnelTaskState = .RUNNING → s.config = s.stored ∨ s.main.repairs = true

theorem paramsInv_init : ParamsInv init where
  toLifecycleInv := lifecycleInv_init
  startUp := by simp [init]
  running := by simp [init]

variable {s s' : State} {p : JobPhase} {as : List Act}

theorem ParamsInv.applied (h : ParamsInv s) : ParamsApplied s := by
  intro hr hm
  rcases h.running hr with hc | hc
  · exact hc
  · simp [hm, MainPc.repairs] at hc

theorem early_of_configRead (h : p.configRead = true) : p.early = true := by
  cases p <;> simp_all [JobPhase.configRead, JobPhase.early]

/-- `RUNNING` や `STOPPED` の間は、起動中の job は無い。 -/
theorem LifecycleInv.notConfigRead (h : LifecycleInv s)
    (hst : s.tunnelTaskState = .RUNNING ∨ s.tunnelTaskState = .STOPPED) {j : Nat} {jb : Job}
    (hj : s.job j = some jb) : jb.phase.configRead = false := by
  by_contra hc
  have hearly := early_of_configRead (by simpa using hc)
  rcases hst with hst | hst
  · exact h.early j jb hj hearly hst
  · exact (h.latest j jb hj (active_of_early hearly)).2 hst

/-- parameter にも config にも触れない一歩。 -/
theorem ParamsInv.of_same (h : ParamsInv s) (h' : LifecycleInv s') (hc : s'.config = s.config)
    (hs : s'.stored = s.stored) (hj : ∀ j jb', s'.job j = some jb' → jb'.phase.configRead = true →
      ∃ jb, s.job j = some jb ∧ jb.phase.configRead = true)
    (ht : s'.tunnelTaskState = .RUNNING → s.tunnelTaskState = .RUNNING)
    (hm : s.main = .getParams true → s'.main = .getParams true)
    (hr : s'.tunnelTaskState = .RUNNING → s.main.repairs = true → s'.main.repairs = true) :
    ParamsInv s' where
  toLifecycleInv := h'
  startUp := by
    intro j jb' hj' hp
    obtain ⟨jb, hjb, hp'⟩ := hj j jb' hj' hp
    rw [hc, hs]
    exact Or.imp_right hm (h.startUp j jb hjb hp')
  running := by
    intro hst
    rw [hc, hs]
    exact Or.imp_right (hr hst) (h.running (ht hst))

/-- access のあとに `stopTunnel` がまだ残っているか、`RUNNING` でなくなっている。 -/
theorem runAct_repairs {a : Act} (hst : (runAct s a).1.tunnelTaskState = .RUNNING)
    (h : .casRunningStopping ∈ a :: as) :
    .casRunningStopping ∈ (runAct s a).2 ++ as := by
  rcases List.mem_cons.mp h with rfl | h
  · exfalso
    by_cases hr : s.tunnelTaskState = .RUNNING
    · simp [runAct, compareAndSwap, hr] at hst
    · simp [runAct, compareAndSwap, hr] at hst
  · exact List.mem_append_right _ h

theorem repairs_ofActs (h : .casRunningStopping ∈ as) : (MainPc.ofActs as).repairs = true := by
  cases as with
  | nil => simp at h
  | cons a as => simpa [MainPc.ofActs, MainPc.repairs] using h

theorem paramsInv_acts {a : Act} (h : ParamsInv s) (hpc : s.main = .acts (a :: as))
    (h' : LifecycleInv { (runAct s a).1 with main := .ofActs ((runAct s a).2 ++ as) }) :
    ParamsInv { (runAct s a).1 with main := .ofActs ((runAct s a).2 ++ as) } := by
  have hf := runAct_frame s a
  refine h.of_same h' hf.config hf.stored (fun j jb hj hp => ⟨jb, hf.job ▸ hj, hp⟩) ?_ ?_ ?_
  · intro hst
    rcases runAct_tunnelTaskState s a with ht | ⟨-, ht, -⟩
    · exact ht.symm.trans hst
    · exact absurd (ht.symm.trans hst) (by simp)
  · intro hm
    simp [hpc] at hm
  · intro hst hr
    refine repairs_ofActs (runAct_repairs hst ?_)
    simpa [hpc, MainPc.repairs] using hr

theorem paramsInv_of_applied (h : LifecycleInv s) (hc : s.config = s.stored) : ParamsInv s :=
  ⟨h, fun _ _ _ _ => Or.inl hc, fun _ => Or.inl hc⟩

theorem paramsInv_of_stopped (h : LifecycleInv s) (hst : s.tunnelTaskState = .STOPPED) :
    ParamsInv s where
  toLifecycleInv := h
  startUp := fun j jb hj hp => by simp [h.notConfigRead (Or.inr hst) hj] at hp
  running := fun hr => by simp [hst] at hr

theorem ParamsInv.of_main (h : ParamsInv s) (h' : LifecycleInv s') (hc : s'.config = s.config)
    (hs : s'.stored = s.stored) (hj : s'.job = s.job)
    (ht : s'.tunnelTaskState = s.tunnelTaskState) (hm : s.main ≠ .getParams true)
    (hr : s.main.repairs = false) : ParamsInv s' := by
  refine h.of_same h' hc hs (fun j jb hj' hp => ⟨jb, hj ▸ hj', hp⟩) (fun hst => ht ▸ hst)
    (fun hm' => absurd hm' hm) (fun _ hr' => ?_)
  simp [hr] at hr'

theorem paramsInv_handle {c : Command} (h : ParamsInv s) (hpc : s.main = .handle c)
    (h' : LifecycleInv (handle s c)) : ParamsInv (handle s c) := by
  cases c with
  | updateParameters region =>
    by_cases hchanged : s.stored = some region
    · -- 同じ値の保存は何も変えない
      have hs : handle s (.updateParameters region) = { s with main := .getParams false } := by
        simp [handle, hchanged]
      rw [hs] at h' ⊢
      exact h.of_main h' rfl rfl rfl rfl (by simp [hpc]) (by simp [hpc, MainPc.repairs])
    · have hm : (handle s (.updateParameters region)).main = .getParams true := by
        simp [handle, hchanged]
      exact ⟨h', fun _ _ _ _ => Or.inr hm, fun _ => Or.inr (by rw [hm]; rfl)⟩
  | _ => exact h.of_main h' rfl rfl rfl rfl (by simp [hpc]) (by simp [hpc, MainPc.repairs])

/-- `handleParamsChangedAction` の `when`。無視してよいのは、起動中の job が無いときである。 -/
theorem paramsInv_getParams {b : Bool} (h : ParamsInv s) (hpc : s.main = .getParams b)
    (hc : s.main = .getParams true → s.tunnelTaskState ≠ .RUNNING →
      NotStartingUp s ∨ s.config = s.stored)
    (h' : LifecycleInv { s with main := .afterParams s.tunnelTaskState b }) :
    ParamsInv { s with main := .afterParams s.tunnelTaskState b } := by
  cases b with
  | false => exact h.of_main h' rfl rfl rfl rfl (by simp [hpc]) (by simp [hpc, MainPc.repairs])
  | true =>
    by_cases hr : s.tunnelTaskState = .RUNNING
    · refine ⟨h', fun j jb hj hp => ?_, fun _ => Or.inr ?_⟩
      · simp [h.notConfigRead (Or.inl hr) hj] at hp
      · simp [hr, MainPc.afterParams, MainPc.repairs]
    · rcases hc hpc hr with hno | happ
      · refine ⟨h', fun j jb hj hp => ?_, fun hr' => absurd hr' hr⟩
        have hlt : j < s.nextJob := by
          by_contra hge
          have hnone : s.job j = none := h.fresh j (by omega)
          rw [show s.job j = some jb from hj] at hnone
          simp at hnone
        have := hno j hlt
        rw [show s.job j = some jb from hj] at this
        simp [hp] at this
      · exact paramsInv_of_applied h' happ

theorem paramsInv_main {o : Outcome} (h : ParamsInv s)
    (hc : s.main = .getParams true → s.tunnelTaskState ≠ .RUNNING →
      NotStartingUp s ∨ s.config = s.stored) (he : mainStep s o s.main = some s')
    (h' : LifecycleInv s') : ParamsInv s' := by
  cases hpc : s.main with
  | idle => simp [hpc, mainStep] at he
  | handle c =>
    rw [hpc] at he
    obtain rfl := Option.some.inj he
    exact paramsInv_handle h hpc h'
  | getParams b =>
    rw [hpc] at he
    obtain rfl := Option.some.inj he
    exact paramsInv_getParams h hpc hc h'
  | storeStart params =>
    have hst : s.tunnelTaskState = .STOPPED := h.toStart (by rw [hpc]; rfl)
    rw [hpc] at he
    obtain rfl := Option.some.inj he
    exact paramsInv_of_stopped h' hst
  | casStoppedStarting =>
    have hst : s.tunnelTaskState = .STOPPED := h.toStart (by rw [hpc]; rfl)
    rw [hpc] at he
    simp only [mainStep, hst, if_true, Option.some.injEq] at he
    subst he
    refine ⟨h', fun j jb hj hp => ?_, fun hr => by simp at hr⟩
    simp [h.notConfigRead (Or.inr hst) (j := j) hj] at hp
  | launch =>
    rw [hpc] at he
    obtain rfl := Option.some.inj he
    refine h.of_same h' rfl rfl ?_ (fun hr => hr) (fun hm => by simp [hpc] at hm)
      (fun _ hr => by simp [hpc, MainPc.repairs] at hr)
    intro j jb hj hp
    by_cases hjn : j = s.nextJob
    · subst hjn
      simp only [State.setJob, Function.update_self, Option.some.injEq] at hj
      simp [← hj, JobPhase.configRead] at hp
    · simp only [State.setJob, Function.update_of_ne hjn] at hj
      exact ⟨jb, hj, hp⟩
  | restartConfig =>
    rw [hpc] at he
    cases o with
    | ok =>
      obtain rfl := Option.some.inj he
      exact paramsInv_of_applied h' rfl
    | psiphonException m =>
      obtain rfl := Option.some.inj he
      refine h.of_same h' rfl rfl (fun j jb hj hp => ⟨jb, hj, hp⟩) (fun hr => hr)
        (fun hm => by simp [hpc] at hm) (fun _ _ => ?_)
      simp [MainPc.repairs, stopWithError, stopTunnel]
    | exception m => simp [mainStep] at he
  | restartConnecting =>
    rw [hpc] at he
    obtain rfl := Option.some.inj he
    exact h.of_same h' rfl rfl (fun j jb hj hp => ⟨jb, hj, hp⟩) (fun hr => hr)
      (fun hm => by simp [hpc] at hm) (fun _ _ => rfl)
  | acts as =>
    rw [hpc] at he
    cases as with
    | nil =>
      obtain rfl := Option.some.inj he
      exact h.of_main h' rfl rfl rfl rfl (by simp [hpc]) (by simp [hpc, MainPc.repairs])
    | cons a as =>
      obtain rfl := Option.some.inj he
      exact paramsInv_acts h hpc h'
  | restartPsiphon =>
    rw [hpc] at he
    cases o with
    | exception m => simp [mainStep] at he
    | _ =>
      obtain rfl := Option.some.inj he
      exact h.of_main h' rfl rfl rfl rfl (by simp [hpc]) (by simp [hpc, MainPc.repairs])
  | _ =>
    rw [hpc] at he
    obtain rfl := Option.some.inj he
    exact h.of_main h' rfl rfl rfl rfl (by simp [hpc]) (by simp [hpc, MainPc.repairs])

theorem JobPhase.Next.configRead {q : JobPhase} (h : Next p q) (hq : q.configRead = true) :
    q = .starting ∨ p.configRead = true := by
  cases h with
  | established o => cases o <;> simp [JobPhase.after, JobPhase.configRead] at hq
  | configured o => cases o <;> simp_all [JobPhase.after, JobPhase.configRead]
  | started o => exact Or.inr rfl
  | _ => simp_all [JobPhase.configRead]

theorem paramsInv_moves {j : Nat} {jb : Job} (h : ParamsInv s) (h' : LifecycleInv s')
    (hj : s.job j = some jb) (hm : JobMoves s s' j jb p) :
    ParamsInv s' := by
  by_cases hp : p = .starting
  · -- いま config を読んだ
    refine paramsInv_of_applied h' ?_
    rw [hm.config, if_pos hp, hm.stored]
  · have hc : s'.config = s.config := by rw [hm.config, if_neg hp]
    refine ⟨h', ?_, ?_⟩
    · intro k kb hk hread
      rw [hc, hm.stored, hm.main]
      rcases hm.job_cases hk with ⟨rfl, rfl⟩ | ⟨-, hk₀⟩
      · exact h.startUp k jb hj ((hm.next.configRead hread).resolve_left hp)
      · exact h.startUp k kb hk₀ hread
    · intro hst
      rw [hc, hm.stored, hm.main]
      rw [hm.tunnelTaskState] at hst
      split at hst
      · next hr =>
        rcases h.startUp j jb hj (by rw [hr]; rfl) with happ | hpend
        · exact Or.inl happ
        · exact Or.inr (by rw [hpend]; rfl)
      · split at hst
        · simp at hst
        · exact h.running hst

theorem paramsInv_step {e : Event} (h : ParamsInv s) (hc : UpdatesOutsideStartUp s e)
    (he : step s e = some s') : ParamsInv s' := by
  have h' : LifecycleInv s' := lifecycleInv_step h.toLifecycleInv he
  refine step_elim (P := fun s' => LifecycleInv s' → ParamsInv s') he ?_ ?_ ?_ ?_ ?_ ?_ ?_ h'
  · intro c _ hidle h'
    exact h.of_main h' rfl rfl rfl rfl (by simp [hidle]) (by simp [hidle, MainPc.repairs])
  · intro now m ms _ hidle _ h'
    cases m with
    | update u =>
      exact h.of_main h' rfl rfl rfl rfl (by simp [hidle]) (by simp [hidle, MainPc.repairs])
    | cancelJob =>
      have hf := cancelJob_frame { s with looper := ms }
      refine h.of_same h' hf.config hf.stored ?_ (fun hr => hf.tunnelTaskState ▸ hr)
        (fun hm => by simp [hidle] at hm) (fun _ hr => by simp [hidle, MainPc.repairs] at hr)
      intro j jb' hj hp
      obtain ⟨jb, hjb, hph | ⟨-, hph⟩⟩ := hf.job j jb' hj
      · exact ⟨jb, hjb, hph ▸ hp⟩
      · simp [hph, JobPhase.configRead] at hp
  · intro o hev hm h'
    subst hev
    exact paramsInv_main h hc hm h'
  · intro t k _ _ h'
    exact h.of_same h' rfl rfl (fun j jb hj hp => ⟨jb, hj, hp⟩) (fun hr => hr) (fun hm => hm)
      (fun _ hr => hr)
  · intro t a as _ _ h'
    have hf := runAct_frame s a
    refine h.of_same h' hf.config hf.stored (fun j jb hj hp => ⟨jb, hf.job ▸ hj, hp⟩) ?_
      (fun hm => hf.main.trans hm) (fun _ hr => hf.main.symm ▸ hr)
    intro hst
    rcases runAct_tunnelTaskState s a with ht | ⟨-, ht, -⟩
    · exact ht.symm.trans hst
    · exact absurd (ht.symm.trans hst) (by simp)
  · intro j jb _ hj hp h'
    exact paramsInv_moves h h' hj (dispatch_moves hp)
  · intro j jb o _ hj hs h'
    obtain ⟨p, hm⟩ := jobStep_moves hs
    exact paramsInv_moves h h' hj hm

/-! ## 定理 -/

/--
起動中の更新が無い run では、`RUNNING` で main thread が空いているどの状態でも、動いている tunnel の
config は最後に保存された parameter から作られている。
-/
theorem params_applied {es : List Event} {s : State} (hrun : exec step init es = some s)
    (hc : Meets step UpdatesOutsideStartUp init es) : ParamsApplied s := by
  have hinv : ParamsInv s :=
    exec_induct (fun _ _ _ hi hok he => paramsInv_step hi hok he) es init s paramsInv_init hc hrun
  exact hinv.applied

/-- parameter を更新する intent。foreground に上がった後なので、`RUNNING` なら restart まで進む。 -/
def updateCommand (egressRegion : String) (n : Nat) : List Event :=
  .command (.updateParameters egressRegion) :: List.replicate n (.main .ok)

/-- 動いている間に parameter が変わり、restart される run。 -/
def updateWhileRunning : List Event :=
  [startCommand (some "CA"), [.dispatch 0], List.replicate 5 (.job 0 .ok),
    updateCommand "US" 6].flatten

theorem params_applied_updateWhileRunning :
    ∃ s, exec step init updateWhileRunning = some s ∧ s.tunnelTaskState = .RUNNING ∧
      s.main = .idle ∧ s.stored = some "US" ∧ s.config = s.stored := by
  obtain ⟨s, hs, hr, hm, hst⟩ := exec_exists step init updateWhileRunning
    (fun s => s.tunnelTaskState = .RUNNING ∧ s.main = .idle ∧ s.stored = some "US") (by decide)
  exact ⟨s, hs, hr, hm, hst, params_applied hs (by decide) hr hm⟩

/-- config が読まれた後、`RUNNING` になる前に parameter が変わる run。 -/
def updateWhileStarting : List Event :=
  [startCommand (some "CA"), [.dispatch 0], List.replicate 3 (.job 0 .ok), updateCommand "US" 3,
    [.job 0 .ok, .job 0 .ok]].flatten

/-- 更新は保存されたが、tunnel は前の egress region のまま動いている。restart の予定も無い。 -/
theorem update_ignored :
    ∃ s, exec step init updateWhileStarting = some s ∧ s.stored = some "US" ∧
      s.config = some "CA" ∧ ¬ ParamsApplied s := by
  obtain ⟨s, hs, hr, hm, hst, hconf⟩ := exec_exists step init updateWhileStarting
    (fun s => s.tunnelTaskState = .RUNNING ∧ s.main = .idle ∧ s.stored = some "US" ∧
      s.config = some "CA") (by decide)
  refine ⟨s, hs, hst, hconf, fun h => ?_⟩
  have := h hr hm
  rw [hst, hconf] at this
  simp at this

end Service
