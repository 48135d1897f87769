import PsiphonVpn.Service.TaskState

/-!
# foreground の記録

`isInForeground` は service が foreground にいることの写しで、`onStartCommand` はこれを見て
`startForeground` を省く。実際の操作との間には隙間がある。

* `startForegroundWithNotification` は flag を立ててから `startForeground` を呼ぶ
* `stopForegroundAndService` は `stopForeground` を呼んでから flag を下ろす。tunnel job から呼ばれる時は
  IO thread の上で、`onStartCommand` の `synchronized` の外である

job が `stopForeground` を済ませて flag をまだ下ろしていない時に `onStartCommand` が始まると、foreground に
いないのに `startForeground` が省かれる。`startForeground` の手前で job が `stopForeground` と flag の
両方を済ませると、foreground にいるのに flag が下りたままになる（`foreground_out_of_step`）。
二つの隙間が重ならない run では、写しは正しい（`foreground_in_step`）。
-/

namespace Service

open Infra

/-- 次の access は `isInForeground.compareAndSet(false, true)` である。 -/
def MainPc.checksForeground : MainPc → Bool
  | .casForeground _ => true
  | _ => false

/-- flag を立てて、`startForeground` をまだ呼んでいない。 -/
def MainPc.promoting : MainPc → Bool
  | .setInForeground _ | .startForeground _ => true
  | _ => false

/-- job `j` は `stopForeground` を済ませて、flag をまだ下ろしていない。 -/
def Clearing (s : State) (j : Nat) : Prop := (s.job j).map Job.phase = some .clearForeground

instance Clearing.decidable (s : State) (j : Nat) : Decidable (Clearing s j) :=
  inferInstanceAs (Decidable (_ = _))

/-- job `j` は `stopForegroundAndService` の中にいる。 -/
def StoppingForeground (s : State) (j : Nat) : Prop :=
  (s.job j).map Job.phase = some .clearForeground ∨ (s.job j).map Job.phase = some .stopSelf

instance StoppingForeground.decidable (s : State) (j : Nat) : Decidable (StoppingForeground s j) :=
  inferInstanceAs (Decidable (_ ∨ _))

/--
一歩の条件。

`onStartCommand` が flag を調べる時、`stopForeground` だけを済ませた job はいない。
job が `stopForeground` を呼ぶのは、main thread が flag を立てて `startForeground` を呼ぶまでの間ではない。
-/
def ForegroundInTurn (s : State) : Event → Prop
  | .main _ => s.main.checksForeground = true → ∀ j < s.nextJob, ¬ Clearing s j
  | .job j _ => (s.job j).map Job.phase = some .stopForeground → s.main.promoting = false
  | _ => True

instance ForegroundInTurn.decidable (s : State) : (e : Event) → Decidable (ForegroundInTurn s e)
  | .main _ | .job _ _ => inferInstanceAs (Decidable (_ → _))
  | .command _ | .looper _ | .call _ _ | .thread _ | .dispatch _ => .isTrue trivial

/-! ## 一歩が foreground にすること -/

/-- foreground に関わるものが変わらない。 -/
structure ForegroundKept (s s' : State) : Prop where
  isInForeground : s'.isInForeground = s.isInForeground
  foreground : s'.foreground = s.foreground
  promoting : s'.main.promoting = s.main.promoting
  clearForeground : s'.main = .clearForeground ↔ s.main = .clearForeground
  clearing : ∀ j, Clearing s' j ↔ Clearing s j

variable {s s' : State} {j : Nat} {jb : Job} {o : Outcome}

theorem clearing_of_job (h : s'.job = s.job) (j : Nat) : Clearing s' j ↔ Clearing s j := by
  unfold Clearing
  rw [h]

theorem runAct_foreground (s : State) (a : Act) :
    (runAct s a).1.isInForeground = s.isInForeground ∧
      (runAct s a).1.foreground = s.foreground := by
  cases a with
  | post m => cases m <;> exact ⟨rfl, rfl⟩
  | _ => exact ⟨rfl, rfl⟩

theorem clearing_setJob {jb' : Job} (hj : s.job j = some jb)
    (hp : jb'.phase = .clearForeground ↔ jb.phase = .clearForeground) (k : Nat) :
    Clearing (s.setJob j jb') k ↔ Clearing s k := by
  unfold Clearing State.setJob
  by_cases hk : k = j
  · subst hk
    simp [hj, hp]
  · simp [Function.update_of_ne hk]

theorem cancelJob_foreground (s : State) : ForegroundKept s (cancelJob s) := by
  have hf := cancelJob_frame s
  suffices h : (cancelJob s).isInForeground = s.isInForeground ∧
      (cancelJob s).foreground = s.foreground ∧ ∀ k, Clearing (cancelJob s) k ↔ Clearing s k from
    ⟨h.1, h.2.1, by rw [hf.main], by rw [hf.main], h.2.2⟩
  unfold cancelJob
  split
  next => exact ⟨rfl, rfl, fun _ => Iff.rfl⟩
  next j _ =>
    split
    next => exact ⟨rfl, rfl, fun _ => Iff.rfl⟩
    next jb hj =>
      split
      next hp => exact ⟨rfl, rfl, clearing_setJob hj (by simp [hp])⟩
      next => exact ⟨rfl, rfl, fun _ => Iff.rfl⟩
      next => exact ⟨rfl, rfl, fun _ => Iff.rfl⟩
      next => exact ⟨rfl, rfl, clearing_setJob hj Iff.rfl⟩

/-- main thread の、foreground に関わる access。 -/
def MainPc.touchesForeground : MainPc → Bool
  | .casForeground _ | .setInForeground _ | .startForeground _ | .stopForeground
    | .clearForeground =>
    true
  | _ => false

theorem ofActs_foreground (as : List Act) :
    (MainPc.ofActs as).promoting = false ∧ MainPc.ofActs as ≠ .clearForeground := by
  cases as <;> simp [MainPc.ofActs, MainPc.promoting]

theorem handle_foreground (s : State) (c : Command) :
    (handle s c).isInForeground = s.isInForeground ∧ (handle s c).foreground = s.foreground ∧
      (handle s c).job = s.job ∧ (handle s c).main.promoting = false ∧
      (handle s c).main ≠ .clearForeground := by
  cases c <;> cases h : s.tunnelTaskState <;> simp [handle, h, MainPc.promoting]

theorem afterParams_foreground (state : TunnelTaskState) (b : Bool) :
    (MainPc.afterParams state b).promoting = false ∧
      MainPc.afterParams state b ≠ .clearForeground := by
  cases state <;> cases b <;> simp [MainPc.afterParams, MainPc.promoting]

theorem foregroundKept_of_main (hpc : s.main.touchesForeground = false)
    (hflag : s'.isInForeground = s.isInForeground) (hfg : s'.foreground = s.foreground)
    (hmain : s'.main.promoting = false ∧ s'.main ≠ .clearForeground)
    (hjob : ∀ j, Clearing s' j ↔ Clearing s j) : ForegroundKept s s' := by
  have hp : s.main.promoting = false ∧ s.main ≠ .clearForeground := by
    cases hm : s.main <;> simp_all [MainPc.touchesForeground, MainPc.promoting]
  exact ⟨hflag, hfg, by rw [hmain.1, hp.1], by simp [hmain.2, hp.2], hjob⟩

theorem clearing_launch (h : LifecycleInv s) (k : Nat) :
    Clearing (s.setJob s.nextJob { phase := .launched, cancelled := false }) k ↔ Clearing s k := by
  unfold Clearing State.setJob
  by_cases hk : k = s.nextJob
  · subst hk
    simp [h.fresh s.nextJob (Nat.le_refl _)]
  · simp [Function.update_of_ne hk]

theorem mainStep_foreground (hinv : LifecycleInv s) (hpc : s.main.touchesForeground = false)
    (h : mainStep s o s.main = some s') :
    ForegroundKept s s' := by
  have hkept := @foregroundKept_of_main s s' hpc
  cases hm : s.main with
  | idle => simp [hm, mainStep] at h
  | handle c =>
    rw [hm] at h
    rw [← Option.some.inj h] at hkept ⊢
    obtain ⟨h1, h2, h3, h4⟩ := handle_foreground s c
    exact hkept h1 h2 h4 (clearing_of_job h3)
  | launch =>
    rw [hm] at h
    rw [← Option.some.inj h] at hkept ⊢
    exact hkept rfl rfl (by simp [MainPc.promoting]) (clearing_launch hinv)
  | getParams b =>
    rw [hm] at h
    rw [← Option.some.inj h] at hkept ⊢
    exact hkept rfl rfl (afterParams_foreground s.tunnelTaskState b) (fun _ => Iff.rfl)
  | casStoppedStarting =>
    rw [hm] at h
    simp only [mainStep] at h
    split at h <;>
      (rw [← Option.some.inj h] at hkept ⊢
       exact hkept rfl rfl (by simp [MainPc.promoting]) (fun _ => Iff.rfl))
  | acts as =>
    rw [hm] at h
    cases as with
    | nil =>
      rw [← Option.some.inj h] at hkept ⊢
      exact hkept rfl rfl (by simp [MainPc.promoting]) (fun _ => Iff.rfl)
    | cons a as =>
      rw [← Option.some.inj h] at hkept ⊢
      obtain ⟨h1, h2⟩ := runAct_foreground s a
      exact hkept h1 h2 (ofActs_foreground _) (clearing_of_job (runAct_frame s a).job)
  | restartConfig =>
    rw [hm] at h
    cases o with
    | exception m => simp [mainStep] at h
    | _ =>
      rw [← Option.some.inj h] at hkept ⊢
      exact hkept rfl rfl (by simp [MainPc.promoting]) (fun _ => Iff.rfl)
  | restartPsiphon =>
    rw [hm] at h
    cases o with
    | exception m => simp [mainStep] at h
    | _ =>
      rw [← Option.some.inj h] at hkept ⊢
      exact hkept rfl rfl (by simp [MainPc.promoting]) (fun _ => Iff.rfl)
  | casForeground c => simp [hm, MainPc.touchesForeground] at hpc
  | setInForeground c => simp [hm, MainPc.touchesForeground] at hpc
  | startForeground c => simp [hm, MainPc.touchesForeground] at hpc
  | stopForeground => simp [hm, MainPc.touchesForeground] at hpc
  | clearForeground => simp [hm, MainPc.touchesForeground] at hpc
  | _ =>
    rw [hm] at h
    rw [← Option.some.inj h] at hkept ⊢
    exact hkept rfl rfl (by simp [MainPc.promoting]) (fun _ => Iff.rfl)

theorem JobPhase.Next.clearForeground {p q : JobPhase} (h : Next p q) (hq : q = .clearForeground) :
    p = .stopForeground := by
  cases h with
  | foregroundStopped => rfl
  | established o => cases o <;> simp [JobPhase.after] at hq
  | configured o => cases o <;> simp [JobPhase.after] at hq
  | started o => cases o <;> simp [JobPhase.after] at hq
  | _ => simp at hq

/-- flag が下りていれば立て、立っていれば `startForeground` を省く。 -/
theorem mainStep_casForeground {c : Command} (h : mainStep s o (.casForeground c) = some s') :
    (s.isInForeground = false ∧ s' =
      { s with isInForeground := true, main := .setInForeground c }) ∨
      (s.isInForeground = true ∧ s' = { s with main := .handle c }) := by
  cases hflag : s.isInForeground <;> simp_all [mainStep, compareAndSwap]

/-- job の一歩が foreground にすること。 -/
theorem jobStep_foreground (h : jobStep s j jb o = some s') :
    s'.foreground = (if jb.phase = .stopForeground then false else s.foreground) ∧
      s'.isInForeground = (if jb.phase = .clearForeground then false else s.isInForeground) := by
  unfold jobStep at h
  cases hp : jb.phase with
  | launched => simp [hp] at h
  | done => simp [hp] at h
  | dropped => simp [hp] at h
  | suspended =>
    simp only [hp] at h
    split at h
    · rw [← Option.some.inj h]
      simp [State.setJob]
    · simp at h
  | config =>
    simp only [hp] at h
    split at h <;>
      (rw [← Option.some.inj h]
       simp [State.setJob])
  | _ =>
    simp only [hp, Option.some.injEq] at h
    subst h
    simp [State.setJob, State.post]

/-! ## 不変量 -/

/--
隙間にいる thread がいなければ、flag は実際と一致する。

`promoting` の間は flag が立っていて、flag を下ろそうとしている job はいない。flag を下ろそうとしている
thread がいる間は、foreground にいない。
-/
structure ForegroundInv (s : State) : Prop extends LifecycleInv s where
  promoting : s.main.promoting = true → s.isInForeground = true ∧ ∀ j, ¬ Clearing s j
  cleared : s.main = .clearForeground ∨ (∃ j, Clearing s j) → s.foreground = false
  agrees : s.main.promoting = false → s.main ≠ .clearForeground → (∀ j, ¬ Clearing s j) →
    s.isInForeground = s.foreground

theorem foregroundInv_init : ForegroundInv init where
  toLifecycleInv := lifecycleInv_init
  promoting := by simp [init, MainPc.promoting]
  cleared := fun _ => rfl
  agrees := fun _ _ _ => rfl

theorem ForegroundInv.of_kept (h : ForegroundInv s) (h' : LifecycleInv s')
    (hk : ForegroundKept s s') : ForegroundInv s' where
  toLifecycleInv := h'
  promoting := by
    rw [hk.promoting, hk.isInForeground]
    simp only [hk.clearing]
    exact h.promoting
  cleared := by
    rw [hk.foreground, hk.clearForeground]
    simp only [hk.clearing]
    exact h.cleared
  agrees := by
    rw [hk.promoting, hk.isInForeground, hk.foreground]
    simp only [ne_eq, hk.clearForeground, hk.clearing]
    exact h.agrees

theorem ForegroundInv.not_clearing (h : LifecycleInv s) (hj : ∀ j < s.nextJob, ¬ Clearing s j)
    (j : Nat) : ¬ Clearing s j := by
  by_cases hlt : j < s.nextJob
  · exact hj j hlt
  · simp [Clearing, h.fresh j (by omega)]

theorem foregroundInv_main (h : ForegroundInv s) (hc : ForegroundInTurn s (.main o))
    (h' : LifecycleInv s') (hm : mainStep s o s.main = some s') : ForegroundInv s' := by
  cases hpc : s.main with
  | casForeground c =>
    have hno : ∀ j, ¬ Clearing s j :=
      ForegroundInv.not_clearing h.toLifecycleInv (hc (by rw [hpc]; rfl))
    have hag := h.agrees (by simp [hpc, MainPc.promoting]) (by simp [hpc]) hno
    rw [hpc] at hm
    have hmain : ¬ (∃ j, Clearing s j) := fun ⟨j, hj⟩ => hno j hj
    rcases mainStep_casForeground hm with ⟨-, rfl⟩ | ⟨-, rfl⟩
    · exact ⟨h', fun _ => ⟨rfl, hno⟩, by rintro (hb | hj) <;> [simp at hb; exact absurd hj hmain],
        by simp [MainPc.promoting]⟩
    · exact ⟨h', by simp [MainPc.promoting],
        by rintro (hb | hj) <;> [simp at hb; exact absurd hj hmain], fun _ _ _ => hag⟩
  | setInForeground c =>
    obtain ⟨-, hno⟩ := h.promoting (by rw [hpc]; rfl)
    rw [hpc] at hm
    rw [← Option.some.inj hm] at h' ⊢
    refine ⟨h', fun _ => ⟨rfl, hno⟩, ?_, by simp [MainPc.promoting]⟩
    rintro (hb | ⟨j, hj⟩)
    · simp at hb
    · exact absurd hj (hno j)
  | startForeground c =>
    obtain ⟨hflag, hno⟩ := h.promoting (by rw [hpc]; rfl)
    rw [hpc] at hm
    rw [← Option.some.inj hm] at h' ⊢
    refine ⟨h', by simp [MainPc.promoting], ?_, fun _ _ _ => hflag⟩
    rintro (hb | ⟨j, hj⟩)
    · simp at hb
    · exact absurd hj (hno j)
  | stopForeground =>
    rw [hpc] at hm
    rw [← Option.some.inj hm] at h' ⊢
    exact ⟨h', by simp [MainPc.promoting], fun _ => rfl, by simp⟩
  | clearForeground =>
    have hfg := h.cleared (.inl hpc)
    rw [hpc] at hm
    rw [← Option.some.inj hm] at h' ⊢
    exact ⟨h', by simp [MainPc.promoting], fun _ => hfg, fun _ _ _ => hfg.symm⟩
  | _ => exact h.of_kept h' (mainStep_foreground h.toLifecycleInv (by rw [hpc]; rfl) hm)

/-- job の一歩。`stopForeground` と flag を下ろす一歩のほかは、foreground に触れない。 -/
theorem foregroundInv_job (h : ForegroundInv s) (hc : ForegroundInTurn s (.job j o))
    (h' : LifecycleInv s') (hj : s.job j = some jb) (hs : jobStep s j jb o = some s') :
    ForegroundInv s' := by
  obtain ⟨hfg, hflag⟩ := jobStep_foreground hs
  obtain ⟨p, hm⟩ := jobStep_moves hs
  have hother : ∀ k, k ≠ j → (Clearing s' k ↔ Clearing s k) := fun k hk => by
    unfold Clearing
    rw [hm.job, Function.update_of_ne hk]
  have hself : Clearing s' j ↔ p = .clearForeground := by
    simp [Clearing, hm.job]
  by_cases hstop : jb.phase = .stopForeground
  · have hfalse : s'.foreground = false := by rw [hfg, if_pos hstop]
    have hnot : s.main.promoting = false := hc (by rw [hj, Option.map_some, hstop])
    have hp : p = .clearForeground := by
      have hn := hm.next
      rw [hstop] at hn
      cases hn
      rfl
    refine ⟨h', fun hpr => ?_, fun _ => hfalse, fun _ _ hno => absurd (hself.mpr hp) (hno j)⟩
    rw [hm.main, hnot] at hpr
    exact absurd hpr (by simp)
  by_cases hclear : jb.phase = .clearForeground
  · have hcl : Clearing s j := by simp [Clearing, hj, hclear]
    have hfalse : s'.foreground = false := by
      rw [hfg, if_neg hstop]
      exact h.cleared (.inr ⟨j, hcl⟩)
    have hlow : s'.isInForeground = false := by rw [hflag, if_pos hclear]
    refine ⟨h', fun hpr => ?_, fun _ => hfalse, fun _ _ _ => by rw [hlow, hfalse]⟩
    -- flag を下ろそうとしている job がいる間、main thread は foreground に上げていない
    rw [hm.main] at hpr
    exact absurd hcl ((h.promoting hpr).2 j)
  · have hp : p ≠ .clearForeground := by
      rintro rfl
      exact hstop (hm.next.clearForeground rfl)
    refine h.of_kept h' ⟨by rw [hflag, if_neg hclear], by rw [hfg, if_neg hstop], by rw [hm.main],
      by rw [hm.main], fun k => ?_⟩
    by_cases hk : k = j
    · subst hk
      rw [hself]
      simp [Clearing, hj, hclear, hp]
    · exact hother k hk

theorem foregroundInv_step {e : Event} (h : ForegroundInv s) (hc : ForegroundInTurn s e)
    (he : step s e = some s') : ForegroundInv s' := by
  have h' : LifecycleInv s' := lifecycleInv_step h.toLifecycleInv he
  refine step_elim (P := fun s' => LifecycleInv s' → ForegroundInv s') he ?_ ?_ ?_ ?_ ?_ ?_ ?_ h'
  · intro c _ hidle h'
    refine h.of_kept h' (foregroundKept_of_main (by rw [hidle]; rfl) rfl rfl ?_ fun _ => Iff.rfl)
    cases c <;> simp [Command.entry, MainPc.promoting]
  · intro now m ms _ _ _ h'
    cases m with
    | update u => exact h.of_kept h' ⟨rfl, rfl, rfl, Iff.rfl, fun _ => Iff.rfl⟩
    | cancelJob =>
      have hk := cancelJob_foreground { s with looper := ms }
      exact h.of_kept h' ⟨hk.isInForeground, hk.foreground, hk.promoting, hk.clearForeground,
        hk.clearing⟩
  · intro o hev hm h'
    subst hev
    exact foregroundInv_main h hc h' hm
  · intro t k _ _ h'
    exact h.of_kept h' ⟨rfl, rfl, rfl, Iff.rfl, fun _ => Iff.rfl⟩
  · intro t a as _ _ h'
    have hf := runAct_frame s a
    obtain ⟨h1, h2⟩ := runAct_foreground s a
    exact h.of_kept h' ⟨h1, h2, congrArg MainPc.promoting hf.main,
      Iff.of_eq (congrArg (· = _) hf.main), clearing_of_job hf.job⟩
  · intro j jb _ hj hp h'
    exact h.of_kept h' ⟨rfl, rfl, rfl, Iff.rfl, clearing_setJob hj (by simp [hp])⟩
  · intro j jb o hev hj hs h'
    subst hev
    exact foregroundInv_job h hc h' hj hs

/-! ## 定理 -/

/--
どの一歩も隙間を重ねない run では、`onStartCommand` も job の `stopForegroundAndService` も実行中でない
どの状態でも、flag は最後の操作が `startForeground` だったことと一致する。さらに、`onStartCommand` が
`startForeground` を省くのは、実際に foreground にいる時だけである。
-/
theorem foreground_in_step {es : List Event} {s : State} (hrun : exec step init es = some s)
    (hc : Meets step ForegroundInTurn init es) :
    (s.main = .idle → (∀ j, ¬ StoppingForeground s j) →
      (s.isInForeground = true ↔ s.foreground = true)) ∧
      ∀ o, s.main.checksForeground = true → ForegroundInTurn s (.main o) →
        s.isInForeground = true → s.foreground = true := by
  have hinv : ForegroundInv s :=
    exec_induct (fun _ _ _ hi hok he => foregroundInv_step hi hok he) es init s foregroundInv_init
      hc hrun
  constructor
  · intro hidle hno
    rw [hinv.agrees (by rw [hidle]; rfl) (by simp [hidle]) fun j hj => hno j (.inl hj)]
  · intro o hcheck hturn hflag
    have hno := ForegroundInv.not_clearing hinv.toLifecycleInv (hturn hcheck)
    have hpc : s.main.promoting = false ∧ s.main ≠ .clearForeground := by
      cases hm : s.main <;> simp_all [MainPc.checksForeground, MainPc.promoting]
    rw [← hinv.agrees hpc.1 hpc.2 hno]
    exact hflag

/-- 動いている tunnel に stop の intent が届き、`onStartCommand` が flag を調べようとしている。 -/
theorem foreground_in_step_second_command :
    ∃ s, exec step init [startCommand none, [.command .stop]].flatten = some s ∧
      s.main.checksForeground = true ∧ s.isInForeground = true ∧ s.foreground = true := by
  obtain ⟨s, hs, hcheck, hflag, hjob⟩ := exec_exists step init
    [startCommand none, [.command .stop]].flatten
    (fun s => s.main.checksForeground = true ∧ s.isInForeground = true ∧
      ∀ j < s.nextJob, ¬ Clearing s j) (by decide)
  exact ⟨s, hs, hcheck, hflag,
    (foreground_in_step hs (by decide)).2 .ok hcheck (fun _ => hjob) hflag⟩

/-- 動いている tunnel が止められ、その job が `stopForegroundAndService` を呼ぶ所まで進む。 -/
def stoppedTunnel : List Event :=
  [startCommand none, [.dispatch 0], List.replicate 5 (.job 0 .ok),
    [.command .stop], List.replicate 5 (.main .ok), [.looper 0, .looper 0, .looper 0],
    List.replicate 6 (.job 0 .ok)].flatten

/-- job が `stopForeground` を呼び、flag を下ろす前に start の intent が届く。 -/
def startWhileClearing : List Event :=
  [stoppedTunnel, [.job 0 .ok, .command (.start none)]].flatten

/-- 知らない intent で foreground を離れた後、start の `startForeground` の手前で job が `stopForeground` と
flag の書き込みを済ませる。 -/
def stopWhilePromoting : List Event :=
  [stoppedTunnel, [.command .unknown], List.replicate 5 (.main .ok),
    [.command (.start none), .main .ok, .main .ok, .job 0 .ok, .job 0 .ok],
    List.replicate 6 (.main .ok), [.job 0 .ok]].flatten

/--
foreground にいないのに `startForeground` が省かれる run と、foreground にいるのに、どの呼び出しも
終わった後で flag が下りたままの run がある。
-/
theorem foreground_out_of_step :
    (∃ s, exec step init startWhileClearing = some s ∧ s.main.checksForeground = true ∧
      s.isInForeground = true ∧ s.foreground = false) ∧
    ∃ s, exec step init stopWhilePromoting = some s ∧ s.main = .idle ∧
      (∀ j, ¬ StoppingForeground s j) ∧ s.isInForeground = false ∧ s.foreground = true := by
  constructor
  · exact exec_exists step init startWhileClearing
      (fun s => s.main.checksForeground = true ∧ s.isInForeground = true ∧ s.foreground = false)
      (by decide)
  · obtain ⟨s, hs, hidle, hjob, hflag⟩ := exec_exists step init stopWhilePromoting
      (fun s => s.main = .idle ∧ (∀ j < s.nextJob, ¬ StoppingForeground s j) ∧
        s.isInForeground = false ∧ s.foreground = true) (by decide)
    refine ⟨s, hs, hidle, fun j => ?_, hflag⟩
    by_cases hlt : j < s.nextJob
    · exact hjob j hlt
    · simp [StoppingForeground, (lifecycleInv_exec hs).fresh j (by omega)]

end Service
