import PsiphonVpn.Service.TaskState
import PsiphonVpn.Service.Updates

/-!
# session を終わらせた error は残るか

error で session が止まるとき、error を立てる更新、`STOPPING` にする更新、`finally` の reset は
別々の thread から別々に post される。reset は error を残すが、`onConnected` と tunnel coroutine の
最初の更新は error を消す。

* error の後に `onConnected` か coroutine の最初の更新が post されると、error は消える
  （`error_cleared`）
* reset の後に `stopTunnel` や callback の更新が post されると、`tunnelEvent` は `STOPPED` でなくなる

この二つの順序が起きない run では、error は次の start まで残る（`error_stays_visible`）。
-/

namespace Service

open Infra

/-- 更新が立てる error。 -/
def Update.errorSet (u : Update) : Option ErrorCode := u.writesError.join

/-- session の間に error が立てられた。 -/
def ErrorPosted (s : State) : Prop := ∃ u ∈ s.posted, u.errorSet.isSome = true

instance (s : State) : Decidable (ErrorPosted s) := List.decidableBEx _ _

/-- session の後始末が終わり、post された更新もすべて適用され、次の start はまだである。 -/
def SessionOver (s : State) : Prop :=
  s.tunnelTaskState = .STOPPED ∧ s.looper = [] ∧
    (s.job (s.nextJob - 1)).map Job.phase = some .done

/-- 止まっていることと、session の間に立てられた error のどれかが見えている。 -/
def ErrorVisible (s : State) : Prop :=
  s.currentPsiphonState.tunnelEvent = some .STOPPED ∧
    ∃ code data, .setError code data ∈ s.posted ∧
      s.currentPsiphonState.lastErrorCode = some code

/-- reset を post し終えた。 -/
def JobPhase.resetPosted : JobPhase → Bool
  | .nullJob | .stopForeground | .clearForeground | .stopSelf | .done => true
  | _ => false

/-- いまの session の job は reset を post し終えている。 -/
def SessionReset (s : State) : Prop :=
  s.main ≠ .launch ∧ (s.job (s.nextJob - 1)).any (·.phase.resetPosted) = true

instance (s : State) : Decidable (SessionReset s) := inferInstanceAs (Decidable (_ ∧ _))

/-- 更新 `u` をいま post してよい。 -/
def InOrder (s : State) (u : Update) : Prop :=
  (u.writesError = some none → ¬ ErrorPosted s) ∧
    (u.writesTunnelEvent ≠ none → u ≠ .reset → ¬ SessionReset s)

instance (s : State) (u : Update) : Decidable (InOrder s u) := inferInstanceAs (Decidable (_ ∧ _))

/--
一歩の条件。

error を消す更新は、session の error より後に post されない。
`tunnelEvent` を書く更新は、session の reset より後に post されない。
-/
def PostsInOrder (s : State) (e : Event) : Prop := ∀ u, postedBy s e = some u → InOrder s u

instance (s : State) (e : Event) : Decidable (PostsInOrder s e) :=
  match h : postedBy s e with
  | none => .isTrue fun u hu => by simp [h] at hu
  | some v =>
    if hv : InOrder s v then .isTrue fun u hu => by rw [h, Option.some.injEq] at hu; exact hu ▸ hv
    else .isFalse fun hall => hv (hall v h)

/-! ## post された順 -/

theorem eq_setError {u : Update} {code : ErrorCode} (h : u.errorSet = some code) :
    ∃ data, u = .setError code data := by
  cases u <;> simp_all [Update.errorSet, Update.writesError]

/-- 列の中の error のどれかが、適用した後に残っている。 -/
def ErrorStands (l : List Update) : Prop :=
  (∃ u ∈ l, u.errorSet.isSome = true) → ∀ a, ∃ code data, .setError code data ∈ l ∧
    lastWrite Update.writesError a l = some code

theorem errorStands_snoc {l : List Update} {u : Update} (h : ErrorStands l)
    (hu : u.writesError = some none → ¬ ∃ u ∈ l, u.errorSet.isSome = true) :
    ErrorStands (l ++ [u]) := by
  intro herr a
  rw [lastWrite_snoc]
  cases hw : u.writesError with
  | none =>
    -- u は error に触れないので、error は前の列にある
    have hold : ∃ u ∈ l, u.errorSet.isSome = true := by
      obtain ⟨v, hv, hve⟩ := herr
      rcases List.mem_append.mp hv with hv | hv
      · exact ⟨v, hv, hve⟩
      · rw [List.mem_singleton] at hv
        simp [hv, Update.errorSet, hw] at hve
    obtain ⟨code, data, hmem, hval⟩ := h hold a
    exact ⟨code, data, List.mem_append_left _ hmem, hval⟩
  | some c =>
    cases c with
    | none =>
      exfalso
      obtain ⟨v, hv, hve⟩ := herr
      rcases List.mem_append.mp hv with hv | hv
      · exact hu hw ⟨v, hv, hve⟩
      · rw [List.mem_singleton] at hv
        simp [hv, Update.errorSet, hw] at hve
    | some code =>
      have hset : u.errorSet = some code := by simp [Update.errorSet, hw]
      obtain ⟨data, rfl⟩ := eq_setError hset
      exact ⟨code, data, by simp, rfl⟩

/-- reset の後には、`tunnelEvent` を書く更新は reset しか無い。 -/
def EventStopped (l : List Update) : Prop :=
  ∀ a, lastWrite Update.writesTunnelEvent a l = some .STOPPED

theorem eventStopped_snoc {l : List Update} {u : Update} (h : EventStopped l)
    (hu : u.writesTunnelEvent ≠ none → u = .reset) : EventStopped (l ++ [u]) := by
  intro a
  rw [lastWrite_snoc]
  cases hw : u.writesTunnelEvent with
  | none => exact h a
  | some v =>
    have hr := hu (by simp [hw])
    subst hr
    simpa [Update.writesTunnelEvent] using hw.symm

/-! ## 不変量 -/

theorem JobPhase.Next.of_resetPosted {p q : JobPhase} (h : Next p q) (hq : q.resetPosted = true) :
    p.resetPosted = true ∨ p = .postReset := by
  cases h with
  | established o => cases o <;> simp [JobPhase.after, JobPhase.resetPosted] at hq
  | configured o => cases o <;> simp [JobPhase.after, JobPhase.resetPosted] at hq
  | started o => cases o <;> simp [JobPhase.after, JobPhase.resetPosted] at hq
  | _ => simp_all [JobPhase.resetPosted]

/-- `SessionReset` になるのは、session の job が reset を post したときである。 -/
theorem sessionReset_step {s s' : State} {e : Event} (hc : Change s e s')
    (hr : SessionReset s') : SessionReset s ∨ postedBy s e = some .reset := by
  obtain ⟨hl, hjob⟩ := hr
  cases hc with
  | quiet hq =>
    rw [hq.job, hq.nextJob] at hjob
    exact Or.inl ⟨fun hl' => hl (hq.launch.mpr hl'), hjob⟩
  | stops hs =>
    rw [hs.job, hs.nextJob] at hjob
    exact Or.inl ⟨fun hl' => hl (hs.launch.mpr hl'), hjob⟩
  | starts hs =>
    obtain ⟨-, -, rfl⟩ := hs
    exact absurd rfl hl
  | launches hs =>
    obtain ⟨-, rfl⟩ := hs
    simp [State.setJob, JobPhase.resetPosted] at hjob
  | assigns hs =>
    obtain ⟨j, hpc, rfl⟩ := hs
    exact Or.inl ⟨by simp [hpc], hjob⟩
  | cancels now ms _ hidle _ hs =>
    subst hs
    have hf := cancelJob_frame { s with looper := ms }
    rw [hf.nextJob] at hjob
    obtain ⟨jb', hjb', hp'⟩ := (Option.any_eq_true _ _).mp hjob
    obtain ⟨jb, hjb, hp | ⟨-, hp⟩⟩ := hf.job _ jb' hjb'
    · rw [hp] at hp'
      exact Or.inl ⟨by simp [hidle], (Option.any_eq_true _ _).mpr ⟨jb, hjb, hp'⟩⟩
    · simp [hp, JobPhase.resetPosted] at hp'
  | moves j jb p hev hj hm =>
    rw [hm.main] at hl
    rw [hm.nextJob, hm.job] at hjob
    by_cases hkj : s.nextJob - 1 = j
    · rw [hkj, Function.update_self, Option.any_some] at hjob
      rcases hm.next.of_resetPosted hjob with hp | hp
      · refine Or.inl ⟨hl, ?_⟩
        rw [hkj, hj, Option.any_some]
        exact hp
      · rcases hev with ⟨-, hlaunched⟩ | ⟨o, rfl⟩
        · simp [hlaunched] at hp
        · exact Or.inr (by simp [postedBy, hj, hp, JobPhase.posts])
    · rw [Function.update_of_ne hkj] at hjob
      exact Or.inl ⟨hl, hjob⟩

structure ErrorInv (s : State) : Prop extends LifecycleInv s where
  stands : ErrorStands s.posted
  reset : SessionReset s → EventStopped s.posted

theorem errorInv_init : ErrorInv init where
  toLifecycleInv := lifecycleInv_init
  stands := by simp [ErrorStands, init]
  reset := by simp [SessionReset, init]

theorem errorInv_step {s s' : State} {e : Event} (h : ErrorInv s) (hc : PostsInOrder s e)
    (he : step s e = some s') : ErrorInv s' := by
  have hchange := step_change h.toLifecycleInv he
  have hreset := sessionReset_step hchange
  refine ⟨lifecycleInv_step h.toLifecycleInv he, ?_, ?_⟩
  · cases step_updates h.toLifecycleInv he with
    | none _ _ _ hp => rw [hp]; exact h.stands
    | applies _ _ _ _ _ hp => rw [hp]; exact h.stands
    | posts u hu _ _ hp =>
      rw [hp]
      exact errorStands_snoc h.stands (hc u hu).1
    | session _ hs =>
      obtain ⟨-, -, rfl⟩ := hs
      simp [ErrorStands]
  · intro hr
    cases step_updates h.toLifecycleInv he with
    | none hu _ _ hp =>
      rw [hp]
      exact h.reset ((hreset hr).resolve_right (by simp [hu]))
    | applies _ _ hu _ _ hp =>
      rw [hp]
      exact h.reset ((hreset hr).resolve_right (by simp [hu]))
    | posts u hu _ _ hp =>
      rw [hp]
      by_cases hur : u = .reset
      · subst hur
        intro a
        rw [lastWrite_snoc]
        rfl
      · have hold : SessionReset s :=
          (hreset hr).resolve_right (by rw [hu]; simpa using hur)
        refine eventStopped_snoc (h.reset hold) fun hw => ?_
        exact absurd hold ((hc u hu).2 hw hur)
    | session _ hs =>
      obtain ⟨-, -, rfl⟩ := hs
      exact absurd rfl hr.1

/-! ## 定理 -/

/--
どの一歩も `PostsInOrder` を満たす run で、error の立てられた session が終わり、post された更新が
すべて適用されると、次の start まで、`tunnelEvent` は `STOPPED` で、`lastErrorCode` は
その session で立てられた error である。
-/
theorem error_stays_visible {es : List Event} {s : State} (hrun : exec step init es = some s)
    (hc : Meets step PostsInOrder init es) (hover : SessionOver s) (herr : ErrorPosted s) :
    ErrorVisible s := by
  have hinv : ErrorInv s :=
    exec_induct (fun _ _ _ hi hok he => errorInv_step hi hok he) es init s errorInv_init hc hrun
  obtain ⟨hst, hq, hjob⟩ := hover
  have hreset : SessionReset s := by
    refine ⟨fun hl => ?_, ?_⟩
    · rcases (hinv.launch hl).1 with hl | hl <;> simp [hst] at hl
    · obtain ⟨jb, hjb, hp⟩ := Option.map_eq_some_iff.mp hjob
      simp [hjb, hp, JobPhase.resetPosted]
  constructor
  · obtain ⟨a, ha⟩ := settlesAsPosted_exec
      (fun u now st => Update.apply_tunnelEvent u now st) hrun
    rw [settled_of_idle hq, hinv.reset hreset a] at ha
    exact ha
  · obtain ⟨a, ha⟩ := settlesAsPosted_exec
      (fun u now st => Update.apply_lastErrorCode u now st) hrun
    obtain ⟨code, data, hmem, hval⟩ := hinv.stands herr a
    rw [settled_of_idle hq, hval] at ha
    exact ⟨code, data, hmem, ha⟩

/-- tunnel が動き始めるまで。 -/
def running : List Event :=
  [startCommand none, [.dispatch 0], List.replicate 5 (.job 0 .ok)].flatten

/-- SOCKS の port が使われていて止まる run。 -/
def socksPortInUse : List Event :=
  [running, [.call 0 (.onSocksProxyPortInUse 1080)], List.replicate 4 (.thread 0),
    List.replicate 4 (.looper 0), List.replicate 9 (.job 0 .ok), [.looper 0]].flatten

theorem error_stays_visible_socksPortInUse :
    ∃ s, exec step init socksPortInUse = some s ∧ SessionOver s ∧ ErrorPosted s ∧
      ErrorVisible s := by
  obtain ⟨s, hs, hover, herr⟩ := exec_exists step init socksPortInUse
    (fun s => (s.tunnelTaskState = .STOPPED ∧ s.looper = [] ∧
      (s.job (s.nextJob - 1)).map Job.phase = some .done) ∧ ErrorPosted s) (by decide)
  exact ⟨s, hs, hover, herr, error_stays_visible hs (by decide) hover herr⟩

/-- VPN が revoke され、error が post された後で、別の thread が `onConnected` を呼ぶ run。 -/
def connectedAfterRevoke : List Event :=
  [running, [.call 1 (.onListeningSocksProxyPort 1080), .thread 1, .looper 0, .looper 0],
    [.call 0 .onRevoke, .thread 0, .thread 0, .thread 0],
    [.call 1 .onConnected, .thread 1, .thread 1, .thread 1],
    [.thread 0, .thread 0, .thread 0],
    List.replicate 4 (.looper 0), List.replicate 9 (.job 0 .ok), [.looper 0]].flatten

/-- revoke で止まった session の error が消え、client には何も起きずに止まったように見える。 -/
theorem error_cleared :
    ∃ s, exec step init connectedAfterRevoke = some s ∧ SessionOver s ∧
      .setError .VPN_REVOKED none ∈ s.posted ∧ s.currentPsiphonState.lastErrorCode = none ∧
      ¬ ErrorVisible s := by
  obtain ⟨s, hs, hover, hmem, hnone⟩ := exec_exists step init connectedAfterRevoke
    (fun s => (s.tunnelTaskState = .STOPPED ∧ s.looper = [] ∧
      (s.job (s.nextJob - 1)).map Job.phase = some .done) ∧
      Update.setError .VPN_REVOKED none ∈ s.posted ∧
      s.currentPsiphonState.lastErrorCode = none) (by decide)
  refine ⟨s, hs, hover, hmem, hnone, fun h => ?_⟩
  obtain ⟨-, code, data, -, hcode⟩ := h
  simp [hnone] at hcode

end Service
