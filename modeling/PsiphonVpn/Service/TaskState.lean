import PsiphonVpn.Service.Lifecycle

/-!
# `tunnelTaskState` の辺

`startTunnel` と `stopTunnel` は `compareAndSet` で書くが、tunnel coroutine は `set` で書く。
`startTunneling` が戻るまでの間に `stopTunnel` が成功すると、その後の `set(RUNNING)` が
`STOPPING` を `RUNNING` に戻してしまう（`stop_undone`）。

辺を外れるのはこの一箇所だけである。`set(RUNNING)` が `STARTING` の間に行われることが、
値の列が決められた辺だけを辿るための必要十分条件になる（`edgesOnly_iff`）。
-/

namespace Service

open Infra

/-- 許される辺。最後の二つは起動の失敗である。 -/
def Edge : TunnelTaskState → TunnelTaskState → Bool
  | .STOPPED, .STARTING => true
  | .STARTING, .RUNNING => true
  | .STARTING, .STOPPING => true
  | .RUNNING, .STOPPING => true
  | .STOPPING, .STOPPED => true
  | .STARTING, .STOPPED => true
  | .RUNNING, .STOPPED => true
  | _, _ => false

/-- 値が変わらないか、辺を一つ進む。 -/
def Follows (a b : TunnelTaskState) : Prop := a = b ∨ Edge a b = true

instance : DecidableRel Follows := fun _ _ => inferInstanceAs (Decidable (_ ∨ _))

/-- 列を実行する間の `tunnelTaskState` の値。 -/
def taskStates (es : List Event) : List TunnelTaskState :=
  (trace step init es).map State.tunnelTaskState

/-- 値は辺だけを辿る。 -/
def EdgesOnly (l : List TunnelTaskState) : Prop := l.IsChain Follows

/-- 一度 `STOPPING` になれば、`STOPPED` を経るまで `RUNNING` にならない。 -/
def StopNotUndone (l : List TunnelTaskState) : Prop :=
  ∀ i j : Nat, i < j → l[i]? = some TunnelTaskState.STOPPING →
    l[j]? = some TunnelTaskState.RUNNING →
    ∃ k, i < k ∧ k < j ∧ l[k]? = some TunnelTaskState.STOPPED

/-- `tunnelTaskState.set(RUNNING)` は `STARTING` の間に行われる。 -/
def SetsRunningWhileStarting (s : State) : Event → Prop
  | .job j _ => (s.job j).map Job.phase = some .setRunning → s.tunnelTaskState = .STARTING
  | _ => True

instance : ∀ (s : State) (e : Event), Decidable (SetsRunningWhileStarting s e)
  | _, .job _ _ => inferInstanceAs (Decidable (_ → _))
  | _, .command _ | _, .looper _ | _, .main _ | _, .call _ _ | _, .thread _ | _, .dispatch _ =>
    .isTrue trivial

/-- `STOPPING` から出る辺は `STOPPED` へ行くだけである。 -/
theorem stopping_follows {b : TunnelTaskState} (h : Follows .STOPPING b) :
    b = .STOPPING ∨ b = .STOPPED := by
  cases b <;> simp_all [Follows, Edge]

theorem EdgesOnly.stopNotUndone {l : List TunnelTaskState} (h : EdgesOnly l) :
    StopNotUndone l := by
  intro i j hij hi hj
  by_contra hno
  push Not at hno
  -- STOPPED を経ないなら、j の直前まで STOPPING が続く
  have hstay : ∀ d, i + d < j → l[i + d]? = some TunnelTaskState.STOPPING := by
    intro d
    induction d with
    | zero => exact fun _ => hi
    | succ d ih =>
      intro hd
      have hlen : i + d + 1 < l.length := by
        have := (List.getElem?_eq_some_iff.mp hj).1
        omega
      have hprev := (List.getElem?_eq_some_iff.mp (ih (by omega))).2
      have hnext := List.isChain_iff_getElem.mp h (i + d) hlen
      rw [hprev] at hnext
      rcases stopping_follows hnext with hs | hs
      · rw [← Nat.add_assoc, List.getElem?_eq_some_iff]
        exact ⟨hlen, hs⟩
      · exact absurd (List.getElem?_eq_some_iff.mpr ⟨hlen, hs⟩)
          (hno (i + d + 1) (by omega) (by omega))
  have hlast := hstay (j - i - 1) (by omega)
  obtain ⟨hlen, hrun⟩ := List.getElem?_eq_some_iff.mp hj
  have hpos : i + (j - i - 1) + 1 = j := by omega
  have hprev := (List.getElem?_eq_some_iff.mp hlast).2
  have hnext := List.isChain_iff_getElem.mp h (i + (j - i - 1)) (by omega)
  rw [hprev] at hnext
  simp only [hpos, hrun] at hnext
  simp [Follows, Edge] at hnext

/-! ## 一歩と辺 -/

/-- job の一歩が辺を進むのは、`set(RUNNING)` でないか、`STARTING` にいるときである。 -/
theorem follows_moves_iff {s s' : State} {j : Nat} {jb : Job} {p : JobPhase} (h : LifecycleInv s)
    (hj : s.job j = some jb) (hm : JobMoves s s' j jb p) :
    Follows s.tunnelTaskState s'.tunnelTaskState ↔
      (jb.phase = .setRunning → s.tunnelTaskState = .STARTING) := by
  rw [hm.tunnelTaskState]
  by_cases hr : jb.phase = .setRunning
  · -- STOPPED でも RUNNING でもないので、残るのは STARTING と STOPPING である
    have h1 := (h.latest j jb hj (by rw [hr]; rfl)).2
    have h2 := h.early j jb hj (by rw [hr]; rfl)
    rw [if_pos hr]
    cases hst : s.tunnelTaskState <;> simp_all [Follows, Edge]
  · rw [if_neg hr]
    refine ⟨fun _ hr' => absurd hr' hr, fun _ => ?_⟩
    split
    · next hs =>
      have h1 := (h.latest j jb hj (by rw [hs]; rfl)).2
      cases hst : s.tunnelTaskState <;> simp_all [Follows, Edge]
    · exact Or.inl rfl

/-- job のほかの一歩は、つねに辺を進む。 -/
theorem follows_of_change {s s' : State} {e : Event} (h : LifecycleInv s) (hc : Change s e s')
    (hne : ∀ j o, e ≠ .job j o) : Follows s.tunnelTaskState s'.tunnelTaskState := by
  cases hc with
  | quiet hq => exact Or.inl hq.tunnelTaskState.symm
  | stops hs =>
    rw [hs.after]
    rcases hs.before with hb | hb <;> (rw [hb]; exact Or.inr rfl)
  | starts hs =>
    obtain ⟨-, hst, rfl⟩ := hs
    rw [hst]
    exact Or.inr rfl
  | launches hs =>
    obtain ⟨-, rfl⟩ := hs
    exact Or.inl rfl
  | assigns hs =>
    obtain ⟨j, -, rfl⟩ := hs
    exact Or.inl rfl
  | cancels now ms _ _ _ hs =>
    rw [hs, (cancelJob_frame _).tunnelTaskState]
    exact Or.inl rfl
  | moves j jb p hev hj hm =>
    rcases hev with ⟨-, hl⟩ | ⟨o, hev⟩
    · exact (follows_moves_iff h hj hm).mpr (fun hr => by simp [hl] at hr)
    · exact absurd hev (hne j o)

/-- 一歩が辺を進むことは、`set(RUNNING)` が `STARTING` の間に行われることと同じである。 -/
theorem follows_iff {s s' : State} {e : Event} (h : LifecycleInv s) (he : step s e = some s') :
    Follows s.tunnelTaskState s'.tunnelTaskState ↔ SetsRunningWhileStarting s e := by
  have hchange := step_change h he
  cases e with
  | job j o =>
    simp only [step] at he
    split at he
    · next jb hj =>
      obtain ⟨p, hm⟩ := jobStep_moves he
      rw [follows_moves_iff h hj hm]
      simp [SetsRunningWhileStarting, hj]
    · simp at he
  | _ => exact ⟨fun _ => trivial, fun _ => follows_of_change h hchange (by simp)⟩

/--
値の列が辺だけを辿ることは、どの `set(RUNNING)` も `STARTING` の間に行われることと同じである。
条件を破る run では、その一歩で値が辺を外れる。
-/
theorem edgesOnly_iff {es : List Event} {s : State} (hrun : exec step init es = some s) :
    EdgesOnly (taskStates es) ↔ Meets step SetsRunningWhileStarting init es := by
  unfold EdgesOnly taskStates
  rw [List.isChain_map]
  have hstep : ∀ s e s', LifecycleInv s → step s e = some s' → LifecycleInv s' ∧
      (Follows s.tunnelTaskState s'.tunnelTaskState ↔ SetsRunningWhileStarting s e) :=
    fun s e s' hi he => ⟨lifecycleInv_step hi he, follows_iff hi he⟩
  exact isChain_trace_iff hstep es init s lifecycleInv_init hrun

/-! ## 定理 -/

/--
どの `set(RUNNING)` も `STARTING` の間に行われる run では、`tunnelTaskState` は決められた辺だけを
辿り、`STOPPING` になった後は `STOPPED` を経るまで `RUNNING` にならない。
-/
theorem stop_not_undone {es : List Event} {s : State} (hrun : exec step init es = some s)
    (hc : Meets step SetsRunningWhileStarting init es) :
    EdgesOnly (taskStates es) ∧ StopNotUndone (taskStates es) := by
  have hedges : EdgesOnly (taskStates es) := (edgesOnly_iff hrun).mpr hc
  exact ⟨hedges, hedges.stopNotUndone⟩

/-- start の intent を受け取ってから `startTunnel` が戻るまで。 -/
def startCommand (egressRegion : Option String) : List Event :=
  .command (.start egressRegion) :: List.replicate 8 (.main .ok)

/-- 動いている tunnel を止め、`finally` の終わりまで進む run。 -/
def startThenStop : List Event :=
  [startCommand none, [.dispatch 0], List.replicate 5 (.job 0 .ok),
    [.command .stop], List.replicate 5 (.main .ok), [.looper 0, .looper 0, .looper 0],
    List.replicate 9 (.job 0 .ok)].flatten

/-- `startThenStop` の間、値は STARTING, RUNNING, STOPPING, STOPPED の順に進む。 -/
theorem stop_not_undone_startThenStop :
    .RUNNING ∈ taskStates startThenStop ∧ .STOPPING ∈ taskStates startThenStop ∧
      EdgesOnly (taskStates startThenStop) ∧ StopNotUndone (taskStates startThenStop) := by
  obtain ⟨s, hs, -⟩ := exec_exists step init startThenStop
    (fun s => s.tunnelTaskState = .STOPPED) (by decide)
  obtain ⟨h1, h2⟩ := stop_not_undone hs (by decide)
  exact ⟨by decide, by decide, h1, h2⟩

/-- `startTunneling` が戻る前に stop の intent が届く run。 -/
def stopWhileStarting : List Event :=
  [startCommand none, [.dispatch 0], List.replicate 3 (.job 0 .ok),
    [.command .stop], List.replicate 6 (.main .ok), [.job 0 .ok, .job 0 .ok]].flatten

/-- `stopTunnel` が `STOPPING` にした後で、coroutine が `set(RUNNING)` を行う。 -/
theorem stop_undone :
    ∃ s, exec step init stopWhileStarting = some s ∧
      ¬ EdgesOnly (taskStates stopWhileStarting) ∧
      ¬ StopNotUndone (taskStates stopWhileStarting) := by
  obtain ⟨s, hs, -⟩ := exec_exists step init stopWhileStarting
    (fun s => s.tunnelTaskState = .RUNNING) (by decide)
  refine ⟨s, hs, ?_, fun h => ?_⟩
  · unfold EdgesOnly
    decide
  · obtain ⟨k, h1, h2, h3⟩ := h 18 22 (by omega) (by decide) (by decide)
    have hno : ∀ k < 22, (taskStates stopWhileStarting)[k]? = some TunnelTaskState.STOPPED →
        k ≤ 18 := by decide
    have := hno k h2 h3
    omega

end Service
