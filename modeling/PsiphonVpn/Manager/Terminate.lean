import PsiphonVpn.Manager.Model

/-!
# 終了要求は失われないか

`stopTun2Socks` は `terminateTun2Socks` で `g_terminate` を立ててから `join` で待つ。
待たれている thread は `tcp_timer_handler` で `g_terminate` を見て event loop を抜ける。

`g_terminate` は前の run の値を持ち越すので、`runTun2SocksNative` は入口で 0 に戻す。
戻すのは新しい thread の側なので、`Thread.start` と reset の間に出た終了要求は消される。
`terminate_lost` がその run である。

終了要求が reset より後に出るかぎり、`join` で待っている間 `g_terminate` は 1 のままである
（`terminate_kept`）。
-/

namespace Manager

open Infra

/-- thread `t` の event loop は、抜けるように言われている。 -/
def ToldToQuit (s : State) (t : Nat) : Prop :=
  ∃ th, s.thread t = some th ∧
    (th.phase = .loop ∧ s.quitting = true ∨ th.phase = .exiting .finish)

/-- 生きている thread を `join` で待っている間、終了要求は残っているか、届いている。 -/
def TerminateKept (s : State) : Prop :=
  ∀ t teardown, s.blocked = some (t, teardown) → s.alive t = true →
    s.gTerminate = 1 ∨ ToldToQuit s t

/-- thread `t` はまだ `g_terminate` の reset を通っていない。 -/
def State.beforeReset (s : State) (t : Nat) : Bool :=
  (s.thread t).any (·.phase.beforeReset)

/-- `terminateTun2Socks` を呼ぶ一歩は、相手の thread の reset より後に来る。 -/
def TerminatesAfterReset (s : State) : Event → Prop
  | .stopRouteThroughTunnel | .vpnTeardown =>
    s.isRoutingThroughTunnel = true → s.tun2SocksThread.any s.beforeReset = false
  | _ => True

instance : ∀ (s : State) (e : Event), Decidable (TerminatesAfterReset s e)
  | _, .stopRouteThroughTunnel | _, .vpnTeardown => inferInstanceAs (Decidable (_ → _))
  | _, .vpnEstablish _ | _, .routeThroughTunnel _ _ | _, .joinReturn | _, .joinInterrupted
  | _, .native _ _ => .isTrue trivial

/-! ## 不変量 -/

/--
reset を通っていない thread は、いま参照されている thread だけで、その間は誰も `join` していない。
`join` している間に `g_terminate` を 0 に戻せる thread が無いことが、ここから出る。
-/
structure TerminateInv (s : State) : Prop where
  binary : s.gTerminate = 0 ∨ s.gTerminate = 1
  reset : ∀ t th, s.thread t = some th → th.phase.beforeReset = true →
    s.tun2SocksThread = some t ∧ s.blocked = none
  kept : s.blocked.isSome = true → s.gTerminate = 1

theorem terminateInv_init : TerminateInv init where
  binary := Or.inl rfl
  reset := by simp [init]
  kept := by simp [init]

variable {s s' : State} {t : Nat} {b : Bool}

theorem TerminateInv.of_same (h : TerminateInv s) (hg : s'.gTerminate = s.gTerminate)
    (ht : s'.thread = s.thread) (hr : s'.tun2SocksThread = s.tun2SocksThread)
    (hb : s'.blocked = s.blocked) :
    TerminateInv s' where
  binary := by rw [hg]; exact h.binary
  reset := by rw [ht, hr, hb]; exact h.reset
  kept := by rw [hb, hg]; exact h.kept

theorem terminateInv_started {port : Int} {a : PrivateAddress} {num : Nat} (h : TerminateInv s)
    (hb : s.blocked = none) (hr : s.tun2SocksThread = none) :
    TerminateInv (started s port a num) where
  binary := h.binary
  reset := by
    intro t th hth hp
    by_cases ht : t = s.nextThread
    · subst ht; exact ⟨rfl, hb⟩
    · -- ほかの thread は reset を通っている。通っていなければ参照されているはずである
      exfalso
      simp only [started, Function.update_of_ne ht] at hth
      have := (h.reset t th hth hp).1
      rw [hr] at this
      simp at this
  kept := by simp [started, hb]

theorem terminateInv_terminate (h : TerminateInv s) (hr : s.tun2SocksThread = some t)
    (hc : s.beforeReset t = false) :
    TerminateInv (terminateTun2Socks { s with isRoutingThroughTunnel := false } t b) := by
  have hone : (compareAndSwap s.gTerminate 0 1).1 = 1 := by
    rcases h.binary with hg | hg <;> simp [compareAndSwap, hg]
  refine ⟨Or.inr hone, ?_, fun _ => hone⟩
  intro u th hu hp
  exfalso
  by_cases htu : u = t
  · subst htu
    simp only [terminateTun2Socks, Function.update_self, Option.map_eq_some_iff] at hu
    obtain ⟨th₀, hth₀, rfl⟩ := hu
    simp [State.beforeReset, hth₀, hp] at hc
  · simp only [terminateTun2Socks, Function.update_of_ne htu] at hu
    have := (h.reset u th hu hp).1
    rw [hr] at this
    exact htu (Option.some.inj this).symm

theorem terminateInv_finishTeardown (h : TerminateInv s) : TerminateInv (finishTeardown s) :=
  h.of_same (by simp) (by simp) (by simp) (by simp)

theorem terminateInv_afterJoin (h : TerminateInv s) (hb : s.blocked.isSome = true) :
    TerminateInv (afterJoin s b) := by
  have h₀ : TerminateInv { s with tun2SocksThread := none, blocked := none } := by
    refine ⟨h.binary, ?_, by simp⟩
    intro t th hth hp
    have := (h.reset t th hth hp).2
    rw [this] at hb
    simp at hb
  cases b with
  | false => exact h₀
  | true => exact terminateInv_finishTeardown h₀

theorem terminateInv_stop (h : TerminateInv s)
    (hc : s.isRoutingThroughTunnel = true → s.tun2SocksThread.any s.beforeReset = false) :
    TerminateInv (stopRouteThroughTunnel s b) := by
  obtain ⟨t, hr, ht, he⟩ | ⟨-, he⟩ := stopRouteThroughTunnel_cases s b
  · rw [he]
    exact terminateInv_terminate h ht (by simpa [ht] using hc hr)
  · have h₀ : TerminateInv { s with isRoutingThroughTunnel := false } := h.of_same rfl rfl rfl rfl
    rw [he]
    cases b with
    | false => exact h₀
    | true => exact terminateInv_finishTeardown h₀

theorem terminateInv_route {port : Int} {dup : Option Nat} (h : TerminateInv s)
    (hb : s.blocked = none) : TerminateInv (routeThroughTunnel s port dup) := by
  obtain ⟨-, he⟩ | ⟨-, -, he⟩ | ⟨-, -, -, -, he⟩ | ⟨a, num, -, ht, he⟩ :=
    routeThroughTunnel_cases s port dup
  · rw [he]; exact h
  · rw [he]; exact h.of_same rfl rfl rfl rfl
  · rw [he]; exact h.of_same rfl rfl rfl rfl
  · rw [he]; exact terminateInv_started h hb ht

theorem terminateInv_native {e : NativeEvent} (h : TerminateInv s)
    (he : nativeStep s t e = some s') : TerminateInv s' := by
  obtain ⟨th, p, hth, hm, -, hbefore, hg⟩ := nativeStep_frame he
  refine ⟨?_, ?_, ?_⟩
  · rcases hg with hg | ⟨-, -, hg⟩
    · rw [hg]; exact h.binary
    · rw [hg]
      rcases h.binary with h0 | h1 <;> simp [compareAndSwap, *]
  · intro u thu hu hp
    rw [hm.same.tun2SocksThread, hm.same.blocked]
    by_cases hut : u = t
    · subst hut
      rw [hm.self, Option.some.injEq] at hu
      subst hu
      exact h.reset u th hth (hbefore hp)
    · rw [hm.other u hut] at hu
      exact h.reset u thu hu hp
  · intro hb
    rw [hm.same.blocked] at hb
    rcases hg with hg | ⟨hent, -, -⟩
    · rw [hg]; exact h.kept hb
    · -- reset の一歩なら、その thread は reset の前だったので誰も待っていない
      have := (h.reset t th hth (by simp [hent, Phase.beforeReset])).2
      rw [this] at hb
      simp at hb

theorem terminateInv_step {e : Event} (h : TerminateInv s) (hc : TerminatesAfterReset s e)
    (he : step s e = some s') : TerminateInv s' := by
  refine step_elim he ?_ ?_ ?_ ?_ ?_
  · intro o _ _
    cases o <;> exact h.of_same rfl rfl rfl rfl
  · intro port dup _ hb
    exact terminateInv_route h hb
  · intro b hev _
    refine terminateInv_stop h ?_
    cases b <;> (subst hev; exact hc)
  · intro t b hb _
    exact terminateInv_afterJoin h (by simp [hb])
  · intro t n _ hn
    exact terminateInv_native h hn

/-! ## 定理 -/

/--
終了要求が相手の thread の reset より後に出るかぎり、`join` で待っている間、要求は失われない。
どの interleaving でも、`join` が割り込まれても、thread が何本起こされても成り立つ。
-/
theorem terminate_kept {es : List Event} {s : State} (hrun : exec step init es = some s)
    (hc : Meets step TerminatesAfterReset init es) : TerminateKept s := by
  have hinv : TerminateInv s :=
    exec_induct (fun _ _ _ hi hok he => terminateInv_step hi hok he) es init s
      terminateInv_init hc hrun
  intro t teardown hb _
  exact Or.inl (hinv.kept (by simp [hb]))

/-- 条件を満たす run。`run()` の初期化と一度目の tick の後で止める。 -/
def stopAfterReset : List Event :=
  [[.vpnEstablish (.established ⟨"10.0.0.1", "10.0.0.0", 8, "10.0.0.2"⟩ 40),
      .routeThroughTunnel 1080 (some 41), .native 0 .enter, .native 0 .reset],
    List.replicate 7 (.native 0 (.init true)),
    [.native 0 .tick, .stopRouteThroughTunnel]].flatten

/-- `stopAfterReset` の後、`join` で待っていて `g_terminate` は立っている。 -/
theorem terminate_kept_stopAfterReset :
    ∃ s, exec step init stopAfterReset = some s ∧ s.blocked = some (0, false) ∧
      s.alive 0 = true ∧ TerminateKept s := by
  obtain ⟨s, hs, hb, ha⟩ := exec_exists step init stopAfterReset
    (fun s => s.blocked = some (0, false) ∧ s.alive 0 = true) (by decide)
  exact ⟨s, hs, hb, ha, terminate_kept hs (by decide)⟩

/-- `join` で待たれている thread が reset を通ると、要求は失われる。 -/
theorem reset_loses {th : Tun2Socks} (hb : s.blocked = some (t, b)) (hth : s.thread t = some th)
    (hp : th.phase = .entered) :
    ∃ s', step s (.native t .reset) = some s' ∧ ¬ TerminateKept s' := by
  let s₀ := { s with gTerminate := (compareAndSwap s.gTerminate 1 0).1 }
  refine ⟨s₀.setPhase t (.setup .network),
    by simp only [step, nativeStep, hth, hp, phaseStep, s₀], fun h => ?_⟩
  have hself : (s₀.setPhase t (.setup .network)).thread t =
      some { th with phase := .setup .network } := setPhase_thread_self hth _
  rcases h t b hb (by simp [State.alive, hself, Phase.alive]) with hg | ⟨th', hth', hq⟩
  · have hne : (compareAndSwap s.gTerminate 1 0).1 ≠ 1 := by
      unfold compareAndSwap
      split <;> simp_all
    exact hne hg
  · rw [hself, Option.some.injEq] at hth'
    subst hth'
    simp at hq

/--
条件を破る終了要求は、どの状態から出ても失われうる。

相手の thread が reset まで進むだけで、`join` は要求の消えた thread を待つことになる。
-/
theorem terminate_lost_of_beforeReset (hb : s.blocked = none)
    (hr : s.isRoutingThroughTunnel = true) (ht : s.tun2SocksThread = some t)
    (hbr : s.beforeReset t = true) :
    ∃ es s', exec step s (.stopRouteThroughTunnel :: es) = some s' ∧ ¬ TerminateKept s' := by
  obtain ⟨th, hth, hp⟩ := (Option.any_eq_true _ _).mp hbr
  let s₁ := terminateTun2Socks { s with isRoutingThroughTunnel := false } t false
  have hstop : step s .stopRouteThroughTunnel = some s₁ := by
    simp [step, hb, stopRouteThroughTunnel, hr, ht, s₁]
  have hth₁ : s₁.thread t = some { th with terminated := true } := by
    simp [s₁, terminateTun2Socks, hth]
  cases hph : th.phase with
  | entered =>
    obtain ⟨s₂, h₂, hlost⟩ := reset_loses (b := false) rfl hth₁ hph
    exact ⟨[.native t .reset], s₂, by rw [exec_cons hstop, exec_cons h₂, exec_nil], hlost⟩
  | started fd =>
    have hent : step s₁ (.native t .enter) =
        some ({ s₁ with optionsTunFd := some fd }.setPhase t .entered) := by
      simp only [step, nativeStep, hth₁, hph, phaseStep]
    obtain ⟨s₂, h₂, hlost⟩ := reset_loses (b := false)
      (s := { s₁ with optionsTunFd := some fd }.setPhase t .entered) rfl
      (setPhase_thread_self hth₁ .entered) rfl
    exact ⟨[.native t .enter, .native t .reset], s₂,
      by rw [exec_cons hstop, exec_cons hent, exec_cons h₂, exec_nil], hlost⟩
  | setup q => simp [hph, Phase.beforeReset] at hp
  | loop => simp [hph, Phase.beforeReset] at hp
  | exiting l => simp [hph, Phase.beforeReset] at hp
  | ended => simp [hph, Phase.beforeReset] at hp

/-- `Thread.start` の直後に止めようとする run。reset はその後に走る。 -/
def stopBeforeReset : List Event :=
  [[.vpnEstablish (.established ⟨"10.0.0.1", "10.0.0.0", 8, "10.0.0.2"⟩ 40),
      .routeThroughTunnel 1080 (some 41), .stopRouteThroughTunnel, .native 0 .enter,
      .native 0 .reset],
    List.replicate 7 (.native 0 (.init true)),
    [.native 0 .tick]].flatten

/--
終了要求は失われうる。

`stopBeforeReset` の後、`stopTun2Socks` は生きている thread を `join` で待っているのに、
`g_terminate` は 0 で、event loop は tick を終えても抜けるように言われていない。
-/
theorem terminate_lost :
    ∃ s, exec step init stopBeforeReset = some s ∧ ¬ TerminateKept s := by
  obtain ⟨s, hs, hb, ha, hg, hp, hq⟩ := exec_exists step init stopBeforeReset
    (fun s => s.blocked = some (0, false) ∧ s.alive 0 = true ∧ s.gTerminate = 0 ∧
      (s.thread 0).map (·.phase) = some .loop ∧ s.quitting = false) (by decide)
  refine ⟨s, hs, fun h => ?_⟩
  rcases h 0 false hb ha with h1 | ⟨th, hth, hquit⟩
  · omega
  · rw [hth, Option.map_some, Option.some.injEq] at hp
    rcases hquit with ⟨-, hquit⟩ | hquit
    · simp [hq] at hquit
    · simp [hp] at hquit

end Manager
