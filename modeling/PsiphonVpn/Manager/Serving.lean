import PsiphonVpn.Manager.Threads

/-!
# 一つの session の間の tun2socks

`establish()` が済んでから `vpnTeardown` が呼ばれるまでの間、manager に起こるのは
`routeThroughTunnel` と native の一歩だけである。この間は terminate が出ないので、初期化に失敗せず
device の error も無ければ、一度起こした tun2socks は走り続ける（`Serves.native`）。

`g_terminate` は前の session の 1 が残っていてもよい。新しい run の reset がそれを消す。
-/

namespace Manager

open Infra

/-- thread は `run()` の後始末に入っていない。 -/
def Phase.serving : Phase Fd → Bool
  | .exiting _ | .ended => false
  | _ => true

/-- tun2socks が起こされ、terminate も出ず、SOCKS の port `port` を相手に走っている。 -/
def RunningAgainst (s : State) (port : Int) : Prop :=
  ∃ t th, s.tun2SocksThread = some t ∧ s.thread t = some th ∧ th.terminated = false ∧
    th.phase.serving = true ∧ th.args.socksServerAddress = { host := "127.0.0.1", port := port }

/-- この位相から先で event loop を抜ける理由が無い。 -/
def State.healthy (s : State) : Phase Fd → Prop
  | .started _ | .entered => True
  | .setup .network | .setup .arguments | .setup .reactor => s.gTerminate ≠ 1
  | .setup _ | .loop => s.gTerminate ≠ 1 ∧ s.quitting = false
  | .exiting _ | .ended => False

/-- `RunningAgainst` が続くための不変量。 -/
def Serves (s : State) (port : Int) : Prop :=
  ∃ t th, s.tun2SocksThread = some t ∧ s.thread t = some th ∧ th.terminated = false ∧
    s.healthy th.phase ∧ th.args.socksServerAddress = { host := "127.0.0.1", port := port }

variable {s s' : State} {port : Int} {t : Nat} {e : NativeEvent}

theorem serving_of_healthy {p : Phase Fd} (h : s.healthy p) : p.serving = true := by
  cases p <;> first | rfl | exact h.elim

theorem Serves.runningAgainst (h : Serves s port) : RunningAgainst s port := by
  obtain ⟨t, th, ht, hth, hterm, hh, hargs⟩ := h
  exact ⟨t, th, ht, hth, hterm, serving_of_healthy hh, hargs⟩

/-- native の失敗でない事象。 -/
def NativeEvent.succeeds : NativeEvent → Bool
  | .fail | .init false => false
  | _ => true

/-! ## 走り続けること -/

theorem alive_of_serving {th : Tun2Socks} (hth : s.thread t = some th)
    (h : th.phase.serving = true) : s.alive t = true := by
  cases hp : th.phase <;> simp_all [State.alive, Phase.alive, Phase.serving]

theorem alive_of_nativeStep_isSome (he : nativeStep s t e = some s') : s.alive t = true := by
  unfold nativeStep at he
  cases hth : s.thread t with
  | none => simp [hth] at he
  | some th =>
    cases hp : th.phase with
    | ended => simp [hth, hp, phaseStep] at he
    | _ => simp [State.alive, hth, hp, Phase.alive]

theorem healthy_setupOk {q : Setup} (h : s.healthy (.setup q)) :
    (setupOk s q).healthy q.nextPhase := by
  cases q with
  | network => exact h
  | arguments => exact h
  | reactor => exact ⟨h, rfl⟩
  | tap => exact h
  | readBuffer => exact h
  | udpgw => exact h
  | writeBuf => exact h

theorem healthy_setPhase (s : State) (t : Nat) (p q : Phase Fd) :
    (s.setPhase t p).healthy q = s.healthy q := by
  cases q with
  | setup r => cases r <;> rfl
  | _ => rfl

/-- 走っている thread の native の一歩は、失敗でなければ、また走っている位相へ進む。 -/
theorem healthy_phaseStep {th : Tun2Socks} (hth : s.thread t = some th) (hh : s.healthy th.phase)
    (hok : e.succeeds = true) (he : nativeStep s t e = some s') :
    ∃ p, s'.thread t = some { th with phase := p } ∧ s'.healthy p := by
  have hstep : phaseStep s t th.phase e = some s' := by
    simpa [nativeStep, hth] using he
  obtain ⟨fd, hp, -, rfl⟩ | ⟨hp, -, rfl⟩ | ⟨q, ok, hp, rfl, rfl⟩ | ⟨hp, hev, hquit, hs⟩ |
    ⟨hp, -, hquit, -⟩ | ⟨l, hp, -, -⟩ := phaseStep_cases hstep
  · exact ⟨_, setPhase_thread_self hth _, trivial⟩
  · -- 前の session の terminate はここで消える
    refine ⟨_, setPhase_thread_self hth _, ?_⟩
    show (compareAndSwap s.gTerminate 1 0).1 ≠ 1
    unfold compareAndSwap
    split
    · decide
    · next h => exact h
  · cases ok with
    | false => simp [NativeEvent.succeeds] at hok
    | true =>
      rw [hp] at hh
      refine ⟨q.nextPhase, setPhase_thread_self ((congrFun (setupOk_thread s q) t).trans hth) _, ?_⟩
      show (((setupOk s q).setPhase t q.nextPhase).healthy q.nextPhase)
      rw [healthy_setPhase]
      exact healthy_setupOk hh
  · rw [hp] at hh hstep
    have hss : s' = s := by
      rcases hev with rfl | rfl
      · -- g_terminate が立っていないので、tick は何もしない
        have hne : ¬ s.gTerminate = 1 := hh.1
        simp [phaseStep, hquit, compareAndSwap, hne] at hstep
        exact hstep.symm
      · simp [NativeEvent.succeeds] at hok
    subst hss
    exact ⟨.loop, by rw [hth, ← hp], hh⟩
  · rw [hp] at hh
    rw [hh.2] at hquit
    simp at hquit
  · rw [hp] at hh
    exact hh.elim

/-- 走っている tun2socks は、native の失敗が無ければ走り続ける。 -/
theorem Serves.native {u : Nat} (h : Serves s port) (hinv : ThreadInv s) (hok : e.succeeds = true)
    (he : nativeStep s u e = some s') :
    Serves s' port := by
  obtain ⟨t, th, ht, hth, hterm, hh, hargs⟩ := h
  -- 生きている thread は一本なので、動いたのはこの thread である
  have hut : u = t :=
    hinv.single u t (alive_of_nativeStep_isSome he) (alive_of_serving hth (serving_of_healthy hh))
  subst hut
  obtain ⟨p, hth', hh'⟩ := healthy_phaseStep hth hh hok he
  obtain ⟨_, _, -, hm, -⟩ := nativeStep_frame he
  exact ⟨u, { th with phase := p }, by rw [hm.same.tun2SocksThread]; exact ht, hth', hterm, hh',
    hargs⟩

/-! ## session の間の manager -/

/-- `establish()` から `vpnTeardown` までの manager。 -/
structure SessionInv (s : State) : Prop extends ThreadInv s where
  tunFd : s.tunFd.isSome = true
  unblocked : s.blocked = none
  idle : s.isRoutingThroughTunnel = false → s.tun2SocksThread = none ∧ s.allEnded

theorem sessionInv_native (h : SessionInv s) (he : nativeStep s t e = some s') : SessionInv s' := by
  have hinv := threadInv_native h.toThreadInv he
  have halive : ∀ u, s'.alive u = true → s.alive u = true := fun u hu => alive_of_nativeStep he hu
  obtain ⟨_, _, -, hm, -⟩ := nativeStep_frame he
  refine ⟨hinv, by rw [hm.same.tunFd]; exact h.tunFd, hm.same.blocked.trans h.unblocked, ?_⟩
  intro hr
  rw [hm.same.isRoutingThroughTunnel] at hr
  obtain ⟨hnone, hend⟩ := h.idle hr
  refine ⟨hm.same.tun2SocksThread.trans hnone, fun u hu => ?_⟩
  rw [hm.same.nextThread] at hu
  by_contra hne
  have := halive u (by simpa using hne)
  simp [hend u hu] at this

theorem serves_started (s : State) (port : Int) (a : PrivateAddress) (num : Nat) :
    Serves (started s port a num) port :=
  ⟨s.nextThread, _, rfl, Function.update_self .., rfl, trivial, rfl⟩

/-- `routeThroughTunnel` は、まだ flag が立っていなければ tun2socks を起こし、立っていれば何もしない。 -/
theorem route_of_session (h : SessionInv s) (hport : 0 < port) (num : Nat) :
    (s.isRoutingThroughTunnel = true ∧ routeThroughTunnel s port (some num) = s) ∨
      ((routeThroughTunnel s port (some num)).isRoutingThroughTunnel = true ∧
        Serves (routeThroughTunnel s port (some num)) port) := by
  obtain ⟨hr, he⟩ | ⟨-, hbad, -⟩ | ⟨hr, hfd, -, hbad, -⟩ | ⟨a, n, -, -, he⟩ :=
    routeThroughTunnel_cases s port (some num)
  · exact Or.inl ⟨hr, he⟩
  · have := h.tunFd
    rcases hbad with hbad | hbad | hbad
    · simp [hbad] at this
    · omega
    · simp at hbad
  · rcases hbad with hbad | hbad
    · have := h.address hfd
      simp [hbad] at this
    · simp [(h.idle hr).1] at hbad
  · rw [he]
    exact Or.inr ⟨rfl, serves_started s port a n⟩

theorem sessionInv_route (h : SessionInv s) (port : Int) (dup : Option Nat) :
    SessionInv (routeThroughTunnel s port dup) := by
  obtain ⟨-, he⟩ | ⟨hr, -, he⟩ | ⟨hr, -, -, -, he⟩ | ⟨a, n, hst, -, he⟩ :=
    routeThroughTunnel_cases s port dup
  · rw [he]
    exact h
  · rw [he]
    exact ⟨⟨h.address, h.fresh, h.joined, h.single⟩, h.tunFd, h.unblocked, by simp⟩
  · rw [he]
    exact ⟨⟨h.address, h.fresh, h.joined, h.single⟩, h.tunFd, h.unblocked, by simp⟩
  · have hinv : ThreadInv (started s port a n) :=
      threadInv_started h.toThreadInv hst.2.2.2.2 h.unblocked (h.idle hst.1).2
    rw [he]
    exact ⟨hinv, h.tunFd, h.unblocked, by simp [started]⟩

/-! ## session の始まり -/

/-- `join` は割り込まれず、`establish()` は tun2socks を止めてから行われる。 -/
def Orderly (s : State) : Event → Prop
  | .joinInterrupted => False
  | .vpnEstablish (.established _ _) => s.isRoutingThroughTunnel = false
  | _ => True

/-- 生きている thread は manager が持ち、持っている間は route しているか `join` を待っている。 -/
structure OwnedInv (s : State) : Prop extends ThreadInv s where
  owned : ∀ t, s.alive t = true → s.tun2SocksThread = some t
  routing : s.tun2SocksThread.isSome = true →
    s.isRoutingThroughTunnel = true ∨ s.blocked.isSome = true

theorem ownedInv_init : OwnedInv init where
  toThreadInv := threadInv_init
  owned := by simp [init, State.alive]
  routing := by simp [init]

/-- manager が thread を持たなければ、生きている thread は無い。 -/
theorem OwnedInv.ended (h : OwnedInv s) (hnone : s.tun2SocksThread = none) (t : Nat) :
    s.alive t = false := by
  by_contra hne
  have := h.owned t (by simpa using hne)
  simp [hnone] at this

theorem OwnedInv.idle (h : OwnedInv s) (hb : s.blocked = none)
    (hr : s.isRoutingThroughTunnel = false) : s.tun2SocksThread = none ∧ s.allEnded := by
  have hnone : s.tun2SocksThread = none := by
    have := h.routing
    rw [hb, hr] at this
    simpa using this
  exact ⟨hnone, fun t _ => h.ended hnone t⟩

theorem OwnedInv.of_ended (h' : ThreadInv s') (hnone : s'.tun2SocksThread = none)
    (hend : ∀ t, s'.alive t = false) : OwnedInv s' :=
  ⟨h', fun t ht => by simp [hend t] at ht, by simp [hnone]⟩

theorem ownedInv_step {e : Event} (h : OwnedInv s) (hc : Orderly s e) (he : step s e = some s') :
    OwnedInv s' := by
  have h' : ThreadInv s' := by
    refine threadInv_step h.toThreadInv (fun port dup a num hev hst => ?_) he
    subst hev
    have hb : s.blocked = none := by
      by_contra hne
      simp [step, Option.isSome_iff_ne_none.mpr hne] at he
    exact (h.idle hb hst.1).2
  have hended (hb : s.blocked = none) (hr : s.isRoutingThroughTunnel = false) (t : Nat) :
      s.alive t = false := h.ended (h.idle hb hr).1 t
  refine step_elim (P := fun s' => ThreadInv s' → OwnedInv s') he ?_ ?_ ?_ ?_ ?_ h'
  · intro o hev hb h'
    cases o with
    | noPrivateAddress => exact ⟨h', h.owned, h.routing⟩
    | notPrepared a => exact ⟨h', h.owned, h.routing⟩
    | established a num =>
      subst hev
      exact .of_ended h' (h.idle hb hc).1 (hended hb hc)
  · intro port dup hev hb h'
    obtain ⟨-, he⟩ | ⟨-, -, he⟩ | ⟨-, -, -, -, he⟩ | ⟨a, num, hst, -, he⟩ :=
      routeThroughTunnel_cases s port dup
    · rw [he]
      exact h
    · rw [he] at h' ⊢
      exact ⟨h', h.owned, fun _ => Or.inl rfl⟩
    · rw [he] at h' ⊢
      exact ⟨h', h.owned, fun _ => Or.inl rfl⟩
    · rw [he] at h' ⊢
      refine ⟨h', fun t ht => ?_, fun _ => Or.inl rfl⟩
      rw [h.alive_started (h.idle hb hst.1).2 ht]
      rfl
  · intro b _ hb h'
    obtain ⟨t, -, ht, he⟩ | ⟨hidle, he⟩ := stopRouteThroughTunnel_cases s b
    · rw [he] at h' ⊢
      refine ⟨h', fun u hu => ?_, fun _ => Or.inr rfl⟩
      rw [alive_terminate] at hu
      exact h.owned u hu
    · have hnone : s.tun2SocksThread = none := by
        rcases hidle with hr | hnone
        · exact (h.idle hb hr).1
        · exact hnone
      rw [he] at h' ⊢
      cases b with
      | false => exact .of_ended h' hnone (h.ended hnone)
      | true =>
        exact .of_ended h' (by simpa using hnone) (by simpa [State.alive] using h.ended hnone)
  · intro t b hb hj h'
    have hend (u : Nat) : s.alive u = false := by
      rcases hj with ⟨-, hdead⟩ | ⟨rfl, -⟩
      · by_contra hne
        have hu : s.alive u = true := by simpa using hne
        have := (h.owned u hu).symm.trans (h.joined t b hb)
        rw [Option.some.inj this, hdead] at hu
        simp at hu
      · exact hc.elim
    cases b with
    | false => exact .of_ended h' rfl hend
    | true =>
      exact .of_ended h' (by simp [afterJoin]) (by simpa [State.alive, afterJoin] using hend)
  · intro t n _ hn h'
    obtain ⟨_, _, -, hm, -⟩ := nativeStep_frame hn
    refine ⟨h', fun u hu => ?_, ?_⟩
    · rw [hm.same.tun2SocksThread]
      exact h.owned u (alive_of_nativeStep hn hu)
    · rw [hm.same.tun2SocksThread, hm.same.isRoutingThroughTunnel, hm.same.blocked]
      exact h.routing

/--
どの session の始まりでも `SessionInv` が成り立つ。

起動してからの run がいくつの session を含んでいてもよく、tun2socks を止め終えた後の `establish()` が次の
session を始める。
-/
theorem sessionInv_established {es : List Event} (hrun : exec step init es = some s)
    (hc : Meets step Orderly init es) (hb : s.blocked = none)
    (hr : s.isRoutingThroughTunnel = false) (a : PrivateAddress) (num : Nat) :
    SessionInv (vpnEstablish s (.established a num)) := by
  have h : OwnedInv s :=
    exec_induct (fun _ _ _ hi hok he => ownedInv_step hi hok he) es init s ownedInv_init hc hrun
  exact ⟨⟨fun _ => rfl, h.fresh, h.joined, h.single⟩, rfl, hb, fun _ => h.idle hb hr⟩

end Manager
