import Mathlib.Algebra.GroupWithZero.Nat
import PsiphonVpn.Manager.Serving
import PsiphonVpn.Service.Updates

/-!
# `onConnected` の後、tun2socks は報告された port を相手に走っているか

SOCKS の port は `onListeningSocksProxyPort` で報告され、`updatePsiphonState` を通って
`currentPsiphonState` に入る。`onConnected` はその状態を直接読み、`routeThroughTunnel` に渡す。

* port の更新がまだ looper に残っているうちに `onConnected` が来ると、port は読めず、tunnel は
  `SOCKS_PORT_NOT_SET` で止まる（`port_not_yet_set`）
* もう route しているときに別の port が報告されても、`routeThroughTunnel` は何もせず、tun2socks は
  前の port を相手に走り続ける（`old_port_kept`）

どちらも起きず、native の失敗も無い run では、`onConnected` から戻ったとき tun2socks は最後に
報告された port を相手に走っている（`connected_routed`）。

## model

`PsiphonVpnService` と `PsiphonVpnManager` の model を合わせ、一つの session の間を見る。callback は
一つの thread の上で順に呼ばれる。`routeThroughTunnel` の access で manager の method が走る。
`establish()` と `dup()` は成功するとし、session の間に `vpnTeardown` は呼ばれない。
-/

namespace Connected

open Infra

/-- callback を呼ぶ `PsiphonTunnel` の thread。 -/
def tunnelThread : Nat := 0

structure State where
  service : Service.State
  manager : Manager.State
  /-- 最後に呼ばれた callback。 -/
  callback : Option Service.Call
  /-- session の間に最後に報告された SOCKS の port。 -/
  reported : Option Int

/-- session の始まり。 -/
def start (service : Service.State) (manager : Manager.State) : State where
  service := service
  manager := manager
  callback := none
  reported := none

/-- callback の thread に残っている access。 -/
def State.acts (s : State) : List Service.Act := s.service.thread tunnelThread

inductive Event where
  | call (k : Service.Call)
  | thread (dup : Nat)
  | looper (now : Int)
  | native (t : Nat) (e : Manager.NativeEvent)
  deriving DecidableEq, Repr

/-- callback が報告する SOCKS の port。 -/
def reportedPort : Service.Call → Option Int
  | .onListeningSocksProxyPort port => some port
  | _ => none

def step (s : State) : Event → Option State
  | .call k =>
    (Service.step s.service (.call tunnelThread k)).map fun v =>
      { s with service := v, callback := some k, reported := reportedPort k <|> s.reported }
  | .thread dup =>
    (Service.step s.service (.thread tunnelThread)).bind fun v =>
      match s.acts with
      | .routeThroughTunnel port :: _ =>
        (Manager.step s.manager (.routeThroughTunnel port (some dup))).map fun m =>
          { s with service := v, manager := m }
      | _ => some { s with service := v }
  | .looper now => (Service.step s.service (.looper now)).map fun v => { s with service := v }
  | .native t e => (Manager.step s.manager (.native t e)).map fun m => { s with manager := m }

/--
一歩の条件。

* 報告される port は正で、もう route しているなら前と同じ port である
* `onConnected` が port を読むとき、port の更新は looper に残っていない
* native の初期化は失敗せず、device の error も起きない
-/
def RoutesInTime (s : State) : Event → Prop
  | .call k =>
    ∀ port ∈ reportedPort k,
      0 < port ∧ (s.manager.isRoutingThroughTunnel = true → s.reported = some port)
  | .thread _ =>
    s.acts.head? = some .readSocksProxyPort →
      ∀ u ∈ s.service.pending, u.writesSocksProxyPort = none
  | .looper _ => True
  | .native _ e => e.succeeds = true

instance : ∀ (s : State) (e : Event), Decidable (RoutesInTime s e)
  | _, .call k => inferInstanceAs (Decidable (∀ port ∈ reportedPort k, _))
  | _, .thread _ => inferInstanceAs (Decidable (_ → _))
  | _, .looper _ => .isTrue trivial
  | _, .native _ _ => inferInstanceAs (Decidable (_ = _))

/-! ## callback の thread の位置 -/

/-- port を読まず、書かず、route もしない access。 -/
def plain : Service.Act → Bool
  | .readSocksProxyPort | .routeThroughTunnel _ => false
  | .post (.update u) => u.writesSocksProxyPort.isNone
  | _ => true

/-- callback の thread がどこにいるか。`routing` は manager の flag、`acts` は残りの access。 -/
inductive Pc (callback : Option Service.Call) (reported : Option Int) (routing : Bool)
    (acts : List Service.Act) : Prop where
  | reporting (port : Int) (hcb : callback ≠ some .onConnected) (hr : reported = some port)
      (h : acts = [.post (.update (.socksProxyPort port))])
  | plain (hcb : callback ≠ some .onConnected ∨ reported = none) (h : ∀ a ∈ acts, plain a = true)
  | posting (hcb : callback = some .onConnected) (h : acts = Service.Call.onConnected.program)
  | reading (hcb : callback = some .onConnected) (h : acts = [.readSocksProxyPort])
  | routing (hcb : callback = some .onConnected) (port : Int)
      (hp : ∀ q, reported = some q → port = q) (h : acts = [.routeThroughTunnel port])
  | returned (hcb : callback = some .onConnected) (h : acts = [])
      (hr : reported.isSome = true → routing = true)

/-- 待っている更新がすべて適用された後の port。 -/
def State.port (s : State) : Option Int :=
  s.service.settled (·.socksProxyPort) Service.Update.writesSocksProxyPort

structure Inv (s : State) : Prop where
  lifecycle : Service.LifecycleInv s.service
  session : Manager.SessionInv s.manager
  pc : Pc s.callback s.reported s.manager.isRoutingThroughTunnel s.acts
  port : ∀ q, s.reported = some q →
    0 < q ∧ (s.port = some q ∨ s.acts = [.post (.update (.socksProxyPort q))])
  serves : ∀ q, s.reported = some q → s.manager.isRoutingThroughTunnel = true →
    Manager.Serves s.manager q

variable {v v' : Service.State} {s : State} {k : Service.Call} {a : Service.Act} {port : Int}
  {as : List Service.Act}

theorem inv_start {m : Manager.State} (hv : Service.LifecycleInv v)
    (hidle : v.thread tunnelThread = []) (hm : Manager.SessionInv m) : Inv (start v m) where
  lifecycle := hv
  session := hm
  pc := .plain (Or.inr rfl) (by simp [start, State.acts, hidle])
  port := by simp [start]
  serves := by simp [start]

/-! ## service の一歩 -/

/-- service の一歩が port に書くのは、その一歩が port の更新を post するときだけである。 -/
theorem port_step {e : Service.Event} (h : Inv s) (he : Service.step s.service e = some v) :
    v.settled (·.socksProxyPort) Service.Update.writesSocksProxyPort =
      ((Service.postedBy s.service e).bind Service.Update.writesSocksProxyPort).getD s.port :=
  Service.settled_step (fun u now st => Service.Update.apply_socksProxyPort u now st)
    (Service.step_updates h.lifecycle he)

theorem call_acts (he : Service.step v (.call tunnelThread k) = some v') :
    v.thread tunnelThread = [] ∧ v'.thread tunnelThread = k.program := by
  simp only [Service.step] at he
  split at he
  · next hidle =>
    obtain rfl := Option.some.inj he
    exact ⟨hidle, by simp⟩
  · simp at he

theorem thread_acts (he : Service.step v (.thread tunnelThread) = some v') :
    ∃ a as, v.thread tunnelThread = a :: as ∧
      v'.thread tunnelThread = (Service.runAct v a).2 ++ as := by
  simp only [Service.step] at he
  split at he
  · simp at he
  · next a as hacts =>
    obtain rfl := Option.some.inj he
    exact ⟨a, as, hacts, by simp⟩

theorem looper_acts {now : Int} (he : Service.step v (.looper now) = some v') :
    v'.thread = v.thread := by
  simp only [Service.step] at he
  split at he
  · split at he
    · simp at he
    · next m ms _ =>
      obtain rfl := Option.some.inj he
      cases m with
      | update u => rfl
      | cancelJob => exact (Service.cancelJob_frame { v with looper := ms }).thread
  · simp at he

/-- ふつうの access の後に続くのも、ふつうの access である。 -/
theorem runAct_plain (h : plain a = true) : ∀ b ∈ (Service.runAct v a).2, plain b = true := by
  cases a with
  | readSocksProxyPort => simp [plain] at h
  | routeThroughTunnel port => simp [plain] at h
  | post m => simp [Service.runAct]
  | casRunningStopping =>
    simp only [Service.runAct]
    split <;> decide
  | casStartingStopping =>
    simp only [Service.runAct]
    split <;> decide
  | getRevokeStopped =>
    simp only [Service.runAct]
    split <;> decide
  | getRevokeStopping =>
    simp only [Service.runAct]
    split <;> decide
  | getConnecting =>
    simp only [Service.runAct]
    split <;> decide

theorem writes_of_plain (h : plain a = true) :
    (a.posts).bind Service.Update.writesSocksProxyPort = none := by
  cases a with
  | post m =>
    cases m with
    | update u => simpa [plain, Service.Act.posts] using h
    | cancelJob => rfl
  | _ => rfl

/-- `onConnected` でも port の報告でもない callback は、ふつうの access だけでできている。 -/
theorem program_plain (hk : reportedPort k = none) (hc : k ≠ .onConnected) :
    ∀ a ∈ k.program, plain a = true := by
  cases k <;> simp_all [reportedPort, Service.Call.program, Service.stopWithError,
    Service.stopTunnel, plain, Service.Update.writesSocksProxyPort]

theorem program_of_reportedPort (hk : reportedPort k = some port) :
    k ≠ .onConnected ∧ k.program = [.post (.update (.socksProxyPort port))] := by
  cases k <;> simp_all [reportedPort, Service.Call.program]

/-! ## 一歩 -/

theorem inv_call (h : Inv s) (hok : RoutesInTime s (.call k))
    (he : Service.step s.service (.call tunnelThread k) = some v) :
    Inv { s with service := v, callback := some k, reported := reportedPort k <|> s.reported } := by
  obtain ⟨hidle, hacts⟩ := call_acts he
  have hlife := Service.lifecycleInv_step h.lifecycle he
  cases hk : reportedPort k with
  | some port =>
    obtain ⟨hpos, hsame⟩ := hok port hk
    obtain ⟨hne, hprog⟩ := program_of_reportedPort hk
    refine ⟨hlife, h.session, ?_, ?_, ?_⟩
    · exact .reporting port (by simpa using hne) rfl (hacts.trans hprog)
    · intro q hq
      obtain rfl := Option.some.inj hq
      exact ⟨hpos, Or.inr (hacts.trans hprog)⟩
    · intro q hq hr
      obtain rfl := Option.some.inj hq
      exact h.serves port (hsame hr) hr
  | none =>
    refine ⟨hlife, h.session, ?_, ?_, h.serves⟩
    · by_cases hc : k = .onConnected
      · subst hc
        exact .posting rfl hacts
      · refine .plain (Or.inl (by simpa using hc)) ?_
        show ∀ a ∈ v.thread tunnelThread, plain a = true
        rw [hacts]
        exact program_plain hk hc
    · intro q hq
      obtain ⟨hpos, hset⟩ := h.port q hq
      refine ⟨hpos, Or.inl ((port_step h he).trans ?_)⟩
      rcases hset with hset | hset
      · exact hset
      · rw [State.acts, hidle] at hset
        simp at hset

theorem postedBy_thread (hacts : s.acts = a :: as) :
    Service.postedBy s.service (.thread tunnelThread) = a.posts := by
  have hth : s.service.thread tunnelThread = a :: as := hacts
  simp [Service.postedBy, hth]

/-- port に書かない access の後も、port は最後に報告された port に行き着く。 -/
theorem port_act (h : Inv s) (he : Service.step s.service (.thread tunnelThread) = some v)
    (hacts : s.acts = a :: as) (hw : a.posts.bind Service.Update.writesSocksProxyPort = none)
    {q : Int} (hq : s.reported = some q) :
    v.settled (·.socksProxyPort) Service.Update.writesSocksProxyPort = some q := by
  rw [port_step h he, postedBy_thread hacts, hw, Option.getD_none]
  rcases (h.port q hq).2 with hset | hset
  · exact hset
  · rw [hacts, List.cons.injEq] at hset
    simp [hset.1, Service.Act.posts, Service.Update.writesSocksProxyPort] at hw

/-- port に書かず、manager にも触れない access。 -/
theorem inv_act (h : Inv s) (he : Service.step s.service (.thread tunnelThread) = some v)
    (hacts : s.acts = a :: as) (hw : a.posts.bind Service.Update.writesSocksProxyPort = none)
    (hpc : Pc s.callback s.reported s.manager.isRoutingThroughTunnel (v.thread tunnelThread)) :
    Inv { s with service := v } where
  lifecycle := Service.lifecycleInv_step h.lifecycle he
  session := h.session
  pc := hpc
  port := fun q hq => ⟨(h.port q hq).1, Or.inl (port_act h he hacts hw hq)⟩
  serves := h.serves

/-- 報告された port の更新を post する access。 -/
theorem inv_report (h : Inv s) (he : Service.step s.service (.thread tunnelThread) = some v)
    (hacts : s.acts = [.post (.update (.socksProxyPort port))])
    (hacts' : v.thread tunnelThread = []) (hcb : s.callback ≠ some .onConnected)
    (hr : s.reported = some port) : Inv { s with service := v } := by
  refine ⟨Service.lifecycleInv_step h.lifecycle he, h.session, .plain (Or.inl hcb) ?_, ?_, h.serves⟩
  · simp [State.acts, hacts']
  · intro q hq
    have hqp : port = q := Option.some.inj (hr.symm.trans hq)
    refine ⟨(h.port q hq).1, Or.inl ((port_step h he).trans ?_)⟩
    rw [postedBy_thread hacts, hqp]
    rfl

theorem read_port (h : ∀ u ∈ s.service.pending, u.writesSocksProxyPort = none) :
    s.service.currentPsiphonState.socksProxyPort = s.port :=
  (lastWrite_of_untouched h _).symm

/-- `onConnected` が port を読む access。報告があれば、読んだ port はその port である。 -/
theorem pc_read (h : Inv s) (hacts : s.acts = [.readSocksProxyPort])
    (hcb : s.callback = some .onConnected)
    (hq : ∀ u ∈ s.service.pending, u.writesSocksProxyPort = none) :
    Pc s.callback s.reported s.manager.isRoutingThroughTunnel
      (Service.runAct s.service .readSocksProxyPort).2 := by
  have hport : ∀ q, s.reported = some q →
      s.service.currentPsiphonState.socksProxyPort = some q := by
    intro q hr
    rcases (h.port q hr).2 with hset | hset
    · exact (read_port hq).trans hset
    · rw [hacts] at hset
      simp at hset
  simp only [Service.runAct]
  cases hcur : s.service.currentPsiphonState.socksProxyPort with
  | some port =>
    refine .routing hcb port (fun q hr => ?_) rfl
    rw [hport q hr] at hcur
    exact (Option.some.inj hcur).symm
  | none =>
    refine .plain (Or.inr ?_) (by decide)
    cases hrep : s.reported with
    | none => rfl
    | some q =>
      rw [hport q hrep] at hcur
      simp at hcur

/-- `onConnected` の最後の access。manager の `routeThroughTunnel` が走る。 -/
theorem inv_route {dup : Nat} (h : Inv s)
    (he : Service.step s.service (.thread tunnelThread) = some v)
    (hacts : s.acts = [.routeThroughTunnel port]) (hacts' : v.thread tunnelThread = [])
    (hcb : s.callback = some .onConnected) (hp : ∀ q, s.reported = some q → port = q) :
    Inv { s with
      service := v
      manager := Manager.routeThroughTunnel s.manager port (some dup) } := by
  have hserves : ∀ q, s.reported = some q →
      (Manager.routeThroughTunnel s.manager port (some dup)).isRoutingThroughTunnel = true ∧
        Manager.Serves (Manager.routeThroughTunnel s.manager port (some dup)) q := by
    intro q hq
    obtain rfl := hp q hq
    obtain ⟨hr, hsame⟩ | hnew := Manager.route_of_session h.session (h.port port hq).1 dup
    · rw [hsame]
      exact ⟨hr, h.serves port hq hr⟩
    · exact hnew
  constructor
  · exact Service.lifecycleInv_step h.lifecycle he
  · exact Manager.sessionInv_route h.session port (some dup)
  · refine .returned hcb hacts' fun hr => ?_
    obtain ⟨q, hq⟩ := Option.isSome_iff_exists.mp hr
    exact (hserves q hq).1
  · exact fun q hq => ⟨(h.port q hq).1, Or.inl (port_act h he hacts rfl hq)⟩
  · exact fun q hq _ => (hserves q hq).2

theorem inv_thread {s' : State} {dup : Nat} (h : Inv s) (hok : RoutesInTime s (.thread dup))
    (he : step s (.thread dup) = some s') : Inv s' := by
  obtain ⟨v, hv, he⟩ := Option.bind_eq_some_iff.mp he
  obtain ⟨a, as, hacts, hacts'⟩ := thread_acts hv
  have hacts : s.acts = a :: as := hacts
  rw [hacts] at he
  cases h.pc with
  | reporting port hcb hr hl =>
    rw [hacts, List.cons.injEq] at hl
    obtain ⟨rfl, rfl⟩ := hl
    obtain rfl := Option.some.inj he
    exact inv_report h hv hacts hacts' hcb hr
  | plain hcb hl =>
    rw [hacts] at hl
    have ha : plain a = true := hl a (by simp)
    have hs' : s' = { s with service := v } := by
      cases a <;> first | exact (Option.some.inj he).symm | simp [plain] at ha
    subst hs'
    refine inv_act h hv hacts (writes_of_plain ha) (.plain hcb ?_)
    rw [hacts']
    intro b hb
    rcases List.mem_append.mp hb with hb | hb
    · exact runAct_plain ha b hb
    · exact hl b (by simp [hb])
  | posting hcb hl =>
    rw [hacts, Service.Call.program, List.cons.injEq] at hl
    obtain ⟨rfl, rfl⟩ := hl
    obtain rfl := Option.some.inj he
    exact inv_act h hv hacts rfl (.reading hcb hacts')
  | reading hcb hl =>
    rw [hacts, List.cons.injEq] at hl
    obtain ⟨rfl, rfl⟩ := hl
    obtain rfl := Option.some.inj he
    refine inv_act h hv hacts rfl ?_
    rw [hacts', List.append_nil]
    exact pc_read h hacts hcb (hok (by rw [hacts]; rfl))
  | routing hcb port hp hl =>
    rw [hacts, List.cons.injEq] at hl
    obtain ⟨rfl, rfl⟩ := hl
    obtain ⟨m, hm, rfl⟩ := Option.map_eq_some_iff.mp he
    have hm : Manager.routeThroughTunnel s.manager port (some dup) = m := by
      simpa [Manager.step, h.session.unblocked] using hm
    rw [← hm]
    exact inv_route h hv hacts hacts' hcb hp
  | returned _ hl _ =>
    rw [hacts] at hl
    simp at hl

theorem inv_step {s' : State} {e : Event} (h : Inv s) (hok : RoutesInTime s e)
    (he : step s e = some s') : Inv s' := by
  cases e with
  | call k =>
    obtain ⟨v, hv, rfl⟩ := Option.map_eq_some_iff.mp he
    exact inv_call h hok hv
  | thread dup => exact inv_thread h hok he
  | looper now =>
    obtain ⟨v, hv, rfl⟩ := Option.map_eq_some_iff.mp he
    have hth : v.thread tunnelThread = s.acts := congrFun (looper_acts hv) tunnelThread
    refine ⟨Service.lifecycleInv_step h.lifecycle hv, h.session, ?_, ?_, h.serves⟩
    · show Pc s.callback s.reported s.manager.isRoutingThroughTunnel (v.thread tunnelThread)
      rw [hth]
      exact h.pc
    · intro q hq
      obtain ⟨hpos, hset⟩ := h.port q hq
      exact ⟨hpos, hset.imp (fun hp => (port_step h hv).trans hp) (fun ha => hth.trans ha)⟩
  | native t e =>
    obtain ⟨m, hm, rfl⟩ := Option.map_eq_some_iff.mp he
    have hm : Manager.nativeStep s.manager t e = some m := hm
    obtain ⟨_, _, -, hframe, -⟩ := Manager.nativeStep_frame hm
    have hr : m.isRoutingThroughTunnel = s.manager.isRoutingThroughTunnel :=
      hframe.same.isRoutingThroughTunnel
    refine ⟨h.lifecycle, Manager.sessionInv_native h.session hm, ?_, h.port, ?_⟩
    · show Pc s.callback s.reported m.isRoutingThroughTunnel s.acts
      rw [hr]
      exact h.pc
    · intro q hq hrm
      rw [hr] at hrm
      exact (h.serves q hq hrm).native h.session.toThreadInv hok hm

/-! ## callback は戻る -/

/-- access を始めてから、それに続く access が尽きるまでの一歩の数の上限。 -/
def weight : Service.Act → Nat
  | .post _ | .routeThroughTunnel _ => 1
  | .getConnecting => 2
  | .casStartingStopping => 3
  | .casRunningStopping => 4
  | .getRevokeStopping | .readSocksProxyPort => 6
  | .getRevokeStopped => 7

theorem runAct_weight (v : Service.State) (a : Service.Act) :
    ((Service.runAct v a).2.map weight).sum < weight a := by
  cases a with
  | readSocksProxyPort =>
    simp only [Service.runAct]
    split <;> simp [weight, Service.stopWithError, Service.stopTunnel]
  | post m => simp [Service.runAct, weight]
  | routeThroughTunnel port => simp [Service.runAct, weight]
  | _ =>
    simp only [Service.runAct]
    split <;> decide

/-- 残りの access があれば、callback の thread は次へ進める。manager の monitor は空いている。 -/
theorem thread_proceeds (h : Manager.SessionInv s.manager) (hacts : s.acts ≠ []) (dup : Nat) :
    ∃ s', step s (.thread dup) = some s' ∧ Manager.SessionInv s'.manager ∧
      (s'.acts.map weight).sum < (s.acts.map weight).sum := by
  cases hl : s.acts with
  | nil => exact absurd hl hacts
  | cons a as =>
    have hth : s.service.thread tunnelThread = a :: as := hl
    obtain ⟨v, hv⟩ : ∃ v, Service.step s.service (.thread tunnelThread) = some v := by
      simp [Service.step, hth]
    obtain ⟨a', as', hacts₀, hacts'⟩ := thread_acts hv
    rw [hth, List.cons.injEq] at hacts₀
    obtain ⟨rfl, rfl⟩ := hacts₀
    have hweight : ((v.thread tunnelThread).map weight).sum < ((a :: as).map weight).sum := by
      rw [hacts', List.map_append, List.sum_append, List.map_cons, List.sum_cons]
      exact Nat.add_lt_add_right (runAct_weight s.service a) _
    cases a with
    | routeThroughTunnel port =>
      refine ⟨{ s with
        service := v
        manager := Manager.routeThroughTunnel s.manager port (some dup) }, ?_, ?_, hweight⟩
      · simp [step, hv, hl, Manager.step, h.unblocked]
      · exact Manager.sessionInv_route h port (some dup)
    | _ => exact ⟨{ s with service := v }, by simp [step, hv, hl], h, hweight⟩

/-- 呼ばれた callback は、ほかの thread を待たずに戻る。 -/
theorem callback_returns (h : Manager.SessionInv s.manager) (dup : Nat) :
    ∃ n s', exec step s (List.replicate n (.thread dup)) = some s' ∧ s'.acts = [] := by
  by_cases hacts : s.acts = []
  · exact ⟨0, s, rfl, hacts⟩
  refine exec_reaches
    (fun n s => Manager.SessionInv s.manager ∧ s.acts ≠ [] ∧ (s.acts.map weight).sum = n) ?_
    (s.acts.map weight).sum s ⟨h, hacts, rfl⟩
  rintro n s ⟨h, hacts, rfl⟩
  obtain ⟨s', he, h', hlt⟩ := thread_proceeds h hacts dup
  refine ⟨s', he, ?_⟩
  by_cases hend : s'.acts = []
  · exact Or.inl hend
  · exact Or.inr ⟨_, hlt, h', hend, rfl⟩

/-! ## 定理 -/

/-- `onConnected` が `SOCKS_PORT_NOT_SET` で tunnel を止めようとしていない。 -/
def NoPortError (s : State) : Prop :=
  ∀ a ∈ Service.stopWithError .SOCKS_PORT_NOT_SET none, a ∉ s.acts

/--
どの一歩も `RoutesInTime` を満たす session では、port の報告の後に呼ばれた `onConnected` は
`SOCKS_PORT_NOT_SET` で止まらず、戻ったとき tun2socks は最後に報告された port を相手に走っている。
-/
theorem connected_routed {es₀ : List Service.Event} {v : Service.State} {m : Manager.State}
    {es : List Event} {s : State} (hv : exec Service.step Service.init es₀ = some v)
    (hidle : v.thread tunnelThread = []) (hm : Manager.SessionInv m)
    (hrun : exec step (start v m) es = some s) (hc : Meets step RoutesInTime (start v m) es)
    (hcb : s.callback = some .onConnected) {port : Int} (hport : s.reported = some port) :
    NoPortError s ∧ (s.acts = [] → Manager.RunningAgainst s.manager port) := by
  have hinv : Inv s :=
    exec_induct (fun _ _ _ hi hok he => inv_step hi hok he) es _ s
      (inv_start (Service.lifecycleInv_exec hv) hidle hm) hc hrun
  unfold NoPortError
  cases hinv.pc with
  | reporting _ hne _ _ => exact absurd hcb hne
  | plain h _ =>
    rcases h with h | h
    · exact absurd hcb h
    · simp [hport] at h
  | posting _ h =>
    rw [h]
    exact ⟨by decide, by simp [Service.Call.program]⟩
  | reading _ h =>
    rw [h]
    exact ⟨by decide, by simp⟩
  | routing _ p _ h =>
    rw [h]
    refine ⟨?_, by simp⟩
    simp [Service.stopWithError, Service.stopTunnel]
  | returned _ h hr =>
    rw [h]
    exact ⟨by simp, fun _ => (hinv.serves port hport (hr (by simp [hport]))).runningAgainst⟩

/-- 最初の start から、tunnel coroutine が `establish()` を終えるまで。 -/
def untilEstablished : List Service.Event :=
  [[.command (.start none)], List.replicate 8 (.main .ok),
    [.dispatch 0, .job 0 .ok, .job 0 .ok, .looper 0]].flatten

def sessionService : Service.State :=
  (exec Service.step Service.init untilEstablished).getD Service.init

def sessionManager : Manager.State :=
  Manager.vpnEstablish Manager.init (.established ⟨"10.0.0.1", "10.0.0.0", 8, "10.0.0.2"⟩ 40)

/-- port の更新が適用されてから `onConnected` が来る。 -/
def connectedInTime : List Event :=
  [.call (.onListeningSocksProxyPort 1080), .thread 0, .looper 0,
    .call .onConnected, .thread 0, .thread 0, .thread 41]

theorem connected_routed_connectedInTime :
    ∃ s, exec step (start sessionService sessionManager) connectedInTime = some s ∧ s.acts = [] ∧
      s.reported = some 1080 ∧ Manager.RunningAgainst s.manager 1080 := by
  obtain ⟨s, hs, hcb, hrep, hacts⟩ := exec_exists step (start sessionService sessionManager)
    connectedInTime (fun s => s.callback = some .onConnected ∧ s.reported = some 1080 ∧ s.acts = [])
    (by decide)
  have hv : exec Service.step Service.init untilEstablished = some sessionService := rfl
  have hm : Manager.SessionInv sessionManager :=
    @Manager.sessionInv_established _ [] rfl trivial rfl rfl _ _
  have hrouted := connected_routed hv rfl hm hs (by decide) hcb hrep
  exact ⟨s, hs, hacts, hrep, hrouted.2 hacts⟩

/-- port の更新が looper に残っているうちに `onConnected` が来る。 -/
def connectedTooEarly : List Event :=
  [[.call (.onListeningSocksProxyPort 1080), .thread 0, .call .onConnected],
    List.replicate 7 (.thread 41)].flatten

/-- port は報告されているのに、tunnel は `SOCKS_PORT_NOT_SET` で止まり、tun2socks は起こされない。 -/
theorem port_not_yet_set :
    ∃ s, exec step (start sessionService sessionManager) connectedTooEarly = some s ∧
      s.reported = some 1080 ∧ s.callback = some .onConnected ∧ s.acts = [] ∧
      s.service.tunnelTaskState = .STOPPING ∧
      .setError .SOCKS_PORT_NOT_SET none ∈ s.service.posted ∧
      ¬ Manager.RunningAgainst s.manager 1080 := by
  obtain ⟨s, hs, hrep, hcb, hacts, htask, herr, hnone⟩ :=
    exec_exists step (start sessionService sessionManager) connectedTooEarly
      (fun s => s.reported = some 1080 ∧ s.callback = some .onConnected ∧ s.acts = [] ∧
        s.service.tunnelTaskState = .STOPPING ∧
        Service.Update.setError .SOCKS_PORT_NOT_SET none ∈ s.service.posted ∧
        s.manager.tun2SocksThread = none) (by decide)
  refine ⟨s, hs, hrep, hcb, hacts, htask, herr, ?_⟩
  rintro ⟨t, th, ht, -⟩
  simp [hnone] at ht

/-- route している間に port が変わる。 -/
def portChanges : List Event :=
  [connectedInTime,
    [.call (.onListeningSocksProxyPort 1081), .thread 0, .looper 0, .looper 0,
      .call .onConnected, .thread 0, .thread 0, .thread 42]].flatten

/-- 新しい port が報告されて `onConnected` から戻っても、tun2socks の相手は前の port のままである。 -/
theorem old_port_kept :
    ∃ s, exec step (start sessionService sessionManager) portChanges = some s ∧
      s.reported = some 1081 ∧ s.callback = some .onConnected ∧ s.acts = [] ∧
      s.service.currentPsiphonState.socksProxyPort = some 1081 ∧
      ¬ Manager.RunningAgainst s.manager 1081 := by
  obtain ⟨s, hs, hrep, hcb, hacts, hport, ht, hargs⟩ :=
    exec_exists step (start sessionService sessionManager) portChanges
      (fun s => s.reported = some 1081 ∧ s.callback = some .onConnected ∧ s.acts = [] ∧
        s.service.currentPsiphonState.socksProxyPort = some 1081 ∧
        s.manager.tun2SocksThread = some 0 ∧
        (s.manager.thread 0).map (·.args.socksServerAddress.port) = some 1080) (by decide)
  refine ⟨s, hs, hrep, hcb, hacts, hport, ?_⟩
  rintro ⟨t, th, ht', hth, -, -, haddr⟩
  rw [ht, Option.some.injEq] at ht'
  subst ht'
  simp [hth, haddr] at hargs

end Connected
