import PsiphonVpn.Manager.Native

/-!
# `PsiphonVpnManager` と tun2socks thread

`PsiphonVpnManager.kt` の四つの `@Synchronized` method と、それが起こす thread の中で走る
`runTun2SocksNative` / `run()`。

## 一歩の大きさ

method はどれも同じ monitor の下で走るので、互いに割り込まない。native 側と共有するのは
`g_terminate` と descriptor だけである。そこで method は一歩とし、途中で止まる
`Thread.join` だけを切り離す。`blocked` は「`terminateTun2Socks` を呼び終え、monitor を
持ったまま `join` で待っている」状態で、その間ほかの method は入れない。

native 側は `g_terminate` への access が一歩に一度を超えないように切る。

## native の global

`g_terminate` / `quitting` / `options.tun_fd` / `device` は C の global 変数で、
二つの `run()` が同時に走れば共有される。`ss.exiting` は `BReactor_Init` と `terminate` が
`quitting` と同じ所で書くので、`quitting` に代表させる。
-/

namespace Manager

open Infra

/-- tun device の descriptor。取得した順の通し番号 `id` で区別する。`num` は kernel の番号。 -/
structure Fd where
  id : Nat
  num : Nat
  deriving DecidableEq, Repr

/-- `PsiphonVpnManager.PrivateAddress`。 -/
structure PrivateAddress where
  ipAddress : String
  subnet : String
  prefixLength : Nat
  router : String
  deriving DecidableEq, Repr

/-- `host:port` の形の宛先。 -/
structure Endpoint where
  host : String
  port : Int
  deriving DecidableEq, Repr

/-- `Tun2SocksJniLoader.runTun2Socks` の、descriptor 以外の引数。 -/
structure Args where
  vpnInterfaceMTU : Nat
  vpnIpv4Address : String
  vpnIpv4NetMask : String
  vpnIpv6Address : Option String
  socksServerAddress : Endpoint
  udpgwServerAddress : Endpoint
  udpgwTransparentDNS : Bool
  deriving DecidableEq, Repr

/-- 一本の tun2socks thread。`terminated` は、この thread に宛てて terminate が出たこと。 -/
structure Tun2Socks where
  phase : Phase Fd
  args : Args
  terminated : Bool
  deriving DecidableEq, Repr

structure State where
  -- PsiphonVpnManager の field
  privateAddress : Option PrivateAddress
  tunFd : Option Fd
  isRoutingThroughTunnel : Bool
  tun2SocksThread : Option Nat
  /-- `join` で待っている相手と、`vpnTeardown` の途中かどうか。 -/
  blocked : Option (Nat × Bool)
  -- native の global
  gTerminate : Nat
  quitting : Bool
  optionsTunFd : Option Fd
  device : Option Fd
  -- 環境
  thread : Nat → Option Tun2Socks
  nextThread : Nat
  nextFd : Nat
  /-- descriptor が何回 close されたか。 -/
  closes : Nat → Nat

/-- process の起動直後。 -/
def init : State where
  privateAddress := none
  tunFd := none
  isRoutingThroughTunnel := false
  tun2SocksThread := none
  blocked := none
  gTerminate := 0
  quitting := false
  optionsTunFd := none
  device := none
  thread := fun _ => none
  nextThread := 0
  nextFd := 0
  closes := fun _ => 0

/-! ## 小道具 -/

def State.setPhase (s : State) (t : Nat) (p : Phase Fd) : State :=
  { s with thread := Function.update s.thread t ((s.thread t).map ({ · with phase := p })) }

/-- descriptor を一回 close する。持っていなければ何もしない。 -/
def State.close (s : State) : Option Fd → State
  | none => s
  | some fd => { s with closes := Function.update s.closes fd.id (s.closes fd.id + 1) }

/-! ## `PsiphonVpnManager` の method -/

/-- `vpnEstablish` の中で外から来る結果。 -/
inductive Establish where
  /-- `selectPrivateAddress` が `IllegalStateException` を投げた。 -/
  | noPrivateAddress
  /-- `establish()` が `null` を返した。 -/
  | notPrepared (a : PrivateAddress)
  | established (a : PrivateAddress) (num : Nat)
  deriving DecidableEq, Repr

def vpnEstablish (s : State) : Establish → State
  | .noPrivateAddress => s
  | .notPrepared a => { s with privateAddress := some a }
  | .established a num =>
    { s with
      privateAddress := some a
      tunFd := some { id := s.nextFd, num := num }
      nextFd := s.nextFd + 1
      isRoutingThroughTunnel := false }

/-- `tun2SocksThread` が `null` でなければ何もしない。渡された descriptor も閉じない。 -/
def startTun2Socks (s : State) (fd : Fd) (args : Args) : State :=
  if s.tun2SocksThread.isSome then s
  else
    { s with
      thread := Function.update s.thread s.nextThread
        (some { phase := .started fd, args := args, terminated := false })
      tun2SocksThread := some s.nextThread
      nextThread := s.nextThread + 1 }

def vpnInterfaceMtu : Nat := 1500
def vpnInterfaceIpv4Netmask : String := "255.255.255.0"
def udpgwServerPort : Int := 7300

/-- `startTun2Socks` に渡す引数。 -/
def routeArgs (a : PrivateAddress) (socksProxyPort : Int) : Args where
  vpnInterfaceMTU := vpnInterfaceMtu
  vpnIpv4Address := a.router
  vpnIpv4NetMask := vpnInterfaceIpv4Netmask
  vpnIpv6Address := none
  socksServerAddress := { host := "127.0.0.1", port := socksProxyPort }
  udpgwServerAddress := { host := "127.0.0.1", port := udpgwServerPort }
  udpgwTransparentDNS := true

/-- `dup` は `tunFd.dup()` の結果の番号。`none` は `IOException`。 -/
def routeThroughTunnel (s : State) (socksProxyPort : Int) (dup : Option Nat) : State :=
  if s.isRoutingThroughTunnel then s
  else
    -- flag は先に立つ。下の早い return でも倒されない
    let s := { s with isRoutingThroughTunnel := true }
    match s.tunFd with
    | none => s
    | some _ =>
      if socksProxyPort ≤ 0 then s
      else
        match dup with
        | none => s
        | some num =>
          let fd : Fd := { id := s.nextFd, num := num }
          let s := { s with nextFd := s.nextFd + 1 }
          match s.privateAddress with
          | none => s -- privateAddress!! の NullPointerException
          | some a => startTun2Socks s fd (routeArgs a socksProxyPort)

/-- `vpnTeardown` のうち `stopRouteThroughTunnel` から戻った後。 -/
def finishTeardown (s : State) : State :=
  { s.close s.tunFd with tunFd := none, isRoutingThroughTunnel := false }

/-- `stopTun2Socks` が `join` に入るまで。 -/
def terminateTun2Socks (s : State) (t : Nat) (teardown : Bool) : State :=
  { s with
    gTerminate := (compareAndSwap s.gTerminate 0 1).1
    thread := Function.update s.thread t ((s.thread t).map ({ · with terminated := true }))
    blocked := some (t, teardown) }

/-- `stopRouteThroughTunnel`。`teardown` なら `vpnTeardown` から呼ばれている。 -/
def stopRouteThroughTunnel (s : State) (teardown : Bool) : State :=
  if s.isRoutingThroughTunnel then
    let s := { s with isRoutingThroughTunnel := false }
    match s.tun2SocksThread with
    | some t => terminateTun2Socks s t teardown
    | none => if teardown then finishTeardown s else s
  else if teardown then finishTeardown s else s

/-- `join` から出た後。正常に戻っても `InterruptedException` でも同じ道を通る。 -/
def afterJoin (s : State) (teardown : Bool) : State :=
  let s := { s with tun2SocksThread := none, blocked := none }
  if teardown then finishTeardown s else s

/-! ## native thread の一歩 -/

inductive NativeEvent where
  /-- thread の lambda が `detachFd` し、`runTun2SocksNative` が `options` を埋める。 -/
  | enter
  /-- `__sync_bool_compare_and_swap(&g_terminate, 1, 0)` -/
  | reset
  /-- `run()` の次の段。 -/
  | init (ok : Bool)
  /-- `tcp_timer_handler` -/
  | tick
  /-- `device_error_handler`、または `lwip_init_job_hadler` の失敗。 -/
  | fail
  /-- `BReactor_Exec` が戻る。 -/
  | leave
  /-- label から `run()` の終わりまで。 -/
  | cleanup
  deriving DecidableEq, Repr

/-- `if (options.tun_fd)` で使われる descriptor。番号 0 は「渡されていない」と読まれる。 -/
def State.suppliedFd (s : State) : Option Fd := s.optionsTunFd.filter (fun fd => fd.num ≠ 0)

/-- 段の成功。 -/
def setupOk (s : State) : Setup → State
  | .reactor => { s with quitting := false }
  -- 番号 0 なら BTap_Init が自分で開いた device になり、渡された descriptor は使われない
  | .tap => { s with device := s.suppliedFd }
  | _ => s

/-- 段の失敗。`BTap_InitWithFD` は失敗すると渡された descriptor を閉じる。 -/
def setupFail (s : State) : Setup → State
  | .tap => s.close s.suppliedFd
  | _ => s

/-- label から下の後始末のうち、descriptor に触れるのは `BTap_Free` だけである。 -/
def release (s : State) (l : Label) : State :=
  if Resource.device ∈ l.releases then s.close s.device else s

def Setup.nextPhase (p : Setup) : Phase Fd :=
  match p.next with
  | some q => .setup q
  | none => .loop

/-- 段を進めた後の状態。 -/
def setupStep (s : State) (t : Nat) (p : Setup) (ok : Bool) : State :=
  if ok then (setupOk s p).setPhase t p.nextPhase
  else (setupFail s p).setPhase t (.exiting p.failLabel)

/-- 位相 `p` にいる thread `t` の一歩。 -/
def phaseStep (s : State) (t : Nat) : Phase Fd → NativeEvent → Option State
  | .started fd, .enter => some ({ s with optionsTunFd := some fd }.setPhase t .entered)
  | .entered, .reset =>
    some ({ s with gTerminate := (compareAndSwap s.gTerminate 1 0).1 }.setPhase t (.setup .network))
  | .setup p, .init ok => some (setupStep s t p ok)
  | .loop, .tick =>
    if s.quitting then none
    else if (compareAndSwap s.gTerminate 1 1).2 then some { s with quitting := true }
    else some s
  | .loop, .fail => if s.quitting then none else some { s with quitting := true }
  | .loop, .leave => if s.quitting then some (s.setPhase t (.exiting .finish)) else none
  | .exiting l, .cleanup => some ((release s l).setPhase t .ended)
  | _, _ => none

def nativeStep (s : State) (t : Nat) (e : NativeEvent) : Option State :=
  match s.thread t with
  | none => none
  | some th => phaseStep s t th.phase e

/-! ## 全体の一歩 -/

inductive Event where
  | vpnEstablish (o : Establish)
  | routeThroughTunnel (socksProxyPort : Int) (dup : Option Nat)
  | stopRouteThroughTunnel
  | vpnTeardown
  | joinReturn
  | joinInterrupted
  | native (t : Nat) (e : NativeEvent)
  deriving DecidableEq, Repr

def State.alive (s : State) (t : Nat) : Bool :=
  (s.thread t).any (·.phase.alive)

def step (s : State) : Event → Option State
  | .vpnEstablish o => if s.blocked.isSome then none else some (vpnEstablish s o)
  | .routeThroughTunnel port dup =>
    if s.blocked.isSome then none else some (routeThroughTunnel s port dup)
  | .stopRouteThroughTunnel =>
    if s.blocked.isSome then none else some (stopRouteThroughTunnel s false)
  | .vpnTeardown => if s.blocked.isSome then none else some (stopRouteThroughTunnel s true)
  | .joinReturn =>
    match s.blocked with
    | some (t, teardown) => if s.alive t then none else some (afterJoin s teardown)
    | none => none
  | .joinInterrupted =>
    match s.blocked with
    | some (t, teardown) => if s.alive t then some (afterJoin s teardown) else none
    | none => none
  | .native t e => nativeStep s t e

/-! ## 一歩の形

native の一歩が動かすのは、その thread の位相と native の global と `closes` だけである。
-/

/-- 位相を進める一歩が触れない field。 -/
structure SameManager (s s' : State) : Prop where
  privateAddress : s'.privateAddress = s.privateAddress
  tunFd : s'.tunFd = s.tunFd
  isRoutingThroughTunnel : s'.isRoutingThroughTunnel = s.isRoutingThroughTunnel
  tun2SocksThread : s'.tun2SocksThread = s.tun2SocksThread
  blocked : s'.blocked = s.blocked
  nextThread : s'.nextThread = s.nextThread
  nextFd : s'.nextFd = s.nextFd

@[simp] theorem close_thread (s : State) (fd : Option Fd) : (s.close fd).thread = s.thread := by
  cases fd <;> rfl

@[simp] theorem close_gTerminate (s : State) (fd : Option Fd) :
    (s.close fd).gTerminate = s.gTerminate := by
  cases fd <;> rfl

@[simp] theorem close_nextThread (s : State) (fd : Option Fd) :
    (s.close fd).nextThread = s.nextThread := by
  cases fd <;> rfl

@[simp] theorem close_nextFd (s : State) (fd : Option Fd) : (s.close fd).nextFd = s.nextFd := by
  cases fd <;> rfl

theorem sameManager_close (s : State) (fd : Option Fd) : SameManager s (s.close fd) := by
  cases fd <;> exact ⟨rfl, rfl, rfl, rfl, rfl, rfl, rfl⟩

variable {s s' : State} {t : Nat}

theorem SameManager.setPhase (h : SameManager s s') (t : Nat) (p : Phase Fd) :
    SameManager s (s'.setPhase t p) :=
  ⟨h.privateAddress, h.tunFd, h.isRoutingThroughTunnel, h.tun2SocksThread, h.blocked,
    h.nextThread, h.nextFd⟩

theorem sameManager_setupOk (s : State) (p : Setup) : SameManager s (setupOk s p) := by
  cases p <;> exact ⟨rfl, rfl, rfl, rfl, rfl, rfl, rfl⟩

theorem sameManager_setupFail (s : State) (p : Setup) : SameManager s (setupFail s p) := by
  cases p
  case tap => exact sameManager_close s _
  all_goals exact ⟨rfl, rfl, rfl, rfl, rfl, rfl, rfl⟩

theorem sameManager_release (s : State) (l : Label) : SameManager s (release s l) := by
  unfold release
  split
  · exact sameManager_close s _
  · exact ⟨rfl, rfl, rfl, rfl, rfl, rfl, rfl⟩

@[simp] theorem setupOk_thread (s : State) (p : Setup) : (setupOk s p).thread = s.thread := by
  cases p <;> rfl

@[simp] theorem setupFail_thread (s : State) (p : Setup) : (setupFail s p).thread = s.thread := by
  cases p <;> simp [setupFail]

@[simp] theorem release_thread (s : State) (l : Label) : (release s l).thread = s.thread := by
  unfold release
  split <;> simp

@[simp] theorem setupOk_gTerminate (s : State) (p : Setup) :
    (setupOk s p).gTerminate = s.gTerminate := by
  cases p <;> rfl

@[simp] theorem setupFail_gTerminate (s : State) (p : Setup) :
    (setupFail s p).gTerminate = s.gTerminate := by
  cases p <;> simp [setupFail]

@[simp] theorem release_gTerminate (s : State) (l : Label) :
    (release s l).gTerminate = s.gTerminate := by
  unfold release
  split <;> simp

theorem setPhase_thread_self {th : Tun2Socks} (h : s.thread t = some th) (p : Phase Fd) :
    (s.setPhase t p).thread t = some { th with phase := p } := by
  simp [State.setPhase, h]

theorem setPhase_thread_ne {u : Nat} (h : u ≠ t) (p : Phase Fd) :
    (s.setPhase t p).thread u = s.thread u := by
  simp [State.setPhase, h]

/--
native の一歩ができることのすべて。

`tick` で `g_terminate` が立っていなければ状態は変わらない。
それ以外は位相が一つ進むか、`quitting` が立つかである。
-/
theorem phaseStep_cases {p : Phase Fd} {e : NativeEvent} (h : phaseStep s t p e = some s') :
    (∃ fd, p = .started fd ∧ e = .enter ∧
        s' = { s with optionsTunFd := some fd }.setPhase t .entered) ∨
    (p = .entered ∧ e = .reset ∧
        s' = { s with gTerminate := (compareAndSwap s.gTerminate 1 0).1 }.setPhase t
          (.setup .network)) ∨
    (∃ q ok, p = .setup q ∧ e = .init ok ∧ s' = setupStep s t q ok) ∨
    (p = .loop ∧ (e = .tick ∨ e = .fail) ∧ s.quitting = false ∧
        (s' = s ∨ s' = { s with quitting := true })) ∨
    (p = .loop ∧ e = .leave ∧ s.quitting = true ∧ s' = s.setPhase t (.exiting .finish)) ∨
    (∃ l, p = .exiting l ∧ e = .cleanup ∧ s' = (release s l).setPhase t .ended) := by
  cases p <;> cases e <;> simp only [phaseStep, reduceCtorEq] at h
  case started.enter fd => exact Or.inl ⟨fd, rfl, rfl, (Option.some.inj h).symm⟩
  case entered.reset => exact Or.inr (Or.inl ⟨rfl, rfl, (Option.some.inj h).symm⟩)
  case setup.init q ok =>
    exact Or.inr (Or.inr (Or.inl ⟨q, ok, rfl, rfl, (Option.some.inj h).symm⟩))
  case loop.tick =>
    refine Or.inr (Or.inr (Or.inr (Or.inl ⟨rfl, Or.inl rfl, ?_⟩)))
    grind
  case loop.fail =>
    refine Or.inr (Or.inr (Or.inr (Or.inl ⟨rfl, Or.inr rfl, ?_⟩)))
    grind
  case loop.leave =>
    refine Or.inr (Or.inr (Or.inr (Or.inr (Or.inl ⟨rfl, rfl, ?_⟩))))
    grind
  case exiting.cleanup l =>
    exact Or.inr (Or.inr (Or.inr (Or.inr (Or.inr ⟨l, rfl, rfl, (Option.some.inj h).symm⟩))))

/-- `s'` は `s` の thread `t` の位相だけを `p` にしたもの（native の global と `closes` は問わない）。 -/
structure Moved (s s' : State) (t : Nat) (th : Tun2Socks) (p : Phase Fd) : Prop where
  same : SameManager s s'
  self : s'.thread t = some { th with phase := p }
  other : ∀ u, u ≠ t → s'.thread u = s.thread u

theorem SameManager.moved {s₁ : State} {th : Tun2Socks} (h : SameManager s s₁)
    (hth : s₁.thread = s.thread) (ht : s.thread t = some th) (p : Phase Fd) :
    Moved s (s₁.setPhase t p) t th p where
  same := h.setPhase t p
  self := setPhase_thread_self (hth ▸ ht) p
  other := fun u hu => by rw [setPhase_thread_ne hu, hth]

/--
native の一歩の枠。

動いた thread のほかは何も変わらず、死んだ thread は生き返らず、reset を通った thread は
reset の前へ戻らない。`g_terminate` が変わるのは reset の一歩だけである。
-/
theorem nativeStep_frame {e : NativeEvent} (h : nativeStep s t e = some s') :
    ∃ th p, s.thread t = some th ∧ Moved s s' t th p ∧
      (p.alive = true → th.phase.alive = true) ∧
      (p.beforeReset = true → th.phase.beforeReset = true) ∧
      (s'.gTerminate = s.gTerminate ∨ th.phase = .entered ∧ p = .setup .network ∧
        s'.gTerminate = (compareAndSwap s.gTerminate 1 0).1) := by
  unfold nativeStep at h
  cases hth : s.thread t with
  | none => rw [hth] at h; simp at h
  | some th =>
    rw [hth] at h
    have hrefl : SameManager s s := ⟨rfl, rfl, rfl, rfl, rfl, rfl, rfl⟩
    obtain ⟨fd, hp, -, rfl⟩ | ⟨hp, -, rfl⟩ | ⟨q, ok, hp, -, rfl⟩ | ⟨hp, -, -, hs⟩
      | ⟨hp, -, -, rfl⟩ |
      ⟨l, hp, -, rfl⟩ := phaseStep_cases h
    · have hsame : SameManager s { s with optionsTunFd := some fd } :=
        ⟨rfl, rfl, rfl, rfl, rfl, rfl, rfl⟩
      refine ⟨th, .entered, rfl, hsame.moved rfl hth _, ?_⟩
      exact ⟨fun _ => by simp [hp, Phase.alive], fun _ => by simp [hp, Phase.beforeReset],
        Or.inl rfl⟩
    · have hsame : SameManager s { s with gTerminate := (compareAndSwap s.gTerminate 1 0).1 } :=
        ⟨rfl, rfl, rfl, rfl, rfl, rfl, rfl⟩
      refine ⟨th, .setup .network, rfl, hsame.moved rfl hth _, ?_⟩
      exact ⟨fun _ => by simp [hp, Phase.alive], fun h => by simp [Phase.beforeReset] at h,
        Or.inr ⟨hp, rfl, rfl⟩⟩
    · cases ok with
      | true =>
        refine ⟨th, q.nextPhase, rfl, (sameManager_setupOk s q).moved (setupOk_thread s q) hth _,
          ?_⟩
        refine ⟨fun _ => by simp [hp, Phase.alive], ?_, Or.inl (setupOk_gTerminate s q)⟩
        cases q <;> simp [Setup.nextPhase, Setup.next, Phase.beforeReset]
      | false =>
        refine ⟨th, .exiting q.failLabel, rfl,
          (sameManager_setupFail s q).moved (setupFail_thread s q) hth _, ?_⟩
        exact ⟨fun _ => by simp [hp, Phase.alive], fun h => by simp [Phase.beforeReset] at h,
          Or.inl (setupFail_gTerminate s q)⟩
    · refine ⟨th, .loop, rfl, ?_, fun _ => by simp [hp, Phase.alive],
        fun h => by simp [Phase.beforeReset] at h, ?_⟩
      · have hself : s.thread t = some { th with phase := .loop } := by rw [hth, ← hp]
        rcases hs with rfl | rfl
        · exact ⟨hrefl, hself, fun _ _ => rfl⟩
        · exact ⟨⟨rfl, rfl, rfl, rfl, rfl, rfl, rfl⟩, hself, fun _ _ => rfl⟩
      · rcases hs with rfl | rfl <;> exact Or.inl rfl
    · refine ⟨th, .exiting .finish, rfl, hrefl.moved rfl hth _, ?_⟩
      exact ⟨fun _ => by simp [hp, Phase.alive], fun h => by simp [Phase.beforeReset] at h,
        Or.inl rfl⟩
    · refine ⟨th, .ended, rfl, (sameManager_release s l).moved (release_thread s l) hth _, ?_⟩
      exact ⟨fun h => by simp [Phase.alive] at h, fun h => by simp [Phase.beforeReset] at h,
        Or.inl (release_gTerminate s l)⟩

/-! ## method の場合分け -/

/-- `routeThroughTunnel` が thread を起こす条件。descriptor の複製も済んでいる。 -/
def Starts (s : State) (socksProxyPort : Int) (dup : Option Nat) (a : PrivateAddress) (num : Nat) :
    Prop :=
  s.isRoutingThroughTunnel = false ∧ s.tunFd.isSome = true ∧ 0 < socksProxyPort ∧ dup = some num ∧
    s.privateAddress = some a

/-- thread を起こした後の状態。 -/
def started (s : State) (socksProxyPort : Int) (a : PrivateAddress) (num : Nat) : State :=
  { s with
    isRoutingThroughTunnel := true
    nextFd := s.nextFd + 1
    thread := Function.update s.thread s.nextThread
      (some { phase := .started { id := s.nextFd, num := num }, args := routeArgs a socksProxyPort,
              terminated := false })
    tun2SocksThread := some s.nextThread
    nextThread := s.nextThread + 1 }

/--
`routeThroughTunnel` の行き先。

順に、すでに flag が立っていた／descriptor を複製する前に戻った／複製したが thread は
起こさなかった（その複製は誰のものでもなくなる）／thread を起こした。
-/
theorem routeThroughTunnel_cases (s : State) (port : Int) (dup : Option Nat) :
    (s.isRoutingThroughTunnel = true ∧ routeThroughTunnel s port dup = s) ∨
    (s.isRoutingThroughTunnel = false ∧ (s.tunFd = none ∨ port ≤ 0 ∨ dup = none) ∧
      routeThroughTunnel s port dup = { s with isRoutingThroughTunnel := true }) ∨
    (s.isRoutingThroughTunnel = false ∧ s.tunFd.isSome = true ∧ dup.isSome = true ∧
      (s.privateAddress = none ∨ s.tun2SocksThread.isSome = true) ∧
      routeThroughTunnel s port dup =
        { s with isRoutingThroughTunnel := true, nextFd := s.nextFd + 1 }) ∨
    (∃ a num, Starts s port dup a num ∧ s.tun2SocksThread = none ∧
      routeThroughTunnel s port dup = started s port a num) := by
  unfold routeThroughTunnel
  cases hr : s.isRoutingThroughTunnel with
  | true => exact Or.inl ⟨rfl, by simp⟩
  | false =>
    right
    cases hfd : s.tunFd with
    | none => left; simp
    | some fd =>
      by_cases hport : port ≤ 0
      · left; simp [hport]
      · cases dup with
        | none => left; simp
        | some num =>
          right
          cases ha : s.privateAddress with
          | none => left; simp [hport]
          | some a =>
            cases ht : s.tun2SocksThread with
            | some t => left; simp [hport, startTun2Socks]
            | none =>
              right
              refine ⟨a, num, ⟨hr, by simp [hfd], by omega, rfl, ha⟩, rfl, ?_⟩
              simp [hfd, hport, ha, startTun2Socks, started]

/-- `stopRouteThroughTunnel` の行き先。`terminateTun2Socks` を呼んで `join` に入るか、すぐ戻る。 -/
theorem stopRouteThroughTunnel_cases (s : State) (b : Bool) :
    (∃ t, s.isRoutingThroughTunnel = true ∧ s.tun2SocksThread = some t ∧
      stopRouteThroughTunnel s b =
        terminateTun2Socks { s with isRoutingThroughTunnel := false } t b) ∨
    ((s.isRoutingThroughTunnel = false ∨ s.tun2SocksThread = none) ∧
      stopRouteThroughTunnel s b =
        if b then finishTeardown { s with isRoutingThroughTunnel := false }
        else { s with isRoutingThroughTunnel := false }) := by
  unfold stopRouteThroughTunnel
  cases hr : s.isRoutingThroughTunnel with
  | false =>
    have hs : { s with isRoutingThroughTunnel := false } = s := by rw [← hr]
    right
    rw [hs]
    simp
  | true =>
    cases ht : s.tun2SocksThread with
    | none => right; simp
    | some t => left; exact ⟨t, rfl, rfl, by simp⟩

/--
一歩の場合分け。

不変量ごとに `step` を開かずに済むよう、起こりうることを method と `join` と native に分けておく。
method は monitor が空いているときにだけ走る。
-/
theorem step_elim {P : State → Prop} {e : Event} (he : step s e = some s')
    (hest : ∀ o, e = .vpnEstablish o → s.blocked = none → P (vpnEstablish s o))
    (hroute : ∀ port dup, e = .routeThroughTunnel port dup → s.blocked = none →
      P (routeThroughTunnel s port dup))
    (hstop : ∀ b, e = (if b then .vpnTeardown else .stopRouteThroughTunnel) → s.blocked = none →
      P (stopRouteThroughTunnel s b)) (hjoin : ∀ t b, s.blocked = some (t, b) →
      (e = .joinReturn ∧ s.alive t = false ∨ e = .joinInterrupted ∧ s.alive t = true) →
      P (afterJoin s b)) (hnative : ∀ t n, e = .native t n → nativeStep s t n = some s' → P s') :
    P s' := by
  cases e with
  | vpnEstablish o =>
    simp only [step] at he
    split at he
    · simp at he
    · next hb => rw [← Option.some.inj he]; exact hest o rfl (by simpa using hb)
  | routeThroughTunnel port dup =>
    simp only [step] at he
    split at he
    · simp at he
    · next hb => rw [← Option.some.inj he]; exact hroute port dup rfl (by simpa using hb)
  | stopRouteThroughTunnel =>
    simp only [step] at he
    split at he
    · simp at he
    · next hb => rw [← Option.some.inj he]; exact hstop false rfl (by simpa using hb)
  | vpnTeardown =>
    simp only [step] at he
    split at he
    · simp at he
    · next hb => rw [← Option.some.inj he]; exact hstop true rfl (by simpa using hb)
  | joinReturn =>
    simp only [step] at he
    split at he
    · next t b hb =>
      split at he
      · simp at he
      · next ha => rw [← Option.some.inj he]; exact hjoin t b hb (Or.inl ⟨rfl, by simpa using ha⟩)
    · simp at he
  | joinInterrupted =>
    simp only [step] at he
    split at he
    · next t b hb =>
      split at he
      · next ha => rw [← Option.some.inj he]; exact hjoin t b hb (Or.inr ⟨rfl, ha⟩)
      · simp at he
    · simp at he
  | native t n => exact hnative t n rfl he

@[simp] theorem finishTeardown_thread (s : State) : (finishTeardown s).thread = s.thread := by
  simp [finishTeardown]

@[simp] theorem finishTeardown_tun2SocksThread (s : State) :
    (finishTeardown s).tun2SocksThread = s.tun2SocksThread :=
  (sameManager_close s s.tunFd).tun2SocksThread

@[simp] theorem finishTeardown_blocked (s : State) : (finishTeardown s).blocked = s.blocked :=
  (sameManager_close s s.tunFd).blocked

@[simp] theorem finishTeardown_gTerminate (s : State) :
    (finishTeardown s).gTerminate = s.gTerminate := by
  simp [finishTeardown]

@[simp] theorem finishTeardown_nextThread (s : State) :
    (finishTeardown s).nextThread = s.nextThread := by
  simp [finishTeardown]

end Manager
