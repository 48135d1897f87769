import PsiphonVpn.Service.State

/-!
# `PsiphonVpnService` の thread

登場する thread は次の三種類で、lock で互いに排除されない。

* **main thread** — `onStartCommand` と、looper に post された message を一つずつ処理する。
  `MainPc` が「次に行う access」である
* **tunnel coroutine** — `startTunnel` が `launch` する job。IO thread の上で走る。`JobPhase`
* **そのほかの thread** — `PsiphonTunnel` の callback と `onRevoke`。binder や Go の thread の上で
  走る。残りの access の列 `List Act` で表す

一歩は共有変数への access 一つである。`stopTunnel` の二つの `compareAndSet` も別の一歩になる。

## 外から来るもの

`PsiphonTunnel` はこの repository の外にあるので、callback はいつ来てもよいとする。
`startTunneling` / `restartPsiphon` は config を一度読み、成功するか例外を投げる。
`PsiphonVpnManager` の中は `PsiphonVpn.Manager` で扱い、ここでは一歩とする。

## coroutine

`launch(Dispatchers.IO)` された job は最初の dispatch を待つ。その前に cancel されると、本体を
一度も実行せずに終わる（`JobPhase.dropped`）。本体の中で cancel が効くのは
`suspendCancellableCoroutine` だけである。
-/

namespace Service

open Infra

inductive TunnelTaskState where
  | STOPPED | STARTING | RUNNING | STOPPING
  deriving DecidableEq, Repr

/-- main looper の message。通知の表示だけを行う message は省く。 -/
inductive Message where
  | update (u : Update)
  | cancelJob -- tunnelJob?.cancel("Stop requested")
  deriving DecidableEq, Repr

/-- どの thread の上でも走る access。 -/
inductive Act where
  | casRunningStopping
  | casStartingStopping
  | post (m : Message)
  | getRevokeStopped
  | getRevokeStopping
  | getConnecting
  | readSocksProxyPort
  | routeThroughTunnel (port : Int)
  deriving DecidableEq, Repr

/-- `stopTunnel()` -/
def stopTunnel : List Act := [.casRunningStopping]

/-- `stopTunnel` のうち、どちらかの `compareAndSet` が成功した後。 -/
def stopTunnelPosts : List Act := [.post (.update .stopping), .post .cancelJob]

/-! ## callback -/

/-- `PsiphonTunnel.HostService` の callback と `onRevoke`。 -/
inductive Call where
  | onRevoke
  | onConnecting
  | onConnected
  | onStartedWaitingForNetworkConnectivity
  | onStoppedWaitingForNetworkConnectivity
  | onClientRegion (region : String)
  | onConnectedServerRegion (region : String)
  | onBytesTransferred (sent received : Int)
  | onApplicationParameters (params : String)
  | onTrafficRateLimits (upstream downstream : Int)
  | onAvailableEgressRegions (regions : List String)
  | onSocksProxyPortInUse (port : Int)
  | onHttpProxyPortInUse (port : Int)
  | onListeningSocksProxyPort (port : Int)
  | onListeningHttpProxyPort (port : Int)
  deriving DecidableEq, Repr

/-- tunnel を止めてから error を立てる。 -/
def stopWithError (code : ErrorCode) (data : Option String) : List Act :=
  stopTunnel ++ [.post (.update (.setError code data))]

def Call.program : Call → List Act
  | .onRevoke => [.getRevokeStopped]
  | .onConnecting => [.getConnecting]
  | .onConnected => [.post (.update .connected), .readSocksProxyPort]
  | .onStartedWaitingForNetworkConnectivity => [.post (.update (.waitingForNetwork true))]
  | .onStoppedWaitingForNetworkConnectivity => [.post (.update (.waitingForNetwork false))]
  | .onClientRegion r => [.post (.update (.clientRegion r))]
  | .onConnectedServerRegion r => [.post (.update (.connectedServerRegion r))]
  | .onBytesTransferred sent received => [.post (.update (.bytesTransferred sent received))]
  | .onApplicationParameters p => [.post (.update (.applicationParameters p))]
  | .onTrafficRateLimits up down => [.post (.update (.trafficRateLimits up down))]
  | .onAvailableEgressRegions rs => [.post (.update (.availableEgressRegions rs))]
  | .onSocksProxyPortInUse port => stopWithError .SOCKS_PORT_IN_USE (some (toString port))
  | .onHttpProxyPortInUse port => stopWithError .HTTP_PORT_IN_USE (some (toString port))
  | .onListeningSocksProxyPort port => [.post (.update (.socksProxyPort port))]
  | .onListeningHttpProxyPort port => [.post (.update (.httpProxyPort port))]

/-! ## command と main thread -/

/-- `onStartCommand` の intent。`start` の引数は `PsiphonServiceParameters.fromIntent`。 -/
inductive Command where
  | noAction
  | stop
  | start (egressRegion : Option String)
  | updateParameters (egressRegion : String)
  | unknown
  deriving DecidableEq, Repr

/-- main thread が次に行う access。 -/
inductive MainPc where
  | idle
  | casForeground (c : Command)
  | setInForeground (c : Command)
  | startForeground (c : Command)
  | handle (c : Command)
  | storeStart (egressRegion : Option String)
  | casStoppedStarting
  | launch
  | assignJob (j : Nat)
  | getParams (paramsUpdated : Bool)
  | restartConnecting
  | restartConfig
  | restartPsiphon
  | stopForeground
  | clearForeground
  | stopSelf
  | acts (as : List Act)
  deriving DecidableEq, Repr

/-- 残りの access が無くなれば、次の message を待つ。 -/
def MainPc.ofActs : List Act → MainPc
  | [] => .idle
  | a :: as => .acts (a :: as)

/-! ## tunnel coroutine -/

/-- tunnel job が次に行うこと。 -/
inductive JobPhase where
  | launched
  | begin
  | establish
  | config
  | starting
  | setRunning
  | suspended
  | failed (code : ErrorCode) (message : Option String)
  | teardown
  | stopPsiphon
  | setStopped
  | postReset
  | nullJob
  | stopForeground
  | clearForeground
  | stopSelf
  | done
  | dropped
  deriving DecidableEq, Repr

structure Job where
  phase : JobPhase
  cancelled : Bool
  deriving DecidableEq, Repr

/-- 外の呼び出しの結果。 -/
inductive Outcome where
  | ok
  | psiphonException (message : Option String)
  | exception (message : Option String)
  deriving DecidableEq, Repr

/-- 呼び出しが成功すれば `next` へ、投げれば対応する `catch` へ進む。 -/
def JobPhase.after (next : JobPhase) : Outcome → JobPhase
  | .ok => next
  | .psiphonException message => .failed .TUNNEL_START_FAILED message
  | .exception message => .failed .UNEXPECTED_ERROR message

structure State where
  tunnelTaskState : TunnelTaskState
  isInForeground : Bool
  currentPsiphonState : PsiphonState
  tunnelJob : Option Nat
  -- 環境
  /-- 最後の foreground 操作が `startForeground` だった。 -/
  foreground : Bool
  job : Nat → Option Job
  nextJob : Nat
  looper : List Message
  main : MainPc
  thread : Nat → List Act
  /-- `SharedPreferences` の egress region。 -/
  stored : Option String
  /-- 動いている tunnel が最後に読んだ config の `EgressRegion`。 -/
  config : Option String
  /-- 最後に成功した `startTunnel` より後に post された更新。 -/
  posted : List Update

def init : State where
  tunnelTaskState := .STOPPED
  isInForeground := false
  currentPsiphonState := {}
  tunnelJob := none
  foreground := false
  job := fun _ => none
  nextJob := 0
  looper := []
  main := .idle
  thread := fun _ => []
  stored := none
  config := none
  posted := []

def State.post (s : State) : Message → State
  | .update u => { s with looper := s.looper ++ [.update u], posted := s.posted ++ [u] }
  | .cancelJob => { s with looper := s.looper ++ [.cancelJob] }

def State.setJob (s : State) (j : Nat) (jb : Job) : State :=
  { s with job := Function.update s.job j (some jb) }

/-- access を一つ行い、続けて行う access を返す。 -/
def runAct (s : State) : Act → State × List Act
  | .casRunningStopping =>
    let (state, ok) := compareAndSwap s.tunnelTaskState .RUNNING .STOPPING
    ({ s with tunnelTaskState := state }, if ok then stopTunnelPosts else [.casStartingStopping])
  | .casStartingStopping =>
    let (state, ok) := compareAndSwap s.tunnelTaskState .STARTING .STOPPING
    ({ s with tunnelTaskState := state }, if ok then stopTunnelPosts else [])
  | .post m => (s.post m, [])
  | .getRevokeStopped => (s, if s.tunnelTaskState ≠ .STOPPED then [.getRevokeStopping] else [])
  | .getRevokeStopping =>
    (s, if s.tunnelTaskState ≠ .STOPPING then
        .post (.update (.setError .VPN_REVOKED none)) :: stopTunnel
      else [])
  | .getConnecting =>
    (s, if s.tunnelTaskState = .RUNNING then [.post (.update .connecting)] else [])
  | .readSocksProxyPort =>
    (s, match s.currentPsiphonState.socksProxyPort with
      | some port => [.routeThroughTunnel port]
      | none => stopWithError .SOCKS_PORT_NOT_SET none)
  | .routeThroughTunnel _ => (s, [])

/-- `tunnelJob?.cancel("Stop requested")` -/
def cancelJob (s : State) : State :=
  match s.tunnelJob with
  | none => s
  | some j =>
    match s.job j with
    | none => s
    | some jb =>
      match jb.phase with
      | .launched => s.setJob j { phase := .dropped, cancelled := true }
      | .done | .dropped => s
      | _ => s.setJob j { jb with cancelled := true }

def handleMessage (s : State) (now : Int) : Message → State
  | .update u => { s with currentPsiphonState := u.apply now s.currentPsiphonState }
  | .cancelJob => cancelJob s

/-- `onStartCommand` の `when` の枝。 -/
def handle (s : State) : Command → State
  | .noAction | .unknown => { s with main := .stopForeground }
  | .stop =>
    { s with main := match s.tunnelTaskState with
      | .RUNNING | .STARTING => .acts stopTunnel
      | .STOPPING => .idle
      | .STOPPED => .stopForeground }
  | .start params =>
    { s with main := match s.tunnelTaskState with
      | .STOPPED => .storeStart params
      | _ => .idle }
  | .updateParameters region =>
    { s with stored := some region, main := .getParams (s.stored ≠ some region) }

/-- `handleParamsChangedAction` の `when`。 -/
def MainPc.afterParams (state : TunnelTaskState) (paramsUpdated : Bool) : MainPc :=
  match state with
  | .STOPPED => .stopForeground
  | .RUNNING => if paramsUpdated then .restartConnecting else .idle
  | .STARTING | .STOPPING => .idle -- ignore transitional states

/-- main thread の一歩。`o` は `restartPsiphon` の結果。 -/
def mainStep (s : State) (o : Outcome) : MainPc → Option State
  | .idle => none
  | .casForeground c =>
    let (b, ok) := compareAndSwap s.isInForeground false true
    some { s with isInForeground := b, main := if ok then .setInForeground c else .handle c }
  | .setInForeground c => some { s with isInForeground := true, main := .startForeground c }
  | .startForeground c => some { s with foreground := true, main := .handle c }
  | .handle c => some (handle s c)
  | .storeStart params => some { s with stored := params <|> s.stored, main := .casStoppedStarting }
  | .casStoppedStarting =>
    if s.tunnelTaskState = .STOPPED then
      some { s with tunnelTaskState := .STARTING, posted := [], main := .launch }
    else some { s with main := .idle }
  | .launch =>
    some { s.setJob s.nextJob { phase := .launched, cancelled := false } with
      nextJob := s.nextJob + 1, main := .assignJob s.nextJob }
  | .assignJob j => some { s with tunnelJob := some j, main := .idle }
  | .getParams paramsUpdated => some { s with main := .afterParams s.tunnelTaskState paramsUpdated }
  | .restartConnecting => some { s.post (.update .connecting) with main := .restartConfig }
  | .restartConfig =>
    match o with
    | .ok => some { s with config := s.stored, main := .restartPsiphon }
    | .psiphonException m => some { s with main := .acts (stopWithError .TUNNEL_RESTART_FAILED m) }
    | .exception _ => none -- 捕まえられず process ごと落ちる
  | .restartPsiphon =>
    match o with
    | .ok => some { s with main := .idle }
    | .psiphonException m => some { s with main := .acts (stopWithError .TUNNEL_RESTART_FAILED m) }
    | .exception _ => none
  | .stopForeground => some { s with foreground := false, main := .clearForeground }
  | .clearForeground => some { s with isInForeground := false, main := .stopSelf }
  | .stopSelf => some { s with main := .idle }
  | .acts [] => some { s with main := .idle }
  | .acts (a :: as) =>
    let (s', pushed) := runAct s a
    some { s' with main := .ofActs (pushed ++ as) }

/-- tunnel job の一歩。 -/
def jobStep (s : State) (j : Nat) (jb : Job) (o : Outcome) : Option State :=
  let goto (s : State) (p : JobPhase) : Option State := some (s.setJob j { jb with phase := p })
  match jb.phase with
  | .launched | .done | .dropped => none
  | .begin => goto (s.post (.update .started)) .establish
  | .establish => goto s (JobPhase.config.after o)
  | .config =>
    match o with
    | .ok => goto { s with config := s.stored } .starting
    | o => goto s (JobPhase.starting.after o)
  | .starting => goto s (JobPhase.setRunning.after o)
  | .setRunning => goto { s with tunnelTaskState := .RUNNING } .suspended
  | .suspended => if jb.cancelled then goto s .teardown else none
  | .failed code message => goto (s.post (.update (.setError code message))) .teardown
  | .teardown => goto s .stopPsiphon
  | .stopPsiphon => goto s .setStopped
  | .setStopped => goto { s with tunnelTaskState := .STOPPED } .postReset
  | .postReset => goto (s.post (.update .reset)) .nullJob
  | .nullJob => goto { s with tunnelJob := none } .stopForeground
  | .stopForeground => goto { s with foreground := false } .clearForeground
  | .clearForeground => goto { s with isInForeground := false } .stopSelf
  | .stopSelf => goto s .done

inductive Event where
  | command (c : Command)
  | looper (now : Int)
  | main (o : Outcome)
  | call (t : Nat) (k : Call)
  | thread (t : Nat)
  | dispatch (j : Nat)
  | job (j : Nat) (o : Outcome)
  deriving DecidableEq, Repr

/-- `onStartCommand` の入口。action が無ければ foreground に上げずに終わる。 -/
def Command.entry : Command → MainPc
  | .noAction => .stopForeground
  | c => .casForeground c

def step (s : State) : Event → Option State
  | .command c => if s.main = .idle then some { s with main := c.entry } else none
  | .looper now =>
    if s.main = .idle then
      match s.looper with
      | [] => none
      | m :: ms => some (handleMessage { s with looper := ms } now m)
    else none
  | .main o => mainStep s o s.main
  | .call t k =>
    if s.thread t = [] then some { s with thread := Function.update s.thread t k.program } else none
  | .thread t =>
    match s.thread t with
    | [] => none
    | a :: as =>
      let (s', pushed) := runAct s a
      some { s' with thread := Function.update s'.thread t (pushed ++ as) }
  | .dispatch j =>
    match s.job j with
    | some jb =>
      if jb.phase = .launched then some (s.setJob j { jb with phase := .begin }) else none
    | none => none
  | .job j o =>
    match s.job j with
    | some jb => jobStep s j jb o
    | none => none

/-! ## 一歩の形 -/

/-- access が触れない field。触れるのは `tunnelTaskState` と looper だけである。 -/
structure ActFrame (s s' : State) : Prop where
  job : s'.job = s.job
  nextJob : s'.nextJob = s.nextJob
  tunnelJob : s'.tunnelJob = s.tunnelJob
  main : s'.main = s.main
  thread : s'.thread = s.thread
  stored : s'.stored = s.stored
  config : s'.config = s.config
  currentPsiphonState : s'.currentPsiphonState = s.currentPsiphonState

theorem actFrame_post (s : State) (m : Message) : ActFrame s (s.post m) := by
  cases m <;> exact ⟨rfl, rfl, rfl, rfl, rfl, rfl, rfl, rfl⟩

theorem runAct_frame (s : State) (a : Act) : ActFrame s (runAct s a).1 := by
  cases a with
  | post m => exact actFrame_post s m
  | _ => exact ⟨rfl, rfl, rfl, rfl, rfl, rfl, rfl, rfl⟩

/-- access が `tunnelTaskState` を動かすのは `stopTunnel` が成功するときで、そのとき cancel が続く。 -/
theorem runAct_tunnelTaskState (s : State) (a : Act) :
    (runAct s a).1.tunnelTaskState = s.tunnelTaskState ∨
      ((s.tunnelTaskState = .RUNNING ∨ s.tunnelTaskState = .STARTING) ∧
        (runAct s a).1.tunnelTaskState = .STOPPING ∧ (runAct s a).2 = stopTunnelPosts) := by
  cases a with
  | casRunningStopping =>
    by_cases h : s.tunnelTaskState = .RUNNING
    · exact Or.inr ⟨Or.inl h, by simp [runAct, compareAndSwap, h]⟩
    · exact Or.inl (by simp [runAct, compareAndSwap, h])
  | casStartingStopping =>
    by_cases h : s.tunnelTaskState = .STARTING
    · exact Or.inr ⟨Or.inr h, by simp [runAct, compareAndSwap, h]⟩
    · exact Or.inl (by simp [runAct, compareAndSwap, h])
  | post m => cases m <;> exact Or.inl rfl
  | getRevokeStopped => exact Or.inl rfl
  | getRevokeStopping => exact Or.inl rfl
  | getConnecting => exact Or.inl rfl
  | readSocksProxyPort => exact Or.inl rfl
  | routeThroughTunnel port => exact Or.inl rfl

/-- 一歩の場合分け。どの thread が動いたかで分ける。 -/
theorem step_elim {P : State → Prop} {s s' : State} {e : Event} (he : step s e = some s')
    (hcommand : ∀ c, e = .command c → s.main = .idle → P { s with main := c.entry })
    (hlooper : ∀ now m ms, e = .looper now → s.main = .idle → s.looper = m :: ms →
      P (handleMessage { s with looper := ms } now m))
    (hmain : ∀ o, e = .main o → mainStep s o s.main = some s' → P s')
    (hcall : ∀ t k, e = .call t k → s.thread t = [] →
      P { s with thread := Function.update s.thread t k.program })
    (hthread : ∀ t a as, e = .thread t → s.thread t = a :: as →
      P { (runAct s a).1 with
        thread := Function.update (runAct s a).1.thread t ((runAct s a).2 ++ as) })
    (hdispatch : ∀ j jb, e = .dispatch j → s.job j = some jb → jb.phase = .launched →
      P (s.setJob j { jb with phase := .begin }))
    (hjob : ∀ j jb o, e = .job j o → s.job j = some jb → jobStep s j jb o = some s' → P s') :
    P s' := by
  cases e with
  | command c =>
    simp only [step] at he
    split at he
    · next h => rw [← Option.some.inj he]; exact hcommand c rfl h
    · simp at he
  | looper now =>
    simp only [step] at he
    split at he
    · next h =>
      split at he
      · simp at he
      · next m ms hq => rw [← Option.some.inj he]; exact hlooper now m ms rfl h hq
    · simp at he
  | main o => exact hmain o rfl he
  | call t k =>
    simp only [step] at he
    split at he
    · next h => rw [← Option.some.inj he]; exact hcall t k rfl h
    · simp at he
  | thread t =>
    simp only [step] at he
    split at he
    · simp at he
    · next a as h => rw [← Option.some.inj he]; exact hthread t a as rfl h
  | dispatch j =>
    simp only [step] at he
    split at he
    · next jb h =>
      split at he
      · next hp => rw [← Option.some.inj he]; exact hdispatch j jb rfl h hp
      · simp at he
    · simp at he
  | job j o =>
    simp only [step] at he
    split at he
    · next jb h => exact hjob j jb o rfl h he
    · simp at he

end Service
