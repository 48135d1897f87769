import PsiphonVpn.Service.Bundle

/-!
# `PsiphonComms`：client 側の接続

`PsiphonComms` は service への binding を一つ持ち、`onServiceConnected` のたびに `clientCallback` を
登録する。binding が効いているかどうかは Android の側の状態で、object の中でそれを写しているのは
`isServiceBound` だけである。

`onServiceDisconnected` は binding を解かないのに `isServiceBound` を下ろす。その後の `stop` は
`unbindService` を呼ばず、service が立ち上がり直すと `onServiceConnected` が再び届く
（`stop_after_crash_stays_bound`）。`stop` が object の写しと実際の binding が揃っている時に呼ばれるなら、
`stop` の後には binding も登録も残らず、listener は何も受け取らない（`stop_disconnects`）。

## model

* `start`・`stop`・`serviceConnection` の callback は main thread で走り、互いに割り込まない。
  `stop` の中の binder 呼び出しの間に service や binder thread は動くので、`stop` は三歩に分ける
* service は process ごとに番号を持つ。`live` は今生きている process、`registered` は
  その process の `clients` に `clientCallback` があること
* 状態の通知は、service が `clients` を写し取った時から listener が呼ばれる時まで `inFlight` にある。
  写し取った後に登録が解かれても、その通知は届きうる
* `unbindService` の後には `ServiceConnection` の callback は届かない
* 例外に終わった binder 呼び出しは、相手に届かなかったものとする。届いたのに例外になった呼び出しは、
  どの呼び出し元も結果を捨てるので、成功した呼び出しと区別がつかない
-/

namespace Client

open Infra Service

/-- binder 呼び出しの結果。 -/
inductive CallResult where
  | ok
  | remoteException
  deriving DecidableEq, Repr

/-- main thread が次に実行する所。`stop` の中の二つの呼び出しだけが途中の状態を持つ。 -/
inductive MainPc where
  | idle
  | unregisterClient
  | unbindService
  deriving DecidableEq, Repr

structure Comms where
  psiphonService : Option Nat
  isServiceBound : Bool
  isStopped : Bool
  main : MainPc
  -- Android と service の側
  /-- この object の作った binding が効いている。 -/
  bound : Bool
  /-- `onServiceConnected` で知らせた process。 -/
  connected : Option Nat
  live : Option Nat
  processes : Nat
  registered : Nat → Bool
  inFlight : List Bundle
  /-- 最後の `start` の始まり、または最後の `stop` の終わりから listener が受け取った状態。 -/
  received : List PsiphonState

namespace Comms

def init : Comms where
  psiphonService := none
  isServiceBound := false
  isStopped := true
  main := .idle
  bound := false
  connected := none
  live := none
  processes := 0
  registered := fun _ => false
  inFlight := []
  received := []

def stopped : PsiphonState := { tunnelEvent := some .STOPPED }

def unknown : PsiphonState := { tunnelEvent := none }

/-- `stateListener.onStateUpdated(state)` -/
def notifyListener (s : Comms) (state : PsiphonState) : Comms :=
  { s with received := s.received ++ [state] }

/-- 相手の process が生きていて呼び出しが届けば、その `clients` を書き換える。 -/
def setRegistered (s : Comms) (service : Nat) (o : CallResult) (value : Bool) : Comms :=
  if s.live = some service ∧ o = .ok then
    { s with registered := Function.update s.registered service value }
  else s

/-- `result` は `context.bindService` の戻り値。 -/
def bindService (s : Comms) (result : Bool) : Comms :=
  match compareAndSwap s.isServiceBound false true with
  | (_, false) => s
  | (flag, true) =>
    if result then { s with isServiceBound := flag, bound := true }
    else notifyListener { s with isServiceBound := false } stopped

def start (s : Comms) (result : Bool) : Comms :=
  bindService { s with isStopped := false, received := [] } result

/-- `stop` の、`unregisterClient` の手前まで。 -/
def stop (s : Comms) : Comms :=
  { notifyListener { s with isStopped := true } unknown with main := .unregisterClient }

/-- `psiphonService?.let { service -> service.unregisterClient(clientCallback) }` -/
def unregisterClient (s : Comms) (o : CallResult) : Comms :=
  match s.psiphonService with
  | none => { s with main := .unbindService }
  | some service => { setRegistered s service o false with main := .unbindService }

/-- `stop` の残り。`unbindService` を呼ぶのは `isServiceBound` を下ろせた時だけである。 -/
def unbindService (s : Comms) : Comms :=
  match compareAndSwap s.isServiceBound true false with
  | (flag, true) =>
    { s with
      isServiceBound := flag, bound := false, connected := none
      psiphonService := none, main := .idle, received := [] }
  | (_, false) => { s with psiphonService := none, main := .idle, received := [] }

def onServiceConnected (s : Comms) (service : Nat) (o : CallResult) : Comms :=
  setRegistered { s with psiphonService := some service, connected := some service } service o true

def onServiceDisconnected (s : Comms) : Comms :=
  { notifyListener { s with psiphonService := none, connected := none } stopped with
    isServiceBound := false }

/-- `clientCallback.onStateUpdated`。読めない bundle では例外になり、listener は呼ばれない。 -/
def onStateUpdated (s : Comms) (bundle : Bundle) : Comms :=
  match PsiphonState.fromBundle bundle with
  | some state => notifyListener s state
  | none => s

end Comms

inductive Event where
  | start (result : Bool)
  | stop
  | unregisterClient (o : CallResult)
  | unbindService
  | onServiceConnected (o : CallResult)
  | onServiceDisconnected
  | serviceStarts
  | serviceDies
  /-- service が `clients` を写し取り、`clientCallback` への通知を始める。 -/
  | notify (bundle : Bundle)
  | deliver (k : Nat)
  /-- 通知は、service の process とともに失われることがある。 -/
  | lose (k : Nat)

open Comms in
def step (s : Comms) : Event → Option Comms
  | .start result => if s.main = .idle then some (start s result) else none
  | .stop => if s.main = .idle then some (stop s) else none
  | .unregisterClient o => if s.main = .unregisterClient then some (unregisterClient s o) else none
  | .unbindService => if s.main = .unbindService then some (unbindService s) else none
  | .onServiceConnected o =>
    match s.live with
    | some service =>
      if s.main = .idle ∧ s.bound = true ∧ s.connected = none then
        some (onServiceConnected s service o)
      else none
    | none => none
  | .onServiceDisconnected =>
    if s.main = .idle ∧ s.bound = true ∧ s.connected ≠ none ∧ s.connected ≠ s.live then
      some (onServiceDisconnected s)
    else none
  | .serviceStarts =>
    if s.live = none then some { s with live := some s.processes, processes := s.processes + 1 }
    else none
  | .serviceDies => if s.live = none then none else some { s with live := none }
  | .notify bundle =>
    if s.live.any s.registered then some { s with inFlight := s.inFlight ++ [bundle] } else none
  | .deliver k =>
    match s.inFlight[k]? with
    | some bundle => some (onStateUpdated { s with inFlight := s.inFlight.eraseIdx k } bundle)
    | none => none
  | .lose k =>
    if k < s.inFlight.length then some { s with inFlight := s.inFlight.eraseIdx k } else none

/-! ## 性質と条件 -/

/-- `stop` が約束すること。 -/
structure Disconnected (s : Comms) : Prop where
  unbound : s.bound = false
  unregistered : s.live.any s.registered = false
  silent : s.received = []

/--
`stop` が写しと実際の揃っている時に走る。

* `stop` を呼ぶ時、binding が効いているなら `isServiceBound` もそう言っている。つまり
  `onServiceDisconnected` が届いてから、まだ `start` し直していない間に `stop` を呼ばない
* 生きている service への `unregisterClient` は届く
* `stop` が終わる時に、始まったままの通知がない
-/
def StopsCleanly (s : Comms) : Event → Prop
  | .stop => s.bound = true → s.isServiceBound = true
  | .unregisterClient o => ∀ service ∈ s.psiphonService, s.live = some service → o = .ok
  | .unbindService => s.inFlight = []
  | _ => True

instance StopsCleanly.decidable (s : Comms) : (e : Event) → Decidable (StopsCleanly s e)
  | .stop => inferInstanceAs (Decidable (_ → _))
  | .unregisterClient o =>
    inferInstanceAs (Decidable (∀ service ∈ s.psiphonService, s.live = some service → o = .ok))
  | .unbindService => inferInstanceAs (Decidable (s.inFlight = []))
  | .start _ | .onServiceConnected _ | .onServiceDisconnected | .serviceStarts | .serviceDies
  | .notify _ | .deliver _ | .lose _ => .isTrue trivial

/-! ## 不変量 -/

/--
* 番号の若い process だけが登録を持ちうる
* 生きている process に登録があるなら、object はその process を指している。
  `unregisterClient` の後では、登録はない
* `stop` の途中では、binding が効いているなら `isServiceBound` が立っている
* `stop` の後は約束が守られている
-/
structure CommsInv (s : Comms) : Prop where
  known : ∀ service ∈ s.live, service < s.processes
  fresh : ∀ service, s.registered service = true → service < s.processes
  held : ∀ service ∈ s.live, s.registered service = true →
    s.psiphonService = some service ∧ s.connected = some service ∧ s.main ≠ .unbindService
  shadowed : s.main ≠ .idle → s.bound = true → s.isServiceBound = true
  disconnected : s.isStopped = true → s.main = .idle → Disconnected s ∧ s.inFlight = []

theorem commsInv_init : CommsInv Comms.init where
  known := by simp [Comms.init]
  fresh := by simp [Comms.init]
  held := by simp [Comms.init]
  shadowed := by simp [Comms.init]
  disconnected := fun _ _ => ⟨⟨rfl, rfl, rfl⟩, rfl⟩

variable {s s' : Comms}

theorem commsInv_start {result : Bool} (h : CommsInv s) (hmain : s.main = .idle) :
    CommsInv (s.start result) := by
  unfold Comms.start Comms.bindService compareAndSwap
  split
  next => exact ⟨h.known, h.fresh, h.held, h.shadowed, by simp⟩
  next =>
    split
    · exact ⟨h.known, h.fresh, h.held, fun hne => absurd hmain hne, by simp⟩
    · exact ⟨h.known, h.fresh, h.held, fun hne => absurd hmain hne,
        by simp [Comms.notifyListener]⟩

theorem commsInv_stop (h : CommsInv s) (hok : s.bound = true → s.isServiceBound = true) :
    CommsInv s.stop where
  known := h.known
  fresh := h.fresh
  held := fun service hlive hreg => by
    obtain ⟨hp, hc, -⟩ := h.held service hlive hreg
    exact ⟨hp, hc, by simp [Comms.stop]⟩
  shadowed := fun _ => hok
  disconnected := by simp [Comms.stop]

/-- `unregisterClient` が生きている process に届けば、そこに登録は残らない。 -/
theorem setRegistered_false {service i : Nat} {o : CallResult}
    (hok : s.live = some service → o = .ok)
    (hlive : i ∈ s.live) (hreg : (s.setRegistered service o false).registered i = true) :
    i ≠ service ∧ s.registered i = true := by
  unfold Comms.setRegistered at hreg
  by_cases hi : i = service
  · subst hi
    have hl : s.live = some i := hlive
    rw [if_pos ⟨hl, hok hl⟩] at hreg
    simp at hreg
  · split at hreg
    · exact ⟨hi, by simpa [Function.update_of_ne hi] using hreg⟩
    · exact ⟨hi, hreg⟩

theorem commsInv_unregisterClient {o : CallResult} (h : CommsInv s)
    (hmain : s.main = .unregisterClient)
    (hok : ∀ service ∈ s.psiphonService, s.live = some service → o = .ok) :
    CommsInv (s.unregisterClient o) := by
  have hne : s.main ≠ .idle := by simp [hmain]
  unfold Comms.unregisterClient
  split
  next hnone =>
    refine ⟨h.known, h.fresh, fun service hlive hreg => ?_, fun _ => h.shadowed hne, by simp⟩
    have hp := (h.held service hlive hreg).1
    rw [hnone] at hp
    exact absurd hp (by simp)
  next service hsome =>
    have hf : s.setRegistered service o false =
        { s with registered := (s.setRegistered service o false).registered } := by
      unfold Comms.setRegistered
      split <;> rfl
    rw [hf]
    refine ⟨h.known, fun i hreg => ?_, fun i hlive hreg => ?_, fun _ => h.shadowed hne, by simp⟩
    · unfold Comms.setRegistered at hreg
      split at hreg
      · by_cases hi : i = service
        · subst hi; simp at hreg
        · exact h.fresh i (by simpa [Function.update_of_ne hi] using hreg)
      · exact h.fresh i hreg
    · -- 登録が残っているなら、それは object の指す process のものだったはずである
      obtain ⟨hi, hreg'⟩ := setRegistered_false (hok service hsome) hlive hreg
      have hp := (h.held i hlive hreg').1
      rw [hsome, Option.some.injEq] at hp
      exact absurd hp.symm hi

theorem commsInv_unbindService (h : CommsInv s) (hmain : s.main = .unbindService)
    (hok : s.inFlight = []) : CommsInv s.unbindService := by
  have hnone : ∀ i ∈ s.live, s.registered i = true → False := fun i hlive hreg =>
    (h.held i hlive hreg).2.2 hmain
  have hany : s.live.any s.registered = false := by
    cases hl : s.live with
    | none => rfl
    | some i => exact Bool.eq_false_iff.mpr (hnone i hl)
  unfold Comms.unbindService compareAndSwap
  split
  next hflag =>
    exact ⟨h.known, h.fresh, fun i hlive hreg => (hnone i hlive hreg).elim, by simp,
      fun _ _ => ⟨⟨rfl, hany, rfl⟩, hok⟩⟩
  next hcas =>
    have hflag : s.isServiceBound = false := by
      cases hb : s.isServiceBound with
      | false => rfl
      | true => simp [hb] at hcas
    have hunbound : s.bound = false := by
      cases hb : s.bound with
      | false => rfl
      | true => rw [h.shadowed (by simp [hmain]) hb] at hflag; exact absurd hflag (by simp)
    exact ⟨h.known, h.fresh, fun i hlive hreg => (hnone i hlive hreg).elim, by simp,
      fun _ _ => ⟨⟨hunbound, hany, rfl⟩, hok⟩⟩

theorem commsInv_onServiceConnected {service : Nat} {o : CallResult} (h : CommsInv s)
    (hlive : s.live = some service) (hmain : s.main = .idle) (hbound : s.bound = true) :
    CommsInv (s.onServiceConnected service o) := by
  have hstopped : s.isStopped = true → False := fun hs => by
    have hb := (h.disconnected hs hmain).1.unbound
    rw [hbound] at hb
    exact absurd hb (by simp)
  have hsame : ∀ i ∈ s.live, i = service := fun i hi => by
    rw [hlive] at hi
    exact (Option.some.inj hi).symm
  have hfields : ∀ registered : Nat → Bool,
      (∀ i, registered i = true → i < s.processes) →
      CommsInv { s with psiphonService := some service, connected := some service, registered } :=
    fun registered hfresh =>
      ⟨h.known, hfresh, fun i hi _ => by rw [hsame i hi]; exact ⟨rfl, rfl, by simp [hmain]⟩,
        h.shadowed, fun hs => (hstopped hs).elim⟩
  unfold Comms.onServiceConnected Comms.setRegistered
  split
  · refine hfields _ fun i hreg => ?_
    by_cases hi : i = service
    · exact hi ▸ h.known service hlive
    · exact h.fresh i (by simpa [Function.update_of_ne hi] using hreg)
  · exact hfields _ h.fresh

theorem commsInv_onServiceDisconnected (h : CommsInv s) (hmain : s.main = .idle)
    (hbound : s.bound = true) (hdead : s.connected ≠ s.live) :
    CommsInv s.onServiceDisconnected where
  known := h.known
  fresh := h.fresh
  held := fun i hlive hreg => by
    have hc := (h.held i hlive hreg).2.1
    exact absurd (hc.trans (show s.live = some i from hlive).symm) hdead
  shadowed := fun hne => absurd hmain hne
  disconnected := fun hs _ => by
    have hb := (h.disconnected hs hmain).1.unbound
    rw [hbound] at hb
    exact absurd hb (by simp)

theorem commsInv_serviceStarts (h : CommsInv s) :
    CommsInv { s with live := some s.processes, processes := s.processes + 1 } where
  known := fun i hi => by
    rw [← Option.some.inj hi]
    exact Nat.lt_succ_self _
  fresh := fun i hreg => Nat.lt_succ_of_lt (h.fresh i hreg)
  held := fun i hi hreg => by
    have hlt := h.fresh i hreg
    rw [← Option.some.inj hi] at hlt
    exact absurd hlt (Nat.lt_irrefl _)
  shadowed := h.shadowed
  disconnected := fun hs hmain => by
    obtain ⟨⟨hb, -, hr⟩, hf⟩ := h.disconnected hs hmain
    refine ⟨⟨hb, ?_, hr⟩, hf⟩
    -- 新しい process の番号では、まだ誰も登録していない
    exact Bool.eq_false_iff.mpr fun hreg => Nat.lt_irrefl _ (h.fresh _ hreg)

theorem commsInv_serviceDies (h : CommsInv s) : CommsInv { s with live := none } where
  known := by simp
  fresh := h.fresh
  held := by simp
  shadowed := h.shadowed
  disconnected := fun hs hmain => by
    obtain ⟨⟨hb, -, hr⟩, hf⟩ := h.disconnected hs hmain
    exact ⟨⟨hb, rfl, hr⟩, hf⟩

/-- 通知が始まったり届いたりできるのは、`stop` の後ではない時だけである。 -/
theorem commsInv_inFlight (h : CommsInv s) (inFlight : List Bundle) (received : List PsiphonState)
    (hactive : s.live.any s.registered = true ∨ s.inFlight ≠ []) :
    CommsInv { s with inFlight, received } where
  known := h.known
  fresh := h.fresh
  held := h.held
  shadowed := h.shadowed
  disconnected := fun hs hmain => by
    obtain ⟨⟨-, hr, -⟩, hf⟩ := h.disconnected hs hmain
    rcases hactive with hreg | hne
    · rw [hr] at hreg
      exact absurd hreg (by simp)
    · exact absurd hf hne

theorem commsInv_step {e : Event} (h : CommsInv s) (hok : StopsCleanly s e)
    (he : step s e = some s') : CommsInv s' := by
  cases e with
  | start result =>
    obtain ⟨hmain, rfl⟩ := of_ite_eq_some he
    exact commsInv_start h hmain
  | stop =>
    obtain ⟨-, rfl⟩ := of_ite_eq_some he
    exact commsInv_stop h hok
  | unregisterClient o =>
    obtain ⟨hmain, rfl⟩ := of_ite_eq_some he
    exact commsInv_unregisterClient h hmain hok
  | unbindService =>
    obtain ⟨hmain, rfl⟩ := of_ite_eq_some he
    exact commsInv_unbindService h hmain hok
  | onServiceConnected o =>
    unfold step at he
    dsimp only at he
    split at he
    next service hlive =>
      obtain ⟨⟨hmain, hbound, -⟩, rfl⟩ := of_ite_eq_some he
      exact commsInv_onServiceConnected h hlive hmain hbound
    next => exact absurd he (by simp)
  | onServiceDisconnected =>
    obtain ⟨⟨hmain, hbound, -, hdead⟩, rfl⟩ := of_ite_eq_some he
    exact commsInv_onServiceDisconnected h hmain hbound hdead
  | serviceStarts =>
    obtain ⟨-, rfl⟩ := of_ite_eq_some he
    exact commsInv_serviceStarts h
  | serviceDies =>
    obtain ⟨-, ⟨⟩⟩ := Option.ite_none_left_eq_some.mp he
    exact commsInv_serviceDies h
  | notify bundle =>
    obtain ⟨hreg, rfl⟩ := of_ite_eq_some he
    exact commsInv_inFlight h _ _ (.inl hreg)
  | deliver k =>
    unfold step at he
    dsimp only at he
    split at he
    next bundle hk =>
      have hne : s.inFlight ≠ [] := fun hnil => by simp [hnil] at hk
      rw [← Option.some.inj he]
      unfold Comms.onStateUpdated
      split
      next state _ =>
        exact commsInv_inFlight h (s.inFlight.eraseIdx k) (s.received ++ [state]) (.inr hne)
      next => exact commsInv_inFlight h (s.inFlight.eraseIdx k) s.received (.inr hne)
    next => exact absurd he (by simp)
  | lose k =>
    obtain ⟨hk, rfl⟩ := of_ite_eq_some he
    have hne : s.inFlight ≠ [] := List.ne_nil_of_length_pos (Nat.lt_of_le_of_lt (Nat.zero_le k) hk)
    exact commsInv_inFlight h _ _ (.inr hne)

/-! ## 定理 -/

/--
`start` と `stop` のうち最後に呼ばれたのが `stop` なら、binding は効いておらず、生きている service に
登録はなく、listener は `stop` が終わってから何も受け取っていない。
-/
theorem stop_disconnects (es : List Event) (s : Comms)
    (hclean : Meets step StopsCleanly Comms.init es)
    (hrun : exec step Comms.init es = some s)
    (hstopped : s.isStopped = true) (hreturned : s.main = .idle) : Disconnected s :=
  ((exec_induct (fun _ _ _ hi hok he => commsInv_step hi hok he) es _ s commsInv_init hclean hrun
    ).disconnected hstopped hreturned).1

/-- 起動し、つながり、状態を一つ受け取る。 -/
def connect : List Event :=
  [.start true, .serviceStarts, .onServiceConnected .ok, .notify Comms.stopped.toBundle, .deliver 0]

/-- `stop` の三歩。 -/
def stopCall : List Event := [.stop, .unregisterClient .ok, .unbindService]

/-- service が落ち、立ち上がり直してから、知らせのないまま `stop` する。 -/
theorem stop_disconnects_restarted :
    ∃ s, exec step Comms.init ([connect, [.serviceDies, .serviceStarts], stopCall].flatten) =
      some s ∧
      s.isStopped = true ∧ Disconnected s := by
  obtain ⟨s, hrun, hs, hm⟩ := exec_exists step Comms.init
    ([connect, [.serviceDies, .serviceStarts], stopCall].flatten)
    (fun s => s.isStopped = true ∧ s.main = .idle) (by decide)
  exact ⟨s, hrun, hs, stop_disconnects _ s (by decide) hrun hs hm⟩

/--
service が落ちて `onServiceDisconnected` が届いた後の `stop` は binding を残す。service が立ち上がり直すと
`clientCallback` はふたたび登録され、listener は `stop` の後に状態を受け取る。
-/
theorem stop_after_crash_stays_bound :
    ∃ s, exec step Comms.init
        ([connect, [.serviceDies, .onServiceDisconnected], stopCall,
          [.serviceStarts, .onServiceConnected .ok, .notify Comms.stopped.toBundle,
          .deliver 0]].flatten)
        = some s ∧
      s.isStopped = true ∧ s.main = .idle ∧ s.bound = true ∧ s.live.any s.registered = true ∧
        s.received = [Comms.stopped] :=
  exec_exists step Comms.init _
    (fun s => s.isStopped = true ∧ s.main = .idle ∧ s.bound = true ∧
      s.live.any s.registered = true ∧ s.received = [Comms.stopped]) (by decide)

end Client
