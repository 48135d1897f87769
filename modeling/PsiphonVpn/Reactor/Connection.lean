import PsiphonVpn.Infra.Checked
import PsiphonVpn.Flow.Interface

/-!
# `BConnection`

`system/BConnection_unix.c`。一つの file descriptor で送ることと受け取ることを、別々の interface から頼まれる。すぐにできなければ、
`wait_events` に待つものを書いて reactor に待ってもらう。

## model

* **向き** 送ることと受け取ることはほとんど同じなので、向き `Dir` を引数にする。`BREACTOR_WRITE` は `send`、`BREACTOR_READ` は `recv` の
  待つものである
* **reactor** は、登録された descriptor について、待つように言われたものと、`ERROR`・`HUP` を知らせる。積まれた job があるうちは
  知らせない
* **`read`・`write`** の結果は事象が持つ
* **使う側** は、誤りを知らされた後、または頼んだまま interface を解放した後は、解放しかしない。受け取る側が閉じた後は、受け取る interface を
  作り直さない

`calls` は、`read`・`write` を呼んだ時の state の記録で、program は持たない。
-/

namespace Reactor

open Infra Flow

inductive Dir where
  | send
  | recv
  deriving DecidableEq, Repr

/-- `SEND_STATE_*`・`RECV_STATE_*` -/
inductive HalfState where
  | notInited
  | ready
  | busy
  | initedClosed
  | notInitedClosed
  deriving DecidableEq, Repr

/-- `read`・`write` の結果。 -/
inductive IoResult where
  | bytes (n : Nat)
  /-- `EAGAIN`・`EWOULDBLOCK` -/
  | wouldBlock
  | failed
  deriving DecidableEq, Repr

/-- byte を運んだ、または相手が閉じたことを知らせた。 -/
def IoResult.finishes : IoResult → Bool
  | .bytes _ => true
  | .wouldBlock => false
  | .failed => false

/-- `BConnection` の `send`・`recv`。interface には byte の数を頼み、済んだ数が返る。 -/
structure Half where
  state : HalfState
  /-- `limit.count` -/
  count : Nat
  /-- `busy_data_len`・`busy_data_avail` -/
  len : Nat
  iface : Phase Nat Nat
  job : Bool
  deriving DecidableEq, Repr

structure BConnection where
  isHupd : Bool
  waitEvents : Dir → Bool
  half : Dir → Half
  -- reactor の側
  registered : Bool
  /-- `bfd.waitEvents` -/
  fdEvents : Dir → Bool
  -- 使う側との約束
  errorReported : Bool
  unusable : Bool
  recvClosed : Bool
  -- 記録
  calls : List HalfState

/-- reactor が知らせるもの。 -/
structure FdEvents where
  ready : Dir → Bool
  error : Bool
  hup : Bool

inductive ConnectionEvent where
  /-- `BConnection_SendAsync_Init`・`BConnection_RecvAsync_Init` -/
  | init (d : Dir)
  /-- `BConnection_SendAsync_Free`・`BConnection_RecvAsync_Free` -/
  | free (d : Dir)
  /-- interface に頼む。 -/
  | request (d : Dir) (len : Nat)
  /-- interface の `job_operation` -/
  | operation (d : Dir) (result : IoResult)
  /-- interface の `job_done` -/
  | done (d : Dir)
  /-- descriptor の知らせ。送る方と受け取る方の結果を持つ。 -/
  | fd (events : FdEvents) (result : Dir → IoResult)
  /-- `send.job`・`recv.job` -/
  | job (d : Dir) (result : IoResult)
  /-- reactor が数え直す。 -/
  | resetLimits

/-- `BCONNECTION_SEND_LIMIT`・`BCONNECTION_RECV_LIMIT` -/
def transferLimit : Nat := 2

namespace BConnection

def setHalf (c : BConnection) (d : Dir) (h : Half) : BConnection :=
  { c with half := Function.update c.half d h }

/-- `BReactor_SetFileDescriptorEvents` を `wait_events` で呼ぶ。 -/
def setFileDescriptorEvents (c : BConnection) : Except Fault BConnection := do
  ensure (c.registered = true)
  pure { c with fdEvents := c.waitEvents }

/-- descriptor を待つ。 -/
def waitForFd (c : BConnection) (d : Dir) : Except Fault BConnection :=
  setFileDescriptorEvents { c with waitEvents := Function.update c.waitEvents d true }

/-- `connection_report_error` -/
def connectionReportError (c : BConnection) : Except Fault BConnection := do
  ensure (c.errorReported = false)
  pure { c with errorReported := true }

/-- 済んだ数を interface に返す。 -/
def ifaceDone (c : BConnection) (d : Dir) (n : Nat) : Except Fault BConnection := do
  ensure (0 < n)
  ensure (n ≤ (c.half d).len)
  let iface ← (c.half d).iface.done n
  pure (c.setHalf d { c.half d with state := .ready, iface := iface })

/-- `read`・`write` が返った後。受け取る方の零は、相手が閉じたことである。 -/
def afterCall (c : BConnection) (d : Dir) : IoResult → Except Fault BConnection
  | .wouldBlock => if c.isHupd then c.connectionReportError else c.waitForFd d
  | .failed => c.connectionReportError
  | .bytes n =>
    if n = 0 ∧ d = .recv then pure { c.setHalf d { c.half d with state := .initedClosed } with
      recvClosed := true }
    else c.ifaceDone d n

/-- `BReactorLimit_Increment` の後で、`read`・`write` を呼ぶ。 -/
def call (c : BConnection) (d : Dir) (result : IoResult) : Except Fault BConnection :=
  afterCall { c with calls := c.calls ++ [(c.half d).state] } d result

/-- `connection_send`・`connection_recv` -/
def transfer (c : BConnection) (d : Dir) (result : IoResult) : Except Fault BConnection := do
  ensure (c.errorReported = false)
  ensure ((c.half d).state = .busy)
  if c.isHupd then c.call d result
  else if (c.half d).count ≥ transferLimit then c.waitForFd d
  else (c.setHalf d { c.half d with count := (c.half d).count + 1 }).call d result

def connectionSend (c : BConnection) (result : IoResult) : Except Fault BConnection :=
  c.transfer .send result

def connectionRecv (c : BConnection) (result : IoResult) : Except Fault BConnection :=
  c.transfer .recv result

/-- HUP を知らされれば、descriptor を見るのをやめる。 -/
def removeOnHup (c : BConnection) (hup : Bool) : BConnection :=
  if hup then { c with registered := false, isHupd := true } else c

/-- 知らせが向き `d` の操作を起こす。 -/
def Woken (c : BConnection) (events : FdEvents) (d : Dir) : Prop :=
  events.ready d = true ∨ (events.error = true ∨ events.hup = true) ∧ (c.half d).state = .busy

instance (c : BConnection) (events : FdEvents) (d : Dir) : Decidable (c.Woken events d) :=
  inferInstanceAs (Decidable (_ ∨ _))

/-- `connection_fd_handler` の、起こす操作を決めた後。 -/
def dispatch (c : BConnection) (haveSend haveRecv : Prop) [Decidable haveSend] [Decidable haveRecv]
    (result : Dir → IoResult) : Except Fault BConnection :=
  if haveSend then
    if haveRecv then (c.setHalf .recv { c.half .recv with job := true }).connectionSend
      (result .send)
    else c.connectionSend (result .send)
  else if haveRecv then c.connectionRecv (result .recv)
  else if c.isHupd then pure c
  else c.connectionReportError

/-- `connection_fd_handler` -/
def connectionFdHandler (c : BConnection) (events : FdEvents) (result : Dir → IoResult) :
    Except Fault BConnection := do
  ensure (c.errorReported = false)
  ensure (c.isHupd = false)
  let c ← setFileDescriptorEvents
    { c with waitEvents := fun d => c.waitEvents d && !events.ready d }
  let c := c.removeOnHup events.hup
  ensure (c.Woken events .send → (c.half .send).state = .busy)
  ensure (c.Woken events .recv → (c.half .recv).state = .busy)
  c.dispatch (c.Woken events .send) (c.Woken events .recv) result

/-- `connection_send_job_handler`・`connection_recv_job_handler` -/
def jobHandler (c : BConnection) (d : Dir) (result : IoResult) : Except Fault BConnection := do
  ensure (c.errorReported = false)
  ensure ((c.half d).state = .busy)
  c.transfer d result

/-- `connection_send_if_handler_send`・`connection_recv_if_handler_recv` -/
def ifHandler (c : BConnection) (d : Dir) (len : Nat) (result : IoResult) :
    Except Fault BConnection := do
  ensure (c.errorReported = false)
  ensure ((c.half d).state = .ready)
  ensure (0 < len)
  transfer (c.setHalf d { c.half d with len := len, state := .busy }) d result

/-- `BConnection_SendAsync_Init`・`BConnection_RecvAsync_Init` -/
def asyncInit (c : BConnection) (d : Dir) : Except Fault BConnection := do
  ensure (c.errorReported = false)
  ensure ((c.half d).state = .notInited)
  pure (c.setHalf d { c.half d with iface := .none, job := false, state := .ready })

/-- 待つのをやめる。 -/
def stopWaiting (c : BConnection) (d : Dir) : Except Fault BConnection :=
  if c.isHupd then pure c
  else setFileDescriptorEvents { c with waitEvents := Function.update c.waitEvents d false }

/-- interface が作られている。 -/
def Inited (c : BConnection) (d : Dir) : Prop :=
  (c.half d).state = .ready ∨ (c.half d).state = .busy ∨
    (d = .recv ∧ (c.half d).state = .initedClosed)

instance (c : BConnection) (d : Dir) : Decidable (c.Inited d) := inferInstanceAs (Decidable (_ ∨ _))

/-- `BConnection_SendAsync_Free`・`BConnection_RecvAsync_Free` -/
def asyncFree (c : BConnection) (d : Dir) : Except Fault BConnection := do
  ensure (c.Inited d)
  let c ← c.stopWaiting d
  pure { c.setHalf d { c.half d with job := false, iface := .none, state := .notInited } with
    unusable := c.unusable || decide ((c.half d).state = .busy) }

/-- `BConnection_Init` の後。 -/
def init : BConnection where
  isHupd := false
  waitEvents := fun _ => false
  half := fun _ => ⟨.notInited, 0, 0, .none, false⟩
  registered := true
  fdEvents := fun _ => false
  errorReported := false
  unusable := false
  recvClosed := false
  calls := []

/-- まだ使ってよい。 -/
def Usable (c : BConnection) : Prop := c.errorReported = false ∧ c.unusable = false

instance (c : BConnection) : Decidable c.Usable := inferInstanceAs (Decidable (_ ∧ _))

/-- 頼まれた数を超えない。送る方は零を返さない。 -/
def Possible (d : Dir) (len : Nat) : IoResult → Prop
  | .bytes n => n ≤ len ∧ (d = .send → 0 < n)
  | .wouldBlock => True
  | .failed => True

instance (d : Dir) (len : Nat) : ∀ result, Decidable (Possible d len result)
  | .bytes _ => inferInstanceAs (Decidable (_ ∧ _))
  | .wouldBlock => .isTrue trivial
  | .failed => .isTrue trivial

instance {p : Dir → Prop} [DecidablePred p] : Decidable (∀ d, p d) :=
  decidable_of_iff (p .send ∧ p .recv) ⟨fun h d => match d with
    | .send => h.1
    | .recv => h.2, fun h => ⟨h .send, h .recv⟩⟩

/-- reactor が知らせてよい時。待つように言われたものしか知らせず、job が積まれていれば知らせない。 -/
def Reportable (c : BConnection) (events : FdEvents) : Prop :=
  c.registered = true ∧ (∀ d, (c.half d).job = false) ∧
    (∀ d, events.ready d = true → c.fdEvents d = true) ∧
    ¬ (events.error = false ∧ events.hup = false ∧ ∀ d, events.ready d = false)

instance (c : BConnection) (events : FdEvents) : Decidable (c.Reportable events) :=
  inferInstanceAs (Decidable (_ ∧ _))

def step (c : BConnection) : ConnectionEvent → Option (Except Fault BConnection)
  | .init d =>
    if c.Usable ∧ (c.half d).state = .notInited ∧
      ¬ (d = .recv ∧ c.recvClosed = true) then some (c.asyncInit d) else none
  | .free d => if c.Inited d then some (c.asyncFree d) else none
  | .request d len =>
    if c.Usable ∧ c.Inited d ∧ (c.half d).iface = .none ∧ 0 < len then
      some (.ok (c.setHalf d { c.half d with iface := .operationPending len }))
    else none
  | .operation d result =>
    match (c.half d).iface with
    | .operationPending len =>
      if c.Usable ∧ Possible d len result then
        some ((c.setHalf d { c.half d with iface := .busy len }).ifHandler d len result)
      else none
    | _ => none
  | .done d =>
    match (c.half d).iface with
    | .donePending _ => some (.ok (c.setHalf d { c.half d with iface := .none }))
    | _ => none
  | .fd events result =>
    if c.Usable ∧ c.Reportable events ∧ ∀ d, Possible d (c.half d).len (result d) then
      some (c.connectionFdHandler events result)
    else none
  | .job d result =>
    if c.Usable ∧ (c.half d).job = true ∧ Possible d (c.half d).len result then
      some ((c.setHalf d { c.half d with job := false }).jobHandler d result)
    else none
  | .resetLimits => some (.ok { c with half := fun d => { c.half d with count := 0 } })

/-! ## 不変量 -/

/-- 一つの向きについて。`waiting` は `wait_events` にあること。 -/
structure HalfBase (h : Half) (waiting : Bool) : Prop where
  /-- 待っているのは、頼まれている操作である。 -/
  waiting_busy : waiting = true → h.state = .busy
  job_busy : h.job = true → h.state = .busy
  busy : h.state = .busy → h.iface = .busy h.len
  ready : h.state = .ready → ∀ len, h.iface ≠ .busy len
  notInited : h.state = .notInited → h.iface = .none
  asked : ∀ len, h.iface = .operationPending len → 0 < len ∧ h.state = .ready
  closed : h.state = .initedClosed → ∃ len, h.iface = .busy len
  finished : ∀ n, h.iface = .donePending n → h.state = .ready

/-- 頼まれている操作は、待たれているか、job が積まれているか、誤りを知らせてある。 -/
def Awaited (c : BConnection) (d : Dir) : Prop :=
  (c.half d).state = .busy →
    c.waitEvents d = true ∧ c.registered = true ∨ (c.half d).job = true ∨ c.errorReported = true

structure Base (c : BConnection) : Prop where
  hup : c.isHupd = !c.registered
  synced : c.registered = true → c.fdEvents = c.waitEvents
  quiet : c.isHupd = true → ∀ d, c.waitEvents d = false
  halves : ∀ d, HalfBase (c.half d) (c.waitEvents d)
  calls : ∀ state ∈ c.calls, state = .busy

def Inv (c : BConnection) : Prop := Base c ∧ ∀ d, Awaited c d

variable {c : BConnection} {d : Dir}

@[simp] theorem half_setHalf_self (c : BConnection) (d : Dir) (h : Half) :
    (c.setHalf d h).half d = h :=
  Function.update_self ..

@[simp] theorem half_setHalf_of_ne {d e : Dir} (hne : e ≠ d) (c : BConnection) (h : Half) :
    (c.setHalf d h).half e = c.half e := Function.update_of_ne hne ..

theorem Base.setHalf (hb : Base c) {y : Half} (hy : HalfBase y (c.waitEvents d)) :
    Base (c.setHalf d y) := by
  refine { hb with halves := fun e => ?_ }
  by_cases he : e = d
  · subst he
    rw [half_setHalf_self]
    exact hy
  · rw [half_setHalf_of_ne he]
    exact hb.halves e

theorem Awaited.setHalf_of_ne {e : Dir} (ha : Awaited c e) (hne : e ≠ d) (y : Half) :
    Awaited (c.setHalf d y) e := by
  unfold Awaited
  rw [half_setHalf_of_ne hne]
  exact ha

/-! ## 一つの操作 -/

theorem waitForFd_ok (hb : Base c) (hreg : c.registered = true) (hbusy : (c.half d).state = .busy)
    (hother : ∀ e, e ≠ d → Awaited c e) : ∃ c', c.waitForFd d = .ok c' ∧ Inv c' := by
  refine ⟨_, ensure_bind hreg _, ?_, fun e => ?_⟩
  · refine { hb with synced := fun _ => rfl, quiet := fun hhup => ?_, halves := fun e => ?_ }
    · rw [hb.hup, hreg] at hhup
      cases hhup
    · by_cases he : e = d
      · subst he
        exact { hb.halves e with waiting_busy := fun _ => hbusy }
      · dsimp only
        rw [Function.update_of_ne he]
        exact hb.halves e
  · by_cases he : e = d
    · subst he
      exact fun _ => .inl ⟨Function.update_self .., hreg⟩
    · intro hstate
      refine (hother e he hstate).imp_left fun hw => ?_
      dsimp only
      rw [Function.update_of_ne he]
      exact hw

theorem connectionReportError_ok (hb : Base c) (herr : c.errorReported = false) :
    ∃ c', c.connectionReportError = .ok c' ∧ Inv c' :=
  ⟨_, ensure_bind herr _, { hb with }, fun _ _ => .inr (.inr rfl)⟩

/-- 済んだ操作の向き。待っておらず、job も積まれていない。 -/
theorem inv_of_finished (hb : Base c) {y : Half} (hy : HalfBase y (c.waitEvents d))
    (hstate : y.state ≠ .busy) (hother : ∀ e, e ≠ d → Awaited c e) : Inv (c.setHalf d y) := by
  refine ⟨hb.setHalf hy, fun e => ?_⟩
  by_cases he : e = d
  · subst he
    intro hbusy
    rw [half_setHalf_self] at hbusy
    exact absurd hbusy hstate
  · exact (hother e he).setHalf_of_ne he y

theorem afterCall_ok (hb : Base c) (herr : c.errorReported = false)
    (hbusy : (c.half d).state = .busy) (hjob : (c.half d).job = false)
    (hother : ∀ e, e ≠ d → Awaited c e) {result : IoResult}
    (hpossible : Possible d (c.half d).len result)
    (hfresh : c.waitEvents d = true → result.finishes = false) :
    ∃ c', c.afterCall d result = .ok c' ∧ Inv c' := by
  have hiface := (hb.halves d).busy hbusy
  unfold afterCall
  split
  next =>
    split
    next => exact connectionReportError_ok hb herr
    next hhup =>
      refine waitForFd_ok hb ?_ hbusy hother
      rw [hb.hup, Bool.not_eq_true, Bool.not_eq_false'] at hhup
      exact hhup
  next => exact connectionReportError_ok hb herr
  next n =>
    -- 操作が済むので、待っていてはならない
    have hwait : c.waitEvents d = false := by
      rw [← Bool.not_eq_true]
      exact fun hw => absurd (hfresh hw) nofun
    split
    next hclosed =>
      have hinv := inv_of_finished hb (d := d) (y := { c.half d with state := .initedClosed }) ?_
        nofun hother
      · exact ⟨_, rfl, { hinv.1 with }, hinv.2⟩
      · dsimp only
        rw [hwait, hjob, hiface]
        exact ⟨nofun, nofun, nofun, nofun, nofun, nofun, fun _ => ⟨_, rfl⟩, nofun⟩
    next hopen =>
      have hpos : 0 < n := by
        cases d with
        | send => exact hpossible.2 rfl
        | recv => exact Nat.pos_of_ne_zero fun hzero => hopen ⟨hzero, rfl⟩
      rw [ifaceDone, ensure_bind hpos, ensure_bind hpossible.1, hiface]
      refine ⟨_, rfl, inv_of_finished hb ?_ nofun hother⟩
      dsimp only
      rw [hwait, hjob]
      exact ⟨nofun, nofun, nofun, fun _ _ => nofun, nofun, nofun, nofun, fun _ _ => rfl⟩

/-- `connection_send`・`connection_recv` は故障しない。済ませるか、待つか、誤りを知らせる。 -/
theorem transfer_ok (hb : Base c) (herr : c.errorReported = false)
    (hbusy : (c.half d).state = .busy) (hjob : (c.half d).job = false)
    (hother : ∀ e, e ≠ d → Awaited c e) {result : IoResult}
    (hpossible : Possible d (c.half d).len result)
    (hfresh : c.waitEvents d = true → result.finishes = false) :
    ∃ c', c.transfer d result = .ok c' ∧ Inv c' := by
  have hcalled : ∀ c₁ : BConnection, Base c₁ → (c₁.half d).state = .busy →
      Base { c₁ with calls := c₁.calls ++ [(c₁.half d).state] } := by
    intro c₁ hb₁ hbusy₁
    refine { hb₁ with calls := fun state hstate => ?_ }
    rcases List.mem_append.mp hstate with hstate | hstate
    · exact hb₁.calls state hstate
    · rw [List.mem_singleton.mp hstate]
      exact hbusy₁
  rw [transfer, ensure_bind herr, ensure_bind hbusy]
  split
  next => exact afterCall_ok (hcalled c hb hbusy) herr hbusy hjob hother hpossible hfresh
  next hhup =>
    split
    next =>
      refine waitForFd_ok hb ?_ hbusy hother
      rw [hb.hup, Bool.not_eq_true, Bool.not_eq_false'] at hhup
      exact hhup
    next =>
      have hhalf := hb.halves d
      have hcount : Base (c.setHalf d { c.half d with count := (c.half d).count + 1 }) :=
        hb.setHalf ⟨hhalf.waiting_busy, hhalf.job_busy, hhalf.busy, hhalf.ready, hhalf.notInited,
          hhalf.asked, hhalf.closed, hhalf.finished⟩
      have hself : (c.setHalf d { c.half d with count := (c.half d).count + 1 }).half d =
          { c.half d with count := (c.half d).count + 1 } := half_setHalf_self ..
      have hbusy' : ((c.setHalf d { c.half d with count := (c.half d).count + 1 }).half d).state =
          .busy := by
        rw [hself]
        exact hbusy
      refine afterCall_ok (hcalled _ hcount hbusy') herr hbusy' ?_
        (fun e he => (hother e he).setHalf_of_ne he _) ?_ hfresh
      · dsimp only
        rw [hself]
        exact hjob
      · dsimp only
        rw [hself]
        exact hpossible

/-! ## 一歩 -/

/--
知らせが起こした操作のうち、待っていたのに知らせに含まれていないものは、済んではならない。

HUP の知らせは待っているものをすべて含む。ERROR の知らせが含まないものについては、起こした `read`・`write` が操作を済ませない。
-/
def Timely (c : BConnection) : ConnectionEvent → Prop
  | .fd events result =>
    ∀ d, c.waitEvents d = true → events.ready d = false →
      events.hup = false ∧ (events.error = true → (result d).finishes = false)
  | .job d result => c.waitEvents d = true → result.finishes = false
  | _ => True

/-- 知らせを受けて待つのをやめ、HUP なら登録を外した後。 -/
def received (c : BConnection) (events : FdEvents) : BConnection :=
  removeOnHup { c with
    waitEvents := fun d => c.waitEvents d && !events.ready d,
    fdEvents := fun d => c.waitEvents d && !events.ready d }
    events.hup

section Received

variable {events : FdEvents}

theorem half_received (c : BConnection) (events : FdEvents) (d : Dir) :
    (c.received events).half d = c.half d := by
  unfold received removeOnHup
  split <;> rfl

theorem waitEvents_received (c : BConnection) (events : FdEvents) (d : Dir) :
    (c.received events).waitEvents d = (c.waitEvents d && !events.ready d) := by
  unfold received removeOnHup
  split <;> rfl

theorem errorReported_received (c : BConnection) (events : FdEvents) :
    (c.received events).errorReported = c.errorReported := by
  unfold received removeOnHup
  split <;> rfl

theorem woken_received (d : Dir) : (c.received events).Woken events d ↔ c.Woken events d := by
  unfold Woken
  rw [half_received]

/-- 起こされる操作は、頼まれているものである。 -/
theorem Base.busy_of_woken (hb : Base c) (hrep : c.Reportable events) (hwoken : c.Woken events d) :
    (c.half d).state = .busy := by
  obtain ⟨hreg, -, hready, -⟩ := hrep
  rcases hwoken with h | h
  · have hfd := hready d h
    rw [hb.synced hreg] at hfd
    exact (hb.halves d).waiting_busy hfd
  · exact h.2

theorem Base.received (hb : Base c) (hrep : c.Reportable events)
    (htimely : ∀ d, c.waitEvents d = true → events.ready d = false → events.hup = false) :
    Base (c.received events) := by
  have hwait : ∀ d, (c.waitEvents d && !events.ready d) = true → c.waitEvents d = true := fun d h =>
    (Bool.and_eq_true_iff.mp h).1
  have hhalves : ∀ d, HalfBase (c.half d) (c.waitEvents d && !events.ready d) := fun d =>
    { hb.halves d with waiting_busy := fun h => (hb.halves d).waiting_busy (hwait d h) }
  unfold BConnection.received removeOnHup
  split
  next hhup =>
    refine ⟨rfl, nofun, fun _ d => ?_, hhalves, hb.calls⟩
    rw [← Bool.not_eq_true, Bool.and_eq_true_iff]
    rintro ⟨hw, hr⟩
    have hno := htimely d hw (by simpa using hr)
    rw [hhup] at hno
    cases hno
  next =>
    refine ⟨hb.hup, fun _ => rfl, fun hhup => ?_, hhalves, hb.calls⟩
    have hreg := hrep.1
    rw [hb.hup, hreg] at hhup
    cases hhup

/-- 起こされない操作は、待たれたままである。 -/
theorem Inv.awaited_received (h : Inv c) (husable : c.Usable) (hrep : c.Reportable events)
    (hnot : ¬ c.Woken events d) :
    Awaited (c.received events) d := by
  intro hbusy
  rw [half_received] at hbusy
  obtain ⟨hready, hquiet⟩ := not_or.mp hnot
  have hhup : events.hup = false := by
    rw [← Bool.not_eq_true]
    exact fun hh => hquiet ⟨.inr hh, hbusy⟩
  left
  rcases h.2 d hbusy with ⟨hw, hreg⟩ | hjob | herr
  · rw [Bool.not_eq_true] at hready
    rw [waitEvents_received, hw, hready]
    refine ⟨rfl, ?_⟩
    unfold BConnection.received removeOnHup
    rw [hhup]
    exact hreg
  · rw [hrep.2.1 d] at hjob
    cases hjob
  · rw [husable.1] at herr
    cases herr

end Received

/-- 起こす操作 `woken` のうち、送る方を先に行い、受け取る方は job に回す。 -/
theorem dispatch_ok (hb : Base c) (herr : c.errorReported = false)
    (hjob : ∀ d, (c.half d).job = false) {result : Dir → IoResult}
    (hpossible : ∀ d, Possible d (c.half d).len (result d)) (woken : Dir → Prop)
    [Decidable (woken .send)] [Decidable (woken .recv)]
    (hbusy : ∀ d, woken d → (c.half d).state = .busy) (hidle : ∀ d, ¬ woken d → Awaited c d)
    (hfresh : ∀ d, woken d → c.waitEvents d = true → (result d).finishes = false) :
    ∃ c', c.dispatch (woken .send) (woken .recv) result = .ok c' ∧ Inv c' := by
  unfold dispatch
  split
  next hsend =>
    split
    next hrecv =>
      have hhalf := hb.halves .recv
      have hset : Base (c.setHalf .recv { c.half .recv with job := true }) :=
        hb.setHalf ⟨hhalf.waiting_busy, fun _ => hbusy .recv hrecv, hhalf.busy, hhalf.ready,
          hhalf.notInited, hhalf.asked, hhalf.closed, hhalf.finished⟩
      have hkeep : (c.setHalf .recv { c.half .recv with job := true }).half .send = c.half .send :=
        half_setHalf_of_ne (by decide) ..
      refine transfer_ok hset herr ?_ ?_ (fun e he => ?_) ?_ (hfresh .send hsend)
      · rw [hkeep]
        exact hbusy .send hsend
      · rw [hkeep]
        exact hjob .send
      · cases e with
        | send => exact absurd rfl he
        | recv =>
          intro _
          rw [half_setHalf_self]
          exact .inr (.inl rfl)
      · rw [hkeep]
        exact hpossible .send
    next hrecv =>
      refine transfer_ok hb herr (hbusy .send hsend) (hjob .send) (fun e he => ?_) (hpossible .send)
        (hfresh .send hsend)
      cases e with
      | send => exact absurd rfl he
      | recv => exact hidle .recv hrecv
  next hsend =>
    split
    next hrecv =>
      refine transfer_ok hb herr (hbusy .recv hrecv) (hjob .recv) (fun e he => ?_) (hpossible .recv)
        (hfresh .recv hrecv)
      cases e with
      | send => exact hidle .send hsend
      | recv => exact absurd rfl he
    next hrecv =>
      split
      next =>
        refine ⟨_, rfl, hb, fun e => ?_⟩
        cases e with
        | send => exact hidle .send hsend
        | recv => exact hidle .recv hrecv
      next => exact connectionReportError_ok hb herr

theorem bind_ensure_ok {p : Prop} [Decidable p] (hp : p) {f : Unit → Except Fault BConnection}
    (h : ∃ c', f () = .ok c' ∧ Inv c') : ∃ c', (ensure p >>= f) = .ok c' ∧ Inv c' := by
  rw [ensure_bind hp]
  exact h

theorem Inv.fd (h : Inv c) {events : FdEvents} {result : Dir → IoResult} (husable : c.Usable)
    (hrep : c.Reportable events) (hpossible : ∀ d, Possible d (c.half d).len (result d))
    (htimely : c.Timely (.fd events result)) :
    ∃ c', c.connectionFdHandler events result = .ok c' ∧ Inv c' := by
  have hhup : c.isHupd = false := by
    rw [h.1.hup, hrep.1]
    rfl
  have hbase : Base (c.received events) := h.1.received hrep fun d hw hr => (htimely d hw hr).1
  have hbusy : ∀ d, (c.received events).Woken events d →
      ((c.received events).half d).state = .busy := by
    intro d hw
    rw [half_received]
    exact h.1.busy_of_woken hrep ((woken_received d).mp hw)
  have herr : (c.received events).errorReported = false := by
    rw [errorReported_received]
    exact husable.1
  have hjob : ∀ d, ((c.received events).half d).job = false := by
    intro d
    rw [half_received]
    exact hrep.2.1 d
  have hposs : ∀ d, Possible d ((c.received events).half d).len (result d) := by
    intro d
    rw [half_received]
    exact hpossible d
  have hidle : ∀ d, ¬ (c.received events).Woken events d →
      Awaited (c.received events) d := fun d hnot =>
    h.awaited_received husable hrep fun hw => hnot ((woken_received d).mpr hw)
  -- 待っていたのに知らされなかった操作が起こされるのは、ERROR のためである
  have hfresh : ∀ d, (c.received events).Woken events d → (c.received events).waitEvents d = true →
      (result d).finishes = false := by
    intro d hw hwait
    rw [waitEvents_received, Bool.and_eq_true_iff, Bool.not_eq_true'] at hwait
    obtain ⟨hno, herror⟩ := htimely d hwait.1 hwait.2
    rcases hw with hr | ⟨he | hu, -⟩
    · rw [hwait.2] at hr
      cases hr
    · exact herror he
    · rw [hno] at hu
      cases hu
  rw [connectionFdHandler, ensure_bind husable.1, ensure_bind hhup, setFileDescriptorEvents,
    ensure_bind (by exact hrep.1)]
  refine bind_ensure_ok (hbusy .send) (bind_ensure_ok (hbusy .recv) ?_)
  exact dispatch_ok hbase herr hjob hposs (fun d => (c.received events).Woken events d) hbusy hidle
    hfresh

theorem Inv.init (h : Inv c) (hready : (c.half d).state = .notInited) :
    Inv (c.setHalf d { c.half d with iface := .none, job := false, state := .ready }) := by
  refine inv_of_finished h.1
    ⟨fun hw => ?_, nofun, nofun, fun _ _ => nofun, nofun, nofun, nofun, nofun⟩ nofun
    fun e _ => h.2 e
  rw [(h.1.halves d).waiting_busy hw] at hready
  cases hready

theorem Inv.free (h : Inv c) (hinited : c.Inited d) : ∃ c', c.asyncFree d = .ok c' ∧ Inv c' := by
  obtain ⟨c₁, hstop, hbase, hwait, hawait⟩ : ∃ c₁, c.stopWaiting d = .ok c₁ ∧ Base c₁ ∧
      c₁.waitEvents d = false ∧
      ∀ e, e ≠ d → Awaited c₁ e := by
    unfold stopWaiting
    split
    next hhup => exact ⟨c, rfl, h.1, h.1.quiet hhup d, fun e _ => h.2 e⟩
    next hhup =>
      have hreg : c.registered = true := by
        rw [h.1.hup, Bool.not_eq_true, Bool.not_eq_false'] at hhup
        exact hhup
      have hhalves : ∀ e, HalfBase (c.half e) (Function.update c.waitEvents d false e) := by
        intro e
        by_cases he : e = d
        · subst he
          rw [Function.update_self]
          exact { h.1.halves e with waiting_busy := nofun }
        · rw [Function.update_of_ne he]
          exact h.1.halves e
      refine ⟨_, ensure_bind hreg _,
        { h.1 with synced := fun _ => rfl, quiet := fun hh => absurd hh hhup, halves := hhalves },
        Function.update_self .., fun e he hbusy => ?_⟩
      refine (h.2 e hbusy).imp_left fun hw => ?_
      dsimp only
      rw [Function.update_of_ne he]
      exact hw
  rw [asyncFree, ensure_bind hinited, hstop, ok_bind]
  have hinv := inv_of_finished hbase (d := d)
    (y := { c₁.half d with job := false, iface := .none, state := .notInited })
    (by rw [hwait]; exact ⟨nofun, nofun, nofun, nofun, fun _ => rfl, nofun, nofun, nofun⟩) nofun
      hawait
  exact ⟨_, rfl, { hinv.1 with }, hinv.2⟩

/-- interface の進み具合だけを変える。 -/
theorem Inv.setIface (h : Inv c) {iface : Phase Nat Nat} (hstate : (c.half d).state = .ready)
    (hbusy : ∀ len, iface ≠ .busy len) (hasked : ∀ len, iface = .operationPending len → 0 < len) :
    Inv (c.setHalf d { c.half d with iface := iface }) := by
  have hhalf := h.1.halves d
  have hne : ∀ state, state ≠ HalfState.ready → (c.half d).state ≠ state := fun state hne heq =>
    hne (heq.symm.trans hstate)
  refine inv_of_finished h.1 ⟨hhalf.waiting_busy, hhalf.job_busy, fun hb => ?_, fun _ => hbusy,
    fun hn => ?_, fun len hl => ?_, fun hc => ?_, fun _ _ => hstate⟩ (hne .busy nofun) fun e _ =>
      h.2 e
  · exact absurd hb (hne .busy nofun)
  · exact absurd hn (hne .notInited nofun)
  · exact ⟨hasked len hl, hstate⟩
  · exact absurd hc (hne .initedClosed nofun)

theorem Inv.operation (h : Inv c) {len : Nat} {result : IoResult} (husable : c.Usable)
    (hasked : (c.half d).iface = .operationPending len) (hpossible : Possible d len result) :
    ∃ c', (c.setHalf d { c.half d with iface := .busy len }).ifHandler d len result = .ok c' ∧
      Inv c' := by
  obtain ⟨hpos, hready⟩ := (h.1.halves d).asked len hasked
  have hjob : (c.half d).job = false := by
    rw [← Bool.not_eq_true]
    intro hj
    rw [(h.1.halves d).job_busy hj] at hready
    cases hready
  have hset : (c.setHalf d { c.half d with iface := .busy len }).setHalf d
      { (c.setHalf d { c.half d with iface := .busy len }).half d with
        len := len, state := .busy } =
        c.setHalf d { c.half d with iface := .busy len, len := len, state := .busy } := by
    rw [half_setHalf_self]
    unfold setHalf
    rw [Function.update_idem]
  have hself :
      (c.setHalf d { c.half d with iface := .busy len, len := len, state := .busy }).half d =
        { c.half d with iface := .busy len, len := len, state := .busy } := half_setHalf_self ..
  rw [ifHandler, ensure_bind (by exact husable.1),
    ensure_bind (by rw [half_setHalf_self]; exact hready), ensure_bind hpos, hset]
  have hbase : Base (c.setHalf d
      { c.half d with iface := .busy len, len := len, state := .busy }) :=
    h.1.setHalf ⟨fun _ => rfl, fun _ => rfl, fun _ => rfl, nofun, nofun, nofun, nofun, nofun⟩
  refine transfer_ok hbase husable.1 ?_ ?_ (fun e he => (h.2 e).setHalf_of_ne he _) ?_ fun hw => ?_
  · rw [hself]
  · rw [hself]
    exact hjob
  · rw [hself]
    exact hpossible
  · -- 頼まれていない操作は、待たれていない
    have hbusy := (h.1.halves d).waiting_busy hw
    rw [hready] at hbusy
    cases hbusy

theorem Inv.job (h : Inv c) {result : IoResult} (husable : c.Usable)
    (hjob : (c.half d).job = true) (hpossible : Possible d (c.half d).len result)
    (htimely : c.waitEvents d = true → result.finishes = false) :
    ∃ c', (c.setHalf d { c.half d with job := false }).jobHandler d result = .ok c' ∧ Inv c' := by
  have hhalf := h.1.halves d
  have hbusy := hhalf.job_busy hjob
  have hself : (c.setHalf d { c.half d with job := false }).half d =
    { c.half d with job := false } := half_setHalf_self ..
  have hbusy' : ((c.setHalf d { c.half d with job := false }).half d).state = .busy := by
    rw [hself]
    exact hbusy
  rw [jobHandler, ensure_bind (by exact husable.1), ensure_bind hbusy']
  have hbase : Base (c.setHalf d { c.half d with job := false }) :=
    h.1.setHalf ⟨hhalf.waiting_busy, nofun, hhalf.busy, hhalf.ready, hhalf.notInited, hhalf.asked,
      hhalf.closed, hhalf.finished⟩
  refine transfer_ok hbase husable.1 hbusy' ?_ (fun e he => (h.2 e).setHalf_of_ne he _) ?_ htimely
  · rw [hself]
  · rw [hself]
    exact hpossible

theorem Inv.resetLimits (h : Inv c) :
    Inv { c with half := fun d => { c.half d with count := 0 } } := by
  refine ⟨{ h.1 with halves := fun d => ?_ }, fun d => h.2 d⟩
  have hhalf := h.1.halves d
  exact ⟨hhalf.waiting_busy, hhalf.job_busy, hhalf.busy, hhalf.ready, hhalf.notInited, hhalf.asked,
          hhalf.closed, hhalf.finished⟩

theorem inv_step (c : BConnection) (e : ConnectionEvent) (r : Except Fault BConnection)
    (h : Inv c) (htimely : c.Timely e) (hstep : c.step e = some r) : ∃ c', r = .ok c' ∧ Inv c' := by
  unfold step at hstep
  split at hstep
  next d =>
    split at hstep
    next hok =>
      rw [asyncInit, ensure_bind hok.1.1, ensure_bind hok.2.1] at hstep
      exact ⟨_, (Option.some.inj hstep).symm, h.init hok.2.1⟩
    next => cases hstep
  next d =>
    split at hstep
    next hinited =>
      obtain ⟨c', hc', hinv⟩ := h.free hinited
      exact ⟨c', (Option.some.inj hstep).symm.trans hc', hinv⟩
    next => cases hstep
  next d len =>
    split at hstep
    next hok =>
      refine ⟨_, (Option.some.inj hstep).symm, h.setIface ?_ (fun _ => nofun) fun _ hl =>
        Phase.operationPending.inj hl ▸ hok.2.2.2⟩
      -- 何も頼まれていない interface は、頼まれた操作も閉じた相手も持たない
      rcases hok.2.1 with hready | hbusy | ⟨-, hclosed⟩
      · exact hready
      · have hiface := (h.1.halves d).busy hbusy
        rw [hok.2.2.1] at hiface
        cases hiface
      · obtain ⟨len', hiface⟩ := (h.1.halves d).closed hclosed
        rw [hok.2.2.1] at hiface
        cases hiface
    next => cases hstep
  next d result =>
    split at hstep
    next len hasked =>
      split at hstep
      next hok =>
        obtain ⟨c', hc', hinv⟩ := h.operation hok.1 hasked hok.2
        exact ⟨c', (Option.some.inj hstep).symm.trans hc', hinv⟩
      next => cases hstep
    next => cases hstep
  next d =>
    split at hstep
    next n hdone =>
      exact ⟨_, (Option.some.inj hstep).symm, h.setIface ((h.1.halves d).finished n hdone)
        (fun _ => nofun) nofun⟩
    next => cases hstep
  next events result =>
    split at hstep
    next hok =>
      obtain ⟨c', hc', hinv⟩ := h.fd hok.1 hok.2.1 hok.2.2 htimely
      exact ⟨c', (Option.some.inj hstep).symm.trans hc', hinv⟩
    next => cases hstep
  next d result =>
    split at hstep
    next hok =>
      obtain ⟨c', hc', hinv⟩ := h.job hok.1 hok.2.1 hok.2.2 htimely
      exact ⟨c', (Option.some.inj hstep).symm.trans hc', hinv⟩
    next => cases hstep
  next => exact ⟨_, (Option.some.inj hstep).symm, h.resetLimits⟩

theorem inv_init : Inv init :=
  ⟨⟨rfl, fun _ => rfl, fun _ _ => rfl,
    fun _ => ⟨nofun, nofun, nofun, nofun, fun _ => rfl, nofun, nofun, nofun⟩, nofun⟩, nofun⟩

instance : ∀ (c : BConnection) (e : ConnectionEvent), Decidable (c.Timely e)
  | _, .fd _ _ => inferInstanceAs (Decidable (∀ _, _ → _ → _ ∧ _))
  | _, .job _ _ => inferInstanceAs (Decidable (_ → _))
  | _, .init _ | _, .free _ | _, .request _ _ | _, .operation _ _ | _, .done _ | _, .resetLimits =>
    .isTrue trivial

/-- 何も待たずに止まることはなく、済んだ操作に触れることもない。 -/
structure Sound (c : BConnection) : Prop where
  /-- 頼まれている操作は、reactor が待っているか、job が積まれているか、誤りを知らせてある。 -/
  awaited : ∀ d, (c.half d).state = .busy →
    c.waitEvents d = true ∧ c.registered = true ∧ c.fdEvents d = true ∨ (c.half d).job = true ∨
      c.errorReported = true
  waiting : ∀ d, c.waitEvents d = true → (c.half d).state = .busy
  hup : c.isHupd = true → c.registered = false
  calls : ∀ state ∈ c.calls, state = .busy

theorem Inv.sound (h : Inv c) : Sound c where
  awaited := by
    intro d hbusy
    refine (h.2 d hbusy).imp_left fun ⟨hw, hreg⟩ => ⟨hw, hreg, ?_⟩
    rw [h.1.synced hreg]
    exact hw
  waiting := fun d => (h.1.halves d).waiting_busy
  hup := by
    intro hhup
    rw [h.1.hup, Bool.not_eq_true'] at hhup
    exact hhup
  calls := h.1.calls

end BConnection

/--
**`BConnection` は、何も待たずに止まることも、済んだ操作に触れることもない。**

知らせが起こした操作のうち、待っていたのに知らせに含まれていないものが済まない限り、頼むこと、数の限り、descriptor の知らせ、`read` と `write` の
結果がどのような順に起きても、故障しない。頼まれている操作は待たれているか、job が積まれているか、誤りを知らせてある。待たれているのは頼まれている
操作だけで、HUP の後は登録が外れている。
-/
theorem connection_sound (events : List ConnectionEvent) (r : Except Fault BConnection)
    (htimely : Meets (guarded BConnection.step) (OkThen BConnection.Timely) (.ok .init) events)
    (hrun : exec (guarded BConnection.step) (.ok .init) events = some r) :
    ∃ c, r = .ok c ∧ c.Sound := by
  obtain ⟨c, rfl, hinv⟩ := exec_safe BConnection.inv_step BConnection.inv_init htimely hrun
  exact ⟨c, rfl, hinv.sound⟩

/-- 向き `d` の知らせだけ。 -/
def readyEvents (d : Dir) : FdEvents := ⟨fun e => decide (e = d), false, false⟩

/-- `ERROR` だけの知らせ。 -/
def errorEvents : FdEvents := ⟨fun _ => false, true, false⟩

/-- 送る方だけの結果。 -/
def sendResult (result : IoResult) : Dir → IoResult
  | .send => result
  | .recv => .wouldBlock

/-- 送ろうとしたが、待つことになる。 -/
def waitingSend : List ConnectionEvent :=
  [.init .send, .request .send 10, .operation .send .wouldBlock]

theorem connection_sound_waitingSend :
    ∃ c, exec (guarded BConnection.step) (.ok .init)
        (waitingSend ++ [.fd errorEvents (sendResult .wouldBlock), .resetLimits,
          .fd (readyEvents .send) (sendResult (.bytes 4))]) = some (.ok c) ∧
      ((c.half .send).iface = .donePending 4 ∧ c.waitEvents .send = false) ∧ c.Sound := by
  obtain ⟨c, hrun, hc⟩ := exec_ok_exists BConnection.step .init
    (waitingSend ++ [.fd errorEvents (sendResult .wouldBlock), .resetLimits,
          .fd (readyEvents .send) (sendResult (.bytes 4))])
    (fun c => (c.half .send).iface = .donePending 4 ∧ c.waitEvents .send = false)
      (by decide +kernel)
  obtain ⟨c', hc', hsound⟩ := connection_sound _ _ (by decide +kernel) hrun
  obtain rfl := Except.ok.inj hc'
  exact ⟨c, hrun, hc, hsound⟩

/--
待っている送信が `ERROR` だけの知らせで起こされ、そこで済むと、`WRITE` が `wait_events` に残る。

次に `WRITE` が知らされると、頼まれていない送信が起こされ、`ASSERT` に失敗する。
-/
theorem error_wakeup_leaves_write :
    (∃ c, exec (guarded BConnection.step) (.ok .init)
        (waitingSend ++ [.fd errorEvents (sendResult (.bytes 10)), .done .send]) = some (.ok c) ∧
      c.waitEvents .send = true ∧ (c.half .send).state = .ready) ∧
    exec (guarded BConnection.step) (.ok .init)
        (waitingSend ++ [.fd errorEvents (sendResult (.bytes 10)), .done .send,
          .fd (readyEvents .send) (sendResult (.bytes 10))]) =
      some (.error (.reject .failed)) := by
  refine ⟨exec_ok_exists BConnection.step .init
    (waitingSend ++ [.fd errorEvents (sendResult (.bytes 10)), .done .send])
    (fun c => c.waitEvents .send = true ∧ (c.half .send).state = .ready) (by decide +kernel), ?_⟩
  rfl

end Reactor
