import Mathlib.Algebra.Group.Int.Defs
import Mathlib.Algebra.Group.Nat.Defs
import PsiphonVpn.Infra.Checked
import PsiphonVpn.Infra.SearchTree
import PsiphonVpn.Flow.Interface

/-!
# `PacketPassFairQueue`

`flow/PacketPassFairQueue.c`。いくつもの flow が packet を頼み、queue はそれらを一つずつ出力に渡す。flow ごとに仮想の時刻を持ち、
送った分だけ進める。次に送るのは、待っている flow のうち時刻の最も早いものである。

## model

* **flow** は address で指す。構造体の中身は `flow` にあり、木と list は address だけを持つ。木は通りがけ順の列で表し
  （`Structure.insert_spec`）、鍵は構造体の中の時刻と address である
* **時刻** は `uint64_t` で、和と差は 2⁶⁴ を法とする
* **事象** flow を足すこと、除くこと、packet を頼むこと、出力が終えること、job が走ること。job の走る順は問わない
* **解放** `PacketPassFairQueue_PrepareFree` の後は、flow を除くことしか許されない

`submitted`・`passed`・`finished`・`acknowledged`・`dropped` は、program が持たない記録である。
packet の `source` と `serial`、出力の `donePending` に添えた packet も同じ。
-/

namespace Flow

open Infra

/-- `source` は頼まれた flow、`serial` は頼まれた順の番号。 -/
structure Packet where
  data : Option Nat
  len : Nat
  source : Nat
  serial : Nat
  deriving DecidableEq, Repr

structure PacketPassFairQueueFlow where
  handlerBusy : Bool
  input : Phase Packet Unit
  time : Nat
  isQueued : Bool
  queued : Packet
  deriving DecidableEq, Repr

structure FairConfig where
  /-- 出力の MTU。 -/
  mtu : Nat
  hasCancel : Bool
  useCancel : Bool
  packetWeight : Nat
  /-- `FAIRQUEUE_MAX_TIME` -/
  maxTime : Nat
  maxTime_lt : maxTime < 2 ^ 64

structure PacketPassFairQueue where
  cfg : FairConfig
  flow : Nat → PacketPassFairQueueFlow
  sendingFlow : Option Nat
  sendingLen : Nat
  previousFlow : Option Nat
  queuedTree : List Nat
  flowsList : List Nat
  freeing : Bool
  /-- `schedule_job` が積まれている。 -/
  scheduleJob : Bool
  output : Phase Packet Packet
  cancelRequested : Bool
  -- 記録
  /-- flow に頼まれた packet。 -/
  submitted : List Packet
  /-- 出力に渡した packet。 -/
  passed : List Packet
  /-- 出力が終えたと告げた packet。 -/
  finished : List Packet
  /-- 終わったと告げた flow と、その flow に頼まれていた packet。 -/
  acknowledged : List (Nat × Packet)
  /-- flow を除いた時に残っていた packet。 -/
  dropped : List Packet

/-- 頼まれて、まだ終えていない操作。 -/
def Phase.pending {δ ρ : Type} : Phase δ ρ → List δ
  | .operationPending request => [request]
  | .busy request => [request]
  | _ => []

/-- 渡されて、まだ終わったと告げていない packet。 -/
def Phase.carried : Phase Packet Packet → List Packet
  | .none => []
  | .operationPending p => [p]
  | .busy p => [p]
  | .donePending p => [p]

/-- `uint64_t` の和。 -/
def add64 (a b : Nat) : Nat := (a + b) % 2 ^ 64

/-- `uint64_t` の差。 -/
def sub64 (a b : Nat) : Nat := (a + 2 ^ 64 - b) % 2 ^ 64

/-- `compare_flows`。時刻と address の組を比べる。 -/
def compareFlows (f₁ f₂ : Nat × Nat) : Ordering := (compare f₁.1 f₂.1).then (compare f₁.2 f₂.2)

inductive FairEvent where
  /-- `PacketPassFairQueueFlow_Init` -/
  | addFlow (f : Nat)
  /-- `PacketPassFairQueueFlow_Free` -/
  | freeFlow (f : Nat)
  /-- flow の入力への `PacketPassInterface_Sender_Send` -/
  | submit (f : Nat) (data : Option Nat) (len : Nat)
  /-- flow の入力の `_PacketPassInterface_job_operation` -/
  | inputOperation (f : Nat)
  /-- flow の入力の `_PacketPassInterface_job_done` -/
  | inputDone (f : Nat)
  /-- 出力の `_PacketPassInterface_job_operation` -/
  | outputOperation
  /-- 出力の `PacketPassInterface_Done` -/
  | outputDone
  /-- 出力の `_PacketPassInterface_job_done` -/
  | outputHandler
  | scheduleJob
  /-- `PacketPassFairQueueFlow_RequestCancel` -/
  | requestCancel (f : Nat)
  /-- `PacketPassFairQueueFlow_SetBusyHandler` -/
  | setBusyHandler (f : Nat) (handler : Bool)
  /-- `PacketPassFairQueue_PrepareFree` -/
  | prepareFree
  deriving DecidableEq, Repr

namespace PacketPassFairQueue

def setFlow (m : PacketPassFairQueue) (f : Nat) (flow : PacketPassFairQueueFlow) :
    PacketPassFairQueue :=
  { m with flow := Function.update m.flow f flow }

/-- 木の鍵。 -/
def key (m : PacketPassFairQueue) (f : Nat) : Nat × Nat := ((m.flow f).time, f)

/-! ## 木 -/

/-- `PacketPassFairQueue__Tree_Insert`。同じ鍵があれば `ASSERT_EXECUTE` に失敗する。 -/
def treeInsert (m : PacketPassFairQueue) (f : Nat) : Except Fault PacketPassFairQueue :=
  match SearchTree.insert compareFlows m.key f m.queuedTree with
  | none => .error (.reject .failed)
  | some t => .ok { m with queuedTree := t }

/-- `PacketPassFairQueue__Tree_Remove` -/
def treeRemove (m : PacketPassFairQueue) (f : Nat) : Except Fault PacketPassFairQueue := do
  ensure (f ∈ m.queuedTree)
  pure { m with queuedTree := m.queuedTree.erase f }

/-! ## 時刻 -/

/-- 待っている flow のうち最も早いものの時刻。 -/
def firstTime (m : PacketPassFairQueue) : Except Fault (Option Nat) :=
  match m.queuedTree.head? with
  | none => pure none
  | some firstFlow => do
    ensure ((m.flow firstFlow).isQueued = true)
    pure (some (m.flow firstFlow).time)

/-- `get_current_time`。`have` は `Option` で表す。 -/
def getCurrentTime (m : PacketPassFairQueue) : Except Fault Nat :=
  match m.sendingFlow with
  | some f => pure (m.flow f).time
  | none => do
    let first ← m.firstTime
    match m.previousFlow with
    | none => pure (first.getD 0)
    | some prev =>
      match first with
      | none => pure (m.flow prev).time
      | some time => pure (if (m.flow prev).time < time then (m.flow prev).time else time)

/-- `increment_sent_flow` の loop の一回。 -/
def subtractTime (m : PacketPassFairQueue) (f subtract someflow : Nat) :
    Except Fault PacketPassFairQueue :=
  if subtract > (m.flow someflow).time ∧ someflow ≠ f then do
    ensure ((m.flow someflow).isQueued = false)
    pure (m.setFlow someflow { m.flow someflow with time := 0 })
  else pure
    (m.setFlow someflow { m.flow someflow with time := sub64 (m.flow someflow).time subtract })

def subtractTimes (f subtract : Nat) : List Nat → PacketPassFairQueue →
    Except Fault PacketPassFairQueue
  | [], m => pure m
  | someflow :: rest, m => do
    let m ← m.subtractTime f subtract someflow
    subtractTimes f subtract rest m

/-- `increment_sent_flow` の、時刻が溢れるときの部分。 -/
def renormalise (m : PacketPassFairQueue) (f : Nat) : Except Fault PacketPassFairQueue := do
  let first ← m.firstTime
  subtractTimes f (first.getD (m.flow f).time) m.flowsList m

/-- 溢れるときだけ、すべての flow の時刻を引き下げる。 -/
def renormaliseIf (m : PacketPassFairQueue) (f amount : Nat) : Except Fault PacketPassFairQueue :=
  if amount > sub64 m.cfg.maxTime (m.flow f).time then m.renormalise f else pure m

/-- `increment_sent_flow` -/
def incrementSentFlow (m : PacketPassFairQueue) (f amount : Nat) :
    Except Fault PacketPassFairQueue := do
  ensure (amount ≤ m.cfg.maxTime)
  ensure ((m.flow f).isQueued = false)
  ensure (m.sendingFlow = none)
  let m ← m.renormaliseIf f amount
  pure (m.setFlow f { m.flow f with time := add64 (m.flow f).time amount })

/-! ## 送ること -/

/-- 出力への `PacketPassInterface_Sender_Send` -/
def senderSend (m : PacketPassFairQueue) (p : Packet) : Except Fault PacketPassFairQueue := do
  ensure (p.len ≤ m.cfg.mtu)
  ensure (¬ 0 < p.len ∨ p.data ≠ none)
  let output ← m.output.send p
  pure { m with output := output, cancelRequested := false, passed := m.passed ++ [p] }

/-- `schedule` -/
def schedule (m : PacketPassFairQueue) : Except Fault PacketPassFairQueue := do
  ensure (m.sendingFlow = none)
  ensure (m.previousFlow = none)
  ensure (m.freeing = false)
  match m.queuedTree.head? with
  | none => .error (.reject .failed)
  | some qflow => do
    ensure ((m.flow qflow).isQueued = true)
    let m ← m.treeRemove qflow
    let m := m.setFlow qflow { m.flow qflow with isQueued := false }
    let m ← m.senderSend (m.flow qflow).queued
    pure { m with sendingFlow := some qflow, sendingLen := (m.flow qflow).queued.len }

def scheduleIf (m : PacketPassFairQueue) (c : Prop) [Decidable c] :
    Except Fault PacketPassFairQueue :=
  if c then m.schedule else pure m

/-- `schedule_job_handler` -/
def scheduleJobHandler (m : PacketPassFairQueue) : Except Fault PacketPassFairQueue := do
  ensure (m.sendingFlow = none)
  ensure (m.freeing = false)
  let m := { m with previousFlow := none }
  m.scheduleIf (m.queuedTree ≠ [])

/-! ## 頼まれることと終わること -/

/-- `input_handler_send` の、時刻を決める部分。 -/
def raiseTime (m : PacketPassFairQueue) (f : Nat) : Except Fault PacketPassFairQueue :=
  if m.previousFlow = some f then pure { m with previousFlow := none }
  else do
    let time ← m.getCurrentTime
    pure (m.setFlow f { m.flow f with time := max (m.flow f).time time })

/-- `input_handler_send` -/
def inputHandlerSend (m : PacketPassFairQueue) (f : Nat) (p : Packet) :
    Except Fault PacketPassFairQueue := do
  ensure (m.sendingFlow ≠ some f)
  ensure ((m.flow f).isQueued = false)
  ensure (m.freeing = false)
  let m ← m.raiseTime f
  let m := m.setFlow f { m.flow f with queued := p }
  let m ← m.treeInsert f
  let m := m.setFlow f { m.flow f with isQueued := true }
  m.scheduleIf (m.sendingFlow = none ∧ m.scheduleJob = false)

/-- flow の入力への `PacketPassInterface_Done` -/
def acknowledge (m : PacketPassFairQueue) (f : Nat) : Except Fault PacketPassFairQueue := do
  let input ← (m.flow f).input.done ()
  pure { m.setFlow f { m.flow f with input := input } with
    acknowledged := m.acknowledged ++ (m.flow f).input.pending.map (f, ·) }

/-- `output_handler_done`。最後に呼ばれる busy handler のすることは、後の事象である。 -/
def outputHandlerDone (m : PacketPassFairQueue) : Except Fault PacketPassFairQueue := do
  ensure (m.previousFlow = none)
  ensure (m.scheduleJob = false)
  ensure (m.freeing = false)
  match m.sendingFlow with
  | none => .error (.reject .failed)
  | some f => do
    ensure ((m.flow f).isQueued = false)
    let m := { m with sendingFlow := none, previousFlow := some f }
    let m ← m.incrementSentFlow f (add64 m.cfg.packetWeight m.sendingLen)
    let m := { m with scheduleJob := true }
    let m ← m.acknowledge f
    pure (m.setFlow f { m.flow f with handlerBusy := false })

/-! ## 作ることと除くこと -/

/-- まだ何も頼まれていない flow。 -/
def blankFlow : PacketPassFairQueueFlow where
  handlerBusy := false
  input := .none
  time := 0
  isQueued := false
  queued := ⟨none, 0, 0, 0⟩

/-- `PacketPassFairQueue_Init` -/
def init (c : FairConfig) : Except Fault (Option PacketPassFairQueue) := do
  ensure (0 < c.packetWeight)
  ensure (c.useCancel = false ∨ c.hasCancel = true)
  if c.mtu ≤ c.maxTime ∧ c.packetWeight ≤ c.maxTime - c.mtu then
    pure (some
      { cfg := c, flow := fun _ => blankFlow, sendingFlow := none, sendingLen := 0,
        previousFlow := none, queuedTree := [], flowsList := [], freeing := false,
        scheduleJob := false, output := .none, cancelRequested := false, submitted := [],
        passed := [], finished := [], acknowledged := [], dropped := [] })
  else pure none

/-- `PacketPassFairQueueFlow_Init` -/
def flowInit (m : PacketPassFairQueue) (f : Nat) : Except Fault PacketPassFairQueue := do
  ensure (m.freeing = false)
  pure { m.setFlow f blankFlow with flowsList := m.flowsList ++ [f] }

def treeRemoveIf (m : PacketPassFairQueue) (f : Nat) (c : Prop) [Decidable c] :
    Except Fault PacketPassFairQueue :=
  if c then m.treeRemove f else pure m

/-- `PacketPassFairQueueFlow_Free` -/
def flowFree (m : PacketPassFairQueue) (f : Nat) : Except Fault PacketPassFairQueue := do
  ensure (m.freeing = true ∨ m.sendingFlow ≠ some f)
  let m := { m with sendingFlow := if m.sendingFlow = some f then none else m.sendingFlow }
  let m := { m with previousFlow := if m.previousFlow = some f then none else m.previousFlow }
  let m ← m.treeRemoveIf f ((m.flow f).isQueued = true)
  pure { m with flowsList := m.flowsList.erase f, dropped := m.dropped ++ (m.flow f).input.pending }

/-- 出力への `PacketPassInterface_Sender_RequestCancel`。渡す前なら、渡さずに終える。 -/
def senderRequestCancel (m : PacketPassFairQueue) : Except Fault PacketPassFairQueue := do
  ensure (m.output ≠ .none)
  ensure (m.cfg.hasCancel = true)
  if m.cancelRequested then pure m
  else
    match m.output with
    | .operationPending p => pure { m with cancelRequested := true, output := .donePending p }
    | _ => pure { m with cancelRequested := true }

/-- `PacketPassFairQueueFlow_RequestCancel` -/
def requestCancel (m : PacketPassFairQueue) (f : Nat) : Except Fault PacketPassFairQueue := do
  ensure (m.sendingFlow = some f)
  ensure (m.cfg.useCancel = true)
  ensure (m.freeing = false)
  ensure (m.scheduleJob = false)
  m.senderRequestCancel

/-! ## 一歩 -/

/-- flow の入力の state を書き換える。 -/
def setInput (m : PacketPassFairQueue) (f : Nat) (input : Phase Packet Unit) :
    PacketPassFairQueue :=
  m.setFlow f { m.flow f with input := input }

/-- 頼まれた packet。番号は頼まれた順である。 -/
def newPacket (m : PacketPassFairQueue) (f : Nat) (data : Option Nat) (len : Nat) : Packet :=
  ⟨data, len, f, m.submitted.length⟩

/-- 解放を始めていないときに起こりうること。 -/
def stepRunning (m : PacketPassFairQueue) : FairEvent → Option (Except Fault PacketPassFairQueue)
  | .addFlow f => if f ∈ m.flowsList then none else some (m.flowInit f)
  | .submit f data len =>
    if f ∈ m.flowsList ∧ (m.flow f).input = .none ∧ len ≤ m.cfg.mtu ∧ (¬ 0 < len ∨ data ≠ none) then
      some (.ok { m.setInput f (.operationPending (m.newPacket f data len)) with
        submitted := m.submitted ++ [m.newPacket f data len] })
    else none
  | .inputOperation f =>
    if f ∈ m.flowsList then
      match (m.flow f).input with
      | .operationPending p => some ((m.setInput f (.busy p)).inputHandlerSend f p)
      | _ => none
    else none
  | .inputDone f =>
    if f ∈ m.flowsList then
      match (m.flow f).input with
      | .donePending _ => some (.ok (m.setInput f .none))
      | _ => none
    else none
  | .outputOperation =>
    match m.output with
    | .operationPending p => some (.ok { m with output := .busy p })
    | _ => none
  | .outputDone =>
    match m.output with
    | .busy p => some (.ok { m with output := .donePending p })
    | _ => none
  | .outputHandler =>
    match m.output with
    | .donePending p =>
      some { m with output := .none, finished := m.finished ++ [p] }.outputHandlerDone
    | _ => none
  | .scheduleJob =>
    if m.scheduleJob then some { m with scheduleJob := false }.scheduleJobHandler else none
  | .requestCancel f =>
    if m.sendingFlow = some f ∧ m.cfg.useCancel = true then some (m.requestCancel f) else none
  | .setBusyHandler f handler =>
    if m.sendingFlow = some f then some (.ok (m.setFlow f { m.flow f with handlerBusy := handler }))
      else none
  | _ => none

/-- flow は、解放を始めてからでなければ、送っている間に除かない。 -/
def step (m : PacketPassFairQueue) : FairEvent → Option (Except Fault PacketPassFairQueue)
  | .prepareFree => some (.ok { m with freeing := true })
  | .freeFlow f =>
    if f ∈ m.flowsList ∧ (m.freeing = true ∨ m.sendingFlow ≠ some f) then some (m.flowFree f)
      else none
  | e => if m.freeing then none else m.stepRunning e

end PacketPassFairQueue

end Flow
