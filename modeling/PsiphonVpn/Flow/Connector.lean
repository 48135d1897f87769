import PsiphonVpn.Flow.Interface

/-!
# 接続し直される packet の流れ

`UdpGwClient` の fair queue から server までの、送る側の部品のつながり。

```
fair queue → PacketPassConnector → PacketStreamSender → server への stream
```

`flow/PacketPassConnector.c` は出力の有無によらず packet を一つ受け取り、出力がつながればそれを渡す。
`flow/PacketStreamSender.c` は packet を stream に少しずつ書く。sender と stream は server との接続ごとに作られ、
`UdpGwClient_DisconnectServer` で失われる。その時に番を待っていた job も一緒に失われる。

三つの interface の job と、stream に書かれることを事象とし、reactor がどの順に走らせてもよいとする。packet の記憶は、終わったと
告げられるまで変わらないので、packet をその byte で表す。

state には、渡された packet、接続ごとに書かれた byte、connector が終えた数、fair queue に終わったと告げた数を添える。
-/

namespace Flow

open Infra

/-- `inPacket` は `in` と `in_len` で、`in_len == -1` なら `none`。 -/
structure PacketPassConnector where
  inputMtu : Nat
  input : Phase (List UInt8) Unit
  inPacket : Option (List UInt8)
  deriving DecidableEq, Repr

/-- `inPacket` は `in` と `in_len` で、`in_len == -1` なら `none`。 -/
structure PacketStreamSender where
  mtu : Nat
  input : Phase (List UInt8) Unit
  inPacket : Option (List UInt8)
  inUsed : Nat
  deriving DecidableEq, Repr

/-- server との接続の送る側。`output` は stream の `StreamPassInterface` で、まだ書いていない byte を渡す。 -/
structure Server where
  sender : PacketStreamSender
  output : Phase (List UInt8) Nat
  deriving DecidableEq, Repr

namespace Server

/-- `PacketStreamSender_Init` -/
def init (mtu : Nat) : Server := ⟨⟨mtu, .none, none, 0⟩, .none⟩

/-- sender の入力への `PacketPassInterface_Sender_Send` -/
def senderSend (v : Server) (data : List UInt8) : Except Fault Server := do
  ensure (data.length ≤ v.sender.mtu)
  let input ← v.sender.input.send data
  pure { v with sender.input := input }

/-- `send_data` -/
def sendData (v : Server) : Except Fault Server :=
  match v.sender.inPacket with
  | none => .error (.reject .failed)
  | some p =>
    if v.sender.inUsed < p.length then do
      let output ← v.output.send (p.drop v.sender.inUsed)
      pure { v with output := output }
    else do
      let input ← v.sender.input.done ()
      pure { v with sender.inPacket := none, sender.input := input }

/-- `PacketStreamSender` の `input_handler_send` -/
def inputHandlerSend (v : Server) (data : List UInt8) : Except Fault Server := do
  ensure (v.sender.inPacket = none)
  sendData { v with sender.inPacket := some data, sender.inUsed := 0 }

/-- `PacketStreamSender` の `output_handler_done` -/
def outputHandlerDone (v : Server) (dataLen : Nat) : Except Fault Server :=
  match v.sender.inPacket with
  | none => .error (.reject .failed)
  | some p => do
    ensure (0 < dataLen)
    ensure (dataLen ≤ p.length - v.sender.inUsed)
    sendData { v with sender.inUsed := v.sender.inUsed + dataLen }

end Server

/-- 一つの接続に書かれた byte と、接続した時に connector が終えていた packet の数。 -/
structure Conn where
  first : Nat
  bytes : List UInt8
  deriving DecidableEq, Repr

/-- `conns` は新しい順で、接続中ならその先頭が今の接続である。 -/
structure Link where
  connector : PacketPassConnector
  server : Option Server
  handed : List (List UInt8)
  conns : List Conn
  passed : Nat
  told : Nat
  deriving DecidableEq, Repr

inductive LinkEvent where
  /-- fair queue が packet を渡す。 -/
  | hand (packet : List UInt8)
  /-- connector の入力の job。 -/
  | inputOperation
  | inputDone
  /-- sender の入力の job。 -/
  | senderOperation
  | senderDone
  /-- stream の job。 -/
  | outputOperation
  | outputDone
  /-- stream に `n` byte が書かれる。 -/
  | write (n : Nat)
  | connectServer
  | disconnectServer
  deriving DecidableEq, Repr

namespace Link

/-- `PacketPassConnector_Init` -/
def init (mtu : Nat) : Link := ⟨⟨mtu, .none, none⟩, none, [], [], 0, 0⟩

/-- 出力があれば、それに packet を渡す。 -/
def forward (l : Link) (data : List UInt8) : Except Fault (Option Server) :=
  match l.server with
  | none => .ok none
  | some v => do
    let v ← v.senderSend data
    pure (some v)

/-- `PacketPassConnector` の `input_handler_send` -/
def inputHandlerSend (l : Link) (data : List UInt8) : Except Fault Link := do
  ensure (data.length ≤ l.connector.inputMtu)
  ensure (l.connector.inPacket = none)
  let server ← l.forward data
  pure { l with connector.inPacket := some data, server := server }

/-- `PacketPassConnector` の `output_handler_done` -/
def outputHandlerDone (l : Link) : Except Fault Link := do
  ensure (l.connector.inPacket ≠ none)
  ensure (l.server ≠ none)
  let input ← l.connector.input.done ()
  pure { l with connector.inPacket := none, connector.input := input, passed := l.passed + 1 }

/-- `PacketPassConnector_ConnectOutput`。持っている packet があれば渡し直す。 -/
def connectOutput (l : Link) (v : Server) : Except Fault Server := do
  ensure (l.server = none)
  ensure (l.connector.inputMtu ≤ v.sender.mtu)
  match l.connector.inPacket with
  | none => pure v
  | some p => v.senderSend p

/-- `UdpGwClient_ConnectServer` の送る側。 -/
def connectServer (l : Link) : Except Fault Link := do
  let v ← l.connectOutput (Server.init l.connector.inputMtu)
  pure { l with server := some v, conns := ⟨l.passed, []⟩ :: l.conns }

/-- 今の接続に `data` が書かれる。 -/
def wrote (l : Link) (data : List UInt8) : List Conn :=
  match l.conns with
  | [] => []
  | c :: older => { c with bytes := c.bytes ++ data } :: older

/-- sender の入力の job が走る時の、connector との間。`state` を変えてから handler を呼ぶ。 -/
def runSender (l : Link) (v : Server) : LinkEvent → Option (Except Fault Link)
  | .senderOperation =>
    match v.sender.input with
    | .operationPending p => some (do
        let v ← { v with sender.input := .busy p }.inputHandlerSend p
        pure { l with server := some v })
    | _ => none
  | .senderDone =>
    match v.sender.input with
    | .donePending _ =>
      some ({ l with server := some { v with sender.input := .none } }.outputHandlerDone)
    | _ => none
  | .outputOperation =>
    match v.output with
    | .operationPending data => some (.ok { l with server := some { v with output := .busy data } })
    | _ => none
  | .write n =>
    match v.output with
    | .busy data =>
      if 0 < n ∧ n ≤ data.length then
        some (do
          let output ← v.output.done n
          pure { l with server := some { v with output := output }, conns := l.wrote (data.take n)
            })
      else none
    | _ => none
  | .outputDone =>
    match v.output with
    | .donePending n => some (do
        let v ← { v with output := .none }.outputHandlerDone n
        pure { l with server := some v })
    | _ => none
  | _ => none

def step (l : Link) : LinkEvent → Option (Except Fault Link)
  | .hand p =>
    match l.connector.input with
    | .none =>
      if p.length ≤ l.connector.inputMtu then
        some (do
          let input ← l.connector.input.send p
          pure { l with connector.input := input, handed := l.handed ++ [p] })
      else none
    | _ => none
  | .inputOperation =>
    match l.connector.input with
    | .operationPending p => some ({ l with connector.input := .busy p }.inputHandlerSend p)
    | _ => none
  | .inputDone =>
    match l.connector.input with
    | .donePending _ => some (.ok { l with connector.input := .none, told := l.told + 1 })
    | _ => none
  | .connectServer =>
    match l.server with
    | none => some l.connectServer
    | some _ => none
  | .disconnectServer =>
    match l.server with
    | none => none
    | some _ => some (.ok { l with server := none })
  | ev =>
    match l.server with
    | none => none
    | some v => l.runSender v ev

end Link

end Flow
