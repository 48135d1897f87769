import PsiphonVpn.Infra.Checked

/-!
# TCP の中継

`tun2socks.c` は、TUN から来た TCP 接続を lwIP で終端し、接続ごとに SOCKS 接続を一つ作って、
その間で byte を写す。接続一つの状態が `struct tcp_client` で、lwIP の callback と SOCKS の callback が
これを書き換える。二つの側は別々に閉じ、両方が閉じた時に `client_dealloc` される。

## model

* **一歩** は callback 一つである。lwIP の callback の中の `SYNC_COMMIT` は、その時までに溜まった job を
  実行する。そこでは SOCKS の callback がいくつでも、どの client についても走りうるので、
  `SYNC_COMMIT` に入る所と出る所で callback を二つの一歩に分け、間に SOCKS の事象を許す（`Frame`）。
  lwIP の callback は入れ子にならない。次の packet は、今の packet の処理が終わるまで読まれない
* **記憶** `conn i` は `i` 番目に受け入れた接続である。`client = none` は解放済みで、解放した後の読み書きは
  `Fault.useAfterFree` になる。pcb と `BSocksClient` の状態は client と別に持ち、client が解放された後も、
  callback が残っていれば呼ばれうる
* **lwIP** は、外した callback を呼ばない。`sent` は書かれてまだ確認されていない byte だけを知らせる。
  `tcp_sndbuf` は `TCP_SND_BUF` から未確認の byte 数を引いた値である。`tcp_write` と `tcp_output` は
  いつでも失敗しうる
* **SOCKS** は `BSocksClient_Free` の後には何も知らせない。送信は、渡された byte の空でない先頭部分を書いて
  終わる
* `buf[0 .. buf_used)` は `buf` に、`socks_recv_buf[0 .. used)` は `socksRecvBuf` に、list として持つ。
  `accept` が初期化しない field の値は任意である

接続ごとの `accepted` から `murdered` までは、program が持たない記録である。
-/

namespace Relay

open Infra

/-- `TCP_WND = 4 * TCP_MSS`。`buf` の大きさ。 -/
def tcpWnd : Nat := 4 * 1460

/-- `TCP_SND_BUF` -/
def tcpSndBuf : Nat := 16384

/-- `CLIENT_SOCKS_RECV_BUF_SIZE` -/
def clientSocksRecvBufSize : Nat := 8192

/-- program の故障。 -/
inductive Fault where
  | assertion
  | useAfterFree
  /-- 抜けた scope の dead 変数への書き込み。 -/
  | danglingPointer
  /-- relay の手を離れた pcb の使用。 -/
  | pcbClosed
  /-- 再帰や loop が見積もりより深い。 -/
  | recursion
  deriving DecidableEq, Repr

inductive Err where
  | ok | mem | abrt
  deriving DecidableEq, Repr

/-- `tcp_write` の結果。`other` は `ERR_MEM` 以外の error。 -/
inductive TcpWrite where
  | ok | mem | other
  deriving DecidableEq, Repr

/-- callback の中で lwIP がする返事。`tcpWrite` は呼ばれた順で、尽きたら成功とする。 -/
structure Lwip where
  tcpWrite : List TcpWrite := []
  tcpOutput : Bool := true
  deriving DecidableEq, Repr

/-- `struct tcp_client`。`deadClient` は `dead_client` が `NULL` でないこと。 -/
structure Client where
  clientClosed : Bool
  buf : List UInt8
  socksUp : Bool
  socksClosed : Bool
  socksRecvBuf : List UInt8
  socksRecvBufUsed : Int
  socksRecvBufSent : Nat
  socksRecvWaiting : Bool
  socksRecvTcpPending : Nat
  deadClient : Bool
  deriving DecidableEq, Repr

inductive Side where
  | client | socks
  deriving DecidableEq, Repr

/-- pcb が relay の手を離れた訳。 -/
inductive PcbEnd where
  | lwipError -- client_err_func
  | tcpWrite (e : TcpWrite)
  | tcpOutput
  | stuck -- 送るものも error もないのに、送りきれない
  | freed -- client_free_client
  | murdered
  deriving DecidableEq, Repr

/-- 接続一つ。 -/
structure Conn where
  client : Option Client
  -- pcb
  pcbOpen : Bool
  errCb : Bool
  recvCb : Bool
  sentCb : Bool
  sndBuf : Nat
  -- BSocksClient
  socksAlive : Bool
  socksEstablished : Bool
  /-- 書き終わっていない `StreamPassInterface_Sender_Send` に渡した byte。 -/
  sending : Option (List UInt8)
  receiving : Bool
  -- 記録
  allocated : Bool
  frees : Nat
  accepted : List UInt8
  written : List UInt8
  received : List UInt8
  queued : List UInt8
  acked : Nat
  recved : Nat
  firstClosed : Option Side
  pcbEnd : Option PcbEnd
  socksReported : Bool
  murdered : Bool
  deriving DecidableEq, Repr

/-- まだ受け入れていない接続。 -/
def Conn.none : Conn where
  client := .none
  pcbOpen := false
  errCb := false
  recvCb := false
  sentCb := false
  sndBuf := 0
  socksAlive := false
  socksEstablished := false
  sending := .none
  receiving := false
  allocated := false
  frees := 0
  accepted := []
  written := []
  received := []
  queued := []
  acked := 0
  recved := 0
  firstClosed := .none
  pcbEnd := .none
  socksReported := false
  murdered := false

/-- `DEAD_ENTER` が stack に置く変数。`prev` は前の pointer が `NULL` でないこと。 -/
structure DeadVar where
  killed : Bool
  prev : Bool
  deriving DecidableEq, Repr

/-- client 一つの callback が読み書きするもの。`dead` は、この client の callback が
`SYNC_COMMIT` の中にいる時のその変数である。 -/
structure Ctx where
  id : Nat
  numClients : Int
  tcpClients : List Nat
  dead : Option DeadVar
  conn : Conn
  deriving DecidableEq, Repr

abbrev M := Except Fault

namespace Ctx

/-- `client->…` の読み書き。 -/
def access (x : Ctx) : M Client :=
  match x.conn.client with
  | some c => .ok c
  | none => .error .useAfterFree

def setClient (x : Ctx) (c : Client) : Ctx := { x with conn := { x.conn with client := some c } }

/-- `client->pcb` を lwIP の関数に渡す。 -/
def usePcb (x : Ctx) : M Unit := if x.conn.pcbOpen then .ok () else .error .pcbClosed

/-- callback を外して pcb を手放す。`tcp_close` に失敗すれば `tcp_abort` するので、どちらでも残らない。 -/
def endPcb (x : Ctx) (r : PcbEnd) : Ctx :=
  { x with conn := { x.conn with
      pcbOpen := false, errCb := false, recvCb := false, sentCb := false, pcbEnd := some r } }

/-- 閉じた側の記録。 -/
def recordClosed (x : Ctx) (side : Side) : Ctx :=
  { x with conn := { x.conn with firstClosed := x.conn.firstClosed <|> some side } }

/-- `BSocksClient_Free` -/
def freeSocks (x : Ctx) : Ctx :=
  { x with conn := { x.conn with socksAlive := false, sending := none, receiving := false } }

end Ctx

/-! ## dead 変数 -/

/-- `DEAD_KILL(client->dead_client)` -/
def deadKill (x : Ctx) (pointer : Bool) : M Ctx :=
  match pointer, x.dead with
  | false, _ => .ok x
  | true, some v => .ok { x with dead := some { v with killed := true } }
  | true, none => .error .danglingPointer

/-- `DEAD_ENTER(client->dead_client)` -/
def deadEnter (x : Ctx) : M Ctx := do
  let c ← x.access
  return { x.setClient { c with deadClient := true } with
    dead := some { killed := false, prev := c.deadClient } }

/-- `DEAD_LEAVE2(client->dead_client)` と `DEAD_KILLED`。 -/
def deadLeave (x : Ctx) : M (Ctx × Bool) :=
  match x.dead with
  | none => .error .danglingPointer
  | some v =>
    if v.prev then .error .danglingPointer
    else if v.killed then .ok ({ x with dead := none }, true)
    else do
      let c ← x.access
      return ({ x.setClient { c with deadClient := v.prev } with dead := none }, false)

/-! ## 閉じる -/

def clientDealloc (x : Ctx) : M Ctx := do
  let c ← x.access
  check .assertion (c.clientClosed = true)
  check .assertion (c.socksClosed = true)
  check .assertion (0 < x.numClients)
  return { x with
    numClients := x.numClients - 1
    tcpClients := x.tcpClients.erase x.id
    conn := { x.conn with client := none, frees := x.conn.frees + 1 } }

/-- SOCKS が up なら、client からの受信を止める。 -/
def stopReceiving (c : Client) (x : Ctx) : M Ctx :=
  if c.socksUp = true ∧ c.clientClosed = false then do
    x.usePcb
    return { x with conn := { x.conn with recvCb := false } }
  else .ok x

-- 三つの関数は互いに呼び合う。自然数は呼び出しの深さの上限で、尽きれば故障とする
mutual

def clientHandleFreedClient : Nat → Ctx → M Ctx
  | 0, _ => .error .recursion
  | n + 1, x => do
    let c ← x.access
    check .assertion (c.clientClosed = false)
    let x ← deadKill x c.deadClient
    let x := (x.setClient { c with clientClosed := true }).recordClosed .client
    if c.buf ≠ [] ∧ c.socksClosed = false then return x
    else if c.socksClosed = false then clientFreeSocks n x
    else clientDealloc x

def clientFreeClient : Nat → Ctx → M Ctx
  | 0, _ => .error .recursion
  | n + 1, x => do
    let c ← x.access
    check .assertion (c.clientClosed = false)
    x.usePcb
    clientHandleFreedClient n (x.endPcb .freed)

def clientFreeSocks : Nat → Ctx → M Ctx
  | 0, _ => .error .recursion
  | n + 1, x => do
    let c ← x.access
    check .assertion (c.socksClosed = false)
    let x ← stopReceiving c x
    let x := (x.freeSocks.setClient { c with socksClosed := true }).recordClosed .socks
    if c.socksUp = true ∧ (0 ≤ c.socksRecvBufUsed ∨ 0 < c.socksRecvTcpPending) ∧
        c.clientClosed = false then return x
    else if c.clientClosed = false then clientFreeClient n x
    else clientDealloc x

end

/-- 呼び出しの深さは 4 を超えない。 -/
def depth : Nat := 4

/-- `r` は abort の訳の記録。 -/
def clientAbortClient (r : PcbEnd) (x : Ctx) : M Ctx := do
  let c ← x.access
  check .assertion (c.clientClosed = false)
  x.usePcb
  clientHandleFreedClient depth (x.endPcb r)

/-- `client_murder` の前半。 -/
def murderClient (c : Client) (x : Ctx) : M Ctx :=
  if c.clientClosed = false then do
    x.usePcb
    let x ← deadKill (x.endPcb .murdered) c.deadClient
    return (x.setClient { c with clientClosed := true }).recordClosed .client
  else .ok x

def clientMurder (x : Ctx) : M Ctx := do
  let c ← x.access
  let x ← murderClient c { x with conn.murdered := true }
  let c ← x.access
  let x :=
    if c.socksClosed = false then
      (x.freeSocks.setClient { c with socksClosed := true }).recordClosed .socks
    else x
  clientDealloc x

/-! ## SOCKS への送信 -/

/-- `StreamPassInterface_Sender_Send` -/
def senderSend (x : Ctx) (data : List UInt8) : M Ctx := do
  check .assertion (x.conn.socksAlive = true ∧ x.conn.sending = none ∧ data ≠ [])
  return { x with conn := { x.conn with sending := some data } }

def clientSendToSocks (x : Ctx) : M Ctx := do
  let c ← x.access
  check .assertion (c.socksClosed = false)
  check .assertion (c.socksUp = true)
  check .assertion (c.buf ≠ [])
  senderSend x c.buf

/-- client が開いていれば `tcp_recved` する。 -/
def confirmRecved (c : Client) (len : Nat) (x : Ctx) : M Ctx :=
  if c.clientClosed = false then do
    x.usePcb
    return { x with conn := { x.conn with recved := x.conn.recved + len } }
  else .ok x

def clientSocksSendHandlerDone (dataLen : Nat) (x : Ctx) : M Ctx := do
  let c ← x.access
  check .assertion (c.socksClosed = false)
  check .assertion (c.socksUp = true)
  check .assertion (c.buf ≠ [])
  check .assertion (0 < dataLen)
  check .assertion (dataLen ≤ c.buf.length)
  let x ← confirmRecved c dataLen (x.setClient { c with buf := c.buf.drop dataLen })
  if c.buf.drop dataLen ≠ [] then senderSend x (c.buf.drop dataLen)
  else if c.clientClosed = true then clientFreeSocks depth x
  else return x

/-! ## SOCKS からの受信 -/

/-- `StreamRecvInterface_Receiver_Recv` -/
def receiverRecv (x : Ctx) : M Ctx := do
  check .assertion (x.conn.socksAlive = true ∧ x.conn.receiving = false)
  return { x with conn := { x.conn with receiving := true } }

def clientSocksRecvInitiate (x : Ctx) : M Ctx := do
  let c ← x.access
  check .assertion (c.clientClosed = false)
  check .assertion (c.socksClosed = false)
  check .assertion (c.socksUp = true)
  check .assertion (c.socksRecvBufUsed = -1)
  receiverRecv x

def Client.advance (c : Client) (toWrite : Nat) : Client :=
  { c with
    socksRecvBufSent := c.socksRecvBufSent + toWrite
    socksRecvTcpPending := c.socksRecvTcpPending + toWrite }

/-- 成功した `tcp_write` の後。`toWrite` byte が pcb の送信待ちに入る。 -/
def Ctx.queue (x : Ctx) (c : Client) (toWrite : Nat) : Ctx :=
  { x with conn := { x.conn with
      client := some (c.advance toWrite)
      sndBuf := x.conn.sndBuf - toWrite
      queued := x.conn.queued ++ (c.socksRecvBuf.drop c.socksRecvBufSent).take toWrite } }

/-- `client_socks_recv_send_out` の loop の終わり方。 -/
inductive LoopEnd where
  | sent -- すべて書いた
  | full -- tcp_sndbuf が 0
  | error (e : TcpWrite)
  deriving DecidableEq, Repr

/-- `client_socks_recv_send_out` の do-while。一度回るごとに 1 byte 以上を書くか、抜ける。 -/
def sendLoop : Nat → List TcpWrite → Ctx → M (Ctx × LoopEnd)
  | 0, _, _ => .error .recursion
  | n + 1, replies, x => do
    let c ← x.access
    x.usePcb
    let toWrite := min (c.socksRecvBufUsed - c.socksRecvBufSent).toNat x.conn.sndBuf
    if toWrite = 0 then return (x, .full)
    match replies.headD .ok with
    | .ok =>
      let x := x.queue c toWrite
      if (c.socksRecvBufSent + toWrite : Int) < c.socksRecvBufUsed then sendLoop n replies.tail x
      else return (x, .sent)
    | e => return (x, .error e)

/-- 戻り値の `false` は `-1`、すなわち abort したことを表す。 -/
def clientSocksRecvSendOut (lw : Lwip) (x : Ctx) : M (Ctx × Bool) := do
  let c ← x.access
  check .assertion (c.clientClosed = false)
  check .assertion (c.socksUp = true)
  check .assertion (0 < c.socksRecvBufUsed)
  check .assertion (c.socksRecvBufSent < c.socksRecvBufUsed)
  check .assertion (c.socksRecvWaiting = false)
  let (x, loopEnd) ← sendLoop c.socksRecvBufUsed.toNat lw.tcpWrite x
  if loopEnd = .error .other then return (← clientAbortClient (.tcpWrite .other) x, false)
  -- tcp_output
  x.usePcb
  if lw.tcpOutput = false then return (← clientAbortClient .tcpOutput x, false)
  let c ← x.access
  if c.socksRecvBufSent < c.socksRecvBufUsed then
    if c.socksRecvTcpPending = 0 then
      let reason := if loopEnd = .error .mem then .tcpWrite .mem else .stuck
      return (← clientAbortClient reason x, false)
    return (x.setClient { c with socksRecvWaiting := true }, true)
  return (x.setClient { c with socksRecvBufUsed := -1 }, true)

def clientSocksRecvHandlerDone (dataLen : Nat) (lw : Lwip) (x : Ctx) : M Ctx := do
  let c ← x.access
  check .assertion (0 < dataLen)
  check .assertion (dataLen ≤ clientSocksRecvBufSize)
  check .assertion (c.socksClosed = false)
  check .assertion (c.socksUp = true)
  check .assertion (c.socksRecvBufUsed = -1)
  if c.clientClosed = true then return x
  let x := x.setClient { c with
    socksRecvBufUsed := dataLen, socksRecvBufSent := 0, socksRecvWaiting := false }
  let (x, up) ← clientSocksRecvSendOut lw x
  if up = false then return x
  let c ← x.access
  if c.socksRecvBufUsed = -1 then clientSocksRecvInitiate x else return x

/-! ## callback -/

/-- lwIP の callback が戻ったか、`SYNC_COMMIT` に入ったか。`freed` は渡された pbuf を解放した回数。 -/
inductive CallbackEnd where
  | returns (e : Err) (freed : Nat)
  | commits
  deriving DecidableEq, Repr

/-- pcb は lwIP が始末する。 -/
def clientErrFunc (x : Ctx) : M Ctx := do
  let c ← x.access
  check .assertion (c.clientClosed = false)
  clientHandleFreedClient depth (x.endPcb .lwipError)

/-- `p = none` は FIN。 -/
def clientRecvFunc (p : Option (List UInt8)) (x : Ctx) : M (Ctx × CallbackEnd) := do
  let c ← x.access
  check .assertion (c.clientClosed = false)
  match p with
  | none => return (← clientFreeClient depth x, .returns .abrt 0)
  | some data =>
    check .assertion (0 < data.length)
    if tcpWnd - c.buf.length < data.length then return (x, .returns .mem 0)
    let x := { x with conn := { x.conn with
      client := some { c with buf := c.buf ++ data }
      accepted := x.conn.accepted ++ data } }
    if (c.buf ++ data).length = data.length ∧ c.socksUp = true then
      check .assertion (c.socksClosed = false)
      let x ← clientSendToSocks x
      return (← deadEnter x, .commits)
    return (x, .returns .ok 1)

def clientSentFunc (len : Nat) (lw : Lwip) (x : Ctx) : M (Ctx × CallbackEnd) := do
  let c ← x.access
  check .assertion (c.clientClosed = false)
  check .assertion (c.socksUp = true)
  check .assertion (0 < len)
  check .assertion (len ≤ c.socksRecvTcpPending)
  let c := { c with socksRecvTcpPending := c.socksRecvTcpPending - len }
  let x := x.setClient c
  if 0 < c.socksRecvBufUsed then
    check .assertion (c.socksRecvWaiting = true)
    check .assertion (c.socksRecvBufSent < c.socksRecvBufUsed)
    let (x, up) ← clientSocksRecvSendOut lw (x.setClient { c with socksRecvWaiting := false })
    if up = false then return (x, .returns .abrt 0)
    let c ← x.access
    check .assertion (0 < c.socksRecvTcpPending)
    if c.socksRecvBufUsed = -1 ∧ c.socksClosed = false then
      let x ← clientSocksRecvInitiate x
      return (← deadEnter x, .commits)
    return (x, .returns .ok 0)
  if c.socksClosed = true ∧ c.socksRecvTcpPending = 0 then
    return (← clientFreeClient depth x, .returns .abrt 0)
  return (x, .returns .ok 0)

/-- `BSocksClient` の event。 -/
inductive SocksEvent where
  | error | up | errorClosed
  deriving DecidableEq, Repr

/-- client が開いていれば `tcp_sent(pcb, client_sent_func)` する。 -/
def installSent (c : Client) (x : Ctx) : M Ctx :=
  if c.clientClosed = false then do
    x.usePcb
    return { x with conn := { x.conn with sentCb := true } }
  else .ok x

/-- 溜まっている byte があれば送り始める。 -/
def sendBuffered (c : Client) (x : Ctx) : M Ctx :=
  if c.buf ≠ [] then clientSendToSocks x else .ok x

def clientSocksHandler (event : SocksEvent) (x : Ctx) : M Ctx := do
  let c ← x.access
  check .assertion (c.socksClosed = false)
  match event with
  | .error => clientFreeSocks depth x
  | .errorClosed =>
    check .assertion (c.socksUp = true)
    clientFreeSocks depth x
  | .up =>
    check .assertion (c.socksUp = false)
    let x ← installSent c x
    let x ← sendBuffered c (x.setClient { c with
      socksRecvBufUsed := -1, socksRecvTcpPending := 0, socksUp := true })
    if c.clientClosed = false then clientSocksRecvInitiate x else return x

/-! ## 全体 -/

inductive Callback where
  | accept | recv | sent
  deriving DecidableEq, Repr

/-- `SYNC_COMMIT` の中にいる lwIP の callback。 -/
structure Frame where
  client : Nat
  callback : Callback
  deriving DecidableEq, Repr

structure World where
  conn : Nat → Conn
  next : Nat
  numClients : Int
  tcpClients : List Nat
  frame : Option Frame
  deadVar : DeadVar
  /-- `client_recv_func` が pbuf を受け取って戻った時の戻り値と、その pbuf を解放した回数。 -/
  returned : List (Err × Nat)

namespace World

def init : World where
  conn := fun _ => .none
  next := 0
  numClients := 0
  tcpClients := []
  frame := none
  deadVar := { killed := false, prev := false }
  returned := []

def ctx (w : World) (i : Nat) : Ctx where
  id := i
  numClients := w.numClients
  tcpClients := w.tcpClients
  dead := if w.frame.map Frame.client = some i then some w.deadVar else none
  conn := w.conn i

def put (w : World) (x : Ctx) : World :=
  { w with
    conn := Function.update w.conn x.id x.conn
    numClients := x.numClients
    tcpClients := x.tcpClients
    deadVar := x.dead.getD w.deadVar }

/-- lwIP の callback が戻るか、`SYNC_COMMIT` に入る。 -/
def leave (w : World) (i : Nat) (callback : Callback) : CallbackEnd → World
  | .commits => { w with frame := some { client := i, callback := callback } }
  | .returns e freed =>
    if callback = .recv then { w with returned := w.returned ++ [(e, freed)] } else w

end World

/-- `accept` が初期化しない field。 -/
structure Uninitialized where
  socksRecvBuf : List UInt8 := []
  socksRecvBufUsed : Int := 0
  socksRecvBufSent : Nat := 0
  socksRecvWaiting : Bool := false
  socksRecvTcpPending : Nat := 0
  deriving DecidableEq, Repr

/-- 受け入れたばかりの接続。 -/
def Conn.accept (u : Uninitialized) : Conn :=
  { Conn.none with
    client := some {
      clientClosed := false
      buf := []
      socksUp := false
      socksClosed := false
      socksRecvBuf := u.socksRecvBuf
      socksRecvBufUsed := u.socksRecvBufUsed
      socksRecvBufSent := u.socksRecvBufSent
      socksRecvWaiting := u.socksRecvWaiting
      socksRecvTcpPending := u.socksRecvTcpPending
      deadClient := false }
    pcbOpen := true
    errCb := true
    recvCb := true
    sndBuf := tcpSndBuf
    socksAlive := true
    allocated := true }

/-- `initialized = false` は `malloc`・username・`BSocksClient_Init` のどれかの失敗で、`ERR_MEM` を返す。 -/
def listenerAcceptFunc (initialized : Bool) (u : Uninitialized) (w : World) : M World :=
  if initialized = false then .ok w
  else do
    check .assertion (0 ≤ w.numClients)
    let w := { w with
      conn := Function.update w.conn w.next (.accept u)
      next := w.next + 1
      numClients := w.numClients + 1
      tcpClients := w.tcpClients ++ [w.next] }
    let i := w.next - 1
    let x ← deadEnter (w.ctx i)
    return (w.put x).leave i .accept .commits

inductive Event where
  | accept (initialized : Bool) (u : Uninitialized)
  | err (i : Nat)
  | recv (i : Nat) (data : List UInt8)
  | fin (i : Nat)
  | sent (i len : Nat) (lw : Lwip)
  | socks (i : Nat) (event : SocksEvent)
  | sendDone (i dataLen : Nat)
  | recvDone (i : Nat) (data : List UInt8) (lw : Lwip)
  /-- `SYNC_COMMIT` が終わる。 -/
  | commit
  /-- program の終わりの `client_murder`。 -/
  | murder (i : Nat)
  deriving DecidableEq, Repr

/-- `BSocksClient` がその event を知らせうる。 -/
def SocksEvent.possible (k : Conn) : SocksEvent → Bool
  | .error => k.socksAlive
  | .up => k.socksAlive && !k.socksEstablished
  | .errorClosed => k.socksAlive && k.socksEstablished

/-- lwIP が `len` byte の確認を受け取る。`tcp_sndbuf` は callback の前に増える。 -/
def Ctx.acknowledge (x : Ctx) (len : Nat) : Ctx :=
  { x with conn := { x.conn with acked := x.conn.acked + len, sndBuf := x.conn.sndBuf + len } }

/-- `BSocksClient` が event を知らせる。 -/
def Ctx.report (x : Ctx) (event : SocksEvent) : Ctx :=
  { x with conn := { x.conn with
      socksEstablished := x.conn.socksEstablished || event = .up
      socksReported := x.conn.socksReported || event ≠ .up } }

/-- SOCKS が、渡された `data` のうち `n` byte を書き終える。 -/
def Ctx.finishSend (x : Ctx) (data : List UInt8) (n : Nat) : Ctx :=
  { x with conn := { x.conn with sending := none, written := x.conn.written ++ data.take n } }

/-- SOCKS が `data` を `socks_recv_buf` に書き込む。 -/
def fillRecvBuf (data : List UInt8) (x : Ctx) : M Ctx := do
  let c ← x.access
  return { x with conn := { x.conn with
    client := some { c with socksRecvBuf := data }
    receiving := false
    received := x.conn.received ++ data } }

def step (w : World) : Event → Option (M World)
  | .accept initialized u =>
    if w.frame = none then some (listenerAcceptFunc initialized u w) else none
  | .err i =>
    if w.frame = none ∧ (w.conn i).errCb = true then
      some (do return w.put (← clientErrFunc (w.ctx i)))
    else none
  | .recv i data =>
    if w.frame = none ∧ (w.conn i).recvCb = true ∧ data ≠ [] then
      some (do
        let (x, r) ← clientRecvFunc (some data) (w.ctx i)
        return (w.put x).leave i .recv r)
    else none
  | .fin i =>
    if w.frame = none ∧ (w.conn i).recvCb = true then
      some (do return w.put (← clientRecvFunc none (w.ctx i)).1)
    else none
  | .sent i len lw =>
    if w.frame = none ∧ (w.conn i).sentCb = true ∧ 0 < len ∧
        (w.conn i).acked + len ≤ (w.conn i).queued.length then
      some (do
        let (x, r) ← clientSentFunc len lw ((w.ctx i).acknowledge len)
        return (w.put x).leave i .sent r)
    else none
  | .socks i event =>
    if event.possible (w.conn i) = true then
      some (do return w.put (← clientSocksHandler event ((w.ctx i).report event)))
    else none
  | .sendDone i dataLen =>
    match (w.conn i).sending with
    | some data =>
      if 0 < dataLen ∧ dataLen ≤ data.length then
        some (do
          return w.put (← clientSocksSendHandlerDone dataLen ((w.ctx i).finishSend data dataLen)))
      else none
    | none => none
  | .recvDone i data lw =>
    if (w.conn i).receiving = true ∧ data ≠ [] ∧ data.length ≤ clientSocksRecvBufSize then
      some (do
        let x ← fillRecvBuf data (w.ctx i)
        return w.put (← clientSocksRecvHandlerDone data.length lw x))
    else none
  | .commit =>
    match w.frame with
    | some f =>
      some (do
        let (x, killed) ← deadLeave (w.ctx f.client)
        let w := { w.put x with frame := none }
        return w.leave f.client f.callback
          (if killed then .returns .abrt 0 else .returns .ok (if f.callback = .recv then 1 else 0)))
    | none => none
  | .murder i =>
    if w.frame = none ∧ (w.conn i).client.isSome = true then
      some (do return w.put (← clientMurder (w.ctx i)))
    else none

end Relay
