import PsiphonVpn.Infra.Buffer
import PsiphonVpn.Infra.Checked
import PsiphonVpn.Net.BAddr

/-!
# SOCKS5 client

`BSocksClient.c` は、SOCKS server に接続し、認証の方法を申し出て（hello）、選ばれた方法で認証し、宛先への CONNECT を
頼む。返事がすべて望みどおりなら UP を、そうでなければ ERROR を知らせる。

## model

* **一歩** は callback 一つである。送信は message 全体を書き終えてから `sendDone` になる。受信は、server の
  送った byte のうち任意の個数が `recvDone` で届く。message より多くは届かない
* **server** の送る byte の列は始めに決まっていて、`unread` はまだ届いていない分である。それが尽きてからの
  受信は、閉じたこととして知らされる（`recvClosed`）
* **buffer** は `BRealloc` で大きさを変えながら使い回す。前の中身は残り、増えた分の中身は任意である。
  大きさは 1000 byte を超えないので、`bsize_t` の overflow は起こらない
* **知らせ** ERROR を受けた持ち主は、その場で object を解放する。解放の後には何も起こらない

`consumed`・`sent`・`reported` は、program が持たない記録である。
-/

namespace Socks

open Infra Net

inductive Fault where
  | assertion
  | outOfBounds
  deriving DecidableEq, Repr

abbrev M := Except Fault

/-- `struct BSocksClient_auth_info` -/
inductive AuthInfo where
  | none
  | password (username password : List UInt8)
  deriving DecidableEq, Repr

/-- `SOCKS_METHOD_NO_AUTHENTICATION_REQUIRED` と `SOCKS_METHOD_USERNAME_PASSWORD`。 -/
def AuthInfo.authType : AuthInfo → UInt8
  | .none => 0
  | .password _ _ => 2

/-- `SOCKS_ATYP_IPV4` と `SOCKS_ATYP_IPV6`。 -/
def atypOf : BAddr → UInt8
  | .ipv4 _ _ => 1
  | .ipv6 _ _ => 4

structure Config where
  authInfo : List AuthInfo
  destAddr : BAddr
  deriving DecidableEq, Repr

inductive State where
  | connecting
  | sendingHello
  | sentHello
  | sendingPassword
  | sentPassword
  | sendingRequest
  | sentRequest
  | receivedReplyHeader
  | up
  deriving DecidableEq, Repr

/-- `BSOCKSCLIENT_EVENT_ERROR`・`BSOCKSCLIENT_EVENT_UP`・`BSOCKSCLIENT_EVENT_ERROR_CLOSED` -/
inductive Report where
  | error | up | errorClosed
  deriving DecidableEq, Repr

structure BSocksClient where
  state : State
  buffer : Option (List UInt8)
  recvDest : Nat
  recvLen : Nat
  recvTotal : Nat
  -- 終わっていない送信と受信
  sending : Bool
  receiving : Bool
  freed : Bool
  -- server
  unread : List UInt8
  -- 記録
  consumed : List UInt8
  /-- 送った message と、送り始めた時までに受け取っていた byte。 -/
  sent : List (List UInt8 × List UInt8)
  reported : List Report
  deriving DecidableEq, Repr

/-- `BSocksClient_Init` の後。`stream` は server が送る byte。 -/
def BSocksClient.init (stream : List UInt8) : BSocksClient where
  state := .connecting
  buffer := none
  recvDest := 0
  recvLen := 0
  recvTotal := 0
  sending := false
  receiving := false
  freed := false
  unread := stream
  consumed := []
  sent := []
  reported := []

/-- `BRealloc` の結果。`fresh` は増えた分の中身。 -/
structure Realloc where
  ok : Bool := true
  fresh : List UInt8 := []
  deriving DecidableEq, Repr

variable (o : BSocksClient)

def reportError : BSocksClient := { o with reported := o.reported ++ [.error], freed := true }

/-- `o->buffer` の読み書き。 -/
def BSocksClient.access : M (List UInt8) :=
  match o.buffer with
  | some b => .ok b
  | none => .error .outOfBounds

def BSocksClient.setBuffer (b : List UInt8) : BSocksClient := { o with buffer := some b }

def reserveBuffer (size : Nat) (r : Realloc) : Option BSocksClient :=
  if r.ok then some (o.setBuffer (resize (o.buffer.getD []) size r.fresh 0)) else none

/-- `memcpy(o->buffer + i, data, len)` -/
def BSocksClient.write (i : Nat) (data : List UInt8) : M BSocksClient := do
  let b ← o.access
  check .outOfBounds (i + data.length ≤ b.length)
  return o.setBuffer (writeAt b i data)

/-- `PacketPassInterface_Sender_Send(o->control.send_if, o->buffer, size)` -/
def BSocksClient.send (size : Nat) : M BSocksClient := do
  let b ← o.access
  check .assertion (o.sending = false)
  check .outOfBounds (size ≤ b.length)
  return { o with sending := true, sent := o.sent ++ [(o.consumed, b.take size)] }

def doReceive : M BSocksClient := do
  check .assertion (o.recvLen < o.recvTotal)
  check .assertion (o.receiving = false)
  return { o with receiving := true }

def startReceive (dest total : Nat) : M BSocksClient := do
  check .assertion (0 < total)
  let b ← o.access
  check .outOfBounds (dest + total ≤ b.length)
  doReceive { o with recvDest := dest, recvLen := 0, recvTotal := total }

/-- `SOCKS_VERSION` -/
def socksVersion : UInt8 := 5

/-! ## handler -/

/-- hello を書いて送る。 -/
def sendHello (cfg : Config) : M BSocksClient := do
  let o ← o.write 0 [socksVersion, UInt8.ofNat cfg.authInfo.length]
  let o ← o.write 2 (cfg.authInfo.map AuthInfo.authType)
  let o ← o.send (2 + cfg.authInfo.length)
  return { o with state := .sendingHello }

/-- `initialized` は `BConnection_Init` の成否。 -/
def connectorHandler (cfg : Config) (isError initialized : Bool) (r : Realloc) : M BSocksClient :=
  do
  check .assertion (o.state = .connecting)
  if isError = true ∨ initialized = false then return reportError o
  if cfg.authInfo.length = 0 ∨ 255 < cfg.authInfo.length then return reportError o
  match reserveBuffer o (2 + cfg.authInfo.length) r with
  | none => return reportError o
  | some o => sendHello o cfg

/-- CONNECT の要求を書いて送る。 -/
def sendRequest (cfg : Config) : M BSocksClient := do
  let o ← o.write 4 cfg.destAddr.bytes
  let o ← o.write 0 [socksVersion, 1, 0, atypOf cfg.destAddr]
  let o ← o.send (4 + cfg.destAddr.size)
  return { o with state := .sendingRequest }

def authFinished (cfg : Config) (r : Realloc) : M BSocksClient :=
  match reserveBuffer o (4 + cfg.destAddr.size) r with
  | none => .ok (reportError o)
  | some o => sendRequest o cfg

/-- 利用者名と password を書いて送る。 -/
def sendPassword (username password : List UInt8) : M BSocksClient := do
  let o ← o.write 0 ([1, UInt8.ofNat username.length] ++ username ++
    [UInt8.ofNat password.length] ++ password)
  let o ← o.send (1 + 1 + username.length + 1 + password.length)
  return { o with state := .sendingPassword }

/-- `STATE_SENT_HELLO` の返事。 -/
def receivedHello (cfg : Config) (r : Realloc) (ver method : UInt8) : M BSocksClient :=
  if ver ≠ socksVersion then .ok (reportError o)
  else
    match cfg.authInfo.find? (·.authType = method) with
    | none => .ok (reportError o)
    | some .none => authFinished o cfg r
    | some (.password username password) =>
      if username.length = 0 ∨ 255 < username.length ∨ password.length = 0 ∨
          255 < password.length then
        .ok (reportError o)
      else
        match reserveBuffer o (1 + 1 + username.length + 1 + password.length) r with
        | none => .ok (reportError o)
        | some o => sendPassword o username password

/-- `STATE_SENT_PASSWORD` の返事。 -/
def receivedPasswordReply (cfg : Config) (r : Realloc) (ver status : UInt8) : M BSocksClient :=
  if ver ≠ 1 then .ok (reportError o)
  else if status ≠ 0 then .ok (reportError o)
  else authFinished o cfg r

/-- `atyp` の address と port の長さ。 -/
def addrLen (atyp : UInt8) : Option Nat :=
  if atyp = 1 then some 6 else if atyp = 4 then some 18 else none

/-- `STATE_SENT_REQUEST` の返事の先頭。予約の byte は調べない。 -/
def receivedReplyHeader (ver rep atyp : UInt8) : M BSocksClient :=
  if ver ≠ socksVersion then .ok (reportError o)
  else if rep ≠ 0 then .ok (reportError o)
  else
    match addrLen atyp with
    | none => .ok (reportError o)
    | some n => do return { ← startReceive o 4 n with state := .receivedReplyHeader }

/-- `STATE_RECEIVED_REPLY_HEADER` の返事の残り。 -/
def receivedReply : BSocksClient :=
  { o with buffer := none, state := .up, reported := o.reported ++ [.up] }

/-- message 一つを受け取り終えた。 -/
def received (cfg : Config) (r : Realloc) (b : List UInt8) : M BSocksClient :=
  match o.state with
  | .sentHello =>
    match b.take 2 with
    | [ver, method] => receivedHello o cfg r ver method
    | _ => .error .outOfBounds
  | .sentRequest =>
    match b.take 4 with
    | [ver, rep, _, atyp] => receivedReplyHeader o ver rep atyp
    | _ => .error .outOfBounds
  | .sentPassword =>
    match b.take 2 with
    | [ver, status] => receivedPasswordReply o cfg r ver status
    | _ => .error .outOfBounds
  | .receivedReplyHeader => .ok (receivedReply o)
  | .connecting | .sendingHello | .sendingPassword | .sendingRequest | .up => .error .assertion

def recvHandlerDone (cfg : Config) (dataLen : Nat) (r : Realloc) : M BSocksClient := do
  check .assertion (dataLen ≤ o.recvTotal - o.recvLen)
  let o := { o with recvLen := o.recvLen + dataLen }
  if o.recvLen < o.recvTotal then doReceive o
  else
    let b ← o.access
    received o cfg r b

/-- 返事を待つ。`size` は buffer の大きさ、`total` は受け取る長さ。 -/
def awaitReply (size total : Nat) (next : State) (r : Realloc) : M BSocksClient :=
  match reserveBuffer o size r with
  | none => .ok (reportError o)
  | some o => do return { ← startReceive o 0 total with state := next }

def sendHandlerDone (r : Realloc) : M BSocksClient := do
  let _ ← o.access
  match o.state with
  | .sendingHello => awaitReply o 2 2 .sentHello r
  | .sendingRequest => awaitReply o (4 + max 6 18) 4 .sentRequest r
  | .sendingPassword => awaitReply o 2 2 .sentPassword r
  | _ => .error .assertion

/-- `BCONNECTION_EVENT_RECVCLOSED` かどうか。 -/
def connectionHandler (closed : Bool) : M BSocksClient := do
  check .assertion (o.state ≠ .connecting)
  if o.state = .up ∧ closed = true then
    return { o with reported := o.reported ++ [.errorClosed], freed := true }
  return reportError o

/-! ## 一歩 -/

inductive Event where
  | connector (isError initialized : Bool) (r : Realloc)
  | sendDone (r : Realloc)
  | recvDone (n : Nat) (r : Realloc)
  | recvClosed
  | connectionError
  deriving DecidableEq, Repr

/-- server の byte が `n` 個、buffer に書き込まれる。 -/
def arrive (n : Nat) : M BSocksClient := do
  let o' ← o.write (o.recvDest + o.recvLen) (o.unread.take n)
  return { o' with
    receiving := false, unread := o.unread.drop n, consumed := o.consumed ++ o.unread.take n }

def step (cfg : Config) : Event → Option (M BSocksClient)
  | .connector isError initialized r =>
    if o.freed = false ∧ o.state = .connecting then
      some (connectorHandler o cfg isError initialized r)
    else none
  | .sendDone r =>
    if o.freed = false ∧ o.sending = true then some (sendHandlerDone { o with sending := false } r)
    else none
  | .recvDone n r =>
    if o.freed = false ∧ o.receiving = true ∧ 0 < n ∧ n ≤ o.recvTotal - o.recvLen ∧
        n ≤ o.unread.length then
      some (do recvHandlerDone (← arrive o n) cfg n r)
    else none
  | .recvClosed =>
    if o.freed = false ∧ (o.receiving = true ∧ o.unread = [] ∨ o.state = .up) then
      some (connectionHandler o true)
    else none
  | .connectionError =>
    if o.freed = false ∧ o.state ≠ .connecting then some (connectionHandler o false) else none

/-- 接続に失敗せず、memory も足りる事象。 -/
def Event.smooth : Event → Bool
  | .connector isError initialized r => !isError && initialized && r.ok
  | .sendDone r => r.ok
  | .recvDone _ r => r.ok
  | .recvClosed => true
  | .connectionError => false

end Socks
