import PsiphonVpn.Infra.Checked
import PsiphonVpn.Infra.CyclicSearch
import PsiphonVpn.Infra.SearchTree
import PsiphonVpn.UdpGw.Message

/-!
# udpgw client

`UdpGwClient.c` は、UDP の packet を一本の stream に載せて udpgw server に送る。local と remote の address の組
（conaddr）ごとに connection を一つ割り当て、番号（conid）で呼ぶ。connection が足りなくなると、最も長く
使われていないものを別の組に付け替える。

## model

* **connection** は `malloc` した順の番号で指す。構造体の中身は `con` にあり、二つの木と list は番号だけを持つ。
  木の鍵は構造体から読まれる。木は通りがけ順の列で表す（`Structure.insert_spec`）
* **故障** `ASSERT` の失敗、繋がれていない node の取り外し、空の list の先頭、終わらない loop を `Fault` とする
* **記憶の不足** `malloc` と `PacketProtoFlow_Init` は失敗しうる（`Alloc`）。`PacketProtoDecoder_Init` も同じである
* **送信 buffer** は connection ごとにある。`BufferWriter` は、`PacketBuffer` から書き込み先を渡されている間
  （`outHave`）だけ message を一つ受け取る。buffer にいつ空きができ、次の書き込み先がいつ渡されるか（`offer`）、
  message がいつ出ていくか（`drained`）は任意である
* **最初の job** `connection_init` は `first_job` を積んでから `PacketProtoFlow_Init` を呼ぶ。job は後に積んだものから
  実行されるので、最初の書き込み先は `first_job` の直前に渡される。一歩 `firstJob` は両方を含む
* **keepalive** は `PSIPHON` では送られない

`placed`・`past`・`delivered` は、program が持たない記録である。
-/

namespace UdpGw

open Infra Net

inductive Fault where
  | assertion
  /-- 繋がれていない node を外す。 -/
  | notLinked
  /-- 空の list の先頭を使う。 -/
  | emptyList
  /-- loop が終わらない。 -/
  | diverges
  deriving DecidableEq, Repr

abbrev M := Except Fault

/-- `UdpGwClient_Init` の引数。 -/
structure Config where
  udpMtu : Nat
  maxConnections : Nat
  maxConnections_pos : 0 < maxConnections

/-- `o->max_connections`。conid の個数で抑える。 -/
def Config.limit (cfg : Config) : Nat :=
  if cfg.maxConnections > 65535 + 1 then 65535 + 1 else cfg.maxConnections

/-- `udpgw_compute_mtu` -/
def Config.udpgwMtu (cfg : Config) : Nat := 3 + (max 6 18 + cfg.udpMtu)

/-- `struct UdpGwClient_conaddr` -/
structure ConAddr where
  localAddr : BAddr
  remoteAddr : BAddr
  deriving DecidableEq, Repr

/-- `conaddr_comparator` -/
def ConAddr.comparator (a b : ConAddr) : Ordering :=
  (a.remoteAddr.compareOrder b.remoteAddr).then (a.localAddr.compareOrder b.localAddr)

/-- conid を組に割り当ててから次に付け替えるまでに、送信 buffer に入った message。 -/
structure Binding where
  conaddr : ConAddr
  placed : List Message
  deriving DecidableEq, Repr

/-- `struct UdpGwClient_connection` -/
structure Connection where
  conaddr : ConAddr
  conid : Nat
  firstFlags : UInt8
  firstData : List UInt8
  /-- `first_job` が積まれている。 -/
  firstJob : Bool
  -- 送信 buffer
  outHave : Bool
  sendBuffer : List Message
  -- 記録
  placed : List Message
  past : List Binding
  deriving DecidableEq, Repr

/-- 今の割り当てと、それまでの割り当て。 -/
def Connection.bindings (c : Connection) : List Binding := ⟨c.conaddr, c.placed⟩ :: c.past

structure UdpGwClient where
  con : Nat → Connection
  allocated : Nat
  treeByConaddr : List Nat
  treeByConid : List Nat
  connectionsList : List Nat
  numConnections : Nat
  nextConid : Nat
  haveServer : Bool
  /-- `handler_received` の呼び出し。 -/
  delivered : List (ConAddr × List UInt8)

/-- まだ使われていない記憶の中身。 -/
def Connection.blank : Connection where
  conaddr := ⟨.ipv4 (.replicate 4 0) (.replicate 2 0), .ipv4 (.replicate 4 0) (.replicate 2 0)⟩
  conid := 0
  firstFlags := 0
  firstData := []
  firstJob := false
  outHave := false
  sendBuffer := []
  placed := []
  past := []

/-- `UdpGwClient_Init` の後。 -/
def UdpGwClient.init : UdpGwClient where
  con := fun _ => .blank
  allocated := 0
  treeByConaddr := []
  treeByConid := []
  connectionsList := []
  numConnections := 0
  nextConid := 0
  haveServer := false
  delivered := []

/-- `malloc` と `PacketProtoFlow_Init` の成否。 -/
inductive Alloc where
  | ok
  | mallocFails
  | flowFails
  deriving DecidableEq, Repr

/-- `(uint16_t)` -/
def uint16 (n : Nat) : Nat := n % 65536

def UdpGwClient.setCon (o : UdpGwClient) (h : Nat) (c : Connection) : UdpGwClient :=
  { o with con := Function.update o.con h c }

/-! ## 木と list -/

def findConnectionByConaddr (o : UdpGwClient) (conaddr : ConAddr) : Option Nat :=
  SearchTree.lookup ConAddr.comparator (fun h => (o.con h).conaddr) conaddr o.treeByConaddr

def findConnectionByConid (o : UdpGwClient) (conid : Nat) : Option Nat :=
  SearchTree.lookup compare (fun h => (o.con h).conid) conid o.treeByConid

/-- `ASSERT_EXECUTE(BAVL_Insert(…))` -/
def insertByConaddr (o : UdpGwClient) (h : Nat) : M UdpGwClient :=
  match SearchTree.insert ConAddr.comparator (fun h => (o.con h).conaddr) h o.treeByConaddr with
  | none => .error .assertion
  | some t => .ok { o with treeByConaddr := t }

/-- `ASSERT_EXECUTE(BAVL_Insert(…))` -/
def insertByConid (o : UdpGwClient) (h : Nat) : M UdpGwClient :=
  match SearchTree.insert compare (fun h => (o.con h).conid) h o.treeByConid with
  | none => .error .assertion
  | some t => .ok { o with treeByConid := t }

/-- `BAVL_Remove` と `LinkedList1_Remove`。 -/
def unlink (h : Nat) (l : List Nat) : M (List Nat) :=
  if h ∈ l then .ok (l.erase h) else .error .notLinked

/-- `LinkedList1_Remove` と `LinkedList1_Append`。 -/
def moveToEnd (o : UdpGwClient) (h : Nat) : M UdpGwClient := do
  let l ← unlink h o.connectionsList
  return { o with connectionsList := l ++ [h] }

/--
`find_unused_conid`

loop は `nextConid` を進めながら、使われていない番号を探す。`fuel` は回数の上限で、戻り値は loop の後の
`nextConid` である。
-/
def findUnusedConid (cfg : Config) (o : UdpGwClient) (fuel : Nat) : Option Nat :=
  cyclicSearch cfg.limit (fun c => (findConnectionByConid o (uint16 c)).isSome) fuel o.nextConid

/-! ## connection -/

/-- `connection_send` の書く message。 -/
def Connection.message (c : Connection) (flags : UInt8) (data : List UInt8) : Message where
  flags := if c.conaddr.remoteAddr.type = 2 then flags ||| flagIpv6 else flags
  conid := c.conid
  remoteAddr := c.conaddr.remoteAddr
  payload := data

/-- `BufferWriter_StartPacket` から `BufferWriter_EndPacket` まで。書き込み先がなければ捨てる。 -/
def Connection.send (c : Connection) (flags : UInt8) (data : List UInt8) : Connection :=
  if c.outHave then
    { c with
      outHave := false
      sendBuffer := c.sendBuffer ++ [c.message flags data]
      placed := c.placed ++ [c.message flags data] }
  else c

def connectionSend (cfg : Config) (o : UdpGwClient) (h : Nat) (flags : UInt8) (data : List UInt8) :
    M UdpGwClient := do
  check .assertion (data.length ≤ cfg.udpMtu)
  return o.setCon h ((o.con h).send flags data)

/-- 新しい connection の構造体。 -/
def Connection.fresh (conaddr : ConAddr) (conid : Nat) (flags : UInt8) (data : List UInt8) :
    Connection where
  conaddr := conaddr
  conid := conid
  firstFlags := flags
  firstData := data
  firstJob := true
  outHave := false
  sendBuffer := []
  placed := []
  past := []

/-- 構造体を一つ確保して書き、conid の次の候補を進める。 -/
def UdpGwClient.allocate (o : UdpGwClient) (next : Nat) (c : Connection) : UdpGwClient :=
  { o with
    nextConid := next
    con := Function.update o.con o.allocated c
    allocated := o.allocated + 1 }

/-- `connection_init` のうち、`PacketProtoFlow_Init` の後。 -/
def linkConnection (o : UdpGwClient) (h : Nat) : M UdpGwClient := do
  let o ← insertByConaddr o h
  let o ← insertByConid o h
  return { o with
    connectionsList := o.connectionsList ++ [h]
    numConnections := o.numConnections + 1 }

/-- `connection_init` のうち、`malloc` の後。 -/
def allocateConid (cfg : Config) (o : UdpGwClient) (conaddr : ConAddr) (flags : UInt8)
    (data : List UInt8) (alloc : Alloc) : M UdpGwClient := do
  check .assertion (o.numConnections < cfg.limit)
  match findUnusedConid cfg o cfg.limit with
  | none => .error .diverges
  | some next =>
    if alloc = .flowFails then return { o with nextConid := next }
    else linkConnection (o.allocate next (.fresh conaddr (uint16 next) flags data)) o.allocated

def connectionInit (cfg : Config) (o : UdpGwClient) (conaddr : ConAddr) (flags : UInt8)
    (data : List UInt8) (alloc : Alloc) : M UdpGwClient := do
  check .assertion (o.numConnections < cfg.limit)
  check .assertion (findConnectionByConaddr o conaddr = none)
  check .assertion (data.length ≤ cfg.udpMtu)
  if alloc = .mallocFails then return o
  else allocateConid cfg o conaddr flags data alloc

def connectionFirstJobHandler (cfg : Config) (o : UdpGwClient) (h : Nat) : M UdpGwClient :=
  connectionSend cfg o h (flagRebind ||| (o.con h).firstFlags) (o.con h).firstData

/-- 構造体の組を書き換え、それまでの割り当てを記録に移す。 -/
def Connection.rebind (c : Connection) (conaddr : ConAddr) : Connection :=
  { c with conaddr := conaddr, placed := [], past := c.bindings }

def reuseConnection (o : UdpGwClient) (conaddr : ConAddr) : M (UdpGwClient × Nat) := do
  check .assertion (findConnectionByConaddr o conaddr = none)
  check .assertion (0 < o.numConnections)
  match o.connectionsList with
  | [] => .error .emptyList
  | h :: _ =>
    let t ← unlink h o.treeByConaddr
    let o ← insertByConaddr { o.setCon h ((o.con h).rebind conaddr) with treeByConaddr := t } h
    return (o, h)

/-- `connection_free` -/
def connectionFree (o : UdpGwClient) (h : Nat) : M UdpGwClient := do
  let l ← unlink h o.connectionsList
  let t₁ ← unlink h o.treeByConid
  let t₂ ← unlink h o.treeByConaddr
  return { o with
    numConnections := o.numConnections - 1
    connectionsList := l
    treeByConid := t₁
    treeByConaddr := t₂ }

/-- `UdpGwClient_Free` の loop。 -/
def freeConnections : Nat → UdpGwClient → M UdpGwClient
  | 0, _ => .error .diverges
  | fuel + 1, o =>
    match o.connectionsList with
    | [] => .ok o
    | h :: _ => do
      let o ← connectionFree o h
      freeConnections fuel o

/-! ## 呼び出される関数 -/

def dnsFlags (isDns : Bool) : UInt8 := if isDns then flagDns else 0

/-- `UdpGwClient_SubmitPacket` -/
def submitPacket (cfg : Config) (o : UdpGwClient) (localAddr remoteAddr : BAddr) (isDns : Bool)
    (data : List UInt8) (alloc : Alloc) : M UdpGwClient := do
  check .assertion (data.length ≤ cfg.udpMtu)
  match findConnectionByConaddr o ⟨localAddr, remoteAddr⟩ with
  | some h =>
    let o ← moveToEnd o h
    connectionSend cfg o h (dnsFlags isDns) data
  | none =>
    if o.numConnections = cfg.limit then
      let (o, h) ← reuseConnection o ⟨localAddr, remoteAddr⟩
      let o ← moveToEnd o h
      connectionSend cfg o h (dnsFlags isDns ||| flagRebind) data
    else connectionInit cfg o ⟨localAddr, remoteAddr⟩ (dnsFlags isDns) data alloc

/-- `recv_interface_handler_send` の調べること。受け入れるなら、宛先の connection と message を返す。 -/
def accept (cfg : Config) (o : UdpGwClient) (data : List UInt8) : Except Reject (Nat × Message) :=
  match parse cfg.udpMtu data with
  | .error r => .error r
  | .ok m =>
    match findConnectionByConid o m.conid with
    | none => .error .unknownConid
    | some h =>
      if (o.con h).conaddr.remoteAddr.compareOrder m.remoteAddr ≠ .eq then
        .error .wrongRemoteAddress
      else .ok (h, m)

def recvInterfaceHandlerSend (cfg : Config) (o : UdpGwClient) (data : List UInt8) : M UdpGwClient :=
  do
  check .assertion (o.haveServer = true)
  check .assertion (data.length ≤ cfg.udpgwMtu)
  match accept cfg o data with
  | .error _ => return o
  | .ok (h, m) =>
    let o ← moveToEnd o h
    return { o with delivered := o.delivered ++ [((o.con h).conaddr, m.payload)] }

/-- `UdpGwClient_ConnectServer`。`ok` は `PacketProtoDecoder_Init` の成否。 -/
def connectServer (o : UdpGwClient) (ok : Bool) : M UdpGwClient := do
  check .assertion (o.haveServer = false)
  if ok then return { o with haveServer := true } else return o

/-- `UdpGwClient_DisconnectServer` -/
def disconnectServer (o : UdpGwClient) : M UdpGwClient := do
  check .assertion (o.haveServer = true)
  return { o with haveServer := false }

/-! ## 一歩 -/

inductive Event where
  | submit (localAddr remoteAddr : BAddr) (isDns : Bool) (data : List UInt8) (alloc : Alloc)
  | received (data : List UInt8)
  | connect (ok : Bool)
  | disconnect
  | firstJob (h : Nat)
  | offer (h : Nat)
  | drained (h : Nat)
  deriving DecidableEq, Repr

/-- `first_job` は外され、書き込み先が渡される。 -/
def Connection.startFirstJob (c : Connection) : Connection :=
  { c with firstJob := false, outHave := true }

/-- 呼び出す側の守る前提（長さと、server と繋がっているかどうか）を満たさない事象は起こらない。 -/
def step (cfg : Config) (o : UdpGwClient) : Event → Option (M UdpGwClient)
  | .submit localAddr remoteAddr isDns data alloc =>
    if data.length ≤ cfg.udpMtu then some (submitPacket cfg o localAddr remoteAddr isDns data alloc)
    else none
  | .received data =>
    if o.haveServer = true ∧ data.length ≤ cfg.udpgwMtu then
      some (recvInterfaceHandlerSend cfg o data)
    else none
  | .connect ok => if o.haveServer = false then some (connectServer o ok) else none
  | .disconnect => if o.haveServer = true then some (disconnectServer o) else none
  | .firstJob h =>
    if h ∈ o.connectionsList ∧ (o.con h).firstJob = true then
      some (connectionFirstJobHandler cfg (o.setCon h (o.con h).startFirstJob) h)
    else none
  | .offer h =>
    if h ∈ o.connectionsList ∧ (o.con h).firstJob = false ∧ (o.con h).outHave = false then
      some (.ok (o.setCon h { o.con h with outHave := true }))
    else none
  | .drained h =>
    if h ∈ o.connectionsList ∧ (o.con h).sendBuffer ≠ [] then
      some (.ok (o.setCon h { o.con h with sendBuffer := (o.con h).sendBuffer.tail }))
    else none

end UdpGw
