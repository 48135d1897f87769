import PsiphonVpn.UdpGw.Parcel

/-!
# udpgw server

`udpgw.c` の、一つの client についての部分。client の message の conid ごとに UDP の connection を一つ持ち、UDP から来た
datagram を、同じ conid と、作られた時の address（`orig_addr`）を付けて client に返す。

## model

* **connection** は、list（`connections_list`、使われた順）にそのまま入れて持つ。conid の木は同じ connection の索引なので、
  list を conid で探すことで表す
* **送信 buffer** は client の側と同じで、書き込み先がある間（`outHave`）だけ message を一つ受け取る。fair queue が送っている
  flow は高々一つである（`busy`）。送っている間に閉じられた connection は、その一つを送り終えるまで `closing` に残る
* **最初の datagram** `connection_init` の積む `first_job` は、`connection_init` を呼んだ handler の直後に走るので、同じ一歩に
  含める
* **環境** DNS server の address、記憶や socket の確保の成否、local port を空けるために閉じられる connection は任意である

`creator` と `datagrams` は、program が持たない記録である。
-/

namespace UdpGw.Server

open Infra Net

/-- `struct connection` -/
structure Connection where
  conid : Nat
  addr : BAddr
  origAddr : BAddr
  outHave : Bool
  sendBuffer : List Message
  /-- `PacketPassFairQueueFlow_IsBusy(&con->send_qflow)` -/
  busy : Bool
  -- 記録
  /-- この connection を作った message の送り元。 -/
  creator : ConAddr
  deriving DecidableEq, Repr

/-- `struct client` -/
structure Client where
  connections : List Connection
  closing : List Connection
  -- 記録
  /-- UDP に書いた datagram。 -/
  datagrams : List (BAddr × List UInt8)
  deriving DecidableEq, Repr

/-- `client_init` の後。 -/
def Client.init : Client := ⟨[], [], []⟩

/-- 閉じられたものも含めた、すべての connection。 -/
def Client.all (s : Client) : List Connection := s.connections ++ s.closing

structure Env where
  /-- `dns_addr`。`none` は、使える DNS server が無いこと。 -/
  dns : Option BAddr
  /-- local port を空けるために閉じられる connection の conid。 -/
  least : Option Nat
  /-- `connection_init` の成否。 -/
  ok : Bool
  /-- `udp_send_writer` に書き込み先がある。 -/
  space : Bool
  deriving DecidableEq, Repr

def findConnection (s : Client) (conid : Nat) : Option Connection :=
  s.connections.find? fun c => c.conid = conid

/-- `connection_close`。送っている途中なら、送り終えるまで残る。 -/
def connectionClose (s : Client) (c : Connection) : Client :=
  { s with
    connections := s.connections.erase c
    closing := if c.busy then s.closing ++ [c] else s.closing }

/-- UDP の buffer に書く。書き込み先がなければ捨てる。 -/
def writeUdp (s : Client) (addr : BAddr) (data : List UInt8) (space : Bool) : Client :=
  if space then { s with datagrams := s.datagrams ++ [(addr, data)] } else s

/-- `connection_send_to_udp` -/
def connectionSendToUdp (o : Options) (s : Client) (c : Connection) (data : List UInt8)
    (space : Bool) : M Client := do
  check .assertion (data.length ≤ o.udpMtu)
  return writeUdp { s with connections := s.connections.erase c ++ [c] } c.addr data space

/-- `connection_init` のうち、local port を決める所。送っている途中の connection は選ばれない。 -/
def closeLeast (s : Client) (least : Option Nat) : Client :=
  match least.bind (findConnection s) with
  | none => s
  | some c => if c.busy then s else connectionClose s c

/-- 新しい connection の構造体。 -/
def Connection.fresh (conid : Nat) (addr origAddr : BAddr) (creator : ConAddr) : Connection where
  conid := conid
  addr := addr
  origAddr := origAddr
  outHave := false
  sendBuffer := []
  busy := false
  creator := creator

def insertConnection (s : Client) (c : Connection) : Client :=
  { s with connections := s.connections ++ [c] }

/-- `connection_init` と `connection_first_job_handler`。 -/
def connectionInit (o : Options) (s : Client) (c : Connection) (data : List UInt8) (env : Env) :
    M Client := do
  check .assertion (s.connections.length < o.maxConnectionsForClient)
  check .assertion (findConnection s c.conid = none)
  check .assertion (data.length ≤ o.udpMtu)
  if env.ok then return writeUdp (insertConnection (closeLeast s env.least) c) c.addr data env.space
  else return closeLeast s env.least

/-- 上限に達していれば、最も長く使われていない connection を閉じる。 -/
def makeRoom (o : Options) (s : Client) : M Client :=
  if s.connections.length = o.maxConnectionsForClient then
    match s.connections with
    | [] => .error .emptyList
    | c :: _ => .ok (connectionClose s c)
  else .ok s

/-- DNS なら、実際の宛先を DNS server に替える。 -/
def udpAddr (m : Message) (dns : Option BAddr) : BAddr :=
  if m.flags &&& flagDns ≠ 0 then dns.getD m.remoteAddr else m.remoteAddr

/-- connection が無い時。 -/
def createConnection (o : Options) (s : Client) (origin : ConAddr) (m : Message) (env : Env) :
    M Client := do
  let s ← makeRoom o s
  connectionInit o s (.fresh m.conid (udpAddr m env.dns) m.remoteAddr origin) m.payload env

/-- `client_recv_if_handler_send` の、message を読んだ後。 -/
def receiveMessage (o : Options) (s : Client) (origin : ConAddr) (m : Message) (env : Env) :
    M Client :=
  match findConnection s m.conid with
  | none => createConnection o s origin m env
  | some c =>
    if m.flags &&& flagRebind ≠ 0 ∨
      c.origAddr ≠ m.remoteAddr then createConnection o (connectionClose s c) origin m env
    else connectionSendToUdp o s c m.payload env.space

/-- `client_recv_if_handler_send`。`origin` は、message の送り元の記録である。 -/
def clientRecvIfHandlerSend (o : Options) (s : Client) (origin : ConAddr) (data : List UInt8)
    (env : Env) : M Client := do
  check .assertion (data.length ≤ o.udpgwMtu)
  match clientRecvIfHandlerRead o.udpMtu data with
  | .error _ => return s
  | .ok m => receiveMessage o s origin m env

/-- `connection_send_to_client`。長すぎるか、書き込み先がなければ捨てる。 -/
def Connection.sendToClient (o : Options) (c : Connection) (flags : UInt8) (data : List UInt8) :
    Connection :=
  if (o.udpgwMtu : Int) - (3 + c.origAddr.size : Nat) < data.length then c
  else if c.outHave then
    { c with outHave := false, sendBuffer := c.sendBuffer ++
      [replyMessage c.conid c.origAddr flags data] }
  else c

/-- `connection_udp_recv_if_handler_send` -/
def connectionUdpRecvIfHandlerSend (o : Options) (s : Client) (c : Connection) (data : List UInt8) :
    M Client := do
  check .assertion (data.length ≤ o.udpMtu)
  return { s with connections := s.connections.erase c ++ [c.sendToClient o 0 data] }

/-! ## 一歩 -/

/-- client の message を受け取ることのほかに起こること。 -/
inductive Event where
  | udpReceived (conid : Nat) (data : List UInt8)
  /-- `connection_dgram_handler_event`、または別の client のために local port を空ける。 -/
  | udpError (conid : Nat)
  | offer (conid : Nat)
  /-- fair queue が、connection の最も古い message を送り始める。 -/
  | sending (conid : Nat)
  | sent (conid : Nat)
  /-- 閉じられた `i` 番目の connection が送り終えて、解放される。 -/
  | sentClosing (i : Nat)
  deriving DecidableEq, Repr

/-- connection `c` を `c'` に書き換える。 -/
def Client.replace (s : Client) (c c' : Connection) : Client :=
  { s with connections := s.connections.map fun d => if d = c then c' else d }

/-- 送り終えた message は、作った message の送り元とともに出ていく。 -/
def step (o : Options) (s : Client) : Event → Option (M (Client × Option Parcel))
  | .udpReceived conid data =>
    match findConnection s conid with
    | none => none
    | some c =>
      if data.length ≤ o.udpMtu then
        some (do
          let s ← connectionUdpRecvIfHandlerSend o s c data
          return (s, none))
      else none
  | .udpError conid => (findConnection s conid).map fun c => .ok (connectionClose s c, none)
  | .offer conid =>
    (findConnection s conid).map fun c => .ok (s.replace c { c with outHave := true }, none)
  | .sending conid =>
    match findConnection s conid with
    | none => none
    | some c =>
      if c.sendBuffer ≠ [] ∧ ∀ d ∈ s.all, d.busy = false then
        some (.ok (s.replace c { c with busy := true }, none))
      else none
  | .sent conid =>
    match findConnection s conid with
    | none => none
    | some c =>
      match c.busy, c.sendBuffer with
      | true, m :: rest =>
        some (.ok (s.replace c { c with busy := false, sendBuffer := rest }, some ⟨c.creator, m⟩))
      | _, _ => none
  | .sentClosing i =>
    match s.closing[i]? with
    | none => none
    | some c =>
      match c.sendBuffer with
      | [] => none
      | m :: _ => some (.ok ({ s with closing := s.closing.eraseIdx i }, some ⟨c.creator, m⟩))

/-! ## 不変量 -/

/-- conid は重ならず、connection は上限を超えない。 -/
structure Inv (o : Options) (s : Client) : Prop where
  nodup : (s.connections.map Connection.conid).Nodup
  length_le : s.connections.length ≤ o.maxConnectionsForClient

theorem inv_init (o : Options) : Inv o .init := ⟨List.nodup_nil, Nat.zero_le _⟩

variable {o : Options} {s s' : Client} {c c' : Connection}

theorem find_some {conid : Nat} (h : findConnection s conid = some c) :
    c ∈ s.connections ∧ c.conid = conid :=
  ⟨List.mem_of_find?_eq_some h, by simpa using List.find?_some h⟩

theorem find_none {conid : Nat} :
    findConnection s conid = none ↔ ∀ d ∈ s.connections, d.conid ≠ conid := by
  simp [findConnection]

/-! ## 閉じること -/

/-- いくつかの connection が閉じられた。 -/
structure Closes (s s' : Client) : Prop where
  connections : s'.connections.Sublist s.connections
  all : ∀ d ∈ s'.all, d ∈ s.all

theorem Closes.refl (s : Client) : Closes s s := ⟨List.Sublist.refl _, fun _ h => h⟩

theorem Closes.inv (h : Closes s s') (hi : Inv o s) : Inv o s' :=
  ⟨hi.nodup.sublist (h.connections.map _), h.connections.length_le.trans hi.length_le⟩

theorem closes_connectionClose (hc : c ∈ s.connections) : Closes s (connectionClose s c) := by
  refine ⟨List.erase_sublist, fun d hd => ?_⟩
  rcases List.mem_append.mp hd with hd | hd
  · exact List.mem_append_left _ (List.mem_of_mem_erase hd)
  · simp only [connectionClose] at hd
    split at hd
    next =>
      rcases List.mem_append.mp hd with hd | hd
      · exact List.mem_append_right _ hd
      · rw [List.mem_singleton.mp hd]
        exact List.mem_append_left _ hc
    next => exact List.mem_append_right _ hd

theorem conid_connectionClose (hi : Inv o s) (hc : c ∈ s.connections) :
    ∀ d ∈ (connectionClose s c).connections, d.conid ≠ c.conid := by
  have hnodup : ((c :: s.connections.erase c).map Connection.conid).Nodup :=
    ((List.perm_cons_erase hc).map _).nodup_iff.mp hi.nodup
  intro d hd heq
  rw [List.map_cons] at hnodup
  exact hnodup.notMem (heq ▸ List.mem_map_of_mem hd)

theorem closes_closeLeast (s : Client) (least : Option Nat) : Closes s (closeLeast s least) := by
  unfold closeLeast
  split
  next => exact .refl s
  next c hfind =>
    obtain ⟨conid, -, hfind⟩ := Option.bind_eq_some_iff.mp hfind
    split
    next => exact .refl s
    next => exact closes_connectionClose (find_some hfind).1

theorem makeRoom_ok (hi : Inv o s) :
    ∃ s', makeRoom o s = .ok s' ∧ Closes s s' ∧
      s'.connections.length < o.maxConnectionsForClient := by
  unfold makeRoom
  split
  next hfull =>
    have hpos := o.maxConnectionsForClient_pos
    cases hlist : s.connections with
    | nil =>
      rw [hlist, List.length_nil] at hfull
      omega
    | cons c rest =>
      have hc : c ∈ s.connections := by rw [hlist]; exact List.mem_cons_self
      refine ⟨_, rfl, closes_connectionClose hc, ?_⟩
      rw [connectionClose, List.length_erase_of_mem hc]
      omega
  next hroom => exact ⟨s, rfl, .refl s, lt_of_le_of_ne hi.length_le hroom⟩

/-! ## message を受け取る -/

section Receive

variable {m : Message} {data : List UInt8}

theorem writeUdp_connections (s : Client) (addr : BAddr) (data : List UInt8) (space : Bool) :
    (writeUdp s addr data space).connections = s.connections ∧
      (writeUdp s addr data space).closing = s.closing := by
  unfold writeUdp
  split <;> exact ⟨rfl, rfl⟩

theorem Inv.congr (hi : Inv o s) (h : s'.connections = s.connections) : Inv o s' := by
  refine ⟨?_, ?_⟩
  · rw [h]
    exact hi.nodup
  · rw [h]
    exact hi.length_le

/-- 使った connection を list の末尾に移す。移す間に中身を書き換えてもよい。 -/
theorem Inv.moved (hi : Inv o s) (hc : c ∈ s.connections) (hconid : c'.conid = c.conid)
    (h : s'.connections = s.connections.erase c ++ [c']) : Inv o s' := by
  have hperm : (s'.connections.map Connection.conid).Perm (s.connections.map Connection.conid) := by
    rw [h, List.map_append, List.map_singleton, hconid, ← List.map_singleton, ← List.map_append]
    exact ((List.perm_append_singleton c _).trans (List.perm_cons_erase hc).symm).map _
  refine ⟨hperm.nodup_iff.mpr hi.nodup, ?_⟩
  have hlen := hperm.length_eq
  rw [List.length_map, List.length_map] at hlen
  rw [hlen]
  exact hi.length_le

theorem inv_insertConnection (hi : Inv o s)
    (hroom : s.connections.length < o.maxConnectionsForClient)
    (hnew : ∀ d ∈ s.connections, d.conid ≠ c.conid) : Inv o (insertConnection s c) := by
  refine ⟨?_, ?_⟩
  · show ((s.connections ++ [c]).map Connection.conid).Nodup
    rw [List.map_append]
    refine List.nodup_append.mpr ⟨hi.nodup, List.nodup_singleton _, ?_⟩
    intro a ha b hb
    obtain ⟨d, hd, rfl⟩ := List.mem_map.mp ha
    rw [List.mem_singleton.mp hb]
    exact hnew d hd
  · show (s.connections ++ [c]).length ≤ _
    rw [List.length_append, List.length_singleton]
    exact hroom

/-- 作られる connection のほかは、前からあったものである。 -/
theorem connectionInit_ok (env : Env) (hi : Inv o s)
    (hroom : s.connections.length < o.maxConnectionsForClient)
    (hnew : ∀ d ∈ s.connections, d.conid ≠ c.conid) (hdata : data.length ≤ o.udpMtu) :
    ∃ s', connectionInit o s c data env = .ok s' ∧ Inv o s' ∧ ∀ d ∈ s'.all, d ∈ s.all ∨ d = c := by
  have hclose := closes_closeLeast s env.least
  unfold connectionInit
  rw [check_bind hroom, check_bind (find_none.mpr hnew), check_bind hdata]
  split
  next =>
    obtain ⟨hcons, hclosing⟩ :=
      writeUdp_connections (insertConnection (closeLeast s env.least) c) c.addr data env.space
    refine ⟨_, rfl, ?_, ?_⟩
    · refine Inv.congr (inv_insertConnection (hclose.inv hi) ?_ fun d hd =>
        hnew d (hclose.connections.subset hd)) hcons
      exact lt_of_le_of_lt hclose.connections.length_le hroom
    · intro d hd
      rw [Client.all, hcons, hclosing] at hd
      rcases List.mem_append.mp hd with hd | hd
      · rcases List.mem_append.mp hd with hd | hd
        · exact .inl (hclose.all d (List.mem_append_left _ hd))
        · exact .inr (List.mem_singleton.mp hd)
      · exact .inl (hclose.all d (List.mem_append_right _ hd))
  next => exact ⟨_, rfl, hclose.inv hi, fun d hd => .inl (hclose.all d hd)⟩

theorem createConnection_ok (origin : ConAddr) (env : Env) (hi : Inv o s)
    (hnew : ∀ d ∈ s.connections, d.conid ≠ m.conid) (hdata : m.payload.length ≤ o.udpMtu) :
    ∃ s', createConnection o s origin m env = .ok s' ∧ Inv o s' ∧
      ∀ d ∈ s'.all, d ∈ s.all ∨ d = .fresh m.conid (udpAddr m env.dns) m.remoteAddr origin := by
  obtain ⟨s₁, hroom, hclose, hlt⟩ := makeRoom_ok hi
  obtain ⟨s₂, hinit, hi₂, hall⟩ :=
    connectionInit_ok (c := .fresh m.conid (udpAddr m env.dns) m.remoteAddr origin)
    env (hclose.inv hi) hlt (fun d hd => hnew d (hclose.connections.subset hd)) hdata
  refine ⟨s₂, ?_, hi₂, fun d hd => (hall d hd).imp_left (hclose.all d)⟩
  rw [createConnection, hroom, ok_bind, hinit]

theorem receiveMessage_ok (origin : ConAddr) (env : Env) (hi : Inv o s)
    (hdata : m.payload.length ≤ o.udpMtu) :
    ∃ s', receiveMessage o s origin m env = .ok s' ∧ Inv o s' ∧
      ∀ d ∈ s'.all, d ∈ s.all ∨ d = .fresh m.conid (udpAddr m env.dns) m.remoteAddr origin := by
  unfold receiveMessage
  cases hfind : findConnection s m.conid with
  | none => exact createConnection_ok origin env hi (find_none.mp hfind) hdata
  | some c =>
    obtain ⟨hc, hconid⟩ := find_some hfind
    dsimp only
    split
    next =>
      have hclose := closes_connectionClose hc
      obtain ⟨s', hok, hi', hall⟩ := createConnection_ok origin env (hclose.inv hi)
        (hconid ▸ conid_connectionClose hi hc) hdata
      exact ⟨s', hok, hi', fun d hd => (hall d hd).imp_left (hclose.all d)⟩
    next =>
      obtain ⟨hcons, hclosing⟩ :=
        writeUdp_connections { s with connections := s.connections.erase c ++ [c] } c.addr m.payload
          env.space
      rw [connectionSendToUdp, check_bind hdata]
      refine ⟨_, rfl, hi.moved hc rfl hcons, fun d hd => .inl ?_⟩
      rw [Client.all, hcons, hclosing] at hd
      rcases List.mem_append.mp hd with hd | hd
      · exact List.mem_append_left _
          (((List.perm_append_singleton c _).trans (List.perm_cons_erase hc).symm).subset hd)
      · exact List.mem_append_right _ hd

theorem clientRecvIfHandlerSend_ok (origin : ConAddr) (env : Env) (hi : Inv o s)
    (hlen : data.length ≤ o.udpgwMtu) :
    ∃ s', clientRecvIfHandlerSend o s origin data env = .ok s' ∧ Inv o s' ∧
      ∀ d ∈ s'.all, d ∈ s.all ∨ ∃ m addr, clientRecvIfHandlerRead o.udpMtu data = .ok m ∧
        d = .fresh m.conid addr m.remoteAddr origin := by
  rw [clientRecvIfHandlerSend, check_bind hlen]
  cases hread : clientRecvIfHandlerRead o.udpMtu data with
  | error e => exact ⟨s, rfl, hi, fun d hd => .inl hd⟩
  | ok m =>
    obtain ⟨⟨-, -, hdata⟩, -⟩ := clientRecvIfHandlerRead_eq_ok.mp hread
    obtain ⟨s', hok, hi', hall⟩ := receiveMessage_ok origin env hi hdata
    exact ⟨s', hok, hi', fun d hd => (hall d hd).imp_right fun h => ⟨m, _, rfl, h⟩⟩

end Receive

/-! ## そのほかの一歩 -/

/-- `c'` は、`c` の後の姿である。送信 buffer に加わるのは、`c` の conid と address を付けた message だけである。 -/
structure Continues (c c' : Connection) : Prop where
  conid : c'.conid = c.conid
  origAddr : c'.origAddr = c.origAddr
  creator : c'.creator = c.creator
  sendBuffer : ∀ m ∈ c'.sendBuffer, m ∈ c.sendBuffer ∨
    ∃ data, m = replyMessage c.conid c.origAddr 0 data

theorem Continues.refl (c : Connection) : Continues c c := ⟨rfl, rfl, rfl, fun _ h => .inl h⟩

theorem continues_sendToClient (o : Options) (c : Connection) (data : List UInt8) :
    Continues c (c.sendToClient o 0 data) := by
  unfold Connection.sendToClient
  split
  next => exact .refl c
  next =>
    split
    next =>
      refine ⟨rfl, rfl, rfl, fun m hm => ?_⟩
      rcases List.mem_append.mp hm with hm | hm
      · exact .inl hm
      · exact .inr ⟨data, List.mem_singleton.mp hm⟩
    next => exact .refl c

/-- どの connection も、前にあったものの後の姿である。 -/
def Follows (s s' : Client) : Prop := ∀ d ∈ s'.all, ∃ c ∈ s.all, Continues c d

theorem Closes.follows (h : Closes s s') : Follows s s' := fun d hd => ⟨d, h.all d hd, .refl d⟩

theorem follows_replace (hc : c ∈ s.connections) (hcont : Continues c c') :
    Follows s (s.replace c c') := by
  intro d hd
  rcases List.mem_append.mp hd with hd | hd
  · obtain ⟨d₀, hd₀, rfl⟩ := List.mem_map.mp hd
    split
    next => exact ⟨c, List.mem_append_left _ hc, hcont⟩
    next => exact ⟨d₀, List.mem_append_left _ hd₀, .refl d₀⟩
  · exact ⟨d, List.mem_append_right _ hd, .refl d⟩

theorem inv_replace (hi : Inv o s) (hconid : c'.conid = c.conid) : Inv o (s.replace c c') := by
  have hconids : (s.replace c c').connections.map Connection.conid =
      s.connections.map Connection.conid := by
    rw [Client.replace, List.map_map]
    apply List.map_congr_left
    intro d _
    simp only [Function.comp_apply]
    split
    next h => rw [hconid, h]
    next => rfl
  refine ⟨?_, ?_⟩
  · rw [hconids]
    exact hi.nodup
  · rw [Client.replace, List.length_map]
    exact hi.length_le

theorem connectionUdpRecvIfHandlerSend_ok (hi : Inv o s) (hc : c ∈ s.connections)
    {data : List UInt8} (hdata : data.length ≤ o.udpMtu) :
    ∃ s', connectionUdpRecvIfHandlerSend o s c data = .ok s' ∧ Inv o s' ∧ Follows s s' := by
  have hcont := continues_sendToClient o c data
  rw [connectionUdpRecvIfHandlerSend, check_bind hdata]
  refine ⟨_, rfl, hi.moved hc hcont.conid rfl, fun d hd => ?_⟩
  rcases List.mem_append.mp hd with hd | hd
  · rcases List.mem_append.mp hd with hd | hd
    · exact ⟨d, List.mem_append_left _ (List.mem_of_mem_erase hd), .refl d⟩
    · rw [List.mem_singleton.mp hd]
      exact ⟨c, List.mem_append_left _ hc, hcont⟩
  · exact ⟨d, List.mem_append_right _ hd, .refl d⟩

/-- `p` は、connection `c` の送信 buffer にあった message である。 -/
def Sends (s : Client) (p : Parcel) : Prop := ∃ c ∈ s.all, p.origin = c.creator ∧
    p.message ∈ c.sendBuffer

theorem step_ok (hi : Inv o s) {e : Event} {r : M (Client × Option Parcel)}
    (hstep : step o s e = some r) :
    ∃ s' out, r = .ok (s', out) ∧ Inv o s' ∧ Follows s s' ∧ ∀ p ∈ out, Sends s p := by
  have hnone : ∀ p ∈ (none : Option Parcel), Sends s p := fun p hp => by cases hp
  cases e with
  | udpReceived conid data =>
    rw [step] at hstep
    split at hstep
    next => cases hstep
    next c hfind =>
      obtain ⟨hdata, rfl⟩ := of_ite_eq_some hstep
      obtain ⟨s', hok, hi', hfollows⟩ :=
        connectionUdpRecvIfHandlerSend_ok hi (find_some hfind).1 hdata
      exact ⟨s', none, by rw [hok]; rfl, hi', hfollows, hnone⟩
  | udpError conid =>
    obtain ⟨c, hfind, rfl⟩ := Option.map_eq_some_iff.mp hstep
    have hclose := closes_connectionClose (find_some hfind).1
    exact ⟨_, none, rfl, hclose.inv hi, hclose.follows, hnone⟩
  | offer conid =>
    obtain ⟨c, hfind, rfl⟩ := Option.map_eq_some_iff.mp hstep
    exact ⟨_, none, rfl, inv_replace hi rfl, follows_replace (find_some hfind).1
      ⟨rfl, rfl, rfl, fun _ h => .inl h⟩, hnone⟩
  | sending conid =>
    rw [step] at hstep
    split at hstep
    next => cases hstep
    next c hfind =>
      obtain ⟨-, rfl⟩ := of_ite_eq_some hstep
      exact ⟨_, none, rfl, inv_replace hi rfl, follows_replace (find_some hfind).1
        ⟨rfl, rfl, rfl, fun _ h => .inl h⟩,
        hnone⟩
  | sent conid =>
    rw [step] at hstep
    split at hstep
    next => cases hstep
    next c hfind =>
      split at hstep
      next m rest _ hbuf =>
        obtain rfl := Option.some.inj hstep
        have hc := (find_some hfind).1
        refine ⟨_, _, rfl, inv_replace hi rfl,
          follows_replace hc ⟨rfl, rfl, rfl, fun m' hm' => .inl ?_⟩, ?_⟩
        · rw [hbuf]
          exact List.mem_cons_of_mem m hm'
        · rintro p ⟨⟩
          exact ⟨c, List.mem_append_left _ hc, rfl, by rw [hbuf]; exact List.mem_cons_self⟩
      next => cases hstep
  | sentClosing i =>
    rw [step] at hstep
    split at hstep
    next => cases hstep
    next c hget =>
      split at hstep
      next => cases hstep
      next m rest hbuf =>
        obtain rfl := Option.some.inj hstep
        refine ⟨_, _, rfl, hi.congr rfl, fun d hd => ?_, ?_⟩
        · rcases List.mem_append.mp hd with hd | hd
          · exact ⟨d, List.mem_append_left _ hd, .refl d⟩
          · exact ⟨d, List.mem_append_right _ (List.mem_of_mem_eraseIdx hd), .refl d⟩
        · rintro p ⟨⟩
          exact ⟨c, List.mem_append_right _ (List.mem_of_getElem? hget), rfl,
            by rw [hbuf]; exact List.mem_cons_self⟩

end UdpGw.Server
