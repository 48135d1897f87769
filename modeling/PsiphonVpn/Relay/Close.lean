import PsiphonVpn.Relay.Model

/-!
# 閉じる関数の仕様

`client_handle_freed_client`・`client_free_client`・`client_free_socks`・`client_dealloc` は互いに呼び合うが、
どれから入っても結果は「どちらの側を閉じ、待つか解放するか」で決まる。ここでは、前提の下でその結果を
純粋な更新の合成として書き下す。呼び出し側はこの等式だけを使い、関数の中を見ない。
-/

namespace Relay

open Infra

/-- SOCKS が閉じても、client へ送るものが残っているので待つ。 -/
def Client.flushes (c : Client) : Prop :=
  c.socksUp = true ∧ (0 ≤ c.socksRecvBufUsed ∨ 0 < c.socksRecvTcpPending) ∧ c.clientClosed = false

instance (c : Client) : Decidable c.flushes := inferInstanceAs (Decidable (_ ∧ _))

namespace Ctx

/-- dead 変数を立てる。 -/
def kill (x : Ctx) : Ctx := { x with dead := x.dead.map fun v => { v with killed := true } }

/-- lwIP の側を閉じる。 -/
def closeClient (x : Ctx) (c : Client) : Ctx :=
  { x with
    dead := x.dead.map fun v => { v with killed := true }
    conn := { x.conn with
      client := some { c with clientClosed := true }
      firstClosed := x.conn.firstClosed <|> some .client } }

/-- SOCKS の側を閉じる。client からの受信も止める。 -/
def closeSocks (x : Ctx) (c : Client) : Ctx :=
  { x with conn := { x.conn with
      client := some { c with socksClosed := true }
      recvCb := if c.socksUp = true ∧ c.clientClosed = false then false else x.conn.recvCb
      socksAlive := false, sending := none, receiving := false
      firstClosed := x.conn.firstClosed <|> some .socks } }

def dealloc (x : Ctx) : Ctx :=
  { x with
    numClients := x.numClients - 1
    tcpClients := x.tcpClients.erase x.id
    conn := { x.conn with client := none, frees := x.conn.frees + 1 } }

/-- lwIP の側が閉じた後。SOCKS に送るものが残っていれば待ち、なければ SOCKS も閉じて解放する。 -/
def afterClient (x : Ctx) (c : Client) : Ctx :=
  if c.buf ≠ [] ∧ c.socksClosed = false then x.closeClient c
  else if c.socksClosed = false then
    ((x.closeClient c).closeSocks { c with clientClosed := true }).dealloc
  else (x.closeClient c).dealloc

/-- SOCKS の側が閉じた後。client に送るものが残っていれば待ち、なければ pcb も閉じて解放する。 -/
def afterSocks (x : Ctx) (c : Client) : Ctx :=
  if c.flushes then x.closeSocks c
  else if c.clientClosed = false then
    ((x.closeSocks c).endPcb .freed).afterClient { c with socksClosed := true }
  else (x.closeSocks c).dealloc

@[simp] theorem conn_endPcb (x : Ctx) (r : PcbEnd) : (x.endPcb r).conn =
    { x.conn with
      pcbOpen := false, errCb := false, recvCb := false, sentCb := false, pcbEnd := some r } := rfl

@[simp] theorem conn_closeClient (x : Ctx) (c : Client) : (x.closeClient c).conn =
    { x.conn with
      client := some { c with clientClosed := true }
      firstClosed := x.conn.firstClosed <|> some .client } := rfl

@[simp] theorem conn_closeSocks (x : Ctx) (c : Client) : (x.closeSocks c).conn =
    { x.conn with
      client := some { c with socksClosed := true }
      recvCb := if c.socksUp = true ∧ c.clientClosed = false then false else x.conn.recvCb
      socksAlive := false, sending := none, receiving := false
      firstClosed := x.conn.firstClosed <|> some .socks } := rfl

@[simp] theorem conn_dealloc (x : Ctx) : x.dealloc.conn =
    { x.conn with client := none, frees := x.conn.frees + 1 } := rfl

@[simp] theorem access_some {x : Ctx} {c : Client} (h : x.conn.client = some c) :
    x.access = .ok c := by
  unfold access
  rw [h]

@[simp] theorem usePcb_of {x : Ctx} (h : x.conn.pcbOpen = true) : x.usePcb = .ok () := by
  unfold usePcb
  rw [if_pos h]

end Ctx

variable {x : Ctx} {c : Client}

theorem deadKill_eq {pointer : Bool} (h : pointer = x.dead.isSome) :
    deadKill x pointer = .ok x.kill := by
  subst h
  obtain ⟨id, num, list, dead, conn⟩ := x
  cases dead <;> rfl

theorem clientDealloc_eq (hc : x.conn.client = some c) (h1 : c.clientClosed = true)
    (h2 : c.socksClosed = true) (hn : 0 < x.numClients) : clientDealloc x = .ok x.dealloc := by
  unfold clientDealloc
  rw [Ctx.access_some hc, ok_bind, check_bind h1, check_bind h2, check_bind hn]
  rfl

/-- `tcp_recv(pcb, NULL)` は、`closeSocks` の `recvCb` の更新にあたる。 -/
theorem stopReceiving_eq
    (h : c.socksUp = true ∧ c.clientClosed = false → x.conn.pcbOpen = true) :
    stopReceiving c x = .ok { x with
      conn.recvCb :=
        if c.socksUp = true ∧ c.clientClosed = false then false else x.conn.recvCb } := by
  unfold stopReceiving
  split
  next hup => rw [Ctx.usePcb_of (h hup)]; rfl
  next => rfl

/-- client がすでに閉じている時、SOCKS を閉じれば解放まで進む。 -/
theorem clientFreeSocks_closed (n : Nat) (hc : x.conn.client = some c) (h1 : c.clientClosed = true)
    (h2 : c.socksClosed = false) (hn : 0 < x.numClients) :
    clientFreeSocks (n + 1) x = .ok (x.closeSocks c).dealloc := by
  have hnotUp : ¬ (c.socksUp = true ∧ c.clientClosed = false) := by simp [h1]
  have hnotWait : ¬ c.flushes := by simp [Client.flushes, h1]
  rw [clientFreeSocks, Ctx.access_some hc, ok_bind, check_bind h2,
    stopReceiving_eq fun h => absurd h hnotUp, ok_bind]
  refine (if_neg hnotWait).trans ((if_neg (by simp [h1])).trans ?_)
  exact clientDealloc_eq (x := x.closeSocks c) (c := { c with socksClosed := true }) rfl h1 rfl hn

theorem clientHandleFreedClient_eq (n : Nat) (hc : x.conn.client = some c)
    (h1 : c.clientClosed = false) (hp : c.deadClient = x.dead.isSome) (hn : 0 < x.numClients) :
    clientHandleFreedClient (n + 2) x = .ok (x.afterClient c) := by
  rw [clientHandleFreedClient, Ctx.access_some hc, ok_bind, check_bind h1, deadKill_eq hp, ok_bind]
  unfold Ctx.afterClient
  by_cases hwait : c.buf ≠ [] ∧ c.socksClosed = false
  · rw [if_pos hwait, if_pos hwait]
    rfl
  rw [if_neg hwait, if_neg hwait]
  by_cases hs : c.socksClosed = false
  · rw [if_pos hs, if_pos hs]
    exact clientFreeSocks_closed n (x := x.closeClient c) (c := { c with clientClosed := true })
      rfl rfl hs hn
  · rw [if_neg hs, if_neg hs]
    exact clientDealloc_eq (x := x.closeClient c) (c := { c with clientClosed := true }) rfl rfl
      (by simpa using hs) hn

theorem clientFreeClient_eq (n : Nat) (hc : x.conn.client = some c) (h1 : c.clientClosed = false)
    (hpcb : x.conn.pcbOpen = true) (hp : c.deadClient = x.dead.isSome) (hn : 0 < x.numClients) :
    clientFreeClient (n + 3) x = .ok ((x.endPcb .freed).afterClient c) := by
  rw [clientFreeClient, Ctx.access_some hc, ok_bind, check_bind h1, Ctx.usePcb_of hpcb, ok_bind]
  exact clientHandleFreedClient_eq n hc h1 hp hn

theorem clientAbortClient_eq (r : PcbEnd) (hc : x.conn.client = some c)
    (h1 : c.clientClosed = false) (hpcb : x.conn.pcbOpen = true)
    (hp : c.deadClient = x.dead.isSome) (hn : 0 < x.numClients) :
    clientAbortClient r x = .ok ((x.endPcb r).afterClient c) := by
  rw [clientAbortClient, Ctx.access_some hc, ok_bind, check_bind h1, Ctx.usePcb_of hpcb, ok_bind]
  exact clientHandleFreedClient_eq 1 hc h1 hp hn

theorem clientFreeSocks_eq (n : Nat) (hc : x.conn.client = some c) (h2 : c.socksClosed = false)
    (hopen : c.clientClosed = false → x.conn.pcbOpen = true ∧ c.deadClient = x.dead.isSome)
    (hn : 0 < x.numClients) : clientFreeSocks (n + 4) x = .ok (x.afterSocks c) := by
  by_cases h1 : c.clientClosed = false
  · obtain ⟨hpcb, hp⟩ := hopen h1
    rw [clientFreeSocks, Ctx.access_some hc, ok_bind, check_bind h2, stopReceiving_eq fun _ => hpcb,
      ok_bind]
    unfold Ctx.afterSocks
    by_cases hwait : c.flushes
    · rw [if_pos hwait]
      exact if_pos hwait
    rw [if_neg hwait, if_pos h1]
    refine (if_neg hwait).trans ((if_pos h1).trans ?_)
    exact clientFreeClient_eq n (x := x.closeSocks c) (c := { c with socksClosed := true })
      rfl h1 hpcb hp hn
  · have h1' : c.clientClosed = true := by simpa using h1
    rw [clientFreeSocks_closed _ hc h1' h2 hn]
    unfold Ctx.afterSocks
    rw [if_neg (by simp [Client.flushes, h1']), if_neg h1]

end Relay
