import PsiphonVpn.Relay.Close

/-!
# 中継の不変量

callback と callback の間で成り立つことを、四つに分けて書く。

* `Control` — どちらの側が開いているか、それに応じてどの callback が残っているか、dead 変数の状態
* `Upstream` — client から SOCKS への byte。`buf` と、書き終わっていない送信
* `Downstream` — SOCKS から client への byte。`socks_recv_buf` と、確認されていない byte
* `Freed` — 解放した後。どの callback も残らず、byte の記録は閉じ方の約束を満たす

両側を閉じる関数は `Close` の等式で更新の合成になっているので、ここでその更新が不変量を保つことを示す
（`ctxInv_afterClient`、`ctxInv_afterSocks`）。
-/

namespace Relay

open Infra

/-- lwIP の error か、`tcp_write`・`tcp_output` の error。 -/
def PcbEnd.isError : PcbEnd → Bool
  | .lwipError => true
  | .tcpWrite e => e ≠ .ok
  | .tcpOutput => true
  | .stuck => false
  | .freed => false
  | .murdered => false

/-- shutdown のほかに pcb を手放してよい訳。 -/
def PcbEnd.ordinary (r : PcbEnd) : Bool := r.isError || r = .freed

/-! ## 開いている接続 -/

structure Control (k : Conn) (c : Client) (var : Option DeadVar) : Prop where
  someOpen : c.clientClosed = true → c.socksClosed = false
  pcbOpen : k.pcbOpen = !c.clientClosed
  errCb : k.errCb = !c.clientClosed
  recvCb : k.recvCb = (!c.clientClosed && !c.socksClosed)
  sentCb : k.sentCb = (!c.clientClosed && c.socksUp)
  socksAlive : k.socksAlive = !c.socksClosed
  established : c.socksClosed = false → k.socksEstablished = c.socksUp
  closedUp : c.socksClosed = true → c.socksUp = true
  dead : ∀ v ∈ var, v.prev = false ∧ v.killed = c.clientClosed
  pointer : c.clientClosed = false → c.deadClient = var.isSome
  first : k.firstClosed =
    if c.clientClosed then some .client else if c.socksClosed then some .socks else none
  pcbEnd : c.clientClosed = true → ∃ r, k.pcbEnd = some r ∧ r.ordinary = true
  allocated : k.allocated = true ∧ k.frees = 0 ∧ k.murdered = false

/-- client から SOCKS への byte。閉じる途中でも崩れない部分。 -/
structure UpBytes (k : Conn) (c : Client) : Prop where
  room : c.buf.length ≤ tcpWnd
  conserved : k.written ++ c.buf = k.accepted
  recved : c.clientClosed = false → k.recved = k.written.length

structure Upstream (k : Conn) (c : Client) : Prop extends UpBytes k c where
  sending : ∀ data ∈ k.sending,
    data ≠ [] ∧ data <+: c.buf ∧ c.socksUp = true ∧ c.socksClosed = false
  sends : c.socksUp = true → c.socksClosed = false → c.buf ≠ [] → k.sending.isSome = true
  draining : c.clientClosed = true → c.buf ≠ []

/-- `socks_recv_buf` に残りがあり、`client_sent_func` を待っている。 -/
def Waiting (c : Client) : Prop :=
  c.socksRecvWaiting = true ∧ c.socksRecvBufUsed = c.socksRecvBuf.length ∧
    c.socksRecvBufSent < c.socksRecvBuf.length ∧ 0 < c.socksRecvTcpPending

/-- SOCKS から client への byte。閉じる途中でも崩れない部分。 -/
structure DownBytes (k : Conn) (c : Client) : Prop where
  receiving : k.receiving = true →
    c.socksUp = true ∧ c.socksClosed = false ∧ c.socksRecvBufUsed = -1
  queued_prefix : k.queued <+: k.received
  idle : c.socksUp = false → k.queued = [] ∧ k.received = [] ∧ k.acked = 0

structure Downstream (k : Conn) (c : Client) : Prop extends DownBytes k c where
  sndBuf : c.clientClosed = false → k.sndBuf + k.queued.length = tcpSndBuf + k.acked
  acked : c.clientClosed = false → k.acked ≤ k.queued.length
  pending : c.clientClosed = false → c.socksUp = true →
    c.socksRecvTcpPending + k.acked = k.queued.length
  resting : c.clientClosed = false → c.socksUp = true →
    (c.socksRecvBufUsed = -1 ∧ k.queued = k.received) ∨
      (Waiting c ∧ k.queued ++ c.socksRecvBuf.drop c.socksRecvBufSent = k.received)
  resumes : c.clientClosed = false → c.socksUp = true → c.socksClosed = false →
    c.socksRecvBufUsed = -1 → k.receiving = true
  flushing : c.clientClosed = false → c.socksClosed = true →
    0 < c.socksRecvBufUsed ∨ 0 < c.socksRecvTcpPending

/-! ## 解放した接続 -/

structure Freed (k : Conn) (var : Option DeadVar) : Prop where
  pcbOpen : k.pcbOpen = false
  errCb : k.errCb = false
  recvCb : k.recvCb = false
  sentCb : k.sentCb = false
  socksAlive : k.socksAlive = false
  sending : k.sending = none
  receiving : k.receiving = false
  dead : ∀ v ∈ var, v.prev = false ∧ v.killed = true
  frees : k.frees = if k.allocated then 1 else 0
  written_prefix : k.written <+: k.accepted
  queued_prefix : k.queued <+: k.received
  /-- SOCKS が先に終わらず、shutdown でもなければ、受け取った byte はすべて SOCKS に書かれた。 -/
  drained : k.firstClosed = some .client → k.socksReported = false → k.murdered = false →
    k.written = k.accepted
  /-- SOCKS が先に閉じて relay が pcb を閉じたなら、受け取った byte はすべて送られ、確認された。 -/
  flushed : k.firstClosed = some .socks → k.pcbEnd = some .freed →
    k.queued = k.received ∧ k.acked = k.queued.length
  pcbEnd : k.allocated = true → ∃ r, k.pcbEnd = some r ∧ (r.ordinary = true ∨ k.murdered = true)

structure CtxInv (x : Ctx) : Prop where
  count : x.numClients = x.tcpClients.length
  nodup : x.tcpClients.Nodup
  listed : x.id ∈ x.tcpClients ↔ x.conn.client.isSome = true
  live : ∀ c, x.conn.client = some c →
    Control x.conn c x.dead ∧ Upstream x.conn c ∧ Downstream x.conn c
  freed : x.conn.client = none → Freed x.conn x.dead

/-- lwIP の側が開いている。 -/
def Ctx.isOpen (x : Ctx) : Prop := ∃ c, x.conn.client = some c ∧ c.clientClosed = false

/-- callback が変えないもの。ほかの client は list に残る。 -/
structure Keeps (x x' : Ctx) : Prop where
  id : x'.id = x.id
  others : ∀ j, j ≠ x.id → (j ∈ x'.tcpClients ↔ j ∈ x.tcpClients)
  dead : x'.dead.isSome = x.dead.isSome
  allocated : x'.conn.allocated = x.conn.allocated

theorem Keeps.of_eq {x x' : Ctx} (hid : x'.id = x.id) (hlist : x'.tcpClients = x.tcpClients)
    (hdead : x'.dead.isSome = x.dead.isSome) (hal : x'.conn.allocated = x.conn.allocated) :
    Keeps x x' :=
  ⟨hid, fun _ _ => by rw [hlist], hdead, hal⟩

/-! ## 関わらない field の更新 -/

/-- `Control` が見る field。 -/
def Conn.control (k : Conn) :=
  (k.pcbOpen, k.errCb, k.recvCb, k.sentCb, k.socksAlive, k.socksEstablished, k.firstClosed,
    k.pcbEnd, k.allocated, k.frees, k.murdered)

def Client.control (c : Client) := (c.clientClosed, c.socksUp, c.socksClosed, c.deadClient)

/-- `Upstream` が見る field。 -/
def Conn.upstream (k : Conn) := (k.sending, k.accepted, k.written, k.recved)

def Client.upstream (c : Client) := (c.clientClosed, c.socksUp, c.socksClosed, c.buf)

/-- `Downstream` が見る field。 -/
def Conn.downstream (k : Conn) := (k.receiving, k.sndBuf, k.received, k.queued, k.acked)

def Client.downstream (c : Client) :=
  (c.clientClosed, c.socksUp, c.socksClosed, c.socksRecvBuf, c.socksRecvBufUsed, c.socksRecvBufSent,
    c.socksRecvWaiting, c.socksRecvTcpPending)

variable {k k' : Conn} {c' : Client}

variable {c : Client}

theorem Control.of_same {var : Option DeadVar} (h : Control k c var) (hk : k'.control = k.control)
    (hc : c'.control = c.control) : Control k' c' var := by
  simp only [Conn.control, Prod.mk.injEq] at hk
  simp only [Client.control, Prod.mk.injEq] at hc
  obtain ⟨h1, h2, h3, h4, h5, h6, h7, h8, h9, h10, h11⟩ := hk
  obtain ⟨g1, g2, g3, g4⟩ := hc
  constructor
  · rw [g1, g3]; exact h.someOpen
  · rw [h1, g1]; exact h.pcbOpen
  · rw [h2, g1]; exact h.errCb
  · rw [h3, g1, g3]; exact h.recvCb
  · rw [h4, g1, g2]; exact h.sentCb
  · rw [h5, g3]; exact h.socksAlive
  · rw [h6, g3, g2]; exact h.established
  · rw [g3, g2]; exact h.closedUp
  · rw [g1]; exact h.dead
  · rw [g1, g4]; exact h.pointer
  · rw [h7, g1, g3]; exact h.first
  · rw [h8, g1]; exact h.pcbEnd
  · rw [h9, h10, h11]; exact h.allocated

theorem Upstream.of_same (h : Upstream k c) (hk : k'.upstream = k.upstream)
    (hc : c'.upstream = c.upstream) : Upstream k' c' := by
  simp only [Conn.upstream, Prod.mk.injEq] at hk
  simp only [Client.upstream, Prod.mk.injEq] at hc
  obtain ⟨h1, h2, h3, h4⟩ := hk
  obtain ⟨g1, g2, g3, g4⟩ := hc
  refine ⟨⟨?_, ?_, ?_⟩, ?_, ?_, ?_⟩
  · rw [g4]; exact h.room
  · rw [h3, g4, h2]; exact h.conserved
  · rw [g1, h4, h3]; exact h.recved
  · rw [h1, g4, g2, g3]; exact h.sending
  · rw [g2, g3, g4, h1]; exact h.sends
  · rw [g1, g4]; exact h.draining

theorem DownBytes.of_same (h : DownBytes k c) (hk : k'.downstream = k.downstream)
    (hup : c'.socksUp = c.socksUp) (hclosed : c'.socksClosed = c.socksClosed)
    (hused : c'.socksRecvBufUsed = c.socksRecvBufUsed) :
    DownBytes k' c' := by
  simp only [Conn.downstream, Prod.mk.injEq] at hk
  obtain ⟨h1, -, h3, h4, h5⟩ := hk
  constructor
  · rw [h1, hup, hclosed, hused]; exact h.receiving
  · rw [h4, h3]; exact h.queued_prefix
  · rw [hup, h4, h3, h5]; exact h.idle

theorem Downstream.of_same (h : Downstream k c) (hk : k'.downstream = k.downstream)
    (hc : c'.downstream = c.downstream) : Downstream k' c' := by
  have hk' := hk
  simp only [Conn.downstream, Prod.mk.injEq] at hk
  simp only [Client.downstream, Prod.mk.injEq] at hc
  obtain ⟨h1, h2, h3, h4, h5⟩ := hk
  obtain ⟨g1, g2, g3, g4, g5, g6, g7, g8⟩ := hc
  refine ⟨h.toDownBytes.of_same hk' g2 g3 g5, ?_, ?_, ?_, ?_, ?_, ?_⟩
  · rw [g1, h2, h4, h5]; exact h.sndBuf
  · rw [g1, h5, h4]; exact h.acked
  · rw [g1, g2, g8, h5, h4]; exact h.pending
  · unfold Waiting
    rw [g1, g2, g4, g5, g6, g7, g8, h4, h3]
    exact h.resting
  · rw [g1, g2, g3, g5, h1]; exact h.resumes
  · rw [g1, g3, g5, g8]; exact h.flushing

theorem Upstream.not_sending (h : Upstream k c)
    (hoff : ¬ (c.socksUp = true ∧ c.socksClosed = false)) : k.sending = none := by
  cases hsend : k.sending with
  | none => rfl
  | some data => exact absurd (h.sending data hsend).2.2 hoff

theorem DownBytes.not_receiving (h : DownBytes k c)
    (hoff : ¬ (c.socksUp = true ∧ c.socksClosed = false)) : k.receiving = false :=
  Bool.eq_false_iff.mpr fun hrecv => hoff ⟨(h.receiving hrecv).1, (h.receiving hrecv).2.1⟩

variable {x : Ctx} {c : Client}

theorem CtxInv.mem (h : CtxInv x) (hc : x.conn.client = some c) : x.id ∈ x.tcpClients :=
  h.listed.mpr (by rw [hc]; rfl)

theorem CtxInv.allocated (h : CtxInv x) (hc : x.conn.client = some c) : x.conn.allocated = true :=
  (h.live c hc).1.allocated.1

theorem CtxInv.numClients_pos (h : CtxInv x) (hc : x.conn.client = some c) : 0 < x.numClients := by
  have := List.length_pos_of_mem (h.mem hc)
  rw [h.count]
  omega

/-- 解放しない更新。list と個数は変わらない。 -/
theorem ctxInv_of_live {x' : Ctx} (h : CtxInv x) (hc : x.conn.client = some c)
    (hid : x'.id = x.id) (hnum : x'.numClients = x.numClients)
    (hlist : x'.tcpClients = x.tcpClients) (hc' : x'.conn.client = some c')
    (hctl : Control x'.conn c' x'.dead) (hup : Upstream x'.conn c')
    (hdown : Downstream x'.conn c') :
    CtxInv x' where
  count := by rw [hnum, hlist, h.count]
  nodup := by rw [hlist]; exact h.nodup
  listed := by
    rw [hid, hlist, hc']
    exact iff_of_true (h.mem hc) rfl
  live := by
    intro c'' hc''
    rw [hc', Option.some.injEq] at hc''
    subst hc''
    exact ⟨hctl, hup, hdown⟩
  freed := by
    intro hnone
    rw [hc'] at hnone
    exact absurd hnone (by simp)

/-- 解放。list から一つ抜ける。 -/
theorem ctxInv_dealloc {y : Ctx} (h : CtxInv x) (hc : x.conn.client = some c) (hid : y.id = x.id)
    (hnum : y.numClients = x.numClients) (hlist : y.tcpClients = x.tcpClients)
    (hdead : y.dead.isSome = x.dead.isSome) (hal : y.conn.allocated = true)
    (hf : Freed y.dealloc.conn y.dead) : CtxInv y.dealloc ∧ Keeps x y.dealloc := by
  have hmem : y.id ∈ y.tcpClients := by rw [hid, hlist]; exact h.mem hc
  have hnodup : y.tcpClients.Nodup := by rw [hlist]; exact h.nodup
  refine ⟨⟨?_, hnodup.erase _, ?_, ?_, fun _ => hf⟩, hid, ?_, hdead,
    hal.trans (h.allocated hc).symm⟩
  · show y.numClients - 1 = ((y.tcpClients.erase y.id).length : Int)
    have hpos := List.length_pos_of_mem hmem
    rw [List.length_erase_of_mem hmem, hnum, h.count, hlist]
    rw [hlist] at hpos
    omega
  · show y.id ∈ y.tcpClients.erase y.id ↔ _
    rw [hnodup.mem_erase_iff]
    simp [Ctx.dealloc]
  · intro c' hc'
    exact absurd hc' (by simp [Ctx.dealloc])
  · intro j hj
    show j ∈ y.tcpClients.erase y.id ↔ _
    rw [hnodup.mem_erase_iff, hid, hlist]
    exact and_iff_right hj

/-! ## 閉じる更新 -/

theorem kill_dead (x : Ctx) (h : ∀ v ∈ x.dead, v.prev = false) :
    ∀ v ∈ x.kill.dead, v.prev = false ∧ v.killed = true := by
  intro v hv
  simp only [Ctx.kill, Option.mem_def, Option.map_eq_some_iff] at hv
  obtain ⟨u, hu, rfl⟩ := hv
  exact ⟨h u hu, rfl⟩

theorem kill_isSome (x : Ctx) : x.kill.dead.isSome = x.dead.isSome := by
  simp [Ctx.kill]

theorem Control.frees_succ {var : Option DeadVar} (h : Control k c var) :
    k.frees + 1 = if k.allocated then 1 else 0 := by
  rw [h.allocated.1, h.allocated.2.1]
  rfl

/-- 待つものがなければ、client へ送るべき byte はすべて送られ、確認されている。 -/
theorem Downstream.flushed (h : Downstream k c) (hopen : c.clientClosed = false)
    (hnowait : ¬ c.flushes) : k.queued = k.received ∧ k.acked = k.queued.length := by
  cases hsup : c.socksUp with
  | false =>
    obtain ⟨h1, h2, h3⟩ := h.idle hsup
    rw [h1, h2, h3]
    exact ⟨rfl, rfl⟩
  | true =>
    have hnone : c.socksRecvBufUsed < 0 ∧ c.socksRecvTcpPending = 0 := by
      simpa [Client.flushes, hsup, hopen] using hnowait
    rcases h.resting hopen hsup with ⟨-, hq⟩ | ⟨hw, -⟩
    · have hp := h.pending hopen hsup
      exact ⟨hq, by omega⟩
    · have := hw.2.2.2
      omega

/-- 残りがあるのは、`client_sent_func` を待っているか、確認を待っているかである。 -/
theorem Downstream.left (h : Downstream k c) (hwait : c.flushes) :
    0 < c.socksRecvBufUsed ∨ 0 < c.socksRecvTcpPending := by
  obtain ⟨hsup, hleft, hopen⟩ := hwait
  rcases h.resting hopen hsup with ⟨hused, -⟩ | ⟨hw, -⟩
  · rcases hleft with hl | hl
    · rw [hused] at hl
      omega
    · exact Or.inr hl
  · exact Or.inr hw.2.2.2

/--
lwIP の側が閉じる。

`x` は閉じる直前の状態で、`Downstream` のうち開いている間だけの部分は崩れていてもよい。SOCKS が先に
閉じていて pcb を relay が閉じるなら、送るべき byte は残っていない。
-/
theorem ctxInv_afterClient {x₀ : Ctx} {c₀ : Client} {r : PcbEnd} (h : CtxInv x₀)
    (hc₀ : x₀.conn.client = some c₀) (hid : x.id = x₀.id) (hnum : x.numClients = x₀.numClients)
    (hlist : x.tcpClients = x₀.tcpClients) (hd : x.dead = x₀.dead)
    (hctl : Control x.conn c x.dead) (hup : Upstream x.conn c)
    (hdown : DownBytes x.conn c) (hopen : c.clientClosed = false) (hr : r.ordinary = true)
    (hflush : c.socksClosed = true → r = .freed →
      x.conn.queued = x.conn.received ∧ x.conn.acked = x.conn.queued.length) :
    CtxInv ((x.endPcb r).afterClient c) ∧ Keeps x₀ ((x.endPcb r).afterClient c) := by
  have hdead : ∀ v ∈ (x.endPcb r).kill.dead, v.prev = false ∧ v.killed = true :=
    kill_dead _ fun v hv => (hctl.dead v hv).1
  have hsome : (x.endPcb r).kill.dead.isSome = x₀.dead.isSome := by
    rw [kill_isSome, ← hd]
    rfl
  have hfirst := hctl.first
  have hpre : x.conn.written <+: x.conn.accepted := ⟨c.buf, hup.conserved⟩
  have hal : x.conn.allocated = x₀.conn.allocated := by rw [hctl.allocated.1, h.allocated hc₀]
  have hfrees := hctl.frees_succ
  rw [hopen] at hfirst
  unfold Ctx.afterClient
  split
  next hwait =>
    rw [hwait.2] at hfirst
    refine ⟨ctxInv_of_live h hc₀ hid hnum hlist rfl ?_ ?_ ?_, .of_eq hid hlist hsome hal⟩
    · exact ⟨fun _ => hwait.2, rfl, rfl, rfl, rfl, hctl.socksAlive, hctl.established, hctl.closedUp,
        hdead, by simp, by simp [hfirst], fun _ => ⟨r, rfl, hr⟩, hctl.allocated⟩
    · exact ⟨⟨hup.room, hup.conserved, by simp⟩, hup.sending, hup.sends, fun _ => hwait.1⟩
    · exact ⟨⟨hdown.receiving, hdown.queued_prefix, hdown.idle⟩, by simp, by simp, by simp, by simp,
        by simp, by simp⟩
  next hnowait =>
    split
    next hs =>
      -- 両側とも開いていて、送るものがない
      have hbuf : c.buf = [] := by simpa [hs] using hnowait
      have hall : x.conn.written = x.conn.accepted := by simpa [hbuf] using hup.conserved
      rw [hs] at hfirst
      refine ctxInv_dealloc h hc₀ hid hnum hlist hsome hctl.allocated.1
        ⟨rfl, rfl, by simp,
          rfl, rfl, rfl, rfl, hdead, hfrees, hpre, hdown.queued_prefix, fun _ _ _ => hall, ?_,
          fun _ => ⟨r, rfl, .inl hr⟩⟩
      intro hf
      exact absurd hf (by simp [hfirst])
    next hs =>
      -- SOCKS は先に閉じていた
      have hs' : c.socksClosed = true := by simpa using hs
      rw [hs'] at hfirst
      have hnone := hup.not_sending fun hon => hs hon.2
      have hrecv := hdown.not_receiving fun hon => hs hon.2
      refine ctxInv_dealloc h hc₀ hid hnum hlist hsome hctl.allocated.1
        ⟨rfl, rfl, rfl, rfl, by simp [hctl.socksAlive, hs'], hnone, hrecv, hdead, hfrees, hpre,
          hdown.queued_prefix, ?_, ?_, fun _ => ⟨r, rfl, .inl hr⟩⟩
      · intro hf
        exact absurd hf (by simp [hfirst])
      · intro _ hfreed
        exact hflush hs' (Option.some.inj hfreed)

/--
SOCKS の側が閉じる。

client が先に閉じていたなら、SOCKS 自身が終わりを知らせたか、溜まっていた byte を送り終えている。
-/
theorem ctxInv_afterSocks {x₀ : Ctx} {c₀ : Client} (h : CtxInv x₀)
    (hc₀ : x₀.conn.client = some c₀) (hid : x.id = x₀.id) (hnum : x.numClients = x₀.numClients)
    (hlist : x.tcpClients = x₀.tcpClients) (hd : x.dead = x₀.dead)
    (hctl : Control x.conn c x.dead) (hup : UpBytes x.conn c) (hdown : Downstream x.conn c)
    (hs : c.socksClosed = false)
    (hdrain : c.clientClosed = true → x.conn.socksReported = true ∨ c.buf = []) :
    CtxInv (x.afterSocks c) ∧ Keeps x₀ (x.afterSocks c) := by
  have hfirst := hctl.first
  have hpre : x.conn.written <+: x.conn.accepted := ⟨c.buf, hup.conserved⟩
  have hal : x.conn.allocated = x₀.conn.allocated := by rw [hctl.allocated.1, h.allocated hc₀]
  have hfrees := hctl.frees_succ
  rw [hs] at hfirst
  unfold Ctx.afterSocks
  split
  next hwait =>
    obtain ⟨hsup, hleft, hopen⟩ := hwait
    rw [hopen] at hfirst
    refine ⟨ctxInv_of_live h hc₀ hid hnum hlist rfl ?_ ?_ ?_,
      .of_eq hid hlist (by rw [← hd]; rfl) hal⟩
    · exact ⟨by simp [hopen], hctl.pcbOpen, hctl.errCb, by simp [hsup, hopen], hctl.sentCb, rfl,
        by simp, fun _ => hsup, hctl.dead, hctl.pointer, by
          simp [hfirst, hopen], hctl.pcbEnd, hctl.allocated⟩
    · exact ⟨⟨hup.room, hup.conserved, hup.recved⟩, by simp, by simp, by simp [hopen]⟩
    · refine ⟨⟨by simp, hdown.queued_prefix, hdown.idle⟩, hdown.sndBuf, hdown.acked, hdown.pending,
        hdown.resting, by simp, fun _ _ => ?_⟩
      exact hdown.left ⟨hsup, hleft, hopen⟩
  next hnowait =>
    split
    next hopen =>
      -- client へ送るものはない。pcb も閉じて解放する
      have hall := hdown.flushed hopen hnowait
      rw [hopen] at hfirst
      unfold Ctx.afterClient
      rw [if_neg (by simp), if_neg (by simp)]
      have hdead := kill_dead x fun v hv => (hctl.dead v hv).1
      have hsome : x.kill.dead.isSome = x₀.dead.isSome := by
        rw [kill_isSome, ← hd]
      refine ctxInv_dealloc (y := ((x.closeSocks c).endPcb .freed).closeClient
        { c with socksClosed := true })
        h hc₀ hid hnum hlist hsome hctl.allocated.1
        ⟨rfl, rfl, rfl, rfl, rfl, rfl, rfl, hdead, hfrees, hpre, hdown.queued_prefix, ?_,
          fun _ _ => hall, fun _ => ⟨.freed, rfl, .inl rfl⟩⟩
      intro hf
      exact absurd hf (by simp [hfirst])
    next hclosed =>
      have hclosed' : c.clientClosed = true := by simpa using hclosed
      rw [hclosed'] at hfirst
      refine ctxInv_dealloc h hc₀ hid hnum hlist (by rw [← hd]; rfl) hctl.allocated.1
        ⟨by simp [hctl.pcbOpen, hclosed'], by simp [hctl.errCb, hclosed'],
          by simp [hctl.recvCb, hclosed'], by
            simp [hctl.sentCb, hclosed'], rfl, rfl, rfl, ?_, hfrees,
          hpre, hdown.queued_prefix, ?_, ?_, fun _ => ?_⟩
      · intro v hv
        have hv' := hctl.dead v hv
        rw [hclosed'] at hv'
        exact hv'
      · intro _ hrep _
        rcases hdrain hclosed' with hr | hbuf
        · exact absurd (hr.symm.trans hrep) (by simp)
        · simpa [hbuf] using hup.conserved
      · intro hf
        exact absurd hf (by simp [hfirst])
      · obtain ⟨r, hr, hord⟩ := hctl.pcbEnd hclosed'
        exact ⟨r, hr, .inl hord⟩

end Relay
