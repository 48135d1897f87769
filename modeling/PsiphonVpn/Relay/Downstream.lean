import PsiphonVpn.Relay.Upstream

/-!
# SOCKS から client へ

SOCKS から受け取った byte は `socks_recv_buf` に入り、`client_socks_recv_send_out` が `tcp_write` に渡す。
送信 buffer が足りなければ `socks_recv_waiting` を立てて止まり、`client_sent_func` が確認を受けて続きを渡す。
すべて渡し終えてから次の受信を始める。

止まったままにならないのは、止まる時には必ず未確認の byte があるからである。未確認の byte がないのに
一 byte も渡せないのは `tcp_write` が `ERR_MEM` を返した時だけで、その時は pcb を abort する。
`tcp_sndbuf` が 0 だからではないことは、`tcp_sndbuf` と未確認の byte 数の和が一定であることによる。
-/

namespace Relay

open Infra

variable {x : Ctx} {c : Client}

/-! ## `tcp_write` の loop -/

theorem queue_zero (hc : x.conn.client = some c) : x.queue c 0 = x := by
  obtain ⟨id, num, list, dead, conn⟩ := x
  obtain ⟨client⟩ := conn
  simp only at hc
  simp [Ctx.queue, Client.advance, hc]

theorem queue_queue (x : Ctx) (c : Client) (a b : Nat) :
    (x.queue c a).queue (c.advance a) b = x.queue c (a + b) := by
  simp [Ctx.queue, Client.advance, Nat.add_assoc, List.take_add, Nat.sub_sub]

/-- loop が渡した byte 数 `m` と終わり方の関係。 -/
structure LoopOk (x : Ctx) (c : Client) (m : Nat) (e : LoopEnd) : Prop where
  le : c.socksRecvBufSent + m ≤ c.socksRecvBuf.length
  room : m ≤ x.conn.sndBuf
  sent : e = .sent ↔ c.socksRecvBufSent + m = c.socksRecvBuf.length
  full : e = .full → m = x.conn.sndBuf
  error : e ≠ .error .ok

variable {m len : Nat} {data : List UInt8}

/-- 前半で `w` byte を渡してからの終わり方は、全体の終わり方でもある。 -/
theorem LoopOk.of_queue {w : Nat} {e : LoopEnd} (hw : w ≤ x.conn.sndBuf)
    (h : LoopOk (x.queue c w) (c.advance w) m e) : LoopOk x c (w + m) e := by
  have hle : c.socksRecvBufSent + w + m ≤ c.socksRecvBuf.length := h.le
  have hroom : m ≤ x.conn.sndBuf - w := h.room
  have hsent : e = .sent ↔ c.socksRecvBufSent + w + m = c.socksRecvBuf.length := h.sent
  refine ⟨by omega, by omega, ?_, ?_, h.error⟩
  · rw [hsent, Nat.add_assoc]
  · intro he
    have hfull : m = x.conn.sndBuf - w := h.full he
    omega

/-- 一度回るごとに 1 byte 以上を渡すので、`used - sent` 回で終わる。 -/
theorem sendLoop_ok (n : Nat) (replies : List TcpWrite) (hc : x.conn.client = some c)
    (hpcb : x.conn.pcbOpen = true) (hused : c.socksRecvBufUsed = c.socksRecvBuf.length)
    (hsent : c.socksRecvBufSent < c.socksRecvBuf.length)
    (hn : c.socksRecvBuf.length - c.socksRecvBufSent ≤ n) :
    ∃ m e, sendLoop n replies x = .ok (x.queue c m, e) ∧ LoopOk x c m e ∧
      ((∀ r ∈ replies, r = .ok) → ∀ r, e ≠ .error r) ∧
      (replies.headD .ok = .ok → 0 < x.conn.sndBuf → 0 < m) := by
  induction n generalizing x c replies with
  | zero => omega
  | succ n ih =>
    unfold sendLoop
    rw [Ctx.access_some hc, ok_bind, Ctx.usePcb_of hpcb, ok_bind]
    have hleft : (c.socksRecvBufUsed - c.socksRecvBufSent).toNat =
        c.socksRecvBuf.length - c.socksRecvBufSent := by
      rw [hused]
      omega
    rw [hleft, hused]
    dsimp only
    generalize hw : min (c.socksRecvBuf.length - c.socksRecvBufSent) x.conn.sndBuf = w
    split
    next hzero =>
      -- 送信 buffer に空きがない
      refine ⟨0, .full, by rw [queue_zero hc]; rfl, ⟨by omega, by omega, ?_, by omega, by simp⟩,
        by simp, by omega⟩
      exact iff_of_false (by simp) (by omega)
    next hpos =>
      split
      next hreply =>
        split
        next hmore =>
          -- 送信 buffer の分だけ渡し、もう一度回る
          obtain ⟨m, e, heq, hok, hall, -⟩ :=
            ih (x := x.queue c w) (c := c.advance w) replies.tail rfl hpcb
            hused (show c.socksRecvBufSent + w < c.socksRecvBuf.length by omega)
            (show c.socksRecvBuf.length - (c.socksRecvBufSent + w) ≤ n by omega)
          refine ⟨w + m, e, by rw [heq, queue_queue], hok.of_queue (by omega), fun hr => hall ?_,
            by omega⟩
          exact fun r hmem => hr r (List.mem_of_mem_tail hmem)
        next hdone =>
          refine ⟨w, .sent, rfl, ⟨by omega, by omega, ?_, by simp, by simp⟩, by simp, by omega⟩
          exact iff_of_true rfl (by omega)
      next hreply =>
        refine ⟨0, .error (replies.headD .ok), by rw [queue_zero hc]; rfl,
          ⟨by omega, by omega, ?_, by simp, ?_⟩, ?_, fun hfirst => absurd hfirst hreply⟩
        · exact iff_of_false (by simp) (by omega)
        · simpa using hreply
        · intro hr
          exfalso
          cases replies with
          | nil => exact hreply rfl
          | cons r rs => exact hreply (hr r List.mem_cons_self)

/-! ## `client_socks_recv_send_out` -/

/-- `client_socks_recv_send_out` を呼べる状態。`socks_recv_buf` に、まだ渡していない byte がある。 -/
structure Ready (x : Ctx) (c : Client) : Prop where
  client : x.conn.client = some c
  isOpen : c.clientClosed = false
  up : c.socksUp = true
  used : c.socksRecvBufUsed = c.socksRecvBuf.length
  sent : c.socksRecvBufSent < c.socksRecvBuf.length
  waiting : c.socksRecvWaiting = false
  receiving : x.conn.receiving = false
  control : Control x.conn c x.dead
  upstream : Upstream x.conn c
  sndBuf : x.conn.sndBuf + x.conn.queued.length = tcpSndBuf + x.conn.acked
  pending : c.socksRecvTcpPending + x.conn.acked = x.conn.queued.length
  bytes : x.conn.queued ++ c.socksRecvBuf.drop c.socksRecvBufSent = x.conn.received

/-- 渡し終えたか、確認を待つことにした後。受信はまだ始めていない。 -/
structure SentOut (x x' : Ctx) (c c' : Client) : Prop where
  same : x'.id = x.id ∧ x'.numClients = x.numClients ∧ x'.tcpClients = x.tcpClients ∧
    x'.dead = x.dead
  client : x'.conn.client = some c'
  isOpen : c'.clientClosed = false
  up : c'.socksUp = true
  closed : c'.socksClosed = c.socksClosed
  pending : 0 < c'.socksRecvTcpPending
  receiving : x'.conn.receiving = false
  control : Control x'.conn c' x'.dead
  upstream : Upstream x'.conn c'
  /-- 渡し終えていて SOCKS が開いているなら、受信を始めれば不変量に戻る。 -/
  downstream : Downstream
    { x'.conn with receiving := c'.socksRecvBufUsed = -1 && !c'.socksClosed } c'

theorem Ready.queued_prefix (h : Ready x c) (m : Nat) :
    (x.queue c m).conn.queued <+: x.conn.received := by
  rw [← h.bytes]
  exact (List.prefix_append_right_inj _).mpr (List.take_prefix _ _)

/-- 初めの `tcp_write` が成功すれば、pcb の送信待ちは伸びる。 -/
def Ctx.Grows (lw : Lwip) (x x' : Ctx) : Prop :=
  lw.tcpWrite.headD .ok = .ok → 0 < x.conn.sndBuf → x.conn.queued.length < x'.conn.queued.length

theorem queued_afterClient (x : Ctx) (c : Client) :
    (x.afterClient c).conn.queued = x.conn.queued := by
  unfold Ctx.afterClient
  split
  · rfl
  · split <;> rfl

/-- 途中まで渡してからの abort。 -/
theorem Ready.abort {x₀ : Ctx} {c₀ : Client} {r : PcbEnd} (h : Ready x c) (hinv : CtxInv x₀)
    (hc₀ : x₀.conn.client = some c₀)
    (hsame : x.id = x₀.id ∧ x.numClients = x₀.numClients ∧ x.tcpClients = x₀.tcpClients ∧
      x.dead = x₀.dead)
    (m : Nat) (hr : r.isError = true) :
    ∃ x', clientAbortClient r (x.queue c m) = .ok x' ∧ (CtxInv x' ∧ Keeps x₀ x') ∧
      x'.conn.queued = (x.queue c m).conn.queued := by
  obtain ⟨hid, hnum, hlist, hdead⟩ := hsame
  have hctl : Control (x.queue c m).conn (c.advance m) (x.queue c m).dead :=
    h.control.of_same rfl rfl
  have hdown : DownBytes (x.queue c m).conn (c.advance m) := by
    refine ⟨fun hrecv => ?_, h.queued_prefix m, fun hup => ?_⟩
    · exact absurd (h.receiving.symm.trans hrecv) (by simp)
    · exact absurd (h.up.symm.trans hup) (by simp)
  have hpcb : x.conn.pcbOpen = true := by rw [h.control.pcbOpen, h.isOpen]; rfl
  have hnumPos : 0 < x.numClients := by rw [hnum]; exact hinv.numClients_pos hc₀
  refine ⟨_, clientAbortClient_eq r (x := x.queue c m) rfl h.isOpen hpcb
    (h.control.pointer h.isOpen) hnumPos, ?_, queued_afterClient _ _⟩
  exact ctxInv_afterClient hinv hc₀ hid hnum hlist hdead hctl (h.upstream.of_same rfl rfl) hdown
    h.isOpen
    (Bool.or_eq_true_iff.mpr (.inl hr)) fun _ hf => absurd (hf ▸ hr) (by simp [PcbEnd.isError])

theorem Ready.queued_length (h : Ready x c) (hle : c.socksRecvBufSent + m ≤ c.socksRecvBuf.length) :
    (x.queue c m).conn.queued.length = x.conn.queued.length + m := by
  have hsent := h.sent
  show (x.conn.queued ++ (c.socksRecvBuf.drop c.socksRecvBufSent).take m).length = _
  rw [List.length_append, List.length_take, List.length_drop]
  omega

/-- `m` byte を渡した後の client `c'` が、渡し終えているか、待っている。 -/
theorem Ready.sentOut {c' : Client} (h : Ready x c)
    (hle : c.socksRecvBufSent + m ≤ c.socksRecvBuf.length) (hroom : m ≤ x.conn.sndBuf)
    (hpos : 0 < c.socksRecvTcpPending + m) (hctl : c'.control = c.control)
    (hup : c'.upstream = c.upstream)
    (hpending : c'.socksRecvTcpPending = c.socksRecvTcpPending + m)
    (hrest : (c'.socksRecvBufUsed = -1 ∧ (x.queue c m).conn.queued = x.conn.received) ∨
      (Waiting c' ∧ (x.queue c m).conn.queued ++ c'.socksRecvBuf.drop c'.socksRecvBufSent =
        x.conn.received)) :
    SentOut x ((x.queue c m).setClient c') c c' := by
  have hflags := hctl
  simp only [Client.control, Prod.mk.injEq] at hflags
  obtain ⟨hclosed, hsup, hsocks, -⟩ := hflags
  have hlen := h.queued_length hle
  have hsnd := h.sndBuf
  have hpend := h.pending
  refine ⟨⟨rfl, rfl, rfl, rfl⟩, rfl, hclosed.trans h.isOpen, hsup.trans h.up, hsocks, by omega,
    h.receiving, h.control.of_same rfl hctl, h.upstream.of_same rfl hup,
    ⟨⟨?_, h.queued_prefix m, ?_⟩, ?_, ?_, ?_, fun _ _ => hrest, ?_, ?_⟩⟩
  · intro hrecv
    have hrecv' : c'.socksRecvBufUsed = -1 ∧ c'.socksClosed = false := by simpa using hrecv
    exact ⟨hsup.trans h.up, hrecv'.2, hrecv'.1⟩
  · intro hdown
    exact absurd (hsup.symm.trans hdown) (by simp [h.up])
  · intro _
    show x.conn.sndBuf - m + (x.queue c m).conn.queued.length = tcpSndBuf + x.conn.acked
    omega
  · intro _
    show x.conn.acked ≤ (x.queue c m).conn.queued.length
    omega
  · intro _ _
    show c'.socksRecvTcpPending + x.conn.acked = (x.queue c m).conn.queued.length
    omega
  · intro _ _ hs hused
    simp [hs, hused]
  · intro _ _
    exact Or.inr (by omega)

theorem Ready.wait (h : Ready x c) (hlt : c.socksRecvBufSent + m < c.socksRecvBuf.length)
    (hroom : m ≤ x.conn.sndBuf) (hpos : 0 < c.socksRecvTcpPending + m) :
    SentOut x ((x.queue c m).setClient { c.advance m with socksRecvWaiting := true }) c
      { c.advance m with socksRecvWaiting := true } := by
  refine h.sentOut (by omega) hroom hpos rfl rfl rfl (Or.inr ⟨⟨rfl, h.used, hlt, hpos⟩, ?_⟩)
  show x.conn.queued ++ (c.socksRecvBuf.drop c.socksRecvBufSent).take m ++
    c.socksRecvBuf.drop (c.socksRecvBufSent + m) = x.conn.received
  rw [List.append_assoc, ← List.drop_drop, List.take_append_drop, h.bytes]

theorem Ready.finish (h : Ready x c) (hall : c.socksRecvBufSent + m = c.socksRecvBuf.length)
    (hroom : m ≤ x.conn.sndBuf) :
    SentOut x ((x.queue c m).setClient { c.advance m with socksRecvBufUsed := -1 }) c
      { c.advance m with socksRecvBufUsed := -1 } := by
  have hsent := h.sent
  refine h.sentOut (by omega) hroom (by omega) rfl rfl rfl (Or.inl ⟨rfl, ?_⟩)
  show x.conn.queued ++ (c.socksRecvBuf.drop c.socksRecvBufSent).take m = x.conn.received
  rw [List.take_of_length_le (by rw [List.length_drop]; omega), h.bytes]

/-- 未確認の byte がないなら `tcp_sndbuf` は 0 でないので、渡し残しは `ERR_MEM` による。 -/
theorem Ready.error_mem {e : LoopEnd} (h : Ready x c) (hok : LoopOk x c m e)
    (hother : e ≠ .error .other) (hlt : c.socksRecvBufSent + m < c.socksRecvBuf.length)
    (hzero : c.socksRecvTcpPending + m = 0) : e = .error .mem := by
  have hsnd := h.sndBuf
  have hpend := h.pending
  cases e with
  | sent =>
    have := hok.sent.mp rfl
    omega
  | full =>
    have := hok.full rfl
    unfold tcpSndBuf at hsnd
    omega
  | error r =>
    cases r with
    | ok => exact absurd rfl hok.error
    | mem => rfl
    | other => exact absurd rfl hother

/--
`client_socks_recv_send_out` の仕様。

abort したなら閉じる更新が済んでおり、そうでなければ渡し終えたか確認を待っている。`tcp_write` と
`tcp_output` が成功する限り、abort しない。送信 buffer に空きがあれば、一 byte は渡す。
-/
theorem clientSocksRecvSendOut_ok {x₀ : Ctx} {c₀ : Client} (lw : Lwip) (h : Ready x c)
    (hinv : CtxInv x₀) (hc₀ : x₀.conn.client = some c₀)
    (hsame : x.id = x₀.id ∧ x.numClients = x₀.numClients ∧ x.tcpClients = x₀.tcpClients ∧
      x.dead = x₀.dead) :
    (∃ x', clientSocksRecvSendOut lw x = .ok (x', false) ∧ CtxInv x' ∧ Keeps x₀ x' ∧
      ¬ ((∀ r ∈ lw.tcpWrite, r = .ok) ∧ lw.tcpOutput = true) ∧ x.Grows lw x') ∨
    ∃ x' c', clientSocksRecvSendOut lw x = .ok (x', true) ∧ SentOut x x' c c' ∧ x.Grows lw x' := by
  have hpcb : x.conn.pcbOpen = true := by rw [h.control.pcbOpen, h.isOpen]; rfl
  have hsent := h.sent
  have hused : (c.socksRecvBufSent : Int) < c.socksRecvBufUsed := by rw [h.used]; omega
  obtain ⟨m, e, hloop, hok, hreplies, hfirst⟩ := sendLoop_ok c.socksRecvBufUsed.toNat lw.tcpWrite
    h.client hpcb h.used h.sent (by rw [h.used]; omega)
  have hgrows (x' : Ctx) (hq : x'.conn.queued = (x.queue c m).conn.queued) : x.Grows lw x' := by
    intro hreply hroom
    have := hfirst hreply hroom
    rw [hq, h.queued_length hok.le]
    omega
  unfold clientSocksRecvSendOut
  rw [Ctx.access_some h.client, ok_bind, check_bind h.isOpen, check_bind h.up,
    check_bind (by omega), check_bind hused, check_bind h.waiting, hloop, ok_bind]
  dsimp only
  by_cases hother : e = .error .other
  · obtain ⟨x', hx', ⟨hinv', hkeeps⟩, hq⟩ :=
      h.abort (r := .tcpWrite .other) hinv hc₀ hsame m rfl
    refine Or.inl ⟨x', ?_, hinv', hkeeps, fun hr => hreplies hr.1 .other hother, hgrows x' hq⟩
    rw [if_pos hother, hx']
    rfl
  rw [if_neg hother, Ctx.usePcb_of (x := x.queue c m) hpcb, ok_bind]
  by_cases hout : lw.tcpOutput = false
  · obtain ⟨x', hx', ⟨hinv', hkeeps⟩, hq⟩ := h.abort (r := .tcpOutput) hinv hc₀ hsame m rfl
    refine Or.inl ⟨x', ?_, hinv', hkeeps, fun hr => absurd (hout.symm.trans hr.2) (by simp),
      hgrows x' hq⟩
    rw [if_pos hout, hx']
    rfl
  rw [if_neg hout, Ctx.access_some (x := x.queue c m) rfl, ok_bind]
  by_cases hlt : c.socksRecvBufSent + m < c.socksRecvBuf.length
  · have hlt' : ((c.advance m).socksRecvBufSent : Int) < (c.advance m).socksRecvBufUsed := by
      show ((c.socksRecvBufSent + m : Nat) : Int) < c.socksRecvBufUsed
      rw [h.used]
      omega
    rw [if_pos hlt']
    by_cases hzero : (c.advance m).socksRecvTcpPending = 0
    · have hmem := h.error_mem hok hother hlt hzero
      obtain ⟨x', hx', ⟨hinv', hkeeps⟩, hq⟩ :=
        h.abort (r := .tcpWrite .mem) hinv hc₀ hsame m rfl
      refine Or.inl ⟨x', ?_, hinv', hkeeps, fun hr => hreplies hr.1 .mem hmem, hgrows x' hq⟩
      rw [if_pos hzero, if_pos hmem, hx']
      rfl
    · rw [if_neg hzero]
      have hpos : 0 < c.socksRecvTcpPending + m := Nat.pos_of_ne_zero hzero
      exact Or.inr ⟨_, _, rfl, h.wait hlt hok.room hpos, hgrows _ rfl⟩
  · have hall : c.socksRecvBufSent + m = c.socksRecvBuf.length := by
      have := hok.le
      omega
    have hge : ¬ ((c.advance m).socksRecvBufSent : Int) < (c.advance m).socksRecvBufUsed := by
      show ¬ ((c.socksRecvBufSent + m : Nat) : Int) < c.socksRecvBufUsed
      rw [h.used]
      omega
    rw [if_neg hge]
    exact Or.inr ⟨_, _, rfl, h.finish hall hok.room, hgrows _ rfl⟩

/-! ## 受信の再開 -/

theorem clientSocksRecvInitiate_eq (hc : x.conn.client = some c) (hopen : c.clientClosed = false)
    (hs : c.socksClosed = false) (hsup : c.socksUp = true) (hused : c.socksRecvBufUsed = -1)
    (ha : x.conn.socksAlive = true) (hrecv : x.conn.receiving = false) :
    clientSocksRecvInitiate x = .ok { x with conn := { x.conn with receiving := true } } := by
  unfold clientSocksRecvInitiate receiverRecv
  rw [Ctx.access_some hc, ok_bind, check_bind hopen, check_bind hs, check_bind hsup,
    check_bind hused, check_bind ⟨ha, hrecv⟩]
  rfl

section

variable {x₀ x' : Ctx} {c₀ c' : Client}

/-- 渡し終えたので、次の受信を始める。 -/
theorem SentOut.initiate (h : SentOut x x' c c') (hinv : CtxInv x₀) (hc₀ : x₀.conn.client = some c₀)
    (hsame : x.id = x₀.id ∧ x.numClients = x₀.numClients ∧ x.tcpClients = x₀.tcpClients)
    (hused : c'.socksRecvBufUsed = -1) (hs : c'.socksClosed = false) :
    clientSocksRecvInitiate x' = .ok { x' with conn := { x'.conn with receiving := true } } ∧
      CtxInv { x' with conn := { x'.conn with receiving := true } } := by
  obtain ⟨hid, hnum, hlist, -⟩ := h.same
  have halive : x'.conn.socksAlive = true := by rw [h.control.socksAlive, hs]; rfl
  refine ⟨clientSocksRecvInitiate_eq h.client h.isOpen hs h.up hused halive h.receiving, ?_⟩
  refine ctxInv_of_live hinv hc₀ (hid.trans hsame.1) (hnum.trans hsame.2.1) (hlist.trans hsame.2.2)
    h.client (h.control.of_same rfl rfl) (h.upstream.of_same rfl rfl) ?_
  have hdown := h.downstream
  rw [hused, hs] at hdown
  exact hdown

/-- 渡し残しがあるか、SOCKS が閉じている。受信は始めない。 -/
theorem SentOut.rest (h : SentOut x x' c c') (hinv : CtxInv x₀) (hc₀ : x₀.conn.client = some c₀)
    (hsame : x.id = x₀.id ∧ x.numClients = x₀.numClients ∧ x.tcpClients = x₀.tcpClients)
    (hrest : ¬ (c'.socksRecvBufUsed = -1 ∧ c'.socksClosed = false)) : CtxInv x' := by
  obtain ⟨hid, hnum, hlist, -⟩ := h.same
  refine ctxInv_of_live hinv hc₀ (hid.trans hsame.1) (hnum.trans hsame.2.1) (hlist.trans hsame.2.2)
    h.client h.control h.upstream (h.downstream.of_same ?_ rfl)
  have hfalse : (decide (c'.socksRecvBufUsed = -1) && !c'.socksClosed) = false := by
    simpa using hrest
  simp only [Conn.downstream, hfalse, h.receiving]

end

/-! ## `client_socks_recv_handler_done` -/

/-- SOCKS が `data` を書き込んだ後。 -/
def Ctx.fill (x : Ctx) (c : Client) (data : List UInt8) : Ctx :=
  { x with conn := { x.conn with
      client := some { c with socksRecvBuf := data }
      receiving := false
      received := x.conn.received ++ data } }

theorem fillRecvBuf_eq (hc : x.conn.client = some c) :
    fillRecvBuf data x = .ok (x.fill c data) := by
  unfold fillRecvBuf
  rw [Ctx.access_some hc]
  rfl

/-- client が閉じた後に届いた byte は捨てられる。 -/
theorem ctxInv_fill_closed (h : CtxInv x) (hc : x.conn.client = some c)
    (hclosed : c.clientClosed = true) (hsup : c.socksUp = true) : CtxInv (x.fill c data) := by
  obtain ⟨hctl, hup, hdown⟩ := h.live c hc
  refine ctxInv_of_live h hc rfl rfl rfl rfl (hctl.of_same rfl rfl) (hup.of_same rfl rfl) ?_
  refine ⟨⟨by simp [Ctx.fill], hdown.queued_prefix.trans (List.prefix_append _ _), ?_⟩,
    by simp [hclosed], by simp [hclosed], by simp [hclosed], by simp [hclosed], by simp [hclosed],
    by simp [hclosed]⟩
  intro hdown'
  exact absurd (hsup.symm.trans hdown') (by simp)

/-- 届いた byte を渡し始められる。 -/
theorem ready_fill (h : CtxInv x) (hc : x.conn.client = some c) (hopen : c.clientClosed = false)
    (hrecv : x.conn.receiving = true) (hne : data ≠ []) :
    Ready ((x.fill c data).setClient { c with
        socksRecvBuf := data, socksRecvBufUsed := data.length, socksRecvBufSent := 0,
        socksRecvWaiting := false })
      { c with
        socksRecvBuf := data, socksRecvBufUsed := data.length, socksRecvBufSent := 0,
        socksRecvWaiting := false } := by
  obtain ⟨hctl, hup, hdown⟩ := h.live c hc
  obtain ⟨hsup, -, hused⟩ := hdown.receiving hrecv
  have hall : x.conn.queued = x.conn.received := by
    rcases hdown.resting hopen hsup with ⟨-, hq⟩ | ⟨hw, -⟩
    · exact hq
    · have := hw.2.1
      omega
  refine ⟨rfl, hopen, hsup, rfl, List.length_pos_iff.mpr hne, rfl, rfl, hctl.of_same rfl rfl,
    hup.of_same rfl rfl, hdown.sndBuf hopen, hdown.pending hopen hsup, ?_⟩
  show x.conn.queued ++ data.drop 0 = x.conn.received ++ data
  rw [List.drop_zero, hall]

/-- 受信の終わり。`tcp_write` と `tcp_output` が成功する限り、開いていた client は開いたままである。 -/
theorem clientSocksRecvHandlerDone_inv (lw : Lwip) (h : CtxInv x)
    (hrecv : x.conn.receiving = true) (hne : data ≠ [])
    (hsize : data.length ≤ clientSocksRecvBufSize) :
    ∃ x', (fillRecvBuf data x >>= clientSocksRecvHandlerDone data.length lw) = .ok x' ∧ CtxInv x' ∧
      Keeps x x' ∧ ((∀ r ∈ lw.tcpWrite, r = .ok) → lw.tcpOutput = true → x.isOpen → x'.isOpen) := by
  cases hc : x.conn.client with
  | none => exact absurd ((h.freed hc).receiving.symm.trans hrecv) (by simp)
  | some c =>
    obtain ⟨hsup, hs, hused⟩ := (h.live c hc).2.2.receiving hrecv
    rw [fillRecvBuf_eq hc, ok_bind]
    unfold clientSocksRecvHandlerDone
    rw [Ctx.access_some (x := x.fill c data) rfl, ok_bind, check_bind (List.length_pos_iff.mpr hne),
      check_bind hsize, check_bind hs, check_bind hsup, check_bind hused]
    by_cases hclosed : c.clientClosed = true
    · refine ⟨x.fill c data, if_pos hclosed, ctxInv_fill_closed h hc hclosed hsup,
        .of_eq rfl rfl rfl rfl, ?_⟩
      rintro - - ⟨c₀, hc₀, hopen⟩
      rw [hc, Option.some.injEq] at hc₀
      rw [← hc₀, hclosed] at hopen
      exact absurd hopen (by simp)
    have hopen : c.clientClosed = false := by simpa using hclosed
    rw [if_neg hclosed]
    dsimp only
    rcases clientSocksRecvSendOut_ok lw (ready_fill h hc hopen hrecv hne) h hc ⟨rfl, rfl, rfl, rfl⟩
      with
      ⟨x', hx', hinv, hkeeps, hfail, -⟩ | ⟨x', c', hx', hout, -⟩
    · refine ⟨x', ?_, hinv, hkeeps, fun h1 h2 => absurd ⟨h1, h2⟩ hfail⟩
      rw [hx']
      rfl
    · rw [hx', ok_bind]
      dsimp only
      rw [if_neg (by simp), Ctx.access_some hout.client, ok_bind]
      obtain ⟨hid, -, hlist, hdead⟩ := hout.same
      have hal : x'.conn.allocated = x.conn.allocated := by
        rw [hout.control.allocated.1, h.allocated hc]
      have hs' : c'.socksClosed = false := hout.closed.trans hs
      split
      next hused' =>
        obtain ⟨heq, hinv⟩ := hout.initiate h hc ⟨rfl, rfl, rfl⟩ hused' hs'
        exact ⟨_, heq, hinv, .of_eq hid hlist (by rw [hdead]; rfl) hal, fun _ _ _ =>
          ⟨c', hout.client, hout.isOpen⟩⟩
      next hused' =>
        exact ⟨x', rfl, hout.rest h hc ⟨rfl, rfl, rfl⟩ fun hu => hused' hu.1,
          .of_eq hid hlist (by rw [hdead]; rfl) hal, fun _ _ _ => ⟨c', hout.client, hout.isOpen⟩⟩

/-! ## `client_sent_func` -/

/-- 確認された分だけ減らした client。 -/
def Client.confirm (c : Client) (len : Nat) : Client :=
  { c with socksRecvTcpPending := c.socksRecvTcpPending - len }

theorem CtxInv.open_of_sentCb (h : CtxInv x) (hcb : x.conn.sentCb = true) :
    ∃ c, x.conn.client = some c ∧ c.clientClosed = false ∧ c.socksUp = true := by
  cases hc : x.conn.client with
  | none => exact absurd ((h.freed hc).sentCb.symm.trans hcb) (by simp)
  | some c =>
    have hctl := (h.live c hc).1
    rw [hctl.sentCb] at hcb
    exact ⟨c, rfl, by simpa using hcb⟩

/-- 確認の後、待っていた byte の続きを渡せる。 -/
theorem ready_confirm (h : CtxInv x) (hc : x.conn.client = some c)
    (hopen : c.clientClosed = false) (hsup : c.socksUp = true)
    (hlen : x.conn.acked + len ≤ x.conn.queued.length) (hused : 0 < c.socksRecvBufUsed) :
    Ready ((x.acknowledge len).setClient { c.confirm len with socksRecvWaiting := false })
      { c.confirm len with socksRecvWaiting := false } := by
  obtain ⟨hctl, hup, hdown⟩ := h.live c hc
  have hpend := hdown.pending hopen hsup
  have hsnd := hdown.sndBuf hopen
  rcases hdown.resting hopen hsup with ⟨hu, -⟩ | ⟨hw, hbytes⟩
  · omega
  · have hrecv : x.conn.receiving = false := Bool.eq_false_iff.mpr fun hr => by
      have := (hdown.receiving hr).2.2
      omega
    refine ⟨rfl, hopen, hsup, hw.2.1, hw.2.2.1, rfl, hrecv, hctl.of_same rfl rfl,
      hup.of_same rfl rfl, ?_, ?_, hbytes⟩
    · show x.conn.sndBuf + len + x.conn.queued.length = tcpSndBuf + (x.conn.acked + len)
      omega
    · show c.socksRecvTcpPending - len + (x.conn.acked + len) = x.conn.queued.length
      omega

/-- 渡すものがない時の確認。 -/
theorem ctxInv_confirm (h : CtxInv x) (hc : x.conn.client = some c)
    (hopen : c.clientClosed = false) (hsup : c.socksUp = true)
    (hlen : x.conn.acked + len ≤ x.conn.queued.length) (hused : ¬ 0 < c.socksRecvBufUsed)
    (hmore : ¬ (c.socksClosed = true ∧ c.socksRecvTcpPending - len = 0)) :
    CtxInv ((x.acknowledge len).setClient (c.confirm len)) := by
  obtain ⟨hctl, hup, hdown⟩ := h.live c hc
  have hpend := hdown.pending hopen hsup
  have hsnd := hdown.sndBuf hopen
  refine ctxInv_of_live h hc rfl rfl rfl rfl (hctl.of_same rfl rfl) (hup.of_same rfl rfl)
    ⟨⟨hdown.receiving, hdown.queued_prefix, ?_⟩, ?_, ?_, ?_, ?_, hdown.resumes, ?_⟩
  · intro hdown'
    exact absurd (hsup.symm.trans hdown') (by simp)
  · intro _
    show x.conn.sndBuf + len + x.conn.queued.length = tcpSndBuf + (x.conn.acked + len)
    omega
  · intro _
    exact hlen
  · intro _ _
    show c.socksRecvTcpPending - len + (x.conn.acked + len) = x.conn.queued.length
    omega
  · intro _ _
    rcases hdown.resting hopen hsup with hr | ⟨hw, -⟩
    · exact Or.inl hr
    · have h1 := hw.2.1
      have h2 := hw.2.2.1
      omega
  · intro _ hs
    refine Or.inr (Nat.pos_of_ne_zero fun hzero => hmore ⟨hs, hzero⟩)

/-- 最後の確認。client へ送るべき byte はすべて送り終えているので、pcb を閉じてよい。 -/
theorem ctxInv_lastConfirm (h : CtxInv x) (hc : x.conn.client = some c)
    (hopen : c.clientClosed = false) (hsup : c.socksUp = true)
    (hlen : x.conn.acked + len ≤ x.conn.queued.length) (hused : ¬ 0 < c.socksRecvBufUsed)
    (hlast : c.socksRecvTcpPending - len = 0) :
    CtxInv ((((x.acknowledge len).setClient (c.confirm len)).endPcb .freed).afterClient
      (c.confirm len)) ∧
      Keeps x ((((x.acknowledge len).setClient (c.confirm len)).endPcb .freed).afterClient
        (c.confirm len)) := by
  obtain ⟨hctl, hup, hdown⟩ := h.live c hc
  have hpend := hdown.pending hopen hsup
  have hall : x.conn.queued = x.conn.received ∧ x.conn.acked + len = x.conn.queued.length := by
    rcases hdown.resting hopen hsup with ⟨-, hq⟩ | ⟨hw, -⟩
    · exact ⟨hq, by omega⟩
    · have h1 := hw.2.1
      have h2 := hw.2.2.1
      omega
  exact ctxInv_afterClient (x := (x.acknowledge len).setClient (c.confirm len)) (c := c.confirm len)
    (r := .freed) h hc rfl rfl rfl rfl (hctl.of_same rfl rfl) (hup.of_same rfl rfl)
    ⟨hdown.receiving, hdown.queued_prefix, fun hdown' => absurd (hsup.symm.trans hdown') (by simp)⟩
      hopen
    rfl (fun _ _ => hall)

theorem Keeps.dead_none {x' : Ctx} (h : Keeps x x') (hd : x.dead = none) : x'.dead = none := by
  have := h.dead
  rw [hd] at this
  simpa using this

/-- 確認は、待っていた `client_socks_recv_send_out` を続ける。 -/
theorem clientSentFunc_resumes (lw : Lwip) (h : CtxInv x) (hc : x.conn.client = some c)
    (hopen : c.clientClosed = false) (hsup : c.socksUp = true) (hd : x.dead = none)
    (hpos : 0 < len) (hlen : x.conn.acked + len ≤ x.conn.queued.length)
    (hused : 0 < c.socksRecvBufUsed) :
    ∃ y up x' r, clientSocksRecvSendOut lw ((x.acknowledge len).setClient
        { c.confirm len with socksRecvWaiting := false }) = .ok (y, up) ∧
      clientSentFunc len lw (x.acknowledge len) = .ok (x', r) ∧ CallbackOk x x' r ∧
      x'.conn.queued = y.conn.queued ∧
      (lw.tcpWrite.headD .ok = .ok → x.conn.queued.length < y.conn.queued.length) := by
  have hdown := (h.live c hc).2.2
  have hpend := hdown.pending hopen hsup
  have hroom : 0 < x.conn.sndBuf + len := by omega
  obtain ⟨hwait, hsent⟩ : c.socksRecvWaiting = true ∧
      (c.socksRecvBufSent : Int) < c.socksRecvBufUsed := by
    rcases hdown.resting hopen hsup with ⟨hu, -⟩ | ⟨hw, -⟩
    · omega
    · exact ⟨hw.1, by rw [hw.2.1]; exact_mod_cast hw.2.2.1⟩
  unfold clientSentFunc
  rw [Ctx.access_some (x := x.acknowledge len) hc, ok_bind, check_bind hopen, check_bind hsup,
    check_bind hpos, check_bind (by omega)]
  dsimp only
  rw [if_pos hused, check_bind hwait, check_bind hsent]
  rcases clientSocksRecvSendOut_ok lw (ready_confirm h hc hopen hsup hlen hused) h hc
    ⟨rfl, rfl, rfl, rfl⟩ with ⟨y, hy, hinv, hkeeps, -, hgrows⟩ | ⟨y, c', hy, hout, hgrows⟩
  · refine ⟨y, false, y, .returns .abrt 0, hy, ?_, ⟨hinv, hkeeps.id, hkeeps.others,
      hkeeps.dead_none hd, hkeeps.allocated⟩, rfl, fun hreply => hgrows hreply hroom⟩
    show (clientSocksRecvSendOut lw ((x.acknowledge len).setClient
      { c.confirm len with socksRecvWaiting := false }) >>= _) = _
    rw [hy]
    rfl
  · refine ⟨y, true, ?_⟩
    show ∃ x' r, _ ∧ (clientSocksRecvSendOut lw ((x.acknowledge len).setClient
      { c.confirm len with socksRecvWaiting := false }) >>= _) = _ ∧ _
    rw [hy, ok_bind]
    dsimp only
    rw [if_neg (by simp), Ctx.access_some hout.client, ok_bind, check_bind hout.pending]
    obtain ⟨hid, -, hlist, hdead⟩ := hout.same
    have hal : y.conn.allocated = x.conn.allocated := by
      rw [hout.control.allocated.1, h.allocated hc]
    split
    next hnext =>
      obtain ⟨heq, hinv⟩ := hout.initiate h hc ⟨rfl, rfl, rfl⟩ hnext.1 hnext.2
      obtain ⟨x', hx', hok, -⟩ := ctxInv_deadEnter hinv hout.client hout.isOpen (hdead.trans hd)
      refine ⟨x', .commits, rfl, by rw [heq, ok_bind, hx']; rfl, ⟨hok.inv, hok.id.trans hid, ?_,
        hok.dead, hok.allocated.trans hal⟩, ?_, fun hreply => hgrows hreply hroom⟩
      · intro j hj
        rw [hok.others j (by rw [show y.id = x.id from hid]; exact hj), hlist]
        rfl
      · have hx := (deadEnter_eq (x := { y with conn := { y.conn with receiving := true } })
          hout.client).symm.trans hx'
        rw [← Except.ok.inj hx]
    next hnext =>
      refine ⟨y, .returns .ok 0, rfl, rfl, ⟨hout.rest h hc ⟨rfl, rfl, rfl⟩ hnext, hid, ?_,
        hdead.trans hd, hal⟩, rfl, fun hreply => hgrows hreply hroom⟩
      intro j _
      rw [hlist]
      rfl

/--
`client_sent_func` の仕様。

SOCKS が先に閉じていて最後の確認が届いた時は、送るべき byte をすべて送り終えて pcb を閉じる。
-/
theorem clientSentFunc_inv (lw : Lwip) (h : CtxInv x) (hcb : x.conn.sentCb = true)
    (hd : x.dead = none) (hpos : 0 < len) (hlen : x.conn.acked + len ≤ x.conn.queued.length) :
    ∃ x' r, clientSentFunc len lw (x.acknowledge len) = .ok (x', r) ∧ CallbackOk x x' r := by
  obtain ⟨c, hc, hopen, hsup⟩ := h.open_of_sentCb hcb
  by_cases hused : 0 < c.socksRecvBufUsed
  · obtain ⟨-, -, x', r, -, hx', hok, -⟩ :=
      clientSentFunc_resumes lw h hc hopen hsup hd hpos hlen hused
    exact ⟨x', r, hx', hok⟩
  obtain ⟨hctl, hup, hdown⟩ := h.live c hc
  have hpend := hdown.pending hopen hsup
  unfold clientSentFunc
  rw [Ctx.access_some (x := x.acknowledge len) hc, ok_bind, check_bind hopen, check_bind hsup,
    check_bind hpos, check_bind (by omega)]
  dsimp only
  rw [if_neg hused]
  split
  next hlast =>
    obtain ⟨hinv, hkeeps⟩ := ctxInv_lastConfirm h hc hopen hsup hlen hused hlast.2
    have hfree := clientFreeClient_eq 1 (x := (x.acknowledge len).setClient (c.confirm len)) rfl
      hopen
      (by show x.conn.pcbOpen = true; rw [hctl.pcbOpen, hopen]; rfl) (hctl.pointer hopen)
      (h.numClients_pos hc)
    refine ⟨_, .returns .abrt 0, ?_, hinv, hkeeps.id, hkeeps.others, hkeeps.dead_none hd,
      hkeeps.allocated⟩
    show (clientFreeClient depth ((x.acknowledge len).setClient (c.confirm len)) >>= _) = _
    rw [show depth = 1 + 3 from rfl, hfree]
    rfl
  next hmore =>
    exact ⟨(x.acknowledge len).setClient (c.confirm len), .returns .ok 0, rfl,
      ctxInv_confirm h hc hopen hsup hlen hused hmore, rfl, fun _ _ => Iff.rfl, hd, rfl⟩

end Relay
