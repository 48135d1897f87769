import PsiphonVpn.Relay.Invariant

/-!
# client から SOCKS へ

`client_recv_func` は lwIP の data を `buf` の後ろに足し、空だった時だけ送信を始める。送信が一部でも終わると、
`client_socks_send_handler_done` が前から詰めて続きを送る。送信中の byte は `buf` の先頭にあり、
後から足された data はその後ろに付くだけなので、送信に渡した範囲は書き換わらない。
-/

namespace Relay

open Infra

variable {x : Ctx} {c : Client}

/-! ## 部品の仕様 -/

variable {data : List UInt8}

theorem senderSend_eq (ha : x.conn.socksAlive = true) (hs : x.conn.sending = none)
    (hd : data ≠ []) :
    senderSend x data = .ok { x with conn := { x.conn with sending := some data } } := by
  unfold senderSend
  rw [check_bind ⟨ha, hs, hd⟩]
  rfl

theorem clientSendToSocks_eq (hc : x.conn.client = some c) (h1 : c.socksClosed = false)
    (h2 : c.socksUp = true) (hb : c.buf ≠ []) (ha : x.conn.socksAlive = true)
    (hs : x.conn.sending = none) :
    clientSendToSocks x = .ok { x with conn := { x.conn with sending := some c.buf } } := by
  unfold clientSendToSocks
  rw [Ctx.access_some hc, ok_bind, check_bind h1, check_bind h2, check_bind hb,
    senderSend_eq ha hs hb]

theorem deadEnter_eq (hc : x.conn.client = some c) :
    deadEnter x = .ok { x with
      dead := some { killed := false, prev := c.deadClient }
      conn := { x.conn with client := some { c with deadClient := true } } } := by
  unfold deadEnter
  rw [Ctx.access_some hc]
  rfl

theorem confirmRecved_eq {len : Nat} (h : c.clientClosed = false → x.conn.pcbOpen = true) :
    confirmRecved c len x = .ok { x with conn := { x.conn with
      recved := if c.clientClosed = false then x.conn.recved + len else x.conn.recved } } := by
  unfold confirmRecved
  split
  next hopen => rw [Ctx.usePcb_of (h hopen)]; rfl
  next => rfl

theorem Upstream.sending_none {k : Conn} (h : Upstream k c) (hb : c.buf = []) :
    k.sending = none := by
  cases hs : k.sending with
  | none => rfl
  | some data =>
    obtain ⟨hne, hpre, -⟩ := h.sending data hs
    rw [hb] at hpre
    exact absurd (List.prefix_nil.mp hpre) hne

/-! ## callback の結果 -/

/-- lwIP の callback が不変量を保ち、`SYNC_COMMIT` に入る時だけ dead 変数を置く。 -/
structure CallbackOk (x x' : Ctx) (r : CallbackEnd) : Prop where
  inv : CtxInv x'
  id : x'.id = x.id
  others : ∀ j, j ≠ x.id → (j ∈ x'.tcpClients ↔ j ∈ x.tcpClients)
  dead : x'.dead = if r = .commits then some { killed := false, prev := false } else none
  allocated : x'.conn.allocated = x.conn.allocated

/-- `DEAD_ENTER`。 -/
theorem ctxInv_deadEnter (h : CtxInv x) (hc : x.conn.client = some c)
    (hopen : c.clientClosed = false) (hd : x.dead = none) :
    ∃ x', deadEnter x = .ok x' ∧ CallbackOk x x' .commits ∧ x'.isOpen := by
  obtain ⟨hctl, hup, hdown⟩ := h.live c hc
  have hptr : c.deadClient = false := by rw [hctl.pointer hopen, hd]; rfl
  refine ⟨_, deadEnter_eq hc, ⟨?_, rfl, fun _ _ => Iff.rfl, by simp [hptr], rfl⟩, _, rfl, hopen⟩
  refine ctxInv_of_live h hc rfl rfl rfl rfl ?_ ?_ ?_
  · refine ⟨hctl.someOpen, hctl.pcbOpen, hctl.errCb, hctl.recvCb, hctl.sentCb, hctl.socksAlive,
      hctl.established, hctl.closedUp, ?_, fun _ => rfl, hctl.first, hctl.pcbEnd, hctl.allocated⟩
    intro v hv
    rw [Option.mem_some] at hv
    subst hv
    exact ⟨hptr, hopen.symm⟩
  · exact hup.of_same rfl rfl
  · exact hdown.of_same rfl rfl

/-- `recv` の callback が残っているなら、両側とも開いている。 -/
theorem CtxInv.open_of_recvCb (h : CtxInv x) (hcb : x.conn.recvCb = true) :
    ∃ c, x.conn.client = some c ∧ c.clientClosed = false ∧ c.socksClosed = false := by
  cases hc : x.conn.client with
  | none => exact absurd ((h.freed hc).recvCb.symm.trans hcb) (by simp)
  | some c =>
    have hctl := (h.live c hc).1
    rw [hctl.recvCb] at hcb
    exact ⟨c, rfl, by simpa using hcb⟩

/-! ## `client_recv_func` -/

/-- data を足した後。 -/
def Ctx.push (x : Ctx) (c : Client) (data : List UInt8) : Ctx :=
  { x with conn := { x.conn with
      client := some { c with buf := c.buf ++ data }
      accepted := x.conn.accepted ++ data } }

theorem upBytes_push (h : UpBytes x.conn c) (hroom : ¬ tcpWnd - c.buf.length < data.length) :
    UpBytes (x.push c data).conn { c with buf := c.buf ++ data } where
  room := by
    have := h.room
    show (c.buf ++ data).length ≤ tcpWnd
    rw [List.length_append]
    omega
  conserved := by
    show x.conn.written ++ (c.buf ++ data) = x.conn.accepted ++ data
    rw [← List.append_assoc, h.conserved]
  recved := h.recved

/-- 送信中でも、足した data は送信に渡した範囲の後ろに付く。 -/
theorem ctxInv_push (h : CtxInv x) (hc : x.conn.client = some c)
    (hroom : ¬ tcpWnd - c.buf.length < data.length)
    (hidle : ¬ ((c.buf ++ data).length = data.length ∧ c.socksUp = true)) :
    CtxInv (x.push c data) := by
  obtain ⟨hctl, hup, hdown⟩ := h.live c hc
  refine ctxInv_of_live h hc rfl rfl rfl rfl ?_ ⟨upBytes_push hup.toUpBytes hroom, ?_, ?_, ?_⟩ ?_
  · exact hctl.of_same rfl rfl
  · intro d hd
    obtain ⟨h1, h2, h3⟩ := hup.sending d hd
    exact ⟨h1, h2.trans (List.prefix_append _ _), h3⟩
  · intro hsup hs _
    refine hup.sends hsup hs fun hnil => hidle ⟨?_, hsup⟩
    rw [hnil, List.nil_append]
  · intro hclosed hnil
    exact hup.draining hclosed (List.append_eq_nil_iff.mp hnil).1
  · exact hdown.of_same rfl rfl

/-- 空だった `buf` の送信を始める。 -/
theorem ctxInv_push_send (h : CtxInv x) (hc : x.conn.client = some c)
    (hroom : ¬ tcpWnd - c.buf.length < data.length) (hsup : c.socksUp = true)
    (hs : c.socksClosed = false) (hne : data ≠ []) :
    CtxInv { x.push c data with
      conn := { (x.push c data).conn with sending := some (c.buf ++ data) } } := by
  obtain ⟨hctl, hup, hdown⟩ := h.live c hc
  have hbytes := upBytes_push hup.toUpBytes hroom
  have hnil : c.buf ++ data ≠ [] := fun h => hne (List.append_eq_nil_iff.mp h).2
  refine ctxInv_of_live h hc rfl rfl rfl rfl ?_
    ⟨⟨hbytes.room, hbytes.conserved, hbytes.recved⟩, ?_, fun _ _ _ => rfl, fun _ => hnil⟩ ?_
  · exact hctl.of_same rfl rfl
  · intro d hd
    rw [Option.mem_some] at hd
    subst hd
    exact ⟨hnil, List.prefix_rfl, hsup, hs⟩
  · exact hdown.of_same rfl rfl

/-- data を受け取る `client_recv_func`。`ERR_MEM` を返すのは、`buf` に入りきらない時だけである。 -/
theorem clientRecvFunc_data (h : CtxInv x) (hcb : x.conn.recvCb = true) (hd : x.dead = none)
    (hne : data ≠ []) :
    ∃ x' r, clientRecvFunc (some data) x = .ok (x', r) ∧ CallbackOk x x' r ∧
      ((r = .returns .mem 0 ∧ ∃ c, x.conn.client = some c ∧ tcpWnd < c.buf.length + data.length) ∨
        r = .returns .ok 1 ∨ (r = .commits ∧ x'.isOpen)) := by
  obtain ⟨c, hc, hopen, hs⟩ := h.open_of_recvCb hcb
  obtain ⟨hctl, hup, -⟩ := h.live c hc
  have hlen : 0 < data.length := List.length_pos_iff.mpr hne
  unfold clientRecvFunc
  rw [Ctx.access_some hc, ok_bind, check_bind hopen]
  dsimp only
  rw [check_bind hlen]
  split
  next hfull =>
    exact ⟨x, .returns .mem 0, rfl, ⟨h, rfl, fun _ _ => Iff.rfl, by simp [hd], rfl⟩,
      .inl ⟨rfl, c, hc, by omega⟩⟩
  next hroom =>
    split
    next hsend =>
      have hnil : c.buf = [] := by
        rw [List.length_append] at hsend
        exact List.eq_nil_of_length_eq_zero (by omega)
      have hinv := ctxInv_push_send h hc hroom hsend.2 hs hne
      obtain ⟨x', hx', hok, hisOpen⟩ := ctxInv_deadEnter hinv rfl hopen hd
      refine ⟨x', .commits, ?_, ⟨hok.inv, hok.id, hok.others, hok.dead, hok.allocated⟩,
        .inr (.inr ⟨rfl, hisOpen⟩)⟩
      have hto := clientSendToSocks_eq (x := x.push c data) (c := { c with buf := c.buf ++ data })
        rfl hs
        hsend.2 (by simp [hne]) (by simp [Ctx.push, hctl.socksAlive, hs]) (hup.sending_none hnil)
      rw [check_bind hs]
      show (clientSendToSocks (x.push c data) >>= _) = _
      rw [hto, ok_bind, hx']
      rfl
    next hidle =>
      exact ⟨x.push c data, .returns .ok 1, rfl,
        ⟨ctxInv_push h hc hroom hidle, rfl, fun _ _ => Iff.rfl, by simp [Ctx.push, hd], rfl⟩,
        .inr (.inl rfl)⟩

/-- FIN。SOCKS へ送る byte が残っていれば、SOCKS は閉じずに待つ。 -/
theorem clientRecvFunc_fin (h : CtxInv x) (hcb : x.conn.recvCb = true) :
    ∃ x' r, clientRecvFunc none x = .ok (x', r) ∧ CtxInv x' ∧ Keeps x x' := by
  obtain ⟨c, hc, hopen, hs⟩ := h.open_of_recvCb hcb
  obtain ⟨hctl, hup, hdown⟩ := h.live c hc
  have hfree := clientFreeClient_eq 1 hc hopen (by rw [hctl.pcbOpen, hopen]; rfl)
    (hctl.pointer hopen) (h.numClients_pos hc)
  have hinv := ctxInv_afterClient (r := .freed) h hc rfl rfl rfl rfl hctl hup hdown.toDownBytes
    hopen
    rfl (fun hclosed => absurd (hs.symm.trans hclosed) (by simp))
  refine ⟨(x.endPcb .freed).afterClient c, .returns .abrt 0, ?_, hinv⟩
  unfold clientRecvFunc
  rw [Ctx.access_some hc, ok_bind, check_bind hopen]
  rw [show depth = 1 + 3 from rfl, hfree]
  rfl

/-- lwIP の error。pcb は lwIP が始末する。 -/
theorem clientErrFunc_inv (h : CtxInv x) (hcb : x.conn.errCb = true) :
    ∃ x', clientErrFunc x = .ok x' ∧ CtxInv x' ∧ Keeps x x' := by
  cases hc : x.conn.client with
  | none => exact absurd ((h.freed hc).errCb.symm.trans hcb) (by simp)
  | some c =>
    obtain ⟨hctl, hup, hdown⟩ := h.live c hc
    have hopen : c.clientClosed = false := by
      rw [hctl.errCb] at hcb
      simpa using hcb
    refine ⟨(x.endPcb .lwipError).afterClient c, ?_,
      ctxInv_afterClient h hc rfl rfl rfl rfl hctl hup
      hdown.toDownBytes hopen rfl (by simp)⟩
    unfold clientErrFunc
    rw [Ctx.access_some hc, ok_bind, check_bind hopen]
    exact clientHandleFreedClient_eq 2 hc hopen (hctl.pointer hopen) (h.numClients_pos hc)

/-! ## `client_socks_send_handler_done` -/

/-- `n` byte を書き終えた後。 -/
def Ctx.pop (x : Ctx) (c : Client) (data : List UInt8) (n : Nat) : Ctx :=
  { x with conn := { x.conn with
      client := some { c with buf := c.buf.drop n }
      sending := none
      written := x.conn.written ++ data.take n
      recved := if c.clientClosed = false then x.conn.recved + n else x.conn.recved } }

/-- 書かれたのは `buf` の先頭だったので、残りと合わせて元に戻る。 -/
theorem upBytes_pop {n : Nat} (h : UpBytes x.conn c) (hpre : data <+: c.buf)
    (hn : n ≤ data.length) : UpBytes (x.pop c data n).conn { c with buf := c.buf.drop n } where
  room := by
    have := h.room
    show (c.buf.drop n).length ≤ tcpWnd
    rw [List.length_drop]
    omega
  conserved := by
    show x.conn.written ++ data.take n ++ c.buf.drop n = x.conn.accepted
    have htake : data.take n = c.buf.take n := by
      obtain ⟨rest, hrest⟩ := hpre
      rw [← hrest, List.take_append_of_le_length hn]
    rw [htake, List.append_assoc, List.take_append_drop, h.conserved]
  recved := by
    intro hopen
    show (if c.clientClosed = false then x.conn.recved + n else x.conn.recved) = _
    rw [if_pos hopen, h.recved hopen]
    simp [Ctx.pop, hn]

/--
送信の終わり。

client が閉じていて残りもなければ SOCKS を閉じて解放する。client が開いていれば、開いたままである。
-/
theorem clientSocksSendHandlerDone_inv {n : Nat} (h : CtxInv x)
    (hsend : x.conn.sending = some data) (hpos : 0 < n) (hn : n ≤ data.length) :
    ∃ x', clientSocksSendHandlerDone n (x.finishSend data n) = .ok x' ∧
      CtxInv x' ∧ Keeps x x' ∧ (x.isOpen → x'.isOpen) := by
  cases hc : x.conn.client with
  | none => exact absurd ((h.freed hc).sending.symm.trans hsend) (by simp)
  | some c =>
    obtain ⟨hctl, hup, hdown⟩ := h.live c hc
    obtain ⟨hne, hpre, hsup, hs⟩ := hup.sending data hsend
    have hlen : n ≤ c.buf.length := hn.trans hpre.length_le
    have hbuf : c.buf ≠ [] := fun hnil => by
      rw [hnil, List.length_nil] at hlen
      omega
    have halive : x.conn.socksAlive = true := by rw [hctl.socksAlive, hs]; rfl
    have hbytes := upBytes_pop hup.toUpBytes hpre hn
    have hctl' : Control (x.pop c data n).conn { c with buf := c.buf.drop n } x.dead :=
      hctl.of_same rfl rfl
    have hdown' : Downstream (x.pop c data n).conn { c with buf := c.buf.drop n } :=
      hdown.of_same rfl rfl
    have hopen : ∀ x' : Ctx, x'.conn.client = some { c with buf := c.buf.drop n } →
        x.isOpen → x'.isOpen := by
      rintro x' hx' ⟨c₀, hc₀, hopen⟩
      rw [hc, Option.some.injEq] at hc₀
      exact ⟨_, hx', hc₀ ▸ hopen⟩
    have hconf : confirmRecved c n
        ((x.finishSend data n).setClient { c with buf := c.buf.drop n }) = .ok (x.pop c data n) :=
      confirmRecved_eq fun ho => show x.conn.pcbOpen = true by rw [hctl.pcbOpen, ho]; rfl
    unfold clientSocksSendHandlerDone
    rw [Ctx.access_some (x := x.finishSend data n) hc, ok_bind, check_bind hs, check_bind hsup,
      check_bind hbuf, check_bind hpos, check_bind hlen, hconf, ok_bind]
    split
    next hrest =>
      -- 続きを送る
      refine ⟨_, senderSend_eq (x := x.pop c data n) halive rfl hrest, ?_, .of_eq rfl rfl rfl rfl,
        hopen _ rfl⟩
      refine ctxInv_of_live h hc rfl rfl rfl rfl (hctl'.of_same rfl rfl)
        ⟨⟨hbytes.room, hbytes.conserved, hbytes.recved⟩, ?_, fun _ _ _ => rfl, fun _ => hrest⟩
        (hdown'.of_same rfl rfl)
      intro d hd
      rw [Option.mem_some] at hd
      subst hd
      exact ⟨hrest, List.prefix_rfl, hsup, hs⟩
    next hrest =>
      have hnil : c.buf.drop n = [] := not_not.mp hrest
      split
      next hclosed =>
        -- 閉じた client の残りを送り終えた
        have hinv := ctxInv_afterSocks (x := x.pop c data n) h hc rfl rfl rfl rfl hctl' hbytes
          hdown' hs
          (fun _ => .inr hnil)
        refine ⟨_, clientFreeSocks_eq 0 (x := x.pop c data n) rfl hs (fun ho => ?_)
          (h.numClients_pos hc),
          hinv.1, hinv.2, ?_⟩
        · exact absurd (hclosed.symm.trans ho) (by simp)
        · rintro ⟨c₀, hc₀, ho⟩
          rw [hc, Option.some.injEq] at hc₀
          rw [← hc₀, hclosed] at ho
          exact absurd ho (by simp)
      next hclosed =>
        refine ⟨x.pop c data n, rfl, ?_, .of_eq rfl rfl rfl rfl, hopen _ rfl⟩
        refine ctxInv_of_live h hc rfl rfl rfl rfl hctl'
          ⟨hbytes, by simp [Ctx.pop], fun _ _ hb => absurd hnil hb, fun hcl => absurd hcl hclosed⟩
          hdown'

end Relay
