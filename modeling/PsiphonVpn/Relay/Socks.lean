import PsiphonVpn.Relay.Downstream

/-!
# SOCKS の知らせと、閉じた後の始末

* `client_socks_handler` — up では両方向の転送を始め、error と close では SOCKS の側を閉じる
* `SYNC_COMMIT` の終わり — client が閉じていなければ dead 変数を外し、閉じていれば client に触れない
* `client_murder` — program の終わりに、残りを問わず解放する
-/

namespace Relay

open Infra

variable {x : Ctx} {c : Client}

/-! ## `client_socks_handler` -/

theorem CtxInv.socks_open (h : CtxInv x) (ha : x.conn.socksAlive = true) :
    ∃ c, x.conn.client = some c ∧ c.socksClosed = false := by
  cases hc : x.conn.client with
  | none => exact absurd ((h.freed hc).socksAlive.symm.trans ha) (by simp)
  | some c =>
    have hctl := (h.live c hc).1
    rw [hctl.socksAlive] at ha
    exact ⟨c, rfl, by simpa using ha⟩

/-- SOCKS の error と close。client へ送る byte が残っていれば、client は開いたままである。 -/
theorem clientSocksHandler_closes {event : SocksEvent} (h : CtxInv x) (hne : event ≠ .up)
    (hpos : event.possible x.conn = true) :
    ∃ x', clientSocksHandler event (x.report event) = .ok x' ∧ CtxInv x' ∧ Keeps x x' ∧
      ∀ c, x.conn.client = some c → c.flushes → x'.isOpen := by
  have halive : x.conn.socksAlive = true := by
    cases event with
    | error => exact hpos
    | up => exact absurd rfl hne
    | errorClosed => exact (Bool.and_eq_true_iff.mp hpos).1
  obtain ⟨c, hc, hs⟩ := h.socks_open halive
  obtain ⟨hctl, hup, hdown⟩ := h.live c hc
  have hctl' : Control (x.report event).conn c (x.report event).dead := by
    refine hctl.of_same ?_ rfl
    simp [Conn.control, Ctx.report, hne]
  obtain ⟨hinv, hkeeps⟩ := ctxInv_afterSocks (x := x.report event) h hc rfl rfl rfl rfl hctl'
    ⟨hup.room, hup.conserved, hup.recved⟩ (hdown.of_same rfl rfl) hs
    (fun _ => .inl (by simp [Ctx.report, hne]))
  have hfree := clientFreeSocks_eq 0 (x := x.report event) hc hs
    (fun ho => ⟨by rw [hctl'.pcbOpen, ho]; rfl, hctl'.pointer ho⟩) (h.numClients_pos hc)
  refine ⟨(x.report event).afterSocks c, ?_, hinv, hkeeps, ?_⟩
  · unfold clientSocksHandler
    rw [Ctx.access_some (x := x.report event) hc, ok_bind, check_bind hs]
    cases event with
    | error => exact hfree
    | up => exact absurd rfl hne
    | errorClosed =>
      have hsup : c.socksUp = true := by
        rw [← hctl.established hs]
        exact (Bool.and_eq_true_iff.mp hpos).2
      dsimp only
      rw [check_bind hsup]
      exact hfree
  · intro c₀ hc₀ hflush
    rw [hc, Option.some.injEq] at hc₀
    subst hc₀
    unfold Ctx.afterSocks
    rw [if_pos hflush]
    exact ⟨_, rfl, hflush.2.2⟩

/-- SOCKS が up になった client。 -/
def Client.goUp (c : Client) : Client :=
  { c with socksRecvBufUsed := -1, socksRecvTcpPending := 0, socksUp := true }

/-- SOCKS が up になり、溜まっていた byte を送り始めた所。 -/
def Ctx.startSending (x : Ctx) (c : Client) : Ctx :=
  { x with conn := { x.conn with
      client := some c.goUp
      sentCb := !c.clientClosed
      socksEstablished := true
      sending := if c.buf ≠ [] then some c.buf else none } }

/-- SOCKS が up になった後。client が開いていれば受信も始める。 -/
def Ctx.goUp (x : Ctx) (c : Client) : Ctx :=
  { x with conn := { x.conn with
      client := some c.goUp
      sentCb := !c.clientClosed
      socksEstablished := true
      sending := if c.buf ≠ [] then some c.buf else none
      receiving := !c.clientClosed } }

theorem ctxInv_goUp (h : CtxInv x) (hc : x.conn.client = some c) (hs : c.socksClosed = false)
    (hdown : c.socksUp = false) : CtxInv (x.goUp c) := by
  obtain ⟨hctl, hup, hdn⟩ := h.live c hc
  obtain ⟨hqueued, hreceived, hacked⟩ := hdn.idle hdown
  refine ctxInv_of_live h hc rfl rfl rfl rfl ?_ ⟨⟨hup.room, hup.conserved, hup.recved⟩, ?_, ?_,
    hup.draining⟩ ⟨⟨?_, hdn.queued_prefix, ?_⟩, hdn.sndBuf, hdn.acked, ?_, ?_, ?_, ?_⟩
  · exact ⟨hctl.someOpen, hctl.pcbOpen, hctl.errCb, hctl.recvCb, (Bool.and_true _).symm,
      hctl.socksAlive, fun _ => rfl, fun _ => rfl, hctl.dead, hctl.pointer, hctl.first, hctl.pcbEnd,
      hctl.allocated⟩
  · intro data hdata
    simp only [Ctx.goUp, Option.mem_ite_none_right, Option.mem_some] at hdata
    obtain ⟨hne, rfl⟩ := hdata
    exact ⟨hne, List.prefix_rfl, rfl, hs⟩
  · intro _ _ hne
    have hne' : c.buf ≠ [] := hne
    simp [Ctx.goUp, hne']
  · exact fun _ => ⟨rfl, hs, rfl⟩
  · intro hup'
    exact absurd hup' (by simp [Client.goUp])
  · intro _ _
    show 0 + x.conn.acked = x.conn.queued.length
    rw [hqueued, hacked]
    rfl
  · exact fun _ _ => Or.inl ⟨rfl, hqueued.trans hreceived.symm⟩
  · intro hopen _ _ _
    have hopen' : c.clientClosed = false := hopen
    simp [Ctx.goUp, hopen']
  · intro _ hs'
    exact absurd (hs.symm.trans hs') (by simp)

theorem report_up (x : Ctx) :
    x.report .up = { x with conn := { x.conn with socksEstablished := true } } := by
  simp [Ctx.report]

theorem installSent_eq (hpcb : c.clientClosed = false → x.conn.pcbOpen = true) :
    installSent c x = .ok { x with conn := { x.conn with
      sentCb := if c.clientClosed = false then true else x.conn.sentCb } } := by
  unfold installSent
  split
  next hopen => rw [Ctx.usePcb_of (hpcb hopen)]; rfl
  next => rfl

theorem sendBuffered_eq {d : Client} (hc : x.conn.client = some d) (hbuf : d.buf = c.buf)
    (hs : d.socksClosed = false) (hsup : d.socksUp = true) (ha : x.conn.socksAlive = true)
    (hsend : x.conn.sending = none) :
    sendBuffered c x = .ok { x with conn := { x.conn with
      sending := if c.buf ≠ [] then some c.buf else none } } := by
  unfold sendBuffered
  split
  next hne => rw [clientSendToSocks_eq hc hs hsup (by rw [hbuf]; exact hne) ha hsend, hbuf]
  next =>
    rw [← hsend]

theorem clientSocksHandler_up (h : CtxInv x) (hpos : SocksEvent.up.possible x.conn = true) :
    ∃ x', clientSocksHandler .up (x.report .up) = .ok x' ∧ CtxInv x' ∧ Keeps x x' ∧
      (x.isOpen → x'.isOpen) := by
  obtain ⟨halive, hest⟩ : x.conn.socksAlive = true ∧ x.conn.socksEstablished = false := by
    simpa [SocksEvent.possible] using hpos
  obtain ⟨c, hc, hs⟩ := h.socks_open halive
  obtain ⟨hctl, hup, hdn⟩ := h.live c hc
  have hdown : c.socksUp = false := by rw [← hctl.established hs, hest]
  have hsend := hup.not_sending (by simp [hdown])
  have hrecv := hdn.not_receiving (by simp [hdown])
  have hsentCb : x.conn.sentCb = false := by rw [hctl.sentCb, hdown, Bool.and_false]
  refine ⟨x.goUp c, ?_, ctxInv_goUp h hc hs hdown, .of_eq rfl rfl rfl rfl, ?_⟩
  · have hinstall : installSent c { x with conn := { x.conn with socksEstablished := true } } =
        .ok { x with
          conn := { x.conn with sentCb := !c.clientClosed, socksEstablished := true } } := by
      refine (installSent_eq fun ho => ?_).trans ?_
      · show x.conn.pcbOpen = true
        rw [hctl.pcbOpen, ho]
        rfl
      · cases c.clientClosed <;> simp [hsentCb]
    have hbuffered := sendBuffered_eq (c := c) (d := c.goUp) (x := { x with conn := { x.conn with
      client := some c.goUp, sentCb := !c.clientClosed, socksEstablished := true } }) rfl rfl hs rfl
      halive hsend
    unfold clientSocksHandler
    rw [report_up, Ctx.access_some
      (x := { x with conn := { x.conn with socksEstablished := true } }) hc,
      ok_bind, check_bind hs]
    dsimp only
    rw [check_bind hdown, hinstall, ok_bind]
    show (sendBuffered c { x with conn := { x.conn with
      client := some c.goUp, sentCb := !c.clientClosed, socksEstablished := true } } >>= _) = _
    rw [hbuffered, ok_bind]
    split
    next hopen =>
      refine (clientSocksRecvInitiate_eq (x := x.startSending c) (c := c.goUp) rfl hopen hs rfl rfl
        halive hrecv).trans ?_
      simp [Ctx.startSending, Ctx.goUp, hopen]
    next hclosed =>
      have hclosed' : c.clientClosed = true := by simpa using hclosed
      simp [Ctx.goUp, hclosed', hrecv, pure, Except.pure]
  · rintro ⟨c₀, hc₀, hopen⟩
    rw [hc, Option.some.injEq] at hc₀
    exact ⟨c.goUp, rfl, hc₀ ▸ hopen⟩

theorem clientSocksHandler_inv {event : SocksEvent} (h : CtxInv x)
    (hpos : event.possible x.conn = true) :
    ∃ x', clientSocksHandler event (x.report event) = .ok x' ∧ CtxInv x' ∧ Keeps x x' := by
  by_cases hup : event = .up
  · subst hup
    obtain ⟨x', hx', hinv, hk, -⟩ := clientSocksHandler_up h hpos
    exact ⟨x', hx', hinv, hk⟩
  · obtain ⟨x', hx', hinv, hk, -⟩ := clientSocksHandler_closes h hup hpos
    exact ⟨x', hx', hinv, hk⟩

/-! ## `SYNC_COMMIT` の終わり -/

/-- dead 変数が立っていないのは、client が開いている時に限る。立っていれば client に触れない。 -/
theorem deadLeave_inv {v : DeadVar} (h : CtxInv x) (hd : x.dead = some v) :
    ∃ x' killed, deadLeave x = .ok (x', killed) ∧ CtxInv x' ∧ x'.id = x.id ∧
      x'.tcpClients = x.tcpClients ∧ x'.conn.allocated = x.conn.allocated ∧ x'.dead = none ∧
      (killed = false ↔ x.isOpen) := by
  unfold deadLeave
  rw [hd]
  dsimp only
  cases hc : x.conn.client with
  | none =>
    have hf := h.freed hc
    obtain ⟨hprev, hkilled⟩ := hf.dead v hd
    rw [hprev, hkilled]
    refine ⟨{ x with dead := none }, true, rfl, ⟨h.count, h.nodup, h.listed, ?_, fun _ => ?_⟩, rfl,
      rfl, rfl, rfl, ?_⟩
    · intro c hc'
      exact absurd (hc.symm.trans hc') (by simp)
    · exact ⟨hf.pcbOpen, hf.errCb, hf.recvCb, hf.sentCb, hf.socksAlive, hf.sending, hf.receiving,
        by simp, hf.frees, hf.written_prefix, hf.queued_prefix, hf.drained, hf.flushed, hf.pcbEnd⟩
    · refine iff_of_false (by simp) ?_
      rintro ⟨c, hc', -⟩
      exact absurd (hc.symm.trans hc') (by simp)
  | some c =>
    obtain ⟨hctl, hup, hdown⟩ := h.live c hc
    obtain ⟨hprev, hkilled⟩ := hctl.dead v hd
    rw [hprev, hkilled]
    cases hclosed : c.clientClosed with
    | true =>
      refine ⟨{ x with dead := none }, true, rfl, ?_, rfl, rfl, rfl, rfl, ?_⟩
      · refine ctxInv_of_live h hc rfl rfl rfl hc ?_ hup hdown
        exact ⟨hctl.someOpen, hctl.pcbOpen, hctl.errCb, hctl.recvCb, hctl.sentCb, hctl.socksAlive,
          hctl.established, hctl.closedUp, by simp, by simp [hclosed], hctl.first, hctl.pcbEnd,
          hctl.allocated⟩
      · refine iff_of_false (by simp) ?_
        rintro ⟨c', hc', hopen⟩
        rw [hc, Option.some.injEq] at hc'
        rw [← hc', hclosed] at hopen
        exact absurd hopen (by simp)
    | false =>
      rw [Ctx.access_some hc]
      refine ⟨{ x with
        dead := none, conn := { x.conn with client := some { c with deadClient := false } } },
        false, rfl, ?_, rfl, rfl, rfl, rfl, iff_of_true rfl ⟨c, hc, hclosed⟩⟩
      refine ctxInv_of_live h hc rfl rfl rfl rfl ?_ (hup.of_same rfl rfl) (hdown.of_same rfl rfl)
      exact ⟨hctl.someOpen, hctl.pcbOpen, hctl.errCb, hctl.recvCb, hctl.sentCb, hctl.socksAlive,
        hctl.established, hctl.closedUp,
        by simp, fun _ => rfl, hctl.first, hctl.pcbEnd, hctl.allocated⟩

/-! ## `client_murder` -/

/-- 解放した後に残る記録。 -/
def Ctx.murdered (x : Ctx) (c : Client) : Ctx :=
  { x with conn := { x.conn with
      client := some { c with clientClosed := true, socksClosed := true }
      pcbOpen := false, errCb := false, recvCb := false, sentCb := false
      socksAlive := false, sending := none, receiving := false
      firstClosed := x.conn.firstClosed <|> some .client
      pcbEnd := if c.clientClosed = false then some .murdered else x.conn.pcbEnd
      murdered := true } }

/-- `client_murder` の前半。 -/
theorem murderClient_eq (hctl : Control x.conn c x.dead) (hc : x.conn.client = some c)
    (hd : x.dead = none) :
    murderClient c { x with conn.murdered := true } = .ok { x with conn := { x.conn with
      client := some { c with clientClosed := true }
      pcbOpen := false, errCb := false, recvCb := false, sentCb := false
      firstClosed := x.conn.firstClosed <|> some .client
      pcbEnd := if c.clientClosed = false then some .murdered else x.conn.pcbEnd
      murdered := true } } := by
  unfold murderClient
  cases hclosed : c.clientClosed with
  | false =>
    have hpcb : x.conn.pcbOpen = true := by rw [hctl.pcbOpen, hclosed]; rfl
    have hptr : c.deadClient = false := by rw [hctl.pointer hclosed, hd]; rfl
    rw [if_pos rfl, Ctx.usePcb_of (x := { x with conn.murdered := true }) hpcb, hptr]
    rfl
  | true =>
    have hc' : x.conn.client = some { c with clientClosed := true } := by rw [hc, ← hclosed]
    have hfirst : x.conn.firstClosed = some .client := by rw [hctl.first, hclosed]; rfl
    have hpcb := hctl.pcbOpen
    have herr := hctl.errCb
    have hrecv := hctl.recvCb
    have hsent := hctl.sentCb
    simp only [hclosed, Bool.not_true, Bool.false_and] at hpcb herr hrecv hsent
    rw [if_neg (by simp), if_neg (by simp)]
    simp [hc', hpcb, herr, hrecv, hsent, hfirst]

/-- SOCKS の側を閉じて解放する。 -/
theorem clientMurder_eq (h : CtxInv x) (hc : x.conn.client = some c) (hd : x.dead = none) :
    clientMurder x = .ok (x.murdered c).dealloc := by
  obtain ⟨hctl, hup, hdown⟩ := h.live c hc
  unfold clientMurder
  rw [Ctx.access_some hc, ok_bind, murderClient_eq hctl hc hd, ok_bind]
  refine Eq.trans ?_ (clientDealloc_eq (x := x.murdered c) rfl rfl rfl (h.numClients_pos hc))
  cases hs : c.socksClosed with
  | false =>
    simp [Ctx.access, Ctx.freeSocks, Ctx.setClient, Ctx.recordClosed, Ctx.murdered]
  | true =>
    have halive : x.conn.socksAlive = false := by rw [hctl.socksAlive, hs]; rfl
    have hsend := hup.not_sending (by simp [hs])
    have hrecv := hdown.not_receiving (by simp [hs])
    simp [Ctx.access, Ctx.murdered, halive, hsend, hrecv]

theorem clientMurder_inv (h : CtxInv x) (hc : x.conn.client = some c) (hd : x.dead = none) :
    ∃ x', clientMurder x = .ok x' ∧ CtxInv x' ∧ Keeps x x' := by
  obtain ⟨hctl, hup, hdown⟩ := h.live c hc
  have hpre : x.conn.written <+: x.conn.accepted := ⟨c.buf, hup.conserved⟩
  refine ⟨_, clientMurder_eq h hc hd, ctxInv_dealloc (y := x.murdered c) h hc rfl rfl rfl rfl
    hctl.allocated.1 ?_⟩
  refine ⟨rfl, rfl, rfl, rfl, rfl, rfl, rfl, ?_, ?_, hpre, hdown.queued_prefix, fun _ _ hm => ?_,
    ?_, ?_⟩
  · intro v hv
    exact absurd (hd.symm.trans hv) (by simp)
  · show x.conn.frees + 1 = if x.conn.allocated then 1 else 0
    rw [hctl.allocated.1, hctl.allocated.2.1]
    rfl
  · exact absurd hm (by simp [Ctx.murdered])
  · intro hfirst hend
    cases hclosed : c.clientClosed with
    | false => exact absurd hend (by simp [Ctx.murdered, hclosed])
    | true =>
      have hf := hctl.first
      rw [hclosed] at hf
      exact absurd hfirst (by simp [Ctx.murdered, hf])
  · intro _
    cases hclosed : c.clientClosed with
    | false => exact ⟨.murdered, by simp [Ctx.murdered, hclosed], .inr rfl⟩
    | true =>
      obtain ⟨r, hr, -⟩ := hctl.pcbEnd hclosed
      exact ⟨r, by simp [Ctx.murdered, hclosed, hr], .inr rfl⟩

end Relay
