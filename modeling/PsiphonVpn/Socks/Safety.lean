import PsiphonVpn.Socks.Handshake

/-!
# 途中で変わる設定

`BSocksClient` は認証の設定を指す pointer しか持たないので、設定は handshake の途中で変わりうる。memory が足りないことも、接続が切れることもある。
それでも client は故障しない。利用者名を読むのは、server が利用者名と password の認証を選んだ返事を受け取り終えた時だけである。
-/

namespace Socks

open Infra Net

variable {cfg : Config} {o : BSocksClient} {r : Realloc}

/-- server の返事をまだ一つも受け取り終えていない。 -/
def Greeting (state : State) : Prop := state = .connecting ∨ state = .sendingHello ∨
    state = .sentHello

/-- 解放されたか、state の通りに送受信している。 -/
def Sound (o : BSocksClient) : Prop :=
  o.freed = true ∨ ∃ got, Posture o got o.state ∧ (Greeting o.state → o.consumed = got)

/-- server の返事 `reply` に選ばれて、利用者名と password を送った。 -/
structure SentPassword (cfg : Config) (reply : List UInt8) (o o' : BSocksClient) : Prop where
  selected : reply = [socksVersion, 2]
  message : ∃ user pass, cfg.authInfo.find? (·.authType = 2) = some (.password user pass) ∧
    o'.sent = o.sent ++ [([socksVersion, 2], passwordMessage user pass)]

theorem sound_init (stream : List UInt8) : Sound (.init stream) :=
  Or.inr ⟨[], ⟨rfl, rfl, rfl⟩, fun _ => rfl⟩

theorem sound_reportError (o : BSocksClient) : Sound (reportError o) := Or.inl rfl

theorem reserveBuffer_eq_none (hr : ¬ r.ok = true) (size : Nat) : reserveBuffer o size r = none :=
  if_neg hr

/-! ## 返事を受け取り終えた時 -/

theorem sound_authFinished (hidle : o.sending = false ∧ o.receiving = false) :
    ∃ o', authFinished o cfg r = .ok o' ∧ Sound o' ∧
      (o'.state = .sendingRequest ∨ o'.state = o.state) := by
  by_cases hr : r.ok = true
  · refine ⟨_, authFinished_eq hr hidle.1, Or.inr ⟨[], ⟨rfl, hidle.2, rfl, rfl⟩, ?_⟩, Or.inl rfl⟩
    rintro (h | h | h) <;> cases h
  · refine ⟨reportError o, ?_, sound_reportError o, Or.inr rfl⟩
    unfold authFinished
    rw [reserveBuffer_eq_none hr]

variable {ver : UInt8} {n : Nat} {got : List UInt8}

theorem sound_receivedHello {method : UInt8} (hidle : o.sending = false ∧ o.receiving = false)
    (hstate : o.state = .sentHello) (hconsumed : o.consumed = [ver, method]) :
    ∃ o', receivedHello o cfg r ver method = .ok o' ∧ Sound o' ∧
      (o'.state = .sendingPassword → SentPassword cfg o.consumed o o') := by
  have hkept : ∀ {p : Prop}, (reportError o).state = .sendingPassword → p := by
    intro p h
    rw [show (reportError o).state = o.state from rfl, hstate] at h
    cases h
  unfold receivedHello
  split
  next => exact ⟨_, rfl, sound_reportError o, hkept⟩
  next hver =>
    split
    next => exact ⟨_, rfl, sound_reportError o, hkept⟩
    next =>
      obtain ⟨o', ho', hsound, hnext⟩ := @sound_authFinished cfg o r hidle
      refine ⟨o', ho', hsound, fun h => ?_⟩
      rcases hnext with hnext | hnext
      · rw [hnext] at h
        cases h
      · rw [hnext, hstate] at h
        cases h
    next user pass hfind =>
      split
      next => exact ⟨_, rfl, sound_reportError o, hkept⟩
      next =>
        by_cases hr : r.ok = true
        · rw [reserveBuffer_eq hr]
          refine ⟨_, sendPassword_eq (o := o.setBuffer _) rfl (by simp) hidle.1,
            Or.inr ⟨[], ⟨rfl, hidle.2, rfl, rfl⟩, ?_⟩, fun _ => ?_⟩
          · rintro (h | h | h) <;> cases h
          · have hmethod : method = 2 := by
              have := List.find?_some hfind
              exact (of_decide_eq_true this).symm
            have hall : o.consumed = [socksVersion, 2] := by
              rw [hconsumed, not_not.mp hver, hmethod]
            refine ⟨hall, user, pass, by rw [← hmethod]; exact hfind, ?_⟩
            show o.sent ++ [(o.consumed, _)] = _
            rw [hall]
        · rw [reserveBuffer_eq_none hr]
          exact ⟨_, rfl, sound_reportError o, hkept⟩

theorem sound_receivedPasswordReply {status : UInt8}
    (hidle : o.sending = false ∧ o.receiving = false) :
    ∃ o', receivedPasswordReply o cfg r ver status = .ok o' ∧ Sound o' := by
  unfold receivedPasswordReply
  split
  next => exact ⟨_, rfl, sound_reportError o⟩
  next =>
    split
    next => exact ⟨_, rfl, sound_reportError o⟩
    next =>
      obtain ⟨o', ho', hsound, -⟩ := @sound_authFinished cfg o r hidle
      exact ⟨o', ho', hsound⟩

theorem sound_receivedReplyHeader {rep atyp : UInt8} {b : List UInt8}
    (hidle : o.sending = false ∧ o.receiving = false) (hb : o.buffer = some b)
    (hsize : b.length = 22) :
    ∃ o', receivedReplyHeader o ver rep atyp = .ok o' ∧ Sound o' := by
  unfold receivedReplyHeader
  split
  next => exact ⟨_, rfl, sound_reportError o⟩
  next =>
    split
    next => exact ⟨_, rfl, sound_reportError o⟩
    next =>
      split
      next => exact ⟨_, rfl, sound_reportError o⟩
      next n hn =>
        obtain ⟨hpos, hle⟩ := addrLen_bounds hn
        rw [startReceive_eq hb hpos (by omega) hidle.2]
        refine ⟨_, rfl, Or.inr ⟨[], ?_, ?_⟩⟩
        · exact ⟨rfl, hidle.1, rfl, rfl, hpos, b, hb, hsize, .start (by show 4 + n ≤ _; omega)⟩
        · rintro (h | h | h) <;> cases h

/-! ## 一歩 -/

/-- `n` byte が届いて、buffer `b` に message を受け取り終えた client。 -/
structure Delivered (o o' : BSocksClient) (b : List UInt8) (n : Nat) : Prop where
  state : o'.state = o.state
  idle : o'.sending = false ∧ o'.receiving = false
  buffer : o'.buffer = some b
  consumed : o'.consumed = o.consumed ++ o.unread.take n
  sent : o'.sent = o.sent

/-- 受け取っている途中の一歩。`hdone` は message を受け取り終えた時にすること。 -/
theorem sound_recvDone {size dest : Nat} {P : BSocksClient → Prop}
    (ha : Awaiting o size dest o.recvTotal got) (hn : n ≤ o.recvTotal - o.recvLen)
    (hunread : n ≤ o.unread.length) (hgreet : Greeting o.state → o.consumed = got)
    (hposture : ∀ o' got', o'.recvTotal = o.recvTotal → Awaiting o' size dest o.recvTotal got' →
      Posture o' got' o.state)
    (hwait : ∀ o', o'.state = o.state → P o')
    (hdone : ∀ o' b, Delivered o o' b n → b.length = size →
      (b.drop dest).take o.recvTotal = got ++ o.unread.take n →
      (got ++ o.unread.take n).length = o.recvTotal → ∃ o'', received o' cfg r b = .ok o'' ∧
        Sound o'' ∧ P o'') :
    ∃ o', (arrive o n >>= fun x => recvHandlerDone x cfg n r) = .ok o' ∧ Sound o' ∧ P o' := by
  obtain ⟨b, hsize, hfill, hcase⟩ := @recvDone_eq cfg o size dest n got r ha hn hunread
  rcases hcase with ⟨heq, hmore⟩ | ⟨heq, hall⟩
  · refine ⟨_, heq, Or.inr ⟨_, hposture _ _ rfl (awaiting_arrived ha hsize hfill hmore),
      fun hg => ?_⟩, hwait _ rfl⟩
    show o.consumed ++ o.unread.take n = _
    rw [hgreet hg]
  · have hcontent := hfill.content
    rw [hall] at hcontent
    obtain ⟨o', ho', hsound⟩ := hdone { o.arrived b n with recvLen := o.recvLen + n } b
      ⟨rfl, ⟨ha.sending, rfl⟩, rfl, rfl, rfl⟩ hsize hcontent (hfill.length.trans hall)
    exact ⟨o', heq.trans ho', hsound⟩

/-- 長さの決まった返事を、buffer の先頭に受け取る。 -/
theorem sound_recvDone_header {size total : Nat} {P : BSocksClient → Prop}
    (ha : Awaiting o size 0 total got) (hn : n ≤ o.recvTotal - o.recvLen)
    (hunread : n ≤ o.unread.length) (hgreet : Greeting o.state → o.consumed = got)
    (hposture : ∀ o' got', Awaiting o' size 0 total got' → Posture o' got' o.state)
    (hwait : ∀ o', o'.state = o.state → P o')
    (hdone : ∀ o' b msg, Delivered o o' b n → b.length = size → got ++ o.unread.take n = msg →
      msg.length = total →
      b.take total = msg → ∃ o'', received o' cfg r b = .ok o'' ∧ Sound o'' ∧ P o'') :
    ∃ o', (arrive o n >>= fun x => recvHandlerDone x cfg n r) = .ok o' ∧ Sound o' ∧ P o' := by
  obtain rfl := ha.recvTotal
  refine sound_recvDone ha hn hunread hgreet (fun o' got' _ => hposture o' got') hwait ?_
  intro o' b hd hsize hcontent hlen
  exact hdone o' b _ hd hsize rfl hlen hcontent

/-- 利用者名を読む一歩がすること。 -/
def Reads (cfg : Config) (reply : List UInt8) (o o' : BSocksClient) : Prop :=
  o.state = .sentHello → o'.state = .sendingPassword → SentPassword cfg reply o o'

theorem sound_step_recvDone (h : Posture o got o.state)
    (hgreet : Greeting o.state → o.consumed = got) (hrecv : o.receiving = true)
    (hn : n ≤ o.recvTotal - o.recvLen) (hunread : n ≤ o.unread.length) :
    ∃ o', (arrive o n >>= fun x => recvHandlerDone x cfg n r) = .ok o' ∧ Sound o' ∧
      Reads cfg (o.consumed ++ o.unread.take n) o o' := by
  have hwait : ∀ o' : BSocksClient, o'.state = o.state →
      Reads cfg (o.consumed ++ o.unread.take n) o o' := by
    intro o' heq hhello hpass
    rw [heq, hhello] at hpass
    cases hpass
  -- hello の返事のほかでは、利用者名は読まれない
  have hother : o.state ≠ .sentHello → ∀ {x : M BSocksClient}, (∃ o', x = .ok o' ∧ Sound o') →
      ∃ o', x = .ok o' ∧ Sound o' ∧ Reads cfg (o.consumed ++ o.unread.take n) o o' :=
    fun hne _ ⟨o', ho', hsound⟩ => ⟨o', ho', hsound, fun hhello => absurd hhello hne⟩
  cases hstate : o.state with
  | connecting | up | sendingHello | sendingPassword | sendingRequest =>
    rw [hstate] at h
    exact absurd (h.2.1.symm.trans hrecv) (by simp)
  | sentHello =>
    rw [hstate] at h
    refine sound_recvDone_header h hn hunread hgreet ?_ hwait ?_
    · rw [hstate]
      exact fun _ _ ha => ha
    · intro o' b msg hd _ hmsg hlen htake
      obtain ⟨ver, method, rfl⟩ := List.length_eq_two.mp hlen
      have hconsumed : o.consumed ++ o.unread.take n = [ver, method] := by
        rw [hgreet (Or.inr (Or.inr hstate)), hmsg]
      unfold received
      rw [hd.state, hstate, htake]
      obtain ⟨o'', ho'', hsound, hreads⟩ :=
        @sound_receivedHello cfg o' r ver method hd.idle (hd.state.trans hstate)
          (hd.consumed.trans hconsumed)
      refine ⟨o'', ho'', hsound, fun _ hpass => ?_⟩
      obtain ⟨hselected, hmessage⟩ := hreads hpass
      rw [hd.sent] at hmessage
      exact ⟨hd.consumed ▸ hselected, hmessage⟩
  | sentPassword =>
    rw [hstate] at h
    refine sound_recvDone_header h hn hunread hgreet ?_ hwait ?_
    · rw [hstate]
      exact fun _ _ ha => ha
    · intro o' b msg hd _ _ hlen htake
      obtain ⟨ver, status, rfl⟩ := List.length_eq_two.mp hlen
      unfold received
      rw [hd.state, hstate, htake]
      exact hother (by rw [hstate]; decide) (sound_receivedPasswordReply hd.idle)
  | sentRequest =>
    rw [hstate] at h
    refine sound_recvDone_header h hn hunread hgreet ?_ hwait ?_
    · rw [hstate]
      exact fun _ _ ha => ha
    · intro o' b msg hd hsize _ hlen htake
      obtain ⟨ver, rep, rsv, atyp, rfl⟩ := List.length_eq_four.mp hlen
      unfold received
      rw [hd.state, hstate, htake]
      exact hother (by rw [hstate]; decide) (sound_receivedReplyHeader hd.idle hd.buffer hsize)
  | receivedReplyHeader =>
    rw [hstate] at h
    refine sound_recvDone h hn hunread hgreet ?_ hwait ?_
    · rw [hstate]
      intro o' got' htotal ha
      show Awaiting o' 22 4 o'.recvTotal got'
      rw [htotal]
      exact ha
    · intro o' b hd _ _ _
      unfold received
      rw [hd.state, hstate]
      refine hother (by rw [hstate]; decide) ⟨_, rfl, Or.inr ⟨[], ⟨hd.idle.1, hd.idle.2, rfl⟩, ?_⟩⟩
      rintro (h | h | h) <;> cases h

theorem sound_connectorHandler (hcfg : 1 ≤ cfg.authInfo.length ∧ cfg.authInfo.length ≤ 255)
    (h : Posture o got o.state) (hgreet : Greeting o.state → o.consumed = got)
    (hstate : o.state = .connecting) (isError initialized : Bool) :
    ∃ o', connectorHandler o cfg isError initialized r = .ok o' ∧ Sound o' := by
  have hconsumed := hgreet (Or.inl hstate)
  rw [hstate] at h
  obtain ⟨hsending, hreceiving, rfl⟩ := h
  unfold connectorHandler
  rw [check_bind hstate]
  split
  next => exact ⟨_, rfl, sound_reportError o⟩
  next =>
    rw [if_neg (by omega)]
    by_cases hr : r.ok = true
    · rw [reserveBuffer_eq hr]
      exact ⟨_, sendHello_eq (o := o.setBuffer _) rfl (by simp) hsending,
        Or.inr ⟨[], ⟨rfl, hreceiving, rfl, rfl⟩, fun _ => hconsumed⟩⟩
    · rw [reserveBuffer_eq_none hr]
      exact ⟨_, rfl, sound_reportError o⟩

theorem sound_sendHandlerDone (h : Posture o got o.state)
    (hgreet : Greeting o.state → o.consumed = got) (hsending : o.sending = true) :
    ∃ o', sendHandlerDone { o with sending := false } r = .ok o' ∧ Sound o' := by
  -- 送り終えた後は、どの state でも、大きさと長さの違う返事を待つだけである
  have hawait : ∀ size total next, 0 < total → total ≤ size → o.receiving = false →
      o.buffer.isSome = true →
      o.state.awaits = some (size, total, next) →
        (∀ o', Awaiting o' size 0 total [] → Posture o' [] next) →
      (Greeting next → o.consumed = []) →
        ∃ o', sendHandlerDone { o with sending := false } r = .ok o' ∧ Sound o' := by
    intro size total next htotal hroom hreceiving hbuf hawaits hposture hgreet'
    obtain ⟨b, hb⟩ := Option.isSome_iff_exists.mp hbuf
    rw [sendHandlerDone_eq (o := { o with sending := false }) hb hawaits]
    by_cases hr : r.ok = true
    · rw [awaitReply_eq (o := { o with sending := false }) hr htotal hroom hreceiving]
      refine ⟨_, rfl, Or.inr ⟨[], hposture _ ?_, hgreet'⟩⟩
      exact ⟨rfl, rfl, rfl, rfl, htotal, _, rfl, length_resize _ _ _ _,
        .start (by rw [length_resize]; omega)⟩
    · unfold awaitReply
      rw [reserveBuffer_eq_none hr]
      exact ⟨_, rfl, sound_reportError _⟩
  cases hstate : o.state with
  | connecting | up =>
    rw [hstate] at h
    exact absurd (h.1.symm.trans hsending) (by simp)
  | sentHello | sentPassword | sentRequest | receivedReplyHeader =>
    rw [hstate] at h
    exact absurd (h.sending.symm.trans hsending) (by simp)
  | sendingHello =>
    have hconsumed := hgreet (Or.inr (Or.inl hstate))
    rw [hstate] at h
    obtain ⟨-, hreceiving, hbuf, rfl⟩ := h
    rw [← hstate]
    exact hawait 2 2 .sentHello (by omega) (by omega) hreceiving hbuf (by rw [hstate]; rfl)
      (fun _ ha => ha)
      fun _ => hconsumed
  | sendingPassword =>
    rw [hstate] at h
    obtain ⟨-, hreceiving, hbuf, rfl⟩ := h
    rw [← hstate]
    exact hawait 2 2 .sentPassword (by omega) (by omega) hreceiving hbuf (by rw [hstate]; rfl)
      (fun _ ha => ha)
      (by rintro (h | h | h) <;> cases h)
  | sendingRequest =>
    rw [hstate] at h
    obtain ⟨-, hreceiving, hbuf, rfl⟩ := h
    rw [← hstate]
    exact hawait 22 4 .sentRequest (by omega) (by omega) hreceiving hbuf (by rw [hstate]; rfl)
      (fun _ ha => ha)
      (by rintro (h | h | h) <;> cases h)

theorem sound_connectionHandler (hstate : o.state ≠ .connecting) (closed : Bool) :
    ∃ o', connectionHandler o closed = .ok o' ∧ Sound o' ∧ o'.state = o.state := by
  unfold connectionHandler
  rw [check_bind hstate]
  split
  next => exact ⟨_, rfl, Or.inl rfl, rfl⟩
  next => exact ⟨_, rfl, sound_reportError o, rfl⟩

theorem posture_of_sound (h : Sound o) (hfreed : o.freed = false) :
    ∃ got, Posture o got o.state ∧ (Greeting o.state → o.consumed = got) := by
  rcases h with h | h
  · exact absurd (h.symm.trans hfreed) (by simp)
  · exact h

theorem sending_of_sentHello (h : Posture o got o.state) (hstate : o.state = .sentHello) :
    o.sending = false := by
  rw [hstate] at h
  exact h.sending

/-- どの設定の下の、どの一歩でも故障しない。利用者名を読むのは、認証が選ばれた時だけである。 -/
theorem sound_step (hcfg : 1 ≤ cfg.authInfo.length ∧ cfg.authInfo.length ≤ 255) {e : Event}
    {x : M BSocksClient} (h : Sound o) (hstep : step o cfg e = some x) :
    ∃ o', x = .ok o' ∧ Sound o' ∧ (o.state = .sentHello → o'.state = .sendingPassword →
      ∃ n r, e = .recvDone n r ∧ SentPassword cfg (o.consumed ++ o.unread.take n) o o') := by
  cases e with
  | connector isError initialized r =>
    obtain ⟨⟨hfreed, hstate⟩, rfl⟩ := of_ite_eq_some hstep
    obtain ⟨got, hp, hgreet⟩ := posture_of_sound h hfreed
    obtain ⟨o', ho', hsound⟩ := sound_connectorHandler hcfg hp hgreet hstate isError initialized
    refine ⟨o', ho', hsound, fun hhello => ?_⟩
    rw [hstate] at hhello
    cases hhello
  | sendDone r =>
    obtain ⟨⟨hfreed, hsending⟩, rfl⟩ := of_ite_eq_some hstep
    obtain ⟨got, hp, hgreet⟩ := posture_of_sound h hfreed
    obtain ⟨o', ho', hsound⟩ := sound_sendHandlerDone hp hgreet hsending
    refine ⟨o', ho', hsound, fun hhello => ?_⟩
    exact absurd ((sending_of_sentHello hp hhello).symm.trans hsending) (by simp)
  | recvDone n r =>
    obtain ⟨⟨hfreed, hrecv, hpos, hn, hunread⟩, rfl⟩ := of_ite_eq_some hstep
    obtain ⟨got, hp, hgreet⟩ := posture_of_sound h hfreed
    obtain ⟨o', ho', hsound, hreads⟩ := sound_step_recvDone hp hgreet hrecv hn hunread
    exact ⟨o', ho', hsound, fun hhello hpass => ⟨n, r, rfl, hreads hhello hpass⟩⟩
  | recvClosed =>
    obtain ⟨⟨hfreed, hclosed⟩, rfl⟩ := of_ite_eq_some hstep
    obtain ⟨got, hp, hgreet⟩ := posture_of_sound h hfreed
    have hstate : o.state ≠ .connecting := by
      intro hconn
      rw [hconn] at hp hclosed
      exact hclosed.elim (fun hr => absurd (hp.2.1.symm.trans hr.1) (by simp))
        (fun hup => by cases hup)
    obtain ⟨o', ho', hsound, hkept⟩ := sound_connectionHandler hstate true
    refine ⟨o', ho', hsound, fun hhello hpass => ?_⟩
    rw [hkept, hhello] at hpass
    cases hpass
  | connectionError =>
    obtain ⟨⟨hfreed, hstate⟩, rfl⟩ := of_ite_eq_some hstep
    obtain ⟨o', ho', hsound, hkept⟩ := sound_connectionHandler hstate false
    refine ⟨o', ho', hsound, fun hhello hpass => ?_⟩
    rw [hkept, hhello] at hpass
    cases hpass

end Socks
