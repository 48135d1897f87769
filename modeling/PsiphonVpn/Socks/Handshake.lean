import PsiphonVpn.Socks.Grammar

/-!
# handshake の正しさ

client がどこまで読み、何を送ったかを、状態ごとに書く。返事がどう区切られて届いても、message を一つ受け取り終えるまで
`consumed` が伸びるだけで、判断は message の中身だけによる。

* `handshake_exact` — 接続が保たれ memory が足りるなら、client は有限回で必ず UP か ERROR を知らせ、UP を知らせるのは
  server の返事が文法どおりの列で始まる時、かつその時に限る
-/

namespace Socks

open Infra Net

variable {cfg : Config} {stream : List UInt8} {o : BSocksClient}

/-! ## 部品の仕様 -/

@[simp] theorem setBuffer_setBuffer (o : BSocksClient) (b b' : List UInt8) :
    (o.setBuffer b).setBuffer b' = o.setBuffer b' := rfl

variable {b : List UInt8} {r : Realloc}

theorem access_some (hb : o.buffer = some b) : o.access = .ok b := by
  unfold BSocksClient.access
  rw [hb]

theorem write_eq {data : List UInt8} {i : Nat} (hb : o.buffer = some b)
    (h : i + data.length ≤ b.length) :
    o.write i data = .ok (o.setBuffer (writeAt b i data)) := by
  unfold BSocksClient.write
  rw [access_some hb, ok_bind, check_bind h]
  rfl

variable {size dest total n : Nat} {got : List UInt8} {state : State} {ver : UInt8}

theorem send_eq (hb : o.buffer = some b) (hs : o.sending = false) (hsize : b.length = size) :
    o.send size = .ok { o with sending := true, sent := o.sent ++ [(o.consumed, b)] } := by
  unfold BSocksClient.send
  rw [access_some hb, ok_bind, check_bind hs, check_bind (le_of_eq hsize.symm), ← hsize,
    List.take_length]
  rfl

theorem reserveBuffer_eq (hr : r.ok = true) (size : Nat) :
    reserveBuffer o size r = some (o.setBuffer (resize (o.buffer.getD []) size r.fresh 0)) := by
  unfold reserveBuffer
  rw [if_pos hr]

theorem sendHello_eq (hb : o.buffer = some b) (hlen : b.length = 2 + cfg.authInfo.length)
    (hs : o.sending = false) :
    sendHello o cfg = .ok { o with
      buffer := some (hello cfg), sending := true, sent := o.sent ++ [(o.consumed, hello cfg)]
      state := .sendingHello } := by
  have hfirst : writeAt (writeAt b 0 [socksVersion, UInt8.ofNat cfg.authInfo.length]) 2
      (cfg.authInfo.map AuthInfo.authType) = hello cfg :=
    writeAt_append (by rw [List.length_map, hlen]; rfl)
  unfold sendHello
  rw [write_eq hb (by rw [hlen]; simp), ok_bind, write_eq rfl, ok_bind, hfirst,
    setBuffer_setBuffer]
  · rw [send_eq (o := o.setBuffer (hello cfg)) rfl hs (by simp [hello]; omega)]
    rfl
  · rw [length_writeAt (by rw [hlen]; simp), List.length_map, hlen]

/-- 認証が済み、CONNECT の要求を送り始める。 -/
theorem authFinished_eq (hr : r.ok = true) (hs : o.sending = false) :
    authFinished o cfg r = .ok { o with
      buffer := some (request cfg), sending := true, sent := o.sent ++ [(o.consumed, request cfg)]
      state := .sendingRequest } := by
  have hlen := BAddr.length_bytes cfg.destAddr
  have hwrite : writeAt (writeAt (resize (o.buffer.getD []) (4 + cfg.destAddr.size) r.fresh 0) 4
      cfg.destAddr.bytes) 0 [socksVersion, 1, 0, atypOf cfg.destAddr] = request cfg :=
    writeAt_append_rev (by rw [length_resize, hlen]; rfl)
  unfold authFinished
  rw [reserveBuffer_eq hr]
  show sendRequest _ cfg = _
  unfold sendRequest
  rw [write_eq rfl (by rw [length_resize, hlen]), ok_bind, write_eq rfl, ok_bind, hwrite,
    setBuffer_setBuffer, setBuffer_setBuffer]
  · rw [send_eq (o := o.setBuffer (request cfg)) rfl hs (by simp [request, hlen]; omega)]
    rfl
  · rw [length_writeAt (by rw [length_resize, hlen]), length_resize]
    simp

theorem sendPassword_eq {user pass : List UInt8} (hb : o.buffer = some b)
    (hlen : b.length = 1 + 1 + user.length + 1 + pass.length) (hs : o.sending = false) :
    sendPassword o user pass = .ok { o with
      buffer := some (passwordMessage user pass), sending := true
      sent := o.sent ++ [(o.consumed, passwordMessage user pass)], state := .sendingPassword } := by
  have hmsg : (passwordMessage user pass).length = b.length := by
    simp only [passwordMessage, List.length_append, List.length_cons, List.length_nil]
    omega
  have hwrite : writeAt b 0 (passwordMessage user pass) = passwordMessage user pass :=
    writeAt_zero hmsg
  unfold sendPassword
  show (o.write 0 (passwordMessage user pass) >>= _) = _
  rw [write_eq hb (by omega), ok_bind, hwrite,
    send_eq (o := o.setBuffer (passwordMessage user pass)) rfl hs (by omega)]
  rfl

theorem doReceive_eq (hmore : o.recvLen < o.recvTotal) (hrecv : o.receiving = false) :
    doReceive o = .ok { o with receiving := true } := by
  unfold doReceive
  rw [check_bind hmore, check_bind hrecv]
  rfl

theorem startReceive_eq (hb : o.buffer = some b) (htotal : 0 < total)
    (hroom : dest + total ≤ b.length) (hrecv : o.receiving = false) :
    startReceive o dest total = .ok { o with
      recvDest := dest, recvLen := 0, recvTotal := total, receiving := true } := by
  unfold startReceive
  rw [check_bind htotal, access_some hb, ok_bind, check_bind hroom]
  exact doReceive_eq (o := { o with recvDest := dest, recvLen := 0, recvTotal := total }) htotal
    hrecv

theorem awaitReply_eq {next : State} (hr : r.ok = true) (htotal : 0 < total)
    (hroom : total ≤ size) (hrecv : o.receiving = false) :
    awaitReply o size total next r = .ok { o with
      buffer := some (resize (o.buffer.getD []) size r.fresh 0)
      recvDest := 0, recvLen := 0, recvTotal := total, receiving := true, state := next } := by
  unfold awaitReply
  rw [reserveBuffer_eq hr]
  show (startReceive (o.setBuffer _) 0 total >>= _) = _
  rw [startReceive_eq (o := o.setBuffer _) rfl htotal (by rw [length_resize]; omega) hrecv]
  rfl

/-! ## 不変量 -/

/-- 返事を受け取っている途中。`got` は今の message のうち届いた分。 -/
structure Awaiting (o : BSocksClient) (size dest total : Nat) (got : List UInt8) : Prop where
  receiving : o.receiving = true
  sending : o.sending = false
  recvDest : o.recvDest = dest
  recvTotal : o.recvTotal = total
  more : o.recvLen < total
  buffer : ∃ b, o.buffer = some b ∧ b.length = size ∧ Filling b dest o.recvLen total got

/-- 終わっていない送受信。 -/
def Posture (o : BSocksClient) (got : List UInt8) : State → Prop
  | .connecting | .up => o.sending = false ∧ o.receiving = false ∧ got = []
  | .sendingHello | .sendingPassword | .sendingRequest =>
    o.sending = true ∧ o.receiving = false ∧ o.buffer.isSome = true ∧ got = []
  | .sentHello | .sentPassword => Awaiting o 2 0 2 got
  | .sentRequest => Awaiting o 22 0 4 got
  | .receivedReplyHeader => Awaiting o 22 4 o.recvTotal got

/-- これまでに読んだ byte と、送った message。 -/
def Trail (cfg : Config) (o : BSocksClient) (got : List UInt8) : State → Prop
  | .connecting => o.consumed = [] ∧ o.sent = []
  | .sendingHello | .sentHello => o.consumed = got ∧ o.sent = [([], hello cfg)]
  | .sendingPassword | .sentPassword =>
    ∃ user pass, cfg.authInfo.find? (·.authType = 2) = some (.password user pass) ∧
      (AuthInfo.password user pass).answer = some [1, 0] ∧
      o.consumed = [socksVersion, 2] ++ got ∧
      o.sent = [([], hello cfg), ([socksVersion, 2], passwordMessage user pass)]
  | .sendingRequest | .sentRequest =>
    ∃ a auth, Authenticates cfg a auth ∧ o.consumed = auth ++ got ∧ o.sent = messages cfg a
  | .receivedReplyHeader =>
    ∃ a auth rsv atyp, Authenticates cfg a auth ∧ addrLen atyp = some o.recvTotal ∧
      o.consumed = auth ++ [socksVersion, 0, rsv, atyp] ++ got ∧ o.sent = messages cfg a
  | .up => ∃ a, Handshake cfg a o.consumed ∧ o.sent = messages cfg a

/-- client がまだ何も知らせていない。 -/
structure Running (cfg : Config) (stream : List UInt8) (o : BSocksClient) (got : List UInt8) :
    Prop where
  freed : o.freed = false
  reported : o.reported = []
  notUp : o.state ≠ .up
  stream : o.consumed ++ o.unread = stream
  posture : Posture o got o.state
  trail : Trail cfg o got o.state

/-- UP を知らせた。その後は、閉じたことを知らせて解放されるだけである。 -/
structure Up (cfg : Config) (stream : List UInt8) (o : BSocksClient) : Prop where
  state : o.state = .up
  idle : o.sending = false ∧ o.receiving = false
  reported : o.reported = [.up] ∧ o.freed = false ∨ o.reported = [.up, .errorClosed] ∧
    o.freed = true
  stream : o.consumed ++ o.unread = stream
  trail : ∃ a, Handshake cfg a o.consumed ∧ o.sent = messages cfg a

/-- ERROR を知らせて解放された。 -/
structure Failed (cfg : Config) (stream : List UInt8) (o : BSocksClient) : Prop where
  freed : o.freed = true
  reported : o.reported = [.error]
  sent : ∃ a, o.sent <+: messages cfg a
  rejected : ¬ Starts cfg stream

def Inv (cfg : Config) (stream : List UInt8) (o : BSocksClient) : Prop :=
  (∃ got, Running cfg stream o got) ∨ Up cfg stream o ∨ Failed cfg stream o

/-- 状態の進み具合。 -/
def State.rank : State → Nat
  | .connecting => 9
  | .sendingHello => 8
  | .sentHello => 7
  | .sendingPassword => 6
  | .sentPassword => 5
  | .sendingRequest => 4
  | .sentRequest => 3
  | .receivedReplyHeader => 2
  | .up => 1

/-- 残りの仕事。 -/
def BSocksClient.measure (o : BSocksClient) : Nat :=
  if o.freed then 0 else o.unread.length + o.state.rank

theorem measure_of_running (h : Running cfg stream o got) :
    o.measure = o.unread.length + o.state.rank := by
  unfold BSocksClient.measure
  rw [h.freed]
  rfl

theorem Trail.sent_le (h : Trail cfg o got state) : ∃ a, o.sent <+: messages cfg a := by
  cases state with
  | connecting => exact ⟨.none, by rw [h.2]; exact List.nil_prefix⟩
  | sendingHello | sentHello =>
    refine ⟨.none, ?_⟩
    rw [h.2]
    exact ⟨[([socksVersion, 0], request cfg)], rfl⟩
  | sendingPassword | sentPassword =>
    obtain ⟨user, pass, -, -, -, hsent⟩ := h
    refine ⟨.password user pass, ?_⟩
    rw [hsent]
    exact ⟨[([socksVersion, 2, 1, 0], request cfg)], rfl⟩
  | sendingRequest | sentRequest =>
    obtain ⟨a, -, -, -, hsent⟩ := h
    exact ⟨a, hsent ▸ List.prefix_rfl⟩
  | receivedReplyHeader =>
    obtain ⟨a, -, -, -, -, -, -, hsent⟩ := h
    exact ⟨a, hsent ▸ List.prefix_rfl⟩
  | up =>
    obtain ⟨a, -, hsent⟩ := h
    exact ⟨a, hsent ▸ List.prefix_rfl⟩

/-- 文法に合わない返事を見て、ERROR を知らせる。 -/
theorem inv_reportError (hrep : o.reported = []) (htrail : Trail cfg o got o.state)
    (hrej : ¬ Starts cfg stream) :
    Inv cfg stream (reportError o) ∧ (reportError o).measure ≤ n := by
  refine ⟨Or.inr (Or.inr ⟨rfl, ?_, htrail.sent_le, hrej⟩), ?_⟩
  · show o.reported ++ [.error] = [.error]
    rw [hrep]
    rfl
  · exact Nat.zero_le n

/-! ## 返事を受け取り終えた時 -/

/-- message `msg` が `b[dest ..]` に届ききった。 -/
structure Complete (cfg : Config) (stream : List UInt8) (o : BSocksClient) (b msg : List UInt8)
    (dest : Nat) : Prop where
  freed : o.freed = false
  reported : o.reported = []
  idle : o.sending = false ∧ o.receiving = false
  stream : o.consumed ++ o.unread = stream
  buffer : o.buffer = some b
  content : (b.drop dest).take msg.length = msg
  trail : Trail cfg o msg o.state

theorem inv_authFinished {a : AuthInfo} (hr : r.ok = true) (hfreed : o.freed = false)
    (hrep : o.reported = []) (hidle : o.sending = false ∧ o.receiving = false)
    (hstream : o.consumed ++ o.unread = stream) (hauth : Authenticates cfg a o.consumed)
    (hsent : o.sent ++ [(o.consumed, request cfg)] = messages cfg a) :
    ∃ o', authFinished o cfg r = .ok o' ∧ Inv cfg stream o' ∧ o'.measure ≤ o.unread.length + 4 := by
  refine ⟨_, authFinished_eq hr hidle.1, Or.inl ⟨[], hfreed, hrep, by simp, hstream, ?_, ?_⟩, ?_⟩
  · exact ⟨rfl, hidle.2, rfl, rfl⟩
  · exact ⟨a, o.consumed, hauth, (List.append_nil _).symm, hsent⟩
  · simp [BSocksClient.measure, hfreed, State.rank]

variable {b : List UInt8} {r : Realloc}

theorem inv_receivedHello {method : UInt8} (h : Complete cfg stream o b [ver, method] 0)
    (hstate : o.state = .sentHello) (hr : r.ok = true) :
    ∃ o', receivedHello o cfg r ver method = .ok o' ∧ Inv cfg stream o' ∧
      o'.measure ≤ o.unread.length + 7 := by
  have htrail := h.trail
  rw [hstate] at htrail
  obtain ⟨hconsumed, hsent⟩ : o.consumed = [ver, method] ∧ o.sent = [([], hello cfg)] := htrail
  have hstream : stream = ver :: method :: o.unread := by rw [← h.stream, hconsumed]; rfl
  unfold receivedHello
  by_cases hver : ver = socksVersion
  · rw [if_neg (not_not.mpr hver)]
    cases hfind : cfg.authInfo.find? (·.authType = method) with
    | none =>
      refine ⟨_, rfl, inv_reportError h.reported h.trail ?_⟩
      rw [hstream, starts_hello]
      rintro ⟨-, a, -, hfind', -⟩
      exact absurd (hfind.symm.trans hfind') (by simp)
    | some a =>
      have htype : a.authType = method := by simpa using List.find?_some hfind
      subst htype hver
      cases a with
      | none =>
        obtain ⟨o', ho', hinv, hle⟩ := inv_authFinished (a := .none) hr h.freed h.reported
          h.idle h.stream ⟨hfind, [], rfl, hconsumed⟩ (by rw [hconsumed, hsent]; rfl)
        exact ⟨o', ho', hinv, by omega⟩
      | password user pass =>
        dsimp only
        split
        next hbad =>
          refine ⟨_, rfl, inv_reportError h.reported h.trail ?_⟩
          rw [hstream, starts_hello]
          rintro ⟨-, a, ans, hfind', hans, -⟩
          obtain rfl := Option.some.inj (hfind.symm.trans hfind')
          exact absurd ((if_pos hbad).symm.trans hans) (by simp)
        next hgood =>
          rw [reserveBuffer_eq hr]
          refine ⟨_, sendPassword_eq (o := o.setBuffer _) rfl (by simp) h.idle.1,
            Or.inl ⟨[], h.freed, h.reported, by simp, h.stream, ?_, user, pass, hfind, if_neg hgood,
            ?_, ?_⟩, ?_⟩
          · exact ⟨rfl, h.idle.2, rfl, rfl⟩
          · exact hconsumed
          · show o.sent ++ [(o.consumed, _)] = _
            rw [hsent, hconsumed]
            rfl
          · simp [BSocksClient.measure, BSocksClient.setBuffer, h.freed, State.rank]
  · rw [if_pos hver]
    refine ⟨_, rfl, inv_reportError h.reported h.trail ?_⟩
    rw [hstream, starts_hello]
    exact fun hs => hver hs.1

theorem inv_receivedPasswordReply {status : UInt8} (h : Complete cfg stream o b [ver, status] 0)
    (hstate : o.state = .sentPassword) (hr : r.ok = true) :
    ∃ o', receivedPasswordReply o cfg r ver status = .ok o' ∧ Inv cfg stream o' ∧
      o'.measure ≤ o.unread.length + 5 := by
  have htrail := h.trail
  rw [hstate] at htrail
  obtain ⟨user, pass, hfind, hans, hconsumed, hsent⟩ := htrail
  have hiff : Starts cfg stream ↔ ∃ reply, Reply reply ∧
      [1, 0] ++ reply <+: ver :: status :: o.unread := by
    rw [← h.stream, hconsumed, List.append_assoc, starts_password hfind hans]
    rfl
  have hrej : ¬ (ver = 1 ∧ status = 0) → ¬ Starts cfg stream := by
    rw [hiff]
    rintro hne ⟨reply, -, hpre⟩
    simp only [List.cons_append, List.nil_append, List.cons_prefix_cons] at hpre
    exact hne ⟨hpre.1.symm, hpre.2.1.symm⟩
  unfold receivedPasswordReply
  by_cases hver : ver = 1
  · by_cases hstatus : status = 0
    · subst hver hstatus
      rw [if_neg (by simp), if_neg (by simp)]
      obtain ⟨o', ho', hinv, hle⟩ := inv_authFinished (a := .password user pass) hr h.freed
        h.reported h.idle h.stream ⟨hfind, [1, 0], hans, hconsumed⟩ (by rw [hconsumed, hsent]; rfl)
      exact ⟨o', ho', hinv, by omega⟩
    · rw [if_neg (not_not.mpr hver), if_pos hstatus]
      exact ⟨_, rfl, inv_reportError h.reported h.trail (hrej fun hs => hstatus hs.2)⟩
  · rw [if_pos hver]
    exact ⟨_, rfl, inv_reportError h.reported h.trail (hrej fun hs => hver hs.1)⟩

/-- address と port は、返事の先頭とともに buffer に収まる。 -/
theorem addrLen_bounds {atyp : UInt8} (h : addrLen atyp = some n) : 0 < n ∧ 4 + n ≤ 22 := by
  unfold addrLen at h
  split at h
  · obtain rfl := Option.some.inj h
    omega
  · split at h
    · obtain rfl := Option.some.inj h
      omega
    · cases h

theorem inv_receivedReplyHeader {rep rsv atyp : UInt8}
    (h : Complete cfg stream o b [ver, rep, rsv, atyp] 0) (hstate : o.state = .sentRequest)
    (hsize : b.length = 22) :
    ∃ o', receivedReplyHeader o ver rep atyp = .ok o' ∧ Inv cfg stream o' ∧
      o'.measure ≤ o.unread.length + 3 := by
  have htrail := h.trail
  rw [hstate] at htrail
  obtain ⟨a, auth, hauth, hconsumed, hsent⟩ := htrail
  have hiff : Starts cfg stream ↔ ver = socksVersion ∧ rep = 0 ∧
      ∃ n, addrLen atyp = some n ∧ n ≤ o.unread.length := by
    rw [← h.stream, hconsumed, List.append_assoc, starts_authenticated hauth]
    exact reply_header
  unfold receivedReplyHeader
  by_cases hver : ver = socksVersion
  · by_cases hrep : rep = 0
    · subst hver hrep
      rw [if_neg (by simp), if_neg (by simp)]
      cases hatyp : addrLen atyp with
      | none =>
        refine ⟨_, rfl, inv_reportError h.reported h.trail ?_⟩
        rw [hiff, hatyp]
        simp
      | some n =>
        obtain ⟨hpos, hle⟩ := addrLen_bounds hatyp
        dsimp only
        rw [startReceive_eq h.buffer hpos (by omega) h.idle.2]
        refine ⟨_, rfl, Or.inl ⟨[], h.freed, h.reported, by simp, h.stream, ?_, ?_⟩, ?_⟩
        · exact ⟨rfl, h.idle.1, rfl, rfl, hpos, b, h.buffer, hsize,
            .start (by show 4 + n ≤ _; omega)⟩
        · exact ⟨a, auth, rsv, atyp, hauth, hatyp, by rw [List.append_nil]; exact hconsumed, hsent⟩
        · simp [BSocksClient.measure, h.freed, State.rank]
    · rw [if_neg (not_not.mpr hver), if_pos hrep]
      refine ⟨_, rfl, inv_reportError h.reported h.trail ?_⟩
      rw [hiff]
      exact fun hs => hrep hs.2.1
  · rw [if_pos hver]
    refine ⟨_, rfl, inv_reportError h.reported h.trail ?_⟩
    rw [hiff]
    exact fun hs => hver hs.1

theorem inv_receivedReply {msg : List UInt8} (h : Complete cfg stream o b msg 4)
    (hstate : o.state = .receivedReplyHeader) (hlen : msg.length = o.recvTotal) :
    Inv cfg stream (receivedReply o) ∧ (receivedReply o).measure ≤ o.unread.length + 2 := by
  have htrail := h.trail
  rw [hstate] at htrail
  obtain ⟨a, auth, rsv, atyp, hauth, hatyp, hconsumed, hsent⟩ := htrail
  refine ⟨Or.inr (Or.inl ⟨rfl, h.idle, Or.inl ⟨?_, h.freed⟩, h.stream, a, ?_, hsent⟩), ?_⟩
  · show o.reported ++ [.up] = [.up]
    rw [h.reported]
    rfl
  · refine ⟨auth, [socksVersion, 0, rsv, atyp] ++ msg, hauth, ⟨rsv, atyp, msg, ?_, rfl⟩, ?_⟩
    · rw [hatyp, hlen]
    · rw [← List.append_assoc]
      exact hconsumed
  · simp [BSocksClient.measure, receivedReply, h.freed, State.rank]

/-! ## 一歩 -/

/-- 読んだ byte が今の message の続きに加わる。 -/
theorem Trail.extend {o' : BSocksClient} {data : List UInt8} (h : Trail cfg o got state)
    (hstate : state ≠ .connecting ∧ state ≠ .up) (hconsumed : o'.consumed = o.consumed ++ data)
    (hsent : o'.sent = o.sent) (htotal : o'.recvTotal = o.recvTotal) :
    Trail cfg o' (got ++ data) state := by
  cases state with
  | connecting => exact absurd rfl hstate.1
  | up => exact absurd rfl hstate.2
  | sendingHello | sentHello =>
    obtain ⟨h1, h2⟩ := h
    exact ⟨by rw [hconsumed, h1], hsent.trans h2⟩
  | sendingPassword | sentPassword =>
    obtain ⟨user, pass, h1, h2, h3, h4⟩ := h
    exact ⟨user, pass, h1, h2, by rw [hconsumed, h3, List.append_assoc], hsent.trans h4⟩
  | sendingRequest | sentRequest =>
    obtain ⟨a, auth, h1, h2, h3⟩ := h
    exact ⟨a, auth, h1, by rw [hconsumed, h2, List.append_assoc], hsent.trans h3⟩
  | receivedReplyHeader =>
    obtain ⟨a, auth, rsv, atyp, h1, h2, h3, h4⟩ := h
    exact ⟨a, auth, rsv, atyp, h1, by rw [htotal]; exact h2,
      by rw [hconsumed, h3, List.append_assoc], hsent.trans h4⟩

/-- `n` byte が buffer `b` に書き込まれた後。 -/
def BSocksClient.arrived (o : BSocksClient) (b : List UInt8) (n : Nat) : BSocksClient :=
  { o with
    buffer := some b, receiving := false, unread := o.unread.drop n
    consumed := o.consumed ++ o.unread.take n }

theorem arrive_eq (h : Awaiting o size dest total got) (hn : n ≤ total - o.recvLen)
    (hunread : n ≤ o.unread.length) :
    ∃ b, arrive o n = .ok (o.arrived b n) ∧ b.length = size ∧
      Filling b dest (o.recvLen + n) total (got ++ o.unread.take n) := by
  obtain ⟨b, hb, hsize, hfill⟩ := h.buffer
  have hlen : (o.unread.take n).length = n := by rw [List.length_take]; omega
  have hroom := hfill.room
  have hmore := h.more
  have hwrite := @Filling.write _ b (o.unread.take n) dest o.recvLen total got hfill (by omega)
  rw [hlen] at hwrite
  refine ⟨writeAt b (dest + o.recvLen) (o.unread.take n), ?_, ?_, hwrite⟩
  · unfold arrive
    rw [h.recvDest, write_eq hb (by omega)]
    rfl
  · rw [length_writeAt (by omega), hsize]

theorem awaiting_arrived (h : Awaiting o size dest total got) (hsize : b.length = size)
    (hfill : Filling b dest (o.recvLen + n) total (got ++ o.unread.take n))
    (hmore : o.recvLen + n < total) :
    Awaiting { o.arrived b n with recvLen := o.recvLen + n, receiving := true } size dest total
      (got ++ o.unread.take n) :=
  ⟨rfl, h.sending, h.recvDest, h.recvTotal, hmore, b, rfl, hsize, hfill⟩

/-- message の途中なら続きを待ち、終わりまで届いたなら `received` に進む。 -/
theorem recvDone_eq (ha : Awaiting o size dest o.recvTotal got) (hn : n ≤ o.recvTotal - o.recvLen)
    (hunread : n ≤ o.unread.length) :
    ∃ b, b.length = size ∧ Filling b dest (o.recvLen + n) o.recvTotal (got ++ o.unread.take n) ∧
      ((arrive o n >>= fun x => recvHandlerDone x cfg n r) =
          .ok { o.arrived b n with recvLen := o.recvLen + n, receiving := true } ∧
          o.recvLen + n < o.recvTotal ∨
        (arrive o n >>= fun x => recvHandlerDone x cfg n r) =
          received { o.arrived b n with recvLen := o.recvLen + n } cfg r b ∧
            o.recvLen + n = o.recvTotal) := by
  obtain ⟨b, harr, hsize, hfill⟩ := arrive_eq ha hn hunread
  refine ⟨b, hsize, hfill, ?_⟩
  rw [harr, ok_bind]
  unfold recvHandlerDone
  rw [check_bind (show n ≤ (o.arrived b n).recvTotal - (o.arrived b n).recvLen from hn)]
  dsimp only
  by_cases hmore : o.recvLen + n < o.recvTotal
  · refine Or.inl ⟨(if_pos hmore).trans ?_, hmore⟩
    exact doReceive_eq (o := { o.arrived b n with recvLen := o.recvLen + n }) hmore rfl
  · refine Or.inr ⟨if_neg hmore, ?_⟩
    have := ha.more
    omega

/-- message を受け取り終えた時の仕様を合わせると、どう区切られて届いてもよい。 -/
theorem inv_recvDone (h : Running cfg stream o got) (ha : Awaiting o size dest o.recvTotal got)
    (hpos : 0 < n) (hn : n ≤ o.recvTotal - o.recvLen) (hunread : n ≤ o.unread.length)
    (hstate : o.state ≠ .connecting)
    (hposture : ∀ o' got', o'.recvTotal = o.recvTotal → Awaiting o' size dest o.recvTotal got' →
      Posture o' got' o.state)
    (hdone : ∀ o' b msg, Complete cfg stream o' b msg dest → o'.state = o.state → b.length = size →
      msg.length = o.recvTotal → o'.recvTotal = o.recvTotal →
      ∃ o'', received o' cfg r b = .ok o'' ∧ Inv cfg stream o'' ∧
        o''.measure ≤ o'.unread.length + o.state.rank) :
    ∃ o', (arrive o n >>= fun x => recvHandlerDone x cfg n r) = .ok o' ∧ Inv cfg stream o' ∧
      o'.measure < o.measure := by
  obtain ⟨b, hsize, hfill, hcase⟩ := @recvDone_eq cfg o size dest n got r ha hn hunread
  have hmeasure := measure_of_running h
  have hstream : o.consumed ++ o.unread.take n ++ o.unread.drop n = stream := by
    rw [List.append_assoc, List.take_append_drop, h.stream]
  have hdrop : (o.unread.drop n).length = o.unread.length - n := List.length_drop
  rcases hcase with ⟨heq, hmore⟩ | ⟨heq, hall⟩
  · -- 続きを待つ
    refine ⟨_, heq, Or.inl ⟨_, h.freed, h.reported, h.notUp, hstream,
      hposture _ _ rfl (awaiting_arrived ha hsize hfill hmore), ?_⟩, ?_⟩
    · exact h.trail.extend ⟨hstate, h.notUp⟩ rfl rfl rfl
    · show (if o.freed then 0 else (o.unread.drop n).length + o.state.rank) < o.measure
      rw [h.freed, hmeasure, hdrop]
      show o.unread.length - n + o.state.rank < _
      omega
  · have hcomplete : Complete cfg stream { o.arrived b n with recvLen := o.recvLen + n } b
        (got ++ o.unread.take n) dest :=
      ⟨h.freed, h.reported, ⟨ha.sending, rfl⟩, hstream, rfl,
        by rw [hfill.length]; exact hfill.content, h.trail.extend ⟨hstate, h.notUp⟩ rfl rfl rfl⟩
    obtain ⟨o', ho', hinv, hle⟩ := hdone _ b _ hcomplete rfl hsize (hfill.length.trans hall) rfl
    refine ⟨o', heq.trans ho', hinv, ?_⟩
    rw [hmeasure]
    have hle' : o'.measure ≤ (o.unread.drop n).length + o.state.rank := hle
    omega

/-- 長さの決まった返事を、buffer の先頭に受け取る。 -/
theorem inv_recvDone_header (h : Running cfg stream o got) (ha : Awaiting o size 0 total got)
    (hpos : 0 < n) (hn : n ≤ o.recvTotal - o.recvLen) (hunread : n ≤ o.unread.length)
    (hstate : o.state ≠ .connecting)
    (hposture : ∀ o' got', Awaiting o' size 0 total got' → Posture o' got' o.state)
    (hdone : ∀ o' b msg, Complete cfg stream o' b msg 0 → o'.state = o.state → b.length = size →
      msg.length = total → b.take total = msg →
      ∃ o'', received o' cfg r b = .ok o'' ∧ Inv cfg stream o'' ∧
        o''.measure ≤ o'.unread.length + o.state.rank) :
    ∃ o', (arrive o n >>= fun x => recvHandlerDone x cfg n r) = .ok o' ∧ Inv cfg stream o' ∧
      o'.measure < o.measure := by
  obtain rfl := ha.recvTotal
  refine inv_recvDone h ha hpos hn hunread hstate (fun o' got' _ => hposture o' got') ?_
  intro o' b msg hc hs hsize hlen _
  have htake : b.take msg.length = msg := hc.content
  rw [hlen] at htake
  exact hdone o' b msg hc hs hsize hlen htake

/-- 受信。 -/
theorem inv_step_recvDone (h : Running cfg stream o got) (hrecv : o.receiving = true)
    (hpos : 0 < n) (hn : n ≤ o.recvTotal - o.recvLen) (hunread : n ≤ o.unread.length)
    (hr : r.ok = true) :
    ∃ o', (arrive o n >>= fun x => recvHandlerDone x cfg n r) = .ok o' ∧ Inv cfg stream o' ∧
      o'.measure < o.measure := by
  have hposture := h.posture
  cases hstate : o.state with
  | connecting | up | sendingHello | sendingPassword | sendingRequest =>
    rw [hstate] at hposture
    exact absurd (hposture.2.1.symm.trans hrecv) (by simp)
  | sentHello =>
    rw [hstate] at hposture
    refine inv_recvDone_header h hposture hpos hn hunread (by simp [hstate]) ?_ ?_
    · rw [hstate]
      exact fun _ _ ha => ha
    · intro o' b msg hc hs _ hlen htake
      obtain ⟨ver, method, rfl⟩ := List.length_eq_two.mp hlen
      unfold received
      rw [hs, hstate, htake]
      exact inv_receivedHello hc (hs.trans hstate) hr
  | sentPassword =>
    rw [hstate] at hposture
    refine inv_recvDone_header h hposture hpos hn hunread (by simp [hstate]) ?_ ?_
    · rw [hstate]
      exact fun _ _ ha => ha
    · intro o' b msg hc hs _ hlen htake
      obtain ⟨ver, status, rfl⟩ := List.length_eq_two.mp hlen
      unfold received
      rw [hs, hstate, htake]
      exact inv_receivedPasswordReply hc (hs.trans hstate) hr
  | sentRequest =>
    rw [hstate] at hposture
    refine inv_recvDone_header h hposture hpos hn hunread (by simp [hstate]) ?_ ?_
    · rw [hstate]
      exact fun _ _ ha => ha
    · intro o' b msg hc hs hsize hlen htake
      obtain ⟨ver, rep, rsv, atyp, rfl⟩ := List.length_eq_four.mp hlen
      unfold received
      rw [hs, hstate, htake]
      exact inv_receivedReplyHeader hc (hs.trans hstate) hsize
  | receivedReplyHeader =>
    rw [hstate] at hposture
    refine inv_recvDone h hposture hpos hn hunread (by simp [hstate]) ?_ ?_
    · rw [hstate]
      intro o' got' htotal ha
      show Awaiting o' 22 4 o'.recvTotal got'
      rw [htotal]
      exact ha
    · intro o' b msg hc hs hsize hlen htotal
      unfold received
      rw [hs, hstate]
      exact ⟨_, rfl, inv_receivedReply hc (hs.trans hstate) (hlen.trans htotal.symm)⟩

/-- 返事の途中で server が閉じた。 -/
theorem not_starts_closed (h : Running cfg stream o got) (hrecv : o.receiving = true)
    (hend : o.unread = []) : ¬ Starts cfg stream := by
  have hposture := h.posture
  have htrail := h.trail
  have hstream := h.stream
  rw [hend, List.append_nil] at hstream
  rw [← hstream]
  have hshort : ∀ {size dest total}, Awaiting o size dest total got → got.length < total := by
    intro size dest total ha
    obtain ⟨b, -, -, hfill⟩ := ha.buffer
    rw [hfill.length]
    exact ha.more
  cases hstate : o.state with
  | connecting | up | sendingHello | sendingPassword | sendingRequest =>
    rw [hstate] at hposture
    exact absurd (hposture.2.1.symm.trans hrecv) (by simp)
  | sentHello =>
    rw [hstate] at hposture htrail
    rw [htrail.1]
    exact not_starts_short (hshort hposture)
  | sentPassword =>
    rw [hstate] at hposture htrail
    obtain ⟨user, pass, hfind, hans, hconsumed, -⟩ := htrail
    rw [hconsumed, starts_password hfind hans]
    rintro ⟨reply, hreply, hpre⟩
    have hlen := hpre.length_le
    have := hshort hposture
    rw [List.length_append, List.length_cons, List.length_singleton] at hlen
    omega
  | sentRequest =>
    rw [hstate] at hposture htrail
    obtain ⟨a, auth, hauth, hconsumed, -⟩ := htrail
    rw [hconsumed, starts_authenticated hauth]
    exact not_reply_short (hshort hposture)
  | receivedReplyHeader =>
    rw [hstate] at hposture htrail
    obtain ⟨a, auth, rsv, atyp, hauth, hatyp, hconsumed, -⟩ := htrail
    rw [hconsumed, List.append_assoc, starts_authenticated hauth]
    intro hreply
    obtain ⟨-, -, n, hn, hle⟩ := reply_header.mp hreply
    obtain rfl := Option.some.inj (hatyp.symm.trans hn)
    have hle' : o.recvTotal ≤ got.length := hle
    have := hshort hposture
    omega

/-- 接続ができ、hello を送り始める。 -/
theorem inv_connector (hcfg : 1 ≤ cfg.authInfo.length ∧ cfg.authInfo.length ≤ 255)
    (h : Running cfg stream o got) (hstate : o.state = .connecting) (hr : r.ok = true) :
    ∃ o', connectorHandler o cfg false true r = .ok o' ∧ Inv cfg stream o' ∧
      o'.measure < o.measure := by
  have hposture := h.posture
  have htrail := h.trail
  rw [hstate] at hposture htrail
  obtain ⟨hsending, hreceiving, -⟩ := hposture
  obtain ⟨hconsumed, hsent⟩ := htrail
  unfold connectorHandler
  rw [check_bind hstate, if_neg (by simp), if_neg (by omega), reserveBuffer_eq hr]
  refine ⟨_, sendHello_eq (o := o.setBuffer _) rfl (by simp) hsending,
    Or.inl ⟨[], h.freed, h.reported, by simp, h.stream, ⟨rfl, hreceiving, rfl, rfl⟩, hconsumed, ?_⟩,
    ?_⟩
  · show o.sent ++ [(o.consumed, hello cfg)] = _
    rw [hsent, hconsumed]
    rfl
  · simp [BSocksClient.measure, BSocksClient.setBuffer, h.freed, State.rank, hstate]

/-- 送り終えた時に、用意する buffer の大きさ、待つ返事の長さ、次の状態。 -/
def State.awaits : State → Option (Nat × Nat × State)
  | .sendingHello => some (2, 2, .sentHello)
  | .sendingPassword => some (2, 2, .sentPassword)
  | .sendingRequest => some (22, 4, .sentRequest)
  | _ => none

theorem sendHandlerDone_eq {next : State} (hb : o.buffer = some b)
    (h : o.state.awaits = some (size, total, next)) :
    sendHandlerDone o r = awaitReply o size total next r := by
  unfold sendHandlerDone
  rw [access_some hb, ok_bind]
  unfold State.awaits at h
  split at h
  next hs => rw [hs]; cases h; rfl
  next hs => rw [hs]; cases h; rfl
  next hs => rw [hs]; cases h; rfl
  next => exact absurd h (by simp)

/-- 送信中の状態の次の状態は、同じ byte を読み、同じ message を送っている。 -/
theorem awaits_of_sending (hp : Posture o got state) (ht : Trail cfg o got state)
    (hsending : o.sending = true) :
    ∃ size total next, state.awaits = some (size, total, next) ∧ 0 < total ∧ total ≤ size ∧
      next ≠ .up ∧ next.rank < state.rank ∧ o.receiving = false ∧ o.buffer.isSome = true ∧
      (∀ o', Awaiting o' size 0 total [] → Posture o' [] next) ∧
      ∀ o' : BSocksClient, o'.consumed = o.consumed → o'.sent = o.sent → Trail cfg o' [] next := by
  cases state with
  | connecting | up => exact absurd (hp.1.symm.trans hsending) (by simp)
  | sentHello | sentPassword | sentRequest | receivedReplyHeader =>
    exact absurd (hp.sending.symm.trans hsending) (by simp)
  | sendingHello =>
    obtain ⟨-, hreceiving, hbuf, rfl⟩ := hp
    refine ⟨2, 2, .sentHello, rfl, by omega, by omega, by simp, by decide, hreceiving, hbuf,
      fun _ ha => ha, fun o' hc hs => ?_⟩
    exact ⟨hc.trans ht.1, hs.trans ht.2⟩
  | sendingPassword =>
    obtain ⟨-, hreceiving, hbuf, rfl⟩ := hp
    refine ⟨2, 2, .sentPassword, rfl, by omega, by omega, by simp, by decide, hreceiving, hbuf,
      fun _ ha => ha, fun o' hc hs => ?_⟩
    obtain ⟨user, pass, hfind, hans, hconsumed, hsent⟩ := ht
    exact ⟨user, pass, hfind, hans, hc.trans hconsumed, hs.trans hsent⟩
  | sendingRequest =>
    obtain ⟨-, hreceiving, hbuf, rfl⟩ := hp
    refine ⟨22, 4, .sentRequest, rfl, by omega, by omega, by simp, by decide, hreceiving, hbuf,
      fun _ ha => ha, fun o' hc hs => ?_⟩
    obtain ⟨a, auth, hauth, hconsumed, hsent⟩ := ht
    exact ⟨a, auth, hauth, hc.trans hconsumed, hs.trans hsent⟩

/-- 送り終えて、返事を待つ。 -/
theorem inv_sendDone (h : Running cfg stream o got) (hsending : o.sending = true)
    (hr : r.ok = true) :
    ∃ o', sendHandlerDone { o with sending := false } r = .ok o' ∧ Inv cfg stream o' ∧
      o'.measure < o.measure := by
  obtain ⟨size, total, next, hawaits, htotal, hroom, hnext, hrank, hreceiving, hbuf, hposture,
      htrail⟩ :=
    awaits_of_sending h.posture h.trail hsending
  obtain ⟨b, hb⟩ := Option.isSome_iff_exists.mp hbuf
  rw [sendHandlerDone_eq (o := { o with sending := false }) hb hawaits,
    awaitReply_eq (o := { o with sending := false }) hr htotal hroom hreceiving]
  refine ⟨_, rfl, Or.inl ⟨[], h.freed, h.reported, hnext, h.stream, ?_, htrail _ rfl rfl⟩, ?_⟩
  · exact hposture _ ⟨rfl, rfl, rfl, rfl, htotal, _, rfl, length_resize _ _ _ _,
      .start (by rw [length_resize]; omega)⟩
  · rw [measure_of_running h]
    rw [h.freed]
    exact Nat.add_lt_add_left hrank _

/-- server が閉じた。 -/
theorem inv_recvClosed (h : Inv cfg stream o) (hfreed : o.freed = false)
    (hclosed : o.receiving = true ∧ o.unread = [] ∨ o.state = .up) :
    ∃ o', connectionHandler o true = .ok o' ∧ Inv cfg stream o' ∧ o'.measure < o.measure := by
  have hpos : 0 < o.measure := by
    unfold BSocksClient.measure
    rw [hfreed]
    cases o.state <;> simp [State.rank]
  unfold connectionHandler
  rcases h with ⟨got, h⟩ | h | h
  · rcases hclosed with ⟨hrecv, hend⟩ | hup
    · have hstate : o.state ≠ .connecting := fun hs => by
        have hposture := h.posture
        rw [hs] at hposture
        exact absurd (hposture.2.1.symm.trans hrecv) (by simp)
      rw [check_bind hstate, if_neg fun hs => h.notUp hs.1]
      refine ⟨reportError o, rfl, (inv_reportError (n := 0) h.reported h.trail
        (not_starts_closed h hrecv hend)).1, hpos⟩
    · exact absurd hup h.notUp
  · rw [check_bind (by simp [h.state]), if_pos ⟨h.state, rfl⟩]
    refine ⟨_, rfl, Or.inr (Or.inl ⟨h.state, h.idle, Or.inr ⟨?_, rfl⟩, h.stream, h.trail⟩), hpos⟩
    rcases h.reported with ⟨hrep, -⟩ | ⟨-, hf⟩
    · rw [hrep]
      rfl
    · exact absurd (hfreed.symm.trans hf) (by simp)
  · exact absurd (hfreed.symm.trans h.freed) (by simp)

/-- 送受信が残っているのは、まだ何も知らせていない時だけである。 -/
theorem running_of_busy (h : Inv cfg stream o) (hfreed : o.freed = false)
    (hbusy : o.sending = true ∨ o.receiving = true ∨ o.state = .connecting) :
    ∃ got, Running cfg stream o got := by
  rcases h with h | h | h
  · exact h
  · rcases hbusy with hb | hb | hb
    · exact absurd (h.idle.1.symm.trans hb) (by simp)
    · exact absurd (h.idle.2.symm.trans hb) (by simp)
    · exact absurd (h.state.symm.trans hb) (by simp)
  · exact absurd (hfreed.symm.trans h.freed) (by simp)

theorem inv_step (hcfg : 1 ≤ cfg.authInfo.length ∧ cfg.authInfo.length ≤ 255) {e : Event}
    {x : M BSocksClient} (h : Inv cfg stream o) (he : e.smooth = true)
    (hstep : step o cfg e = some x) :
    ∃ o', x = .ok o' ∧ Inv cfg stream o' ∧ o'.measure < o.measure := by
  cases e with
  | connector isError initialized r =>
    obtain ⟨⟨rfl, rfl⟩, hr⟩ : (isError = false ∧ initialized = true) ∧ r.ok = true := by
      simpa [Event.smooth] using he
    obtain ⟨⟨hfreed, hstate⟩, rfl⟩ := of_ite_eq_some hstep
    obtain ⟨got, hrun⟩ := running_of_busy h hfreed (.inr (.inr hstate))
    exact inv_connector hcfg hrun hstate hr
  | sendDone r =>
    obtain ⟨⟨hfreed, hsending⟩, rfl⟩ := of_ite_eq_some hstep
    obtain ⟨got, hrun⟩ := running_of_busy h hfreed (.inl hsending)
    exact inv_sendDone hrun hsending he
  | recvDone n r =>
    obtain ⟨⟨hfreed, hrecv, hpos, hn, hunread⟩, rfl⟩ := of_ite_eq_some hstep
    obtain ⟨got, hrun⟩ := running_of_busy h hfreed (.inr (.inl hrecv))
    exact inv_step_recvDone hrun hrecv hpos hn hunread he
  | recvClosed =>
    obtain ⟨⟨hfreed, hclosed⟩, rfl⟩ := of_ite_eq_some hstep
    exact inv_recvClosed h hfreed hclosed
  | connectionError => exact absurd he (by simp [Event.smooth])

theorem inv_init : Inv cfg stream (.init stream) :=
  Or.inl ⟨[], rfl, rfl, by simp [BSocksClient.init], rfl, ⟨rfl, rfl, rfl⟩, rfl, rfl⟩

/-- 何も知らせていない間は、次に起こりうる事象がある。 -/
theorem running_enabled (h : Running cfg stream o got) :
    ∃ e : Event, e.smooth = true ∧ (step o cfg e).isSome = true := by
  have hposture := h.posture
  have hawait : ∀ {size dest total}, Awaiting o size dest total got →
      ∃ e : Event, e.smooth = true ∧ (step o cfg e).isSome = true := by
    intro size dest total ha
    have hmore := ha.more
    by_cases hend : o.unread = []
    · exact ⟨.recvClosed, rfl, by simp [step, h.freed, ha.receiving, hend]⟩
    · have hlen : 0 < o.unread.length := List.length_pos_iff.mpr hend
      refine ⟨.recvDone 1 {}, rfl, ?_⟩
      simp only [step]
      rw [if_pos ⟨h.freed, ha.receiving, by omega, by rw [ha.recvTotal]; omega, by omega⟩]
      rfl
  cases hstate : o.state with
  | connecting => exact ⟨.connector false true {}, rfl, by simp [step, h.freed, hstate]⟩
  | sendingHello | sendingPassword | sendingRequest =>
    rw [hstate] at hposture
    exact ⟨.sendDone {}, rfl, by simp [step, h.freed, hposture.1]⟩
  | sentHello | sentPassword | sentRequest | receivedReplyHeader =>
    rw [hstate] at hposture
    exact hawait hposture
  | up => exact absurd hstate h.notUp

/-! ## 定理 -/

/-- UP を知らせるのは、server の返事が handshake で始まる時である。 -/
theorem up_iff_starts (h : Inv cfg stream o) (hrep : o.reported ≠ []) :
    (.up ∈ o.reported ↔ Starts cfg stream) ∧ (¬ Starts cfg stream → o.reported = [.error]) := by
  rcases h with ⟨got, h⟩ | h | h
  · exact absurd h.reported hrep
  · have hstarts : Starts cfg stream := by
      obtain ⟨a, ha, -⟩ := h.trail
      exact ⟨a, o.consumed, ha, o.unread, h.stream⟩
    refine ⟨iff_of_true ?_ hstarts, fun hn => absurd hstarts hn⟩
    rcases h.reported with ⟨hr, -⟩ | ⟨hr, -⟩ <;> simp [hr]
  · exact ⟨iff_of_false (by simp [h.reported]) h.rejected, fun _ => h.reported⟩

/--
handshake の正確さ。

1 個から 255 個の方法を申し出る client について、接続が保たれ memory が足りる限り、server の返事がどう区切られて
届いても次が成り立つ。

* 一歩も故障せず、run の長さには上限があり、何も知らせていない間は次の事象がある
* 何かを知らせた時、UP を知らせたのは、返事が handshake で始まる時、かつその時に限る。そうでなければ、
  知らせたのは ERROR 一度だけである
* UP を知らせた時、読んだ byte はちょうど handshake で、送った message もその方法のものに限る。どの message も、
  その前の返事をすべて受け取ってから送っている
* まだ UP を知らせていなくても、送った message はその途中までである
-/
theorem handshake_exact (hcfg : 1 ≤ cfg.authInfo.length ∧ cfg.authInfo.length ≤ 255)
    {es : List Event} {x : M BSocksClient} (hsmooth : ∀ e ∈ es, e.smooth = true)
    (hrun : exec (guarded fun o => step o cfg) (.ok (.init stream)) es = some x) :
    ∃ o, x = .ok o ∧ es.length ≤ stream.length + 9 ∧
      (o.reported = [] → ∃ e : Event, e.smooth = true ∧ (step o cfg e).isSome = true) ∧
      (o.reported ≠ [] → (.up ∈ o.reported ↔ Starts cfg stream) ∧
        (¬ Starts cfg stream → o.reported = [.error])) ∧
      (.up ∈ o.reported → o.consumed ++ o.unread = stream ∧
        ∃ a, Handshake cfg a o.consumed ∧ o.sent = messages cfg a) ∧
      ∃ a, o.sent <+: messages cfg a := by
  have hstep : ∀ (o : BSocksClient) (e : Event) (x : M BSocksClient), Inv cfg stream o →
      e.smooth = true → step o cfg e = some x →
      ∃ o', x = .ok o' ∧ Inv cfg stream o' ∧ o'.measure < o.measure :=
    fun o e x h he hx => inv_step hcfg h he hx
  have hm : Meets (guarded fun o => step o cfg) (OkThen fun _ e => e.smooth = true)
      (.ok (.init stream)) es := by
    refine Meets.of_mem (fun e he y => ?_) _
    cases y with
    | error f => trivial
    | ok o => exact hsmooth e he
  have hlen := exec_safe_length_le hstep inv_init hm hrun
  obtain ⟨o, rfl, hinv⟩ := exec_safe (fun o e x h he hx => by
    obtain ⟨o', ho', hinv, -⟩ := hstep o e x h he hx
    exact ⟨o', ho', hinv⟩) inv_init hm hrun
  refine ⟨o, rfl, hlen, fun hrep => ?_, up_iff_starts hinv, fun hup => ?_, ?_⟩
  · rcases hinv with ⟨got, h⟩ | h | h
    · exact running_enabled h
    · rcases h.reported with ⟨hr, -⟩ | ⟨hr, -⟩ <;> exact absurd (hr.symm.trans hrep) (by simp)
    · exact absurd (h.reported.symm.trans hrep) (by simp)
  · rcases hinv with ⟨got, h⟩ | h | h
    · exact absurd hup (by simp [h.reported])
    · exact ⟨h.stream, h.trail⟩
    · exact absurd hup (by simp [h.reported])
  · rcases hinv with ⟨got, h⟩ | h | h
    · exact h.trail.sent_le
    · obtain ⟨a, -, hsent⟩ := h.trail
      exact ⟨a, hsent ▸ List.prefix_rfl⟩
    · exact h.sent

/-- 二つの方法を申し出て、password で認証する。返事は細切れに届き、その後に 1 byte が続く。 -/
def exampleConfig : Config where
  authInfo := [.none, .password [0x75] [0x70, 0x77]]
  destAddr := .ipv4 #v[93, 184, 216, 34] #v[1, 187]

def exampleStream : List UInt8 := [5, 2, 1, 0, 5, 0, 0, 1, 127, 0, 0, 1, 4, 56, 99]

def exampleRun : List Event :=
  [.connector false true {}, .sendDone {}, .recvDone 1 {}, .recvDone 1 {}, .sendDone {},
    .recvDone 2 {}, .sendDone { fresh := [9, 9] }, .recvDone 3 {}, .recvDone 1 {}, .recvDone 5 {},
    .recvDone 1 {}]

theorem handshake_exact_password :
    ∃ o, exec (guarded fun o => step o exampleConfig) (.ok (.init exampleStream)) exampleRun =
        some (.ok o) ∧
      o.reported = [.up] ∧ o.unread = [99] ∧ Starts exampleConfig exampleStream := by
  obtain ⟨o, hrun, hrep, hunread⟩ := exec_ok_exists (fun o => step o exampleConfig)
    (.init exampleStream) exampleRun (fun o => o.reported = [.up] ∧ o.unread = [99])
    (by decide +kernel)
  obtain ⟨o', heq, -, -, hiff, -⟩ := handshake_exact (by decide) (by decide) hrun
  obtain rfl := Except.ok.inj heq
  exact ⟨o, hrun, hrep, hunread, (hiff (by simp [hrep])).1.mp (by simp [hrep])⟩

end Socks
