import PsiphonVpn.Socks.Safety

/-!
# 接続ごとの利用者名

`--append-source-to-username` が付いている時、`tun2socks.c` は接続を受け入れるたびに、その接続の利用者名
（設定された名前、`@`、相手の address）を作り、大域の `socks_auth_info[1]` に書く。`BSocksClient_Init` が覚えるのは
`socks_auth_info` への pointer だけで、名前が読まれるのは、その接続の server が利用者名と password の認証を選んだ時である。

## model

* **記憶** `strings p` は `p` から始まる文字列で、`none` は割り当てられていないことを表す。C の文字列であり、終わりの NUL は除く。
  解放した場所は、後の `malloc` がまた返しうる
* **一歩** は callback 一つである。`listener_accept_func` の中の `SYNC_COMMIT` で走る SOCKS の callback は、続く一歩とする
* **閉じ方** は `Relay` と同じである。残った byte があるかどうかは、事象が決める。どちらの側も閉じれば `client_dealloc` し、その時に名前を解放する
* SOCKS の error を知らされた持ち主は `client_free_socks` する

`accepted` は受け入れた接続に付ける番号である。`latest` は `socks_auth_info[1]` を最後に書いた接続（受け入れに失敗していれば `none`）、
`authenticated` は送った認証の message とその接続の相手で、どちらも program が持たない記録である。
-/

namespace Socks.UserName

open Infra Net

/-- `options.username` と、`options.password` または password の file の中身。 -/
structure Options where
  username : List UInt8
  password : List UInt8
  deriving DecidableEq, Repr

/-- `concat_strings(3, options.username, "@", addr_str)` -/
def Options.nameFor (opts : Options) (remote : BAddr) : List UInt8 :=
  opts.username ++ ['@'.toUInt8] ++ remote.print

/-- `struct tcp_client`。`socksUsername` は pointer で、`socks_up` と `socks_closed` は `socks` から分かる。 -/
structure TcpClient where
  localAddr : BAddr
  remoteAddr : BAddr
  socksUsername : Nat
  clientClosed : Bool
  socks : BSocksClient
  deriving DecidableEq, Repr

/-- `socks_auth_info[1].password` の利用者名。`username = none` は `options.username` を指すことを表す。 -/
structure AuthRecord where
  username : Option Nat
  usernameLen : Nat
  deriving DecidableEq, Repr

inductive Fault where
  | socks (f : Socks.Fault)
  /-- 解放された利用者名を読む。 -/
  | freedName
  deriving DecidableEq, Repr

structure World where
  strings : Nat → Option (List UInt8)
  record : AuthRecord
  clients : Nat → Option TcpClient
  accepted : Nat
  -- 記録
  latest : Option Nat
  authenticated : List (BAddr × List UInt8)

/-- 接続を受け入れる前。 -/
def World.init (opts : Options) : World where
  strings := fun _ => none
  record := ⟨none, opts.username.length⟩
  clients := fun _ => none
  accepted := 0
  latest := none
  authenticated := []

/-! ## 受け入れる -/

/--
`listener_accept_func` の呼ぶ関数の返事。`concat` は `concat_strings` の返す pointer、`stream` は server が送る byte。
-/
structure Replies where
  malloc : Bool := true
  concat : Option Nat
  initialized : Bool := true
  stream : List UInt8 := []
  deriving DecidableEq, Repr

variable (opts : Options) (w : World)

/-- 名前を作り、`socks_auth_info[1]` に書く。 -/
def World.writeRecord (remote : BAddr) (p : Nat) : World :=
  { w with
    strings := Function.update w.strings p (some (opts.nameFor remote))
    record := ⟨some p, (opts.nameFor remote).length⟩
    latest := none }

def World.addClient (c : TcpClient) : World :=
  { w with
    clients := Function.update w.clients w.accepted (some c)
    accepted := w.accepted + 1
    latest := some w.accepted }

/-- `free(client->socks_username)` -/
def World.freeName (p : Nat) : World := { w with strings := Function.update w.strings p none }

def listenerAcceptFunc (loc remote : BAddr) (a : Replies) : World :=
  if a.malloc = false then w
  else
    match a.concat with
    | none => w
    | some p =>
      let w := w.writeRecord opts remote p
      -- 失敗しても、`socks_auth_info[1]` は解放した名前を指したままである
      if a.initialized = false then w.freeName p
      else w.addClient ⟨loc, remote, p, false, .init a.stream⟩

/-! ## 閉じる -/

/-- callback の後の client。`none` は `client_dealloc` したことを表す。 -/
def World.put (i : Nat) (c : TcpClient) : Option TcpClient → World
  | some c' => { w with clients := Function.update w.clients i (some c') }
  | none => { w.freeName c.socksUsername with clients := Function.update w.clients i none }

/-- `buffered` は `buf_used > 0`。 -/
def clientHandleFreedClient (c : TcpClient) (buffered : Bool) : Option TcpClient :=
  if buffered = true ∧ c.socks.freed = false then some { c with clientClosed := true }
  -- client_free_socks があればそれを経て、client_dealloc
  else none

/-- `pending` は、client に送っていない byte があること。 -/
def clientFreeSocks (c : TcpClient) (pending : Bool) : Option TcpClient :=
  if c.socks.state = .up ∧ pending = true ∧ c.clientClosed = false then
    some { c with socks := { c.socks with freed := true } }
  -- client_free_client があればそれを経て、client_dealloc
  else none

/-! ## SOCKS -/

/-- `socks_auth_info[1].password.username` の指す文字列。 -/
def World.name : Option (List UInt8) :=
  match w.record.username with
  | none => some opts.username
  | some p => w.strings p

/-- `memcpy(ptr, username, username_len)` が読む記憶は、すべて割り当てられている。 -/
def World.Readable : Prop := ∃ s ∈ w.name opts, w.record.usernameLen ≤ s.length

instance : Decidable (w.Readable opts) :=
  decidable_of_iff ((w.name opts).any fun s => w.record.usernameLen ≤ s.length) (by
    simp [World.Readable, Option.any_eq_true])

/-- `BSocksClient` が pointer を通して見る設定。割り当てられていない記憶の中身は 0 とする。 -/
def World.config (c : TcpClient) : Config where
  authInfo := [.none, .password (resize ((w.name opts).getD []) w.record.usernameLen [] 0)
    opts.password]
  destAddr := c.localAddr

/-- 認証の message を書いたのなら、名前を読んでいる。`o` は一歩の後の `BSocksClient`。 -/
def World.authenticate (c : TcpClient) (o : BSocksClient) : Except Fault World :=
  if c.socks.state = .sentHello ∧ o.state = .sendingPassword then do
    check .freedName (w.Readable opts)
    return { w with
      authenticated := w.authenticated ++ (o.sent.drop c.socks.sent.length).map fun m =>
        (c.remoteAddr, m.2) }
  else .ok w

/-- `BSocksClient` の一歩と、それに続く `client_socks_handler`。 -/
def socksEvent (i : Nat) (c : TcpClient) (pending : Bool) (x : Socks.M BSocksClient) :
    Except Fault World := do
  let o ← x.mapError .socks
  let w ← w.authenticate opts c o
  let c' := { c with socks := o }
  return w.put i c (if o.freed = true then clientFreeSocks c' pending else some c')

/-! ## 一歩 -/

inductive Event where
  | accept (loc remote : BAddr) (a : Replies)
  | socks (i : Nat) (e : Socks.Event) (pending : Bool)
  /-- client の側が閉じる。 -/
  | clientGone (i : Nat) (buffered : Bool)
  /-- 一方だけが閉じていて、残った byte を送り終える。 -/
  | drained (i : Nat)
  /-- program の終わりの `client_murder`。 -/
  | murder (i : Nat)
  deriving DecidableEq, Repr

/-- 一方だけが閉じている。client が閉じていれば、残りを送れるのは SOCKS が up になってからである。 -/
def TcpClient.drains (c : TcpClient) : Bool :=
  if c.clientClosed then !c.socks.freed && c.socks.state = .up else c.socks.freed

def step : Event → Option (Except Fault World)
  | .accept loc remote a =>
    if ∀ p ∈ a.concat, w.strings p = none then some (.ok (listenerAcceptFunc opts w loc remote a))
      else none
  | .socks i e pending =>
    match w.clients i with
    | none => none
    | some c => (Socks.step c.socks (w.config opts c) e).map (socksEvent opts w i c pending)
  | .clientGone i buffered =>
    match w.clients i with
    | none => none
    | some c =>
      if c.clientClosed = false then some (.ok (w.put i c (clientHandleFreedClient c buffered)))
        else none
  | .drained i =>
    match w.clients i with
    | none => none
    | some c => if c.drains = true then some (.ok (w.put i c none)) else none
  | .murder i =>
    match w.clients i with
    | none => none
    | some c => some (.ok (w.put i c none))

/-- 利用者名と password の認証を選ぶ server の返事は、最後に受け入れられた接続でしか受け取り終えない。 -/
def ReadsLatest : Event → Prop
  | .socks i (.recvDone n _) _ =>
    ∀ c ∈ w.clients i, c.socks.state = .sentHello →
      c.socks.consumed ++ c.socks.unread.take n = [socksVersion, 2] → w.latest = some i
  | _ => True

instance : ∀ e : Event, Decidable (ReadsLatest w e)
  | .socks i (.recvDone n _) _ =>
    inferInstanceAs (Decidable (∀ c ∈ w.clients i, c.socks.state = .sentHello →
      c.socks.consumed ++ c.socks.unread.take n = [socksVersion, 2] → w.latest = some i))
  | .socks _ (.connector _ _ _) _ => .isTrue trivial
  | .socks _ (.sendDone _) _ => .isTrue trivial
  | .socks _ .recvClosed _ => .isTrue trivial
  | .socks _ .connectionError _ => .isTrue trivial
  | .accept _ _ _ => .isTrue trivial
  | .clientGone _ _ => .isTrue trivial
  | .drained _ => .isTrue trivial
  | .murder _ => .isTrue trivial

/-! ## 不変量 -/

/-- 送った message は、その接続自身の相手から作った利用者名で認証するものである。 -/
def OwnName (entry : BAddr × List UInt8) : Prop :=
  entry.2 = passwordMessage (opts.nameFor entry.1) opts.password

structure Owned : Prop where
  name : ∀ i c, w.clients i = some c → w.strings c.socksUsername = some (opts.nameFor c.remoteAddr)
  -- 名前を共有しない
  distinct : ∀ i j c d, w.clients i = some c → w.clients j = some d →
    c.socksUsername = d.socksUsername → i = j
  fresh : ∀ i, w.accepted ≤ i → w.clients i = none
  sound : ∀ i c, w.clients i = some c → Sound c.socks
  latest : ∀ i c, w.clients i = some c → w.latest = some i →
    w.record = ⟨some c.socksUsername, (opts.nameFor c.remoteAddr).length⟩
  authenticated : ∀ entry ∈ w.authenticated, OwnName opts entry

variable {opts w}

theorem owned_init : Owned opts (.init opts) where
  name := by simp [World.init]
  distinct := by simp [World.init]
  fresh := by simp [World.init]
  sound := by simp [World.init]
  latest := by simp [World.init]
  authenticated := by simp [World.init]

variable {i : Nat} {c : TcpClient}

/-- 一つの client を書き換えた後の client は、書き換えたものか、前からあるものである。 -/
theorem update_clients {clients : Nat → Option TcpClient} {j : Nat} {next : Option TcpClient}
    {d : TcpClient} (h : Function.update clients i next j = some d) :
    (j = i ∧ next = some d) ∨ (j ≠ i ∧ clients j = some d) := by
  by_cases hj : j = i
  · rw [hj, Function.update_self] at h
    exact Or.inl ⟨hj, h⟩
  · rw [Function.update_of_ne hj] at h
    exact Or.inr ⟨hj, h⟩

/-- 使われていない場所を書き換えても、生きている接続の名前は変わらない。 -/
theorem Owned.name_update (h : Owned opts w) {p : Nat} (hp : w.strings p = none)
    (hc : w.clients i = some c) (s : Option (List UInt8)) :
    c.socksUsername ≠ p ∧ Function.update w.strings p s c.socksUsername =
      some (opts.nameFor c.remoteAddr) := by
  have hne : c.socksUsername ≠ p := by
    intro heq
    have hname := h.name i c hc
    rw [heq, hp] at hname
    cases hname
  rw [Function.update_of_ne hne]
  exact ⟨hne, h.name i c hc⟩

theorem owned_addClient (h : Owned opts w) {loc remote : BAddr} {p : Nat} (hp : w.strings p = none)
    (stream : List UInt8) :
    Owned opts ((w.writeRecord opts remote p).addClient ⟨loc, remote, p, false, .init stream⟩) where
  name := by
    intro i c hc
    rcases update_clients hc with ⟨rfl, hnew⟩ | ⟨-, hold⟩
    · obtain rfl := Option.some.inj hnew
      exact Function.update_self ..
    · exact (h.name_update hp hold _).2
  distinct := by
    intro i j c d hc hd heq
    rcases update_clients hc with ⟨rfl, hnew⟩ | ⟨-, hold⟩
    · rcases update_clients hd with ⟨rfl, -⟩ | ⟨-, hold'⟩
      · rfl
      · obtain rfl := Option.some.inj hnew
        exact absurd heq.symm (h.name_update hp hold' none).1
    · rcases update_clients hd with ⟨rfl, hnew'⟩ | ⟨-, hold'⟩
      · obtain rfl := Option.some.inj hnew'
        exact absurd heq (h.name_update hp hold none).1
      · exact h.distinct i j c d hold hold' heq
  fresh := by
    intro i hi
    have hi : w.accepted + 1 ≤ i := hi
    show Function.update w.clients w.accepted _ i = none
    rw [Function.update_of_ne (by omega)]
    exact h.fresh i (by omega)
  sound := by
    intro i c hc
    rcases update_clients hc with ⟨-, hnew⟩ | ⟨-, hold⟩
    · obtain rfl := Option.some.inj hnew
      exact sound_init stream
    · exact h.sound i c hold
  latest := by
    intro i c hc hlatest
    rcases update_clients hc with ⟨-, hnew⟩ | ⟨hne, -⟩
    · obtain rfl := Option.some.inj hnew
      rfl
    · exact absurd (Option.some.inj hlatest).symm hne
  authenticated := h.authenticated

theorem owned_listenerAcceptFunc (h : Owned opts w) {loc remote : BAddr} {a : Replies}
    (hp : ∀ p ∈ a.concat, w.strings p = none) :
    Owned opts (listenerAcceptFunc opts w loc remote a) := by
  unfold listenerAcceptFunc
  split
  next => exact h
  next =>
    split
    next => exact h
    next p hconcat =>
      have hfree := hp p hconcat
      dsimp only
      split
      next =>
        refine { h with name := fun i c hc => ?_, latest := (by rintro i c hc ⟨⟩) }
        show Function.update (Function.update w.strings p _) p none c.socksUsername = _
        rw [Function.update_idem]
        exact (h.name_update hfree hc none).2
      next => exact owned_addClient h hfree a.stream

theorem clients_put (i : Nat) (c : TcpClient) (next : Option TcpClient) :
    (w.put i c next).clients = Function.update w.clients i next := by
  cases next <;> rfl

/-- 一つの client の callback は、他の client の名前に触れない。 -/
theorem owned_put (h : Owned opts w) {next : Option TcpClient} (hc : w.clients i = some c)
    (hnext : ∀ c' ∈ next, c'.remoteAddr = c.remoteAddr ∧ c'.socksUsername = c.socksUsername ∧
      Sound c'.socks) :
    Owned opts (w.put i c next) := by
  -- 後の client には、相手も名前も同じ前の client があり、その名前は残っている
  have hbefore : ∀ j d, (w.put i c next).clients j = some d → ∃ d₀, w.clients j = some d₀ ∧
      d.remoteAddr = d₀.remoteAddr ∧ d.socksUsername = d₀.socksUsername ∧ Sound d.socks ∧
      (w.put i c next).strings d₀.socksUsername = w.strings d₀.socksUsername := by
    intro j d hd
    rw [clients_put] at hd
    rcases update_clients hd with ⟨rfl, rfl⟩ | ⟨hne, hold⟩
    · obtain ⟨hremote, hptr, hsound⟩ := hnext d rfl
      exact ⟨c, hc, hremote, hptr, hsound, rfl⟩
    · refine ⟨d, hold, rfl, rfl, h.sound j d hold, ?_⟩
      cases next with
      | some c' => rfl
      | none => exact Function.update_of_ne (fun heq => hne (h.distinct j i d c hold hc heq)) ..
  have hrecord : (w.put i c next).record = w.record ∧ (w.put i c next).latest = w.latest ∧
      (w.put i c next).accepted = w.accepted ∧
        (w.put i c next).authenticated = w.authenticated := by
    cases next <;> exact ⟨rfl, rfl, rfl, rfl⟩
  obtain ⟨hrec, hlatest, haccepted, hauth⟩ := hrecord
  refine { name := fun j d hd => ?_, distinct := fun j k d e hd he heq => ?_, fresh := fun j hj =>
    ?_,
           sound := fun j d hd => ?_, latest := fun j d hd hl => ?_,
           authenticated := by rw [hauth]; exact h.authenticated }
  · obtain ⟨d₀, hd₀, hr, hu, -, hs⟩ := hbefore j d hd
    rw [hr, hu, hs]
    exact h.name j d₀ hd₀
  · obtain ⟨d₀, hd₀, -, hu, -⟩ := hbefore j d hd
    obtain ⟨e₀, he₀, -, hv, -⟩ := hbefore k e he
    exact h.distinct j k d₀ e₀ hd₀ he₀ (by rw [← hu, ← hv, heq])
  · have hnone := h.fresh j (haccepted ▸ hj)
    have hji : j ≠ i := by
      rintro rfl
      rw [hc] at hnone
      cases hnone
    rw [clients_put, Function.update_of_ne hji]
    exact hnone
  · obtain ⟨_, _, _, _, hs, _⟩ := hbefore j d hd
    exact hs
  · obtain ⟨d₀, hd₀, hr, hu, -⟩ := hbefore j d hd
    rw [hrec, hr, hu]
    exact h.latest j d₀ hd₀ (hlatest ▸ hl)

theorem owned_dealloc (h : Owned opts w) (hc : w.clients i = some c) :
    Owned opts (w.put i c none) := owned_put h hc (fun _ hc' => nomatch hc')

/-! ## 認証 -/

/-- `socks_auth_info[1]` を最後に書いた接続が読むのは、自分の名前である。 -/
theorem Owned.reads (h : Owned opts w) (hc : w.clients i = some c) (hl : w.latest = some i) :
    w.Readable opts ∧ (w.config opts c).authInfo =
      [.none, .password (opts.nameFor c.remoteAddr) opts.password] := by
  have hrecord := h.latest i c hc hl
  have hname : w.name opts = some (opts.nameFor c.remoteAddr) := by
    unfold World.name
    rw [hrecord]
    exact h.name i c hc
  refine ⟨⟨_, hname, by rw [hrecord]⟩, ?_⟩
  unfold World.config
  rw [hname, hrecord]
  simp [resize]

theorem owned_authenticate (h : Owned opts w) {o : BSocksClient} (hc : w.clients i = some c)
    (hreads : c.socks.state = .sentHello → o.state = .sendingPassword →
      w.latest = some i ∧ ∃ reply, SentPassword (w.config opts c) reply c.socks o) :
    ∃ w', w.authenticate opts c o = .ok w' ∧ Owned opts w' ∧ w'.clients = w.clients := by
  unfold World.authenticate
  split
  next hread =>
    obtain ⟨hl, reply, hsent⟩ := hreads hread.1 hread.2
    obtain ⟨hreadable, hauth⟩ := h.reads hc hl
    obtain ⟨user, pass, hfind, hmsg⟩ := hsent.message
    rw [check_bind hreadable]
    refine ⟨_, rfl, { h with authenticated := fun entry hentry => ?_ }, rfl⟩
    rw [hauth] at hfind
    obtain ⟨rfl, rfl⟩ : opts.nameFor c.remoteAddr = user ∧ opts.password = pass := by
      simpa [AuthInfo.authType] using hfind
    rw [hmsg, List.drop_left] at hentry
    rcases List.mem_append.mp hentry with hold | hnew
    · exact h.authenticated entry hold
    · obtain rfl := List.mem_singleton.mp hnew
      rfl
  next => exact ⟨w, rfl, h, rfl⟩

theorem clientFreeSocks_eq_some {c' : TcpClient} {pending : Bool}
    (h : clientFreeSocks c pending = some c') :
    c' = { c with socks := { c.socks with freed := true } } := by
  unfold clientFreeSocks at h
  split at h
  · exact (Option.some.inj h).symm
  · cases h

theorem owned_socksEvent (h : Owned opts w) {e : Socks.Event} {pending : Bool}
    {x : Socks.M BSocksClient} (hc : w.clients i = some c)
    (hok : ReadsLatest w (.socks i e pending))
    (hstep : Socks.step c.socks (w.config opts c) e = some x) :
    ∃ w', socksEvent opts w i c pending x = .ok w' ∧ Owned opts w' := by
  obtain ⟨o, rfl, hsound, hreads⟩ := sound_step (by simp [World.config]) (h.sound i c hc) hstep
  obtain ⟨w', hw', hown, hclients⟩ := owned_authenticate h hc (o := o) (by
    intro hhello hpass
    obtain ⟨n, r, rfl, hsent⟩ := hreads hhello hpass
    exact ⟨hok c hc hhello hsent.selected, _, hsent⟩)
  refine ⟨w'.put i c (if o.freed = true then clientFreeSocks { c with socks := o } pending
    else some { c with socks := o }), ?_, owned_put hown (by rw [hclients]; exact hc) ?_⟩
  · show (w.authenticate opts c o >>= fun w => _) = _
    rw [hw']
    rfl
  · intro c' hc'
    split at hc'
    next =>
      obtain rfl := clientFreeSocks_eq_some hc'
      exact ⟨rfl, rfl, Or.inl rfl⟩
    next =>
      obtain rfl := Option.some.inj hc'
      exact ⟨rfl, rfl, hsound⟩

theorem owned_step {e : Event} {x : Except Fault World} (h : Owned opts w) (hok : ReadsLatest w e)
    (hstep : step opts w e = some x) : ∃ w', x = .ok w' ∧ Owned opts w' := by
  cases e with
  | accept loc remote a =>
    obtain ⟨hfree, rfl⟩ := of_ite_eq_some hstep
    exact ⟨_, rfl, owned_listenerAcceptFunc h hfree⟩
  | socks i e pending =>
    simp only [step] at hstep
    split at hstep
    next => cases hstep
    next c hc =>
      obtain ⟨y, hy, rfl⟩ := Option.map_eq_some_iff.mp hstep
      exact owned_socksEvent h hc hok hy
  | clientGone i buffered =>
    simp only [step] at hstep
    split at hstep
    next => cases hstep
    next c hc =>
      obtain ⟨-, rfl⟩ := of_ite_eq_some hstep
      refine ⟨_, rfl, owned_put h hc fun c' hc' => ?_⟩
      unfold clientHandleFreedClient at hc'
      obtain ⟨-, rfl⟩ := of_ite_eq_some hc'
      exact ⟨rfl, rfl, h.sound i c hc⟩
  | drained i =>
    simp only [step] at hstep
    split at hstep
    next => cases hstep
    next c hc =>
      obtain ⟨-, rfl⟩ := of_ite_eq_some hstep
      exact ⟨_, rfl, owned_dealloc h hc⟩
  | murder i =>
    simp only [step] at hstep
    split at hstep
    next => cases hstep
    next c hc =>
      obtain ⟨⟩ := hstep
      exact ⟨_, rfl, owned_dealloc h hc⟩

/--
どの一歩も `ReadsLatest` を満たす run では、解放された利用者名は読まれず、どの接続も自分の利用者名で認証する。
-/
theorem username_own (opts : Options) {es : List Event} {r : Except Fault World}
    (hm : Meets (guarded (step opts)) (OkThen ReadsLatest) (.ok (.init opts)) es)
    (hrun : exec (guarded (step opts)) (.ok (.init opts)) es = some r) :
    ∃ w, r = .ok w ∧ ∀ entry ∈ w.authenticated, OwnName opts entry := by
  obtain ⟨w, hw, hown⟩ := exec_safe (fun _ _ _ hi hok he => owned_step hi hok he) owned_init hm hrun
  exact ⟨w, hw, hown.authenticated⟩

/-! ## 例 -/

/-- `user` と `pw`。 -/
def exampleOptions : Options := ⟨[117, 115, 101, 114], [112, 119]⟩

def exampleAddr (host : UInt8) : BAddr := .ipv4 #v[192, 168, 0, host] #v[0, 80]

/-- 接続 `i` が hello を送り終える。 -/
def greeted (i : Nat) : List Event :=
  [.socks i (.connector false true {}) false, .socks i (.sendDone {}) false]

/-- server が利用者名と password の認証を選ぶ。 -/
def selected (i : Nat) : Event := .socks i (.recvDone 2 {}) false

def acceptedFrom (host : UInt8) (p : Nat) : Event :=
  .accept (exampleAddr 1) (exampleAddr host) { concat := some p, stream := [socksVersion, 2] }

/-- 後に受け入れられた接続が先に認証し、前の接続は認証せずに閉じる。 -/
def latestFirst : List Event :=
  [acceptedFrom 2 0] ++ greeted 0 ++ [acceptedFrom 3 1] ++ greeted 1 ++
    [.clientGone 0 false, selected 1]

theorem username_own_latestFirst :
    ∃ w, exec (guarded (step exampleOptions)) (.ok (.init exampleOptions)) latestFirst =
      some (.ok w) ∧
      w.authenticated.length = 1 ∧ ∀ entry ∈ w.authenticated, OwnName exampleOptions entry := by
  obtain ⟨w, hrun, hlen⟩ := exec_ok_exists (step exampleOptions) (.init exampleOptions) latestFirst
    (fun w => w.authenticated.length = 1) (by decide +kernel)
  obtain ⟨w', hw', hown⟩ := username_own exampleOptions (by decide +kernel) hrun
  obtain rfl := Except.ok.inj hw'
  exact ⟨w, hrun, hlen, hown⟩

/--
二つの接続を続けて受け入れると、先の接続は後の接続の利用者名で認証する。

後の接続が先に閉じれば、先の接続は解放された利用者名を読む。
-/
theorem username_of_another :
    (∃ w, exec (guarded (step exampleOptions)) (.ok (.init exampleOptions))
        ([acceptedFrom 2 0, acceptedFrom 3 1] ++ greeted 0 ++ [selected 0]) = some (.ok w) ∧
      w.authenticated =
        [(exampleAddr 2, passwordMessage (exampleOptions.nameFor (exampleAddr 3))
          exampleOptions.password)]) ∧
    exec (guarded (step exampleOptions)) (.ok (.init exampleOptions))
        ([acceptedFrom 2 0, acceptedFrom 3 1] ++ greeted 0 ++ [.clientGone 1 false, selected 0]) =
      some (.error .freedName) := by
  refine ⟨exec_ok_exists (step exampleOptions) (.init exampleOptions) _ (fun w => w.authenticated =
        [(exampleAddr 2, passwordMessage (exampleOptions.nameFor (exampleAddr 3))
          exampleOptions.password)])
    (by decide +kernel), ?_⟩
  rfl

end Socks.UserName
