import PsiphonVpn.UdpGw.Server

/-!
# client と server

`UdpGwClient` と udpgw server を、両方の向きの FIFO の stream でつなぐ。client が返事を組 (L, R) に渡す時、その返事を作った server
の connection は、(L, R) への packet が作ったものか。

返事は conid と remote の address だけで宛先を決めるので、conid が同じ remote の別の組に付け替えられた後に、前の組のための返事が
届くと、新しい組に渡される。付け替えの時に、その conid と remote の address を持つものが、client の buffer、stream、server の
どこにも残っていなければ、このようなことは起こらない。

## model

* **client** は `UdpGw.step` のとおりに動く。新しい connection の `first_job` は、packet を送る一歩に含める。続く job はその
  ためのものだけだからである（`FirstPacket`）
* **connector** fair queue が選んだ message は、書き終えるまで connector に残り、server と繋がり直しても失われない
* **stream** は message を送られた順に届ける。いつ届くかは任意である。切れると、途中の message と server の state は失われる

message には送り元の組を、server の connection にはそれを作った message の送り元を添えて持つ。
-/

namespace UdpGw

open Infra Net

/-- server と繋がっている間の、両方の stream と、server の側の state。 -/
structure Link where
  up : List Parcel
  down : List Parcel
  server : Server.Client
  deriving DecidableEq, Repr

/-- `handler_received` の呼び出しと、その返事を作った connection を作った message の送り元。 -/
structure Delivery where
  conaddr : ConAddr
  creator : ConAddr
  deriving DecidableEq, Repr

structure World where
  client : UdpGwClient
  connector : Option Parcel
  link : Option Link
  -- 記録
  deliveries : List Delivery

def World.init : World := ⟨.init, none, none, []⟩

inductive WorldEvent where
  | submit (localAddr remoteAddr : BAddr) (isDns : Bool) (data : List UInt8) (alloc : Alloc)
  | offer (h : Nat)
  /-- fair queue が、connection `h` の最も古い message を connector に渡す。 -/
  | drained (h : Nat)
  | connect (ok : Bool)
  | disconnect
  /-- connector の message を stream に書き終える。 -/
  | transmit
  /-- server が message を受け取る。 -/
  | arrive (env : Server.Env)
  | server (e : Server.Event)
  /-- client が message を受け取る。 -/
  | deliver
  deriving DecidableEq, Repr

/-- `UdpGwClient_SubmitPacket` と、connection が作られたなら、その `first_job`。 -/
def submitAndRun (cfg : Config) (o : UdpGwClient) (l r : BAddr) (isDns : Bool) (data : List UInt8)
    (alloc : Alloc) :
    Option (M UdpGwClient) :=
  match step cfg o (.submit l r isDns data alloc) with
  | some (.ok o') =>
    if o.allocated < o'.allocated then step cfg o' (.firstJob o.allocated) else some (.ok o')
  | r => r

namespace World

/-- client の一歩の結果を反映する。 -/
def after (r : Option (M UdpGwClient)) (f : UdpGwClient → World) : Option (M World) :=
  r.map fun x => x.map f

def step (cfg : Config) (opts : Options) (w : World) : WorldEvent → Option (M World)
  | .submit l r isDns data alloc =>
    after (submitAndRun cfg w.client l r isDns data alloc) fun o => { w with client := o }
  | .offer h => after (UdpGw.step cfg w.client (.offer h)) fun o => { w with client := o }
  | .drained h =>
    match w.connector, (w.client.con h).waiting with
    | none, p :: _ =>
      after (UdpGw.step cfg w.client (.drained h)) fun o =>
        { w with client := o, connector := some p }
    | _, _ => none
  | .connect ok =>
    after (UdpGw.step cfg w.client (.connect ok)) fun o =>
      { w with client := o, link := if ok then some ⟨[], [], .init⟩ else w.link }
  | .disconnect =>
    after (UdpGw.step cfg w.client .disconnect) fun o => { w with client := o, link := none }
  | .transmit =>
    match w.connector, w.link with
    | some p, some l =>
      some (.ok { w with connector := none, link := some { l with up := l.up ++ [p] } })
    | _, _ => none
  | .arrive env =>
    match w.link with
    | none => none
    | some l =>
      match l.up with
      | [] => none
      | p :: rest =>
        -- 長すぎる message は、decoder が退ける
        if p.message.bytes.length ≤ opts.udpgwMtu then
          some (do
            let s ← Server.clientRecvIfHandlerSend opts l.server p.origin p.message.bytes env
            return { w with link := some { l with up := rest, server := s } })
        else none
  | .server e =>
    match w.link with
    | none => none
    | some l =>
      (Server.step opts l.server e).map fun r => do
        let (s, out) ← r
        return { w with link := some { l with server := s, down := l.down ++ out.toList } }
  | .deliver =>
    match w.link with
    | none => none
    | some l =>
      match l.down with
      | [] => none
      | p :: rest =>
        after (UdpGw.step cfg w.client (.received p.message.bytes)) fun o =>
          { w with
            client := o
            link := some { l with down := rest }
            deliveries := w.deliveries ++ (o.delivered.drop w.client.delivered.length).map fun d =>
              ⟨d.1, p.origin⟩ }

/-! ## 残っているもの -/

/-- server の connection。閉じられて、まだ送っているものも含む。 -/
def serverConnections (w : World) : List Server.Connection := w.link.elim [] fun l => l.server.all

/-- server の送信 buffer にある message。 -/
def serverParcels (w : World) : List Parcel :=
  w.serverConnections.flatMap fun c => c.sendBuffer.map fun m => ⟨c.creator, m⟩

/-- どこかに残っている message。 -/
def parcels (w : World) : List Parcel :=
  w.client.waiting ++ w.connector.toList ++ w.link.elim [] Link.up ++ w.link.elim [] Link.down ++
    w.serverParcels

/-- conid と remote の address を持つもの。 -/
structure Item where
  conid : Nat
  remoteAddr : BAddr
  origin : ConAddr
  deriving DecidableEq, Repr

/-- どこかに残っている message と、server の connection。 -/
def items (w : World) : List Item :=
  w.parcels.map (fun p => ⟨p.message.conid, p.message.remoteAddr, p.origin⟩) ++
    w.serverConnections.map fun c => ⟨c.conid, c.origAddr, c.creator⟩

/--
connection を付け替えて組 (L, R) に割り当てる時、その conid と R を持って残っているものは、どれも (L, R) のためのものである。
-/
def NoStaleReuse (cfg : Config) (w : World) : WorldEvent → Prop
  | .submit l r isDns data alloc =>
    ∀ i ∈ w.items, ReuseKeeps cfg w.client i.conid i.remoteAddr i.origin
      (.submit l r isDns data alloc)
  | _ => True

end World

/-! ## 不変量 -/

/-- client の connection に照らして、message の送り元は正しい。 -/
structure Sound (o : UdpGwClient) (p : Parcel) : Prop where
  bound : Bound o p.message.conid p.message.remoteAddr p.origin
  ipv6 : p.message.flags &&& flagIpv6 ≠ 0 ↔ p.message.remoteAddr.type = 2

structure WorldInv (cfg : Config) (opts : Options) (w : World) : Prop where
  table : TableInv cfg w.client
  buffered : ∀ h ∈ w.client.connectionsList, Buffered (w.client.con h)
  parcels : ∀ p ∈ w.parcels, Sound w.client p
  connections : ∀ c ∈ w.serverConnections, Bound w.client c.conid c.origAddr c.creator
  server : ∀ l ∈ w.link, Server.Inv opts l.server
  deliveries : ∀ d ∈ w.deliveries, d.creator = d.conaddr

variable {cfg : Config} {opts : Options} {w : World} {o o' : UdpGwClient}

theorem worldInv_init (cfg : Config) (opts : Options) : WorldInv cfg opts .init where
  table := tableInv_init cfg
  buffered := by simp [World.init, UdpGwClient.init]
  parcels := by
    simp [World.init, World.parcels, World.serverParcels, World.serverConnections,
    UdpGwClient.waiting, UdpGwClient.init]
  connections := by simp [World.init, World.serverConnections]
  server := by simp [World.init]
  deliveries := by simp [World.init]

/-! ## 正しい message -/

variable {p : Parcel} {c : Server.Connection} {e : Event} {x : M World}

theorem Sound.wellFormed (ht : TableInv cfg o) (hp : Sound o p) : p.message.WellFormed := by
  obtain ⟨h, hmem, hid, -⟩ := hp.bound
  refine ⟨?_, hp.ipv6⟩
  rw [← hid]
  exact lt_of_lt_of_le (ht.conid_lt h hmem) cfg.limit_le

theorem Message.WellFormed.bytes_inj {m m' : Message} (hm : m.WellFormed) (hm' : m'.WellFormed)
    (h : m.bytes = m'.bytes) : m = m' := by
  have hparse := parse_eq_ok.mpr ⟨rfl, hm, Nat.le_max_left m.payload.length m'.payload.length⟩
  have hparse' := parse_eq_ok.mpr ⟨rfl, hm', Nat.le_max_right m.payload.length m'.payload.length⟩
  rw [h, hparse'] at hparse
  exact (Except.ok.inj hparse).symm

theorem Fresh.sound {h : Nat} (hmem : h ∈ o.connectionsList) (hp : Fresh (o.con h) p) : Sound o p :=
  ⟨bound_of_fresh hmem hp, hp.ipv6⟩

theorem replyMessage_sound (hc : Bound o c.conid c.origAddr c.creator) (data : List UInt8) :
    Sound o ⟨c.creator, replyMessage c.conid c.origAddr 0 data⟩ := ⟨hc, withIpv6_zero c.origAddr⟩

/-! ## client の一歩 -/

/-- client が `o'` になった後も、残っているものの送り元は正しい。 -/
structure Carries (cfg : Config) (w : World) (o' : UdpGwClient) : Prop where
  table : TableInv cfg o'
  buffered : ∀ h ∈ o'.connectionsList, Buffered (o'.con h)
  waiting : ∀ p ∈ o'.waiting, Sound o' p
  parcels : ∀ p ∈ w.parcels, Sound o' p
  connections : ∀ c ∈ w.serverConnections, Bound o' c.conid c.origAddr c.creator

theorem WorldInv.carries (hi : WorldInv cfg opts w) (hs : Step cfg w.client e o')
    (hkeep : ∀ i ∈ w.items, ReuseKeeps cfg w.client i.conid i.remoteAddr i.origin e) :
    Carries cfg w o' := by
  have hevolves := evolves_step hi.table hi.buffered hs
  have hparcels : ∀ p ∈ w.parcels, Sound o' p := fun p hp =>
    have hitem : ⟨p.message.conid, p.message.remoteAddr, p.origin⟩ ∈ w.items :=
      List.mem_append_left _ (List.mem_map_of_mem hp)
    ⟨(hi.parcels p hp).bound.step hi.table (hkeep _ hitem) hs, (hi.parcels p hp).ipv6⟩
  refine ⟨tableInv_step hi.table hs, fun h hmem => (hevolves h hmem).buffered, fun p hp => ?_,
    hparcels, fun c hc => ?_⟩
  · obtain ⟨h, hmem, hp⟩ := List.mem_flatMap.mp hp
    rcases (hevolves h hmem).waiting p hp with hold | hfresh
    · refine hparcels p ?_
      simp only [World.parcels, List.append_assoc]
      exact List.mem_append_left _ hold
    · exact hfresh.sound hmem
  · have hitem : ⟨c.conid, c.origAddr, c.creator⟩ ∈ w.items :=
      List.mem_append_right _ (List.mem_map_of_mem hc)
    exact (hi.connections c hc).step hi.table (hkeep _ hitem) hs

theorem mem_parcels : p ∈ w.parcels ↔
    p ∈ w.client.waiting ∨ p ∈ w.connector ∨ ∃ l ∈ w.link, p ∈ l.up ∨ p ∈ l.down ∨
      Server.Sends l.server p := by
  have hsends : ∀ s : Server.Client,
      (p ∈ s.all.flatMap fun c => c.sendBuffer.map fun m => ⟨c.creator, m⟩) ↔
      Server.Sends s p := by
    intro s
    simp only [List.mem_flatMap, List.mem_map, Server.Sends]
    constructor
    · rintro ⟨c, hc, m, hm, rfl⟩
      exact ⟨c, hc, rfl, hm⟩
    · rintro ⟨c, hc, horigin, hm⟩
      exact ⟨c, hc, p.message, hm, by rw [← horigin]⟩
  cases hlink : w.link with
  | none => simp [World.parcels, World.serverParcels, World.serverConnections, hlink]
  | some l =>
    simp only [World.parcels, World.serverParcels, World.serverConnections, hlink, Option.elim_some,
      List.mem_append, Option.mem_toList, hsends, Option.mem_def, Option.some.injEq,
      exists_eq_left', or_assoc]

theorem mem_serverConnections : c ∈ w.serverConnections ↔ ∃ l ∈ w.link, c ∈ l.server.all := by
  cases hlink : w.link <;> simp [World.serverConnections, hlink]

/-- client の一歩の後、残っているものは、client の buffer にあるもののほかは増えない。 -/
theorem Carries.worldInv {w' : World} (hc : Carries cfg w w'.client)
    (hparcels : ∀ p ∈ w'.parcels, p ∈ w'.client.waiting ∨ p ∈ w.parcels)
    (hconnections : ∀ c ∈ w'.serverConnections, c ∈ w.serverConnections)
    (hserver : ∀ l ∈ w'.link, Server.Inv opts l.server)
    (hdeliveries : ∀ d ∈ w'.deliveries, d.creator = d.conaddr) :
    WorldInv cfg opts w' where
  table := hc.table
  buffered := hc.buffered
  parcels p hp := (hparcels p hp).elim (hc.waiting p) (hc.parcels p)
  connections c hmem := hc.connections c (hconnections c hmem)
  server := hserver
  deliveries := hdeliveries

theorem Carries.setClient (hc : Carries cfg w o') (hi : WorldInv cfg opts w) :
    WorldInv cfg opts { w with client := o' } := by
  refine Carries.worldInv hc (fun p hp => ?_) (fun c hmem => hmem) hi.server hi.deliveries
  rw [mem_parcels] at hp ⊢
  exact hp.imp_right fun hp => .inr hp

theorem reuseKeeps_of_ne (he : ∀ l r isDns data alloc, e ≠ .submit l r isDns data alloc)
    (id : Nat) (remote : BAddr) (k : ConAddr) : ReuseKeeps cfg o id remote k e := by
  cases e with
  | submit l r isDns data alloc => exact absurd rfl (he l r isDns data alloc)
  | received | connect | disconnect | firstJob | offer | drained => trivial

theorem after_eq_some {r : Option (M UdpGwClient)} {f : UdpGwClient → World}
    (h : World.after r f = some x) : ∃ y, r = some y ∧ x = y.map f := by
  obtain ⟨y, hy, rfl⟩ := Option.map_eq_some_iff.mp h
  exact ⟨y, hy, rfl⟩

theorem WorldInv.client_step (hi : WorldInv cfg opts w)
    (he : ∀ l r isDns data alloc, e ≠ .submit l r isDns data alloc) {f : UdpGwClient → World}
    {r : M World} (hstep : World.after (step cfg w.client e) f = some r) :
    ∃ o', r = .ok (f o') ∧ Step cfg w.client e o' ∧ Carries cfg w o' := by
  obtain ⟨y, hy, rfl⟩ := after_eq_some hstep
  obtain ⟨o', rfl, hs⟩ := step_ok hi.table hy
  exact ⟨o', rfl, hs, hi.carries hs fun i _ => reuseKeeps_of_ne he _ _ _⟩

/-! ## 一歩 -/

/-- packet を送る一歩。 -/
theorem WorldInv.submit (hi : WorldInv cfg opts w) {l r : BAddr} {isDns : Bool}
    {data : List UInt8} {alloc : Alloc}
    (hkeep : w.NoStaleReuse cfg (.submit l r isDns data alloc))
    (hstep : w.step cfg opts (.submit l r isDns data alloc) = some x) :
    ∃ w', x = .ok w' ∧ WorldInv cfg opts w' := by
  obtain ⟨y, hy, rfl⟩ := after_eq_some hstep
  unfold submitAndRun at hy
  cases hsubmit : step cfg w.client (.submit l r isDns data alloc) with
  | none =>
    rw [hsubmit] at hy
    cases hy
  | some z =>
    obtain ⟨o₁, rfl, hs₁⟩ := step_ok hi.table hsubmit
    have hi₁ := (hi.carries hs₁ hkeep).setClient hi
    rw [hsubmit] at hy
    dsimp only at hy
    split at hy
    next =>
      -- 作られた connection の `first_job` が続く
      obtain ⟨o₂, rfl, hs₂⟩ := step_ok hi₁.table hy
      exact ⟨_, rfl, (hi₁.carries hs₂ fun i _ => trivial).setClient hi₁⟩
    next =>
      obtain rfl := Option.some.inj hy
      exact ⟨_, rfl, hi₁⟩

theorem WorldInv.drained (hi : WorldInv cfg opts w) {h : Nat}
    (hstep : w.step cfg opts (.drained h) = some x) : ∃ w', x = .ok w' ∧ WorldInv cfg opts w' := by
  rw [World.step] at hstep
  split at hstep
  next p rest hconnector hwaiting =>
    obtain ⟨o', rfl, hs, hc⟩ := hi.client_step (by simp) hstep
    refine ⟨_, rfl, Carries.worldInv hc (fun q hq => ?_) (fun c hmem => hmem) hi.server
      hi.deliveries⟩
    rw [mem_parcels] at hq ⊢
    rcases hq with hq | hq | hq
    · exact .inl hq
    · obtain rfl := Option.some.inj hq
      cases hs with
      | drained hmem =>
        refine .inr (.inl (mem_waiting hmem ?_))
        rw [hwaiting]
        exact List.mem_cons_self
    · exact .inr (.inr (.inr hq))
  next => cases hstep

theorem WorldInv.connect (hi : WorldInv cfg opts w) {ok : Bool}
    (hstep : w.step cfg opts (.connect ok) = some x) : ∃ w', x = .ok w' ∧ WorldInv cfg opts w' := by
  obtain ⟨o', rfl, -, hc⟩ := hi.client_step (by simp) hstep
  cases ok with
  | false => exact ⟨_, rfl, hc.setClient hi⟩
  | true =>
    refine ⟨_, rfl, Carries.worldInv hc (fun p hp => ?_) (fun c hmem => ?_) ?_ hi.deliveries⟩
    · rw [mem_parcels] at hp ⊢
      rcases hp with hp | hp | ⟨l, ⟨⟩, hp⟩
      · exact .inl hp
      · exact .inr (.inr (.inl hp))
      · rcases hp with hp | hp | ⟨c, hmem, -⟩
        · cases hp
        · cases hp
        · cases hmem
    · obtain ⟨l, ⟨⟩, hmem⟩ := mem_serverConnections.mp hmem
      cases hmem
    · rintro l ⟨⟩
      exact Server.inv_init opts

theorem WorldInv.disconnect (hi : WorldInv cfg opts w)
    (hstep : w.step cfg opts .disconnect = some x) : ∃ w', x = .ok w' ∧ WorldInv cfg opts w' := by
  obtain ⟨o', rfl, -, hc⟩ := hi.client_step (by simp) hstep
  refine ⟨_, rfl, Carries.worldInv hc (fun p hp => ?_) (fun c hmem => ?_) ?_ hi.deliveries⟩
  · rw [mem_parcels] at hp ⊢
    rcases hp with hp | hp | ⟨l, ⟨⟩, -⟩
    · exact .inl hp
    · exact .inr (.inr (.inl hp))
  · obtain ⟨l, ⟨⟩, -⟩ := mem_serverConnections.mp hmem
  · rintro l ⟨⟩

theorem WorldInv.transmit (hi : WorldInv cfg opts w) (hstep : w.step cfg opts .transmit = some x) :
    ∃ w', x = .ok w' ∧ WorldInv cfg opts w' := by
  rw [World.step] at hstep
  split at hstep
  next p l hconnector hlink =>
    obtain rfl := Option.some.inj hstep
    refine ⟨_, rfl, { hi with
      parcels := fun q hq => hi.parcels q ?_, connections := fun c hmem => hi.connections c ?_,
      server := ?_ }⟩
    · rw [mem_parcels] at hq ⊢
      rcases hq with hq | ⟨⟨⟩⟩ | ⟨l', ⟨⟩, hq⟩
      · exact .inl hq
      · rcases hq with hq | hq
        · rcases List.mem_append.mp hq with hq | hq
          · exact .inr (.inr ⟨l, hlink, .inl hq⟩)
          · rw [List.mem_singleton.mp hq]
            exact .inr (.inl hconnector)
        · exact .inr (.inr ⟨l, hlink, .inr hq⟩)
    · obtain ⟨l', ⟨⟩, hmem⟩ := mem_serverConnections.mp hmem
      exact mem_serverConnections.mpr ⟨l, hlink, hmem⟩
    · rintro l' ⟨⟩
      exact hi.server l hlink
  next => cases hstep

/-- link だけが変わる一歩。 -/
theorem WorldInv.setLink (hi : WorldInv cfg opts w) {l : Link} (hup : ∀ p ∈ l.up, Sound w.client p)
    (hdown : ∀ p ∈ l.down, Sound w.client p)
    (hsends : ∀ p, Server.Sends l.server p → Sound w.client p)
    (hconnections : ∀ c ∈ l.server.all, Bound w.client c.conid c.origAddr c.creator)
    (hserver : Server.Inv opts l.server) :
    WorldInv cfg opts { w with link := some l } where
  table := hi.table
  buffered := hi.buffered
  parcels p hp := by
    rcases mem_parcels.mp hp with hp | hp | ⟨l', ⟨⟩, hp⟩
    · exact hi.parcels p (mem_parcels.mpr (.inl hp))
    · exact hi.parcels p (mem_parcels.mpr (.inr (.inl hp)))
    · rcases hp with hp | hp | hp
      · exact hup p hp
      · exact hdown p hp
      · exact hsends p hp
  connections c hmem := by
    obtain ⟨l', ⟨⟩, hmem⟩ := mem_serverConnections.mp hmem
    exact hconnections c hmem
  server := by
    rintro l' ⟨⟩
    exact hserver
  deliveries := hi.deliveries

section Link

variable {l : Link}

theorem WorldInv.up (hi : WorldInv cfg opts w) (hlink : w.link = some l) (hp : p ∈ l.up) :
    Sound w.client p := hi.parcels p (mem_parcels.mpr (.inr (.inr ⟨l, hlink, .inl hp⟩)))

theorem WorldInv.down (hi : WorldInv cfg opts w) (hlink : w.link = some l) (hp : p ∈ l.down) :
    Sound w.client p := hi.parcels p (mem_parcels.mpr (.inr (.inr ⟨l, hlink, .inr (.inl hp)⟩)))

theorem WorldInv.sends (hi : WorldInv cfg opts w) (hlink : w.link = some l)
    (hp : Server.Sends l.server p) : Sound w.client p :=
  hi.parcels p (mem_parcels.mpr (.inr (.inr ⟨l, hlink, .inr (.inr hp)⟩)))

theorem WorldInv.bound (hi : WorldInv cfg opts w) (hlink : w.link = some l)
    (hc : c ∈ l.server.all) : Bound w.client c.conid c.origAddr c.creator :=
  hi.connections c (mem_serverConnections.mpr ⟨l, hlink, hc⟩)

end Link

/-- 届いた message の作る connection は、message の送り元のためのものである。 -/
theorem WorldInv.arrive (hi : WorldInv cfg opts w) {env : Server.Env}
    (hstep : w.step cfg opts (.arrive env) = some x) : ∃ w', x = .ok w' ∧ WorldInv cfg opts w' := by
  rw [World.step] at hstep
  split at hstep
  next => cases hstep
  next l hlink =>
    split at hstep
    next => cases hstep
    next p rest hup =>
      obtain ⟨hlen, rfl⟩ := of_ite_eq_some hstep
      obtain ⟨s', hok, hserver, hall⟩ :=
        Server.clientRecvIfHandlerSend_ok p.origin env (hi.server l hlink) hlen
      have hp : Sound w.client p := hi.up hlink (by rw [hup]; exact List.mem_cons_self)
      -- 新しい connection の持つ conid と address は、message のものである
      have hnew : ∀ d ∈ s'.all, d ∈ l.server.all ∨
          (Bound w.client d.conid d.origAddr d.creator ∧ d.sendBuffer = []) := by
        intro d hd
        refine (hall d hd).imp_right ?_
        rintro ⟨m, addr, hread, rfl⟩
        obtain ⟨⟨hbytes, hm, -⟩, -⟩ := clientRecvIfHandlerRead_eq_ok.mp hread
        obtain rfl := (hp.wellFormed hi.table).bytes_inj hm hbytes
        exact ⟨hp.bound, rfl⟩
      refine ⟨{ w with link := some { l with up := rest, server := s' } }, by rw [hok]; rfl,
        hi.setLink (fun q hq => ?_) (fun q hq => hi.down hlink hq) (fun q hq => ?_) (fun c hc => ?_)
          hserver⟩
      · exact hi.up hlink (by rw [hup]; exact List.mem_cons_of_mem p hq)
      · obtain ⟨d, hd, horigin, hm⟩ := hq
        rcases hnew d hd with hold | ⟨-, hempty⟩
        · exact hi.sends hlink ⟨d, hold, horigin, hm⟩
        · rw [hempty] at hm
          cases hm
      · rcases hnew c hc with hold | ⟨hbound, -⟩
        · exact hi.bound hlink hold
        · exact hbound

/-- server の作る返事は、connection を作った message の送り元のためのものである。 -/
theorem WorldInv.server_step (hi : WorldInv cfg opts w) {e : Server.Event}
    (hstep : w.step cfg opts (.server e) = some x) : ∃ w', x = .ok w' ∧ WorldInv cfg opts w' := by
  rw [World.step] at hstep
  split at hstep
  next => cases hstep
  next l hlink =>
    obtain ⟨r, hr, rfl⟩ := Option.map_eq_some_iff.mp hstep
    obtain ⟨s', out, rfl, hserver, hfollows, hout⟩ := Server.step_ok (hi.server l hlink) hr
    refine ⟨_, rfl, hi.setLink (fun q hq => hi.up hlink hq) (fun q hq => ?_) (fun q hq => ?_)
      (fun d hd => ?_) hserver⟩
    · rcases List.mem_append.mp hq with hq | hq
      · exact hi.down hlink hq
      · exact hi.sends hlink (hout q (Option.mem_toList.mp hq))
    · obtain ⟨d, hd, horigin, hm⟩ := hq
      obtain ⟨c, hc, hcont⟩ := hfollows d hd
      rw [hcont.creator] at horigin
      rcases hcont.sendBuffer _ hm with hold | ⟨data, hreply⟩
      · exact hi.sends hlink ⟨c, hc, horigin, hold⟩
      · obtain ⟨origin, message⟩ := q
        subst horigin hreply
        exact replyMessage_sound (hi.bound hlink hc) data
    · obtain ⟨c, hc, hcont⟩ := hfollows d hd
      rw [hcont.conid, hcont.origAddr, hcont.creator]
      exact hi.bound hlink hc

/-- client の渡す組は、返事を作った connection の送り元である。 -/
theorem WorldInv.deliver (hi : WorldInv cfg opts w) (hstep : w.step cfg opts .deliver = some x) :
    ∃ w', x = .ok w' ∧ WorldInv cfg opts w' := by
  rw [World.step] at hstep
  split at hstep
  next => cases hstep
  next l hlink =>
    split at hstep
    next => cases hstep
    next p rest hdown =>
      obtain ⟨o', rfl, hs, hc⟩ := hi.client_step (by simp) hstep
      have hp : Sound w.client p := hi.down hlink (by rw [hdown]; exact List.mem_cons_self)
      refine ⟨_, rfl, Carries.worldInv hc (fun q hq => ?_) (fun c hmem => ?_) ?_ ?_⟩
      · rw [mem_parcels] at hq
        rcases hq with hq | hq | ⟨l', ⟨⟩, hq⟩
        · exact .inl hq
        · exact .inr (mem_parcels.mpr (.inr (.inl hq)))
        · refine .inr (mem_parcels.mpr (.inr (.inr ⟨l, hlink, ?_⟩)))
          rw [hdown]
          exact hq.imp_right (Or.imp_left (List.mem_cons_of_mem p))
      · obtain ⟨l', ⟨⟩, hmem⟩ := mem_serverConnections.mp hmem
        exact mem_serverConnections.mpr ⟨l, hlink, hmem⟩
      · rintro l' ⟨⟩
        exact hi.server l hlink
      · intro d hd
        rcases List.mem_append.mp hd with hd | hd
        · exact hi.deliveries d hd
        · cases hs with
          | @accepted _ h m hacc =>
            obtain rfl := (hp.wellFormed hi.table).bytes_inj hacc.wellFormed hacc.bytes
            have hnew : (w.client.delivered ++ [((w.client.con h).conaddr, p.message.payload)]).drop
                w.client.delivered.length = [((w.client.con h).conaddr, p.message.payload)] :=
                  List.drop_left
            rw [hnew, List.map_singleton, List.mem_singleton] at hd
            rw [hd]
            exact (hp.bound.accepts hi.table hacc).symm
          | rejected => simp at hd

theorem WorldInv.step (hi : WorldInv cfg opts w) {e : WorldEvent} (hkeep : w.NoStaleReuse cfg e)
    (hstep : w.step cfg opts e = some x) : ∃ w', x = .ok w' ∧ WorldInv cfg opts w' := by
  cases e with
  | submit l r isDns data alloc => exact hi.submit hkeep hstep
  | offer h =>
    obtain ⟨o', rfl, -, hc⟩ := hi.client_step (by simp) hstep
    exact ⟨_, rfl, hc.setClient hi⟩
  | drained h => exact hi.drained hstep
  | connect ok => exact hi.connect hstep
  | disconnect => exact hi.disconnect hstep
  | transmit => exact hi.transmit hstep
  | arrive env => exact hi.arrive hstep
  | server e => exact hi.server_step hstep
  | deliver => exact hi.deliver hstep

/-! ## run -/

/--
どの付け替えの時にも、その conid と remote の address を持って残っているものが新しい組のためのものだけなら、client の渡す返事は
どれも、同じ組への packet が作った connection のものである。
-/
theorem no_cross_flow_delivery (cfg : Config) (opts : Options) (es : List WorldEvent) (x : M World)
    (hkeep : Meets (guarded (World.step cfg opts)) (OkThen (World.NoStaleReuse cfg)) (.ok .init) es)
    (hrun : exec (guarded (World.step cfg opts)) (.ok .init) es = some x) :
    ∃ w, x = .ok w ∧ ∀ d ∈ w.deliveries, d.creator = d.conaddr := by
  obtain ⟨w, rfl, hi⟩ := exec_safe (fun _ _ _ hi hkeep hstep => hi.step hkeep hstep)
    (worldInv_init cfg opts) hkeep hrun
  exact ⟨w, rfl, hi.deliveries⟩

/-! ## 別の組に渡される返事 -/

namespace World

instance (cfg : Config) (o : UdpGwClient) (id : Nat) (remote : BAddr) (k : ConAddr) :
    ∀ e, Decidable (ReuseKeeps cfg o id remote k e)
  | .submit l r _ _ _ => inferInstanceAs (Decidable (findConnectionByConaddr o ⟨l, r⟩ = none →
      o.numConnections = cfg.limit →
      ∀ h ∈ o.connectionsList.head?, id = (o.con h).conid → remote = r → k = ⟨l, r⟩))
  | .received _ | .connect _ | .disconnect | .firstJob _ | .offer _ | .drained _ => .isTrue trivial

instance (cfg : Config) (w : World) : ∀ e, Decidable (w.NoStaleReuse cfg e)
  | .submit l r isDns data alloc => inferInstanceAs (Decidable (∀ i ∈ w.items,
      ReuseKeeps cfg w.client i.conid i.remoteAddr i.origin (.submit l r isDns data alloc)))
  | .offer _ | .drained _ | .connect _ | .disconnect | .transmit | .arrive _ | .server _
    | .deliver => .isTrue trivial

end World

/-- DNS server は無く、何も失敗しない。 -/
def calmEnv : Server.Env := ⟨none, none, true, true⟩

/-- packet を送ってから、server が返事を送り始めて送り終えるまで。 -/
def requestReply (localPort remotePort payload : UInt8) (h conid : Nat) : List WorldEvent :=
  [.submit (host localPort) (host remotePort) false [payload] .ok, .drained h, .transmit,
    .arrive calmEnv, .server (.offer conid), .server (.udpReceived conid [payload]),
    .server (.sending conid), .server (.sent conid)]

/-- 返事が届く前に、一つだけの connection が、同じ remote の別の local の address に付け替えられる。 -/
def staleRun : List WorldEvent :=
  [.connect true] ++ requestReply 1 9 7 0 0 ++ [.submit (host 2) (host 9) false [8] .ok, .deliver]

theorem cross_flow_delivery :
    ∃ w, exec (guarded (World.step oneConnection defaultOptions)) (.ok .init) staleRun =
      some (.ok w) ∧
      w.deliveries = [⟨⟨host 2, host 9⟩, ⟨host 1, host 9⟩⟩] :=
  exec_ok_exists (World.step oneConnection defaultOptions) .init staleRun
    (fun w => w.deliveries = [⟨⟨host 2, host 9⟩, ⟨host 1, host 9⟩⟩]) (by decide +kernel)

/-- 返事が届いてから、別の remote の address に付け替えられ、その返事も届く。 -/
def freshRun : List WorldEvent :=
  [.connect true] ++ requestReply 1 9 7 0 0 ++ [.deliver, .offer 0] ++ requestReply 2 8 6 0 0 ++
    [.deliver]

theorem no_cross_flow_delivery_freshRun :
    ∃ w, exec (guarded (World.step oneConnection defaultOptions)) (.ok .init) freshRun =
      some (.ok w) ∧
      w.deliveries = [⟨⟨host 1, host 9⟩, ⟨host 1, host 9⟩⟩, ⟨⟨host 2, host 8⟩, ⟨host 2, host 8⟩⟩] ∧
      ∀ d ∈ w.deliveries, d.creator = d.conaddr := by
  obtain ⟨w, hrun, hw⟩ := exec_ok_exists (World.step oneConnection defaultOptions) .init freshRun
    (fun w => w.deliveries = [⟨⟨host 1, host 9⟩, ⟨host 1, host 9⟩⟩,
      ⟨⟨host 2, host 8⟩, ⟨host 2, host 8⟩⟩])
    (by decide +kernel)
  obtain ⟨w', heq, hd⟩ := no_cross_flow_delivery oneConnection defaultOptions freshRun (.ok w)
    (by decide +kernel) hrun
  obtain rfl := Except.ok.inj heq
  exact ⟨w, hrun, hw, hd⟩

section Stale

variable {l r : BAddr} {h : Nat} {list : List Nat}

/-- 付け替えの一歩は、`h` の組だけを替える。 -/
theorem submitAndRun_reuse (ht : TableInv cfg o) (hnew : Unknown o ⟨l, r⟩)
    (hfull : o.numConnections = cfg.limit) (hlist : o.connectionsList = h :: list) :
    ∃ o', submitAndRun cfg o l r false [] .ok = some (.ok o') ∧ TableInv cfg o' ∧
      h ∈ o'.connectionsList ∧
      (o'.con h).conid = (o.con h).conid ∧ (o'.con h).conaddr = ⟨l, r⟩ ∧
        o'.haveServer = o.haveServer := by
  obtain ⟨t, hstep, ht'⟩ := step_reuse false [] .ok ht hnew hfull hlist (Nat.zero_le _)
  refine ⟨_, ?_, ht', List.mem_append_right _ List.mem_cons_self, ?_, conaddr_rebound o h _ _ _ _,
    rfl⟩
  · rw [submitAndRun, hstep]
    exact if_neg (Nat.lt_irrefl o.allocated)
  · rw [con_rebound_self, (send_keys _ _ _).2.1]
    rfl

/--
条件を満たさない付け替えのうち、前の組のための返事がすでに届いているものは、その返事を新しい組に渡させる。
-/
theorem stale_reply_misdelivered (hi : WorldInv cfg opts w) {link : Link}
    (hlink : w.link = some link) {rest : List Parcel} (hdown : link.down = p :: rest)
    (hserver : w.client.haveServer = true) (hlen : p.message.payload.length ≤ cfg.udpMtu)
    (hnew : Unknown w.client ⟨l, p.message.remoteAddr⟩)
    (hfull : w.client.numConnections = cfg.limit) (hlist : w.client.connectionsList = h :: list)
    (hid : p.message.conid = (w.client.con h).conid)
    (horigin : p.origin ≠ ⟨l, p.message.remoteAddr⟩) :
    ∃ w', exec (guarded (World.step cfg opts)) (.ok w)
        [.submit l p.message.remoteAddr false [] .ok, .deliver] = some (.ok w') ∧
      ∃ d ∈ w'.deliveries, d.creator ≠ d.conaddr := by
  obtain ⟨o₁, hsubmit, ht₁, hmem, hconid, hconaddr, hserver₁⟩ :=
    submitAndRun_reuse hi.table hnew hfull hlist
  have hp : Sound w.client p := hi.down hlink (by rw [hdown]; exact List.mem_cons_self)
  have hacc : Accepts cfg o₁ p.message.bytes h p.message :=
    ⟨rfl, hp.wellFormed hi.table, hlen, hmem, hconid.trans hid.symm, by rw [hconaddr]⟩
  have hmtu : p.message.bytes.length ≤ cfg.udpgwMtu := by
    have hsize := BAddr.size_le p.message.remoteAddr
    rw [Message.length_bytes, Config.udpgwMtu]
    omega
  obtain ⟨o₂, hrecv, hs₂⟩ := recvInterfaceHandlerSend_ok ht₁ (hserver₁.trans hserver) hmtu
  have hstep₂ : step cfg o₁ (.received p.message.bytes) = some (.ok o₂) := by
    rw [step, if_pos ⟨hserver₁.trans hserver, hmtu⟩, hrecv]
  have hrun₁ : guarded (World.step cfg opts) (.ok w) (.submit l p.message.remoteAddr false [] .ok) =
      some (.ok { w with client := o₁ }) := by
    show World.after (submitAndRun cfg w.client l p.message.remoteAddr false [] .ok) _ = _
    rw [hsubmit]
    rfl
  have hrun₂ : guarded (World.step cfg opts) (.ok { w with client := o₁ }) .deliver = some (.ok
      { w with
        client := o₂
        link := some { link with down := rest }
        deliveries := w.deliveries ++ (o₂.delivered.drop o₁.delivered.length).map fun d =>
          ⟨d.1, p.origin⟩ }) := by
    show World.step cfg opts { w with client := o₁ } .deliver = _
    rw [World.step]
    simp only [hlink, hdown]
    rw [hstep₂]
    rfl
  rw [exec_cons hrun₁, exec_cons hrun₂, exec_nil]
  refine ⟨_, rfl, ⟨⟨l, p.message.remoteAddr⟩, p.origin⟩, List.mem_append_right _ ?_, horigin⟩
  cases hs₂ with
  | rejected hrej => exact absurd hacc (hrej h p.message)
  | @accepted _ h' m hacc' =>
    have hm : p.message = m := hacc.wellFormed.bytes_inj hacc'.wellFormed hacc'.bytes
    obtain rfl := ht₁.conid_inj hacc'.mem hacc.mem (by rw [hacc'.conid, hacc.conid, hm])
    rw [List.drop_left, ← hconaddr]
    exact List.mem_singleton_self _

end Stale

end UdpGw
