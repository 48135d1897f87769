import PsiphonVpn.UdpGw.Formats

/-!
# message の送り元

一つの conid は、付け替えのたびに別の組のものになる。送信 buffer の message がどの組のために送られたかは、message の中身
からは分からない。ここでは、connection の記録から、buffer の各 message をその送り元の組と並べて取り出す。
-/

namespace UdpGw

open Infra Net

/-- message と、それを送らせた packet の組。 -/
structure Parcel where
  origin : ConAddr
  message : Message
  deriving DecidableEq, Repr

/-- これまでに送信 buffer に入った message。 -/
def Connection.history (c : Connection) : List Parcel :=
  c.bindings.reverse.flatMap fun b => b.placed.map fun m => ⟨b.conaddr, m⟩

/-- 送信 buffer に残っている message。 -/
def Connection.waiting (c : Connection) : List Parcel :=
  c.history.drop (c.history.length - c.sendBuffer.length)

def UdpGwClient.waiting (o : UdpGwClient) : List Parcel :=
  o.connectionsList.flatMap fun h => (o.con h).waiting

/-- 送信 buffer は、入った message の並びの後ろの部分である。 -/
structure Buffered (c : Connection) : Prop where
  sendBuffer : c.waiting.map Parcel.message = c.sendBuffer
  firstFlags : c.firstFlags &&& flagIpv6 = 0

/-- `c` の今の組のために書かれた、正しい message。 -/
structure Fresh (c : Connection) (p : Parcel) : Prop where
  origin : p.origin = c.conaddr
  conid : p.message.conid = c.conid
  remoteAddr : p.message.remoteAddr = c.conaddr.remoteAddr
  ipv6 : p.message.flags &&& flagIpv6 ≠ 0 ↔ p.message.remoteAddr.type = 2

variable {c : Connection} {flags : UInt8} {data : List UInt8}

/-! ## 送信 buffer の変化 -/

theorem Buffered.length_eq (h : Buffered c) : c.waiting.length = c.sendBuffer.length := by
  rw [← h.sendBuffer, List.length_map]

theorem Buffered.length_le (h : Buffered c) : c.sendBuffer.length ≤ c.history.length := by
  have hlen := h.length_eq
  rw [Connection.waiting, List.length_drop] at hlen
  omega

theorem history_room (hroom : c.outHave = true) :
    (c.send flags data).history = c.history ++ [⟨c.conaddr, c.message flags data⟩] := by
  rw [send_room hroom]
  simp [Connection.history, Connection.bindings]

theorem history_rebind (c : Connection) (k : ConAddr) : (c.rebind k).history = c.history := by
  simp [Connection.history, Connection.bindings, Connection.rebind]

theorem waiting_room (h : Buffered c) (hroom : c.outHave = true) (flags : UInt8)
    (data : List UInt8) :
    (c.send flags data).waiting = c.waiting ++ [⟨c.conaddr, c.message flags data⟩] := by
  have hle := h.length_le
  have hlen : (c.send flags data).sendBuffer.length = c.sendBuffer.length + 1 := by
    rw [send_room hroom, List.length_append, List.length_singleton]
  rw [Connection.waiting, history_room hroom, hlen, List.length_append, List.length_singleton,
    Nat.add_sub_add_right, List.drop_append_of_le_length (Nat.sub_le _ _), ← Connection.waiting]

theorem waiting_rebind (c : Connection) (k : ConAddr) : (c.rebind k).waiting = c.waiting := by
  rw [Connection.waiting, history_rebind]
  rfl

theorem waiting_drained (h : Buffered c) :
    Connection.waiting { c with sendBuffer := c.sendBuffer.tail } = c.waiting.tail := by
  have hle := h.length_le
  have hhistory : Connection.history { c with sendBuffer := c.sendBuffer.tail } = c.history := rfl
  rw [Connection.waiting, hhistory, Connection.waiting, List.tail_drop]
  cases hbuf : c.sendBuffer with
  | nil => simp
  | cons m rest =>
    rw [hbuf, List.length_cons] at hle
    congr 1
    simp only [List.tail_cons, List.length_cons]
    omega

theorem message_fresh (hflags : flags &&& flagIpv6 = 0) :
    Fresh c ⟨c.conaddr, c.message flags data⟩ := by
  refine ⟨rfl, rfl, rfl, ?_⟩
  show withIpv6 c.conaddr.remoteAddr flags &&& flagIpv6 ≠ 0 ↔ c.conaddr.remoteAddr.type = 2
  cases c.conaddr.remoteAddr with
  | ipv4 ip port => simp [withIpv6_ipv4, hflags, BAddr.type]
  | ipv6 ip port =>
    rw [withIpv6_ipv6, and_or_distrib_right, hflags, BAddr.type]
    decide

/-! ## 一歩 -/

/-- `old` は、前にどれかの buffer にあった message。 -/
structure Evolves (old : List Parcel) (c : Connection) : Prop where
  buffered : Buffered c
  waiting : ∀ p ∈ c.waiting, p ∈ old ∨ Fresh c p

variable {p : Parcel} {h : Nat}

section Step

variable {old : List Parcel}

theorem Fresh.congr {c' : Connection} (h : Fresh c p) (haddr : c'.conaddr = c.conaddr)
    (hid : c'.conid = c.conid) : Fresh c' p :=
  ⟨by rw [haddr]; exact h.origin, by rw [hid]; exact h.conid, by rw [haddr]; exact h.remoteAddr,
    h.ipv6⟩

theorem Buffered.evolves (h : Buffered c) (hold : ∀ p ∈ c.waiting, p ∈ old) : Evolves old c :=
  ⟨h, fun p hp => .inl (hold p hp)⟩

theorem Evolves.send (h : Evolves old c) (hflags : flags &&& flagIpv6 = 0) (data : List UInt8) :
    Evolves old (c.send flags data) := by
  by_cases hroom : c.outHave = true
  · have hwaiting := waiting_room h.buffered hroom flags data
    have hkeys := send_keys c flags data
    constructor
    · refine ⟨?_, ?_⟩
      · rw [hwaiting, List.map_append, h.buffered.sendBuffer, send_room hroom]
        rfl
      · rw [send_room hroom]
        exact h.buffered.firstFlags
    · intro p hp
      rw [hwaiting] at hp
      rcases List.mem_append.mp hp with hp | hp
      · exact (h.waiting p hp).imp_right fun hf => hf.congr hkeys.1 hkeys.2.1
      · rw [List.mem_singleton.mp hp]
        exact .inr ((message_fresh hflags).congr hkeys.1 hkeys.2.1)
  · rw [send_full (by simpa using hroom)]
    exact h

theorem Buffered.rebind (h : Buffered c) (k : ConAddr) : Buffered (c.rebind k) :=
  ⟨by rw [waiting_rebind]; exact h.sendBuffer, h.firstFlags⟩

theorem Buffered.drained (h : Buffered c) : Buffered { c with sendBuffer := c.sendBuffer.tail } :=
  ⟨by rw [waiting_drained h, List.map_tail, h.sendBuffer], h.firstFlags⟩

theorem dnsFlags_ipv6 (isDns : Bool) : dnsFlags isDns &&& flagIpv6 = 0 := by
  cases isDns <;> decide

theorem rebindFlags_ipv6 (isDns : Bool) : (dnsFlags isDns ||| flagRebind) &&& flagIpv6 = 0 := by
  cases isDns <;> decide

theorem buffered_fresh (k : ConAddr) (id : Nat) (isDns : Bool) (data : List UInt8) :
    Buffered (.fresh k id (dnsFlags isDns) data) := ⟨rfl, dnsFlags_ipv6 isDns⟩

variable {cfg : Config} {o o' : UdpGwClient}

theorem mem_waiting (hmem : h ∈ o.connectionsList) (hp : p ∈ (o.con h).waiting) : p ∈ o.waiting :=
  List.mem_flatMap.mpr ⟨h, hmem, hp⟩

/-- どの一歩も、buffer には今の組のための message だけを加える。 -/
theorem evolves_step {e : Event} (ht : TableInv cfg o)
    (hb : ∀ h ∈ o.connectionsList, Buffered (o.con h)) (hs : Step cfg o e o') :
    ∀ h ∈ o'.connectionsList, Evolves o.waiting (o'.con h) := by
  have hsame : ∀ h ∈ o.connectionsList, Evolves o.waiting (o.con h) :=
    fun h hmem => (hb h hmem).evolves fun p hp => mem_waiting hmem hp
  intro h hmem'
  have hcon := hs.con ht h hmem'
  generalize o'.con h = c at hcon ⊢
  cases hcon with
  | same hmem => exact hsame h hmem
  | created => exact (buffered_fresh _ _ _ _).evolves fun p hp => absurd hp List.not_mem_nil
  | sent hmem => exact (hsame h hmem).send (dnsFlags_ipv6 _) _
  | @rebound l r isDns data _ hmem =>
    have hc : Evolves o.waiting ((o.con h).rebind ⟨l, r⟩) := by
      refine ((hb h hmem).rebind ⟨l, r⟩).evolves fun p hp => ?_
      rw [waiting_rebind] at hp
      exact mem_waiting hmem hp
    exact hc.send (rebindFlags_ipv6 isDns) data
  | firstJob hmem =>
    have hc : Evolves o.waiting (o.con h).startFirstJob :=
      Buffered.evolves ⟨(hb h hmem).sendBuffer, (hb h hmem).firstFlags⟩ fun p hp =>
        mem_waiting hmem hp
    have hflags : (flagRebind ||| (o.con h).firstFlags) &&& flagIpv6 = 0 := by
      rw [and_or_distrib_right, (hb h hmem).firstFlags]
      decide
    exact hc.send hflags _
  | offer hmem =>
    exact Buffered.evolves ⟨(hb h hmem).sendBuffer, (hb h hmem).firstFlags⟩ fun p hp =>
      mem_waiting hmem hp
  | drained hmem =>
    refine (hb h hmem).drained.evolves fun p hp => ?_
    rw [waiting_drained (hb h hmem)] at hp
    exact mem_waiting hmem (List.mem_of_mem_tail hp)

end Step

/-! ## conid の割り当て -/

/-- conid `id` を持つ connection があり、それが今 remote の address `remote` に割り当てられているなら、その組は `k` である。 -/
def Bound (o : UdpGwClient) (id : Nat) (remote : BAddr) (k : ConAddr) : Prop :=
  ∃ h ∈ o.connectionsList, (o.con h).conid = id ∧
    ((o.con h).conaddr.remoteAddr = remote → (o.con h).conaddr = k)

/-- 付け替えられる conid と remote の address を持つものは、どれも新しい組のためのものである。 -/
def ReuseKeeps (cfg : Config) (o : UdpGwClient) (id : Nat) (remote : BAddr) (k : ConAddr) : Event →
    Prop
  | .submit l r _ _ _ =>
    findConnectionByConaddr o ⟨l, r⟩ = none → o.numConnections = cfg.limit →
      ∀ h ∈ o.connectionsList.head?, id = (o.con h).conid → remote = r → k = ⟨l, r⟩
  | _ => True

section Bound

variable {cfg : Config} {o o' : UdpGwClient} {id : Nat} {remote : BAddr} {k : ConAddr}

theorem bound_of_fresh (hmem : h ∈ o.connectionsList) (hp : Fresh (o.con h) p) :
    Bound o p.message.conid p.message.remoteAddr p.origin :=
  ⟨h, hmem, hp.conid.symm, fun _ => hp.origin.symm⟩

theorem Bound.same (hb : Bound o id remote k) (hs : SameTable o o') : Bound o' id remote k := by
  obtain ⟨h, hmem, hid, hk⟩ := hb
  refine ⟨h, hs.list.mem_iff.mpr hmem, (hs.conid h).trans hid, ?_⟩
  rw [hs.conaddr]
  exact hk

theorem Bound.step {e : Event} (ht : TableInv cfg o) (hb : Bound o id remote k)
    (hkeep : ReuseKeeps cfg o id remote k e) (hs : Step cfg o e o') : Bound o' id remote k := by
  by_cases hnew : ∃ l r isDns data alloc, e = .submit l r isDns data alloc ∧ Unknown o ⟨l, r⟩
  · obtain ⟨l, r, isDns, data, alloc, rfl, hnew⟩ := hnew
    obtain ⟨h, hmem, hid, hk⟩ := hb
    cases hs with
    | hit hmem' hpair => exact absurd hpair (hnew _ hmem')
    | @create _ _ _ _ _ id' t₁ t₂ =>
      refine ⟨h, List.mem_append_left _ hmem, ?_⟩
      show (Function.update o.con o.allocated _ h).conid = id ∧ _
      have hcon : ((o.allocate id' (.fresh ⟨l, r⟩ id' (dnsFlags isDns) data)).link t₁ t₂
          o.allocated).con h = o.con h :=
        Function.update_of_ne (ne_of_mem_of_not_mem hmem ht.fresh_notMem) _ _
      exact ⟨by rw [← hid, ← hcon]; rfl, by rw [hcon]; exact hk⟩
    | createFails => exact ⟨h, hmem, hid, hk⟩
    | @rebind _ _ _ _ _ h₀ rest t _ hfull hlist _ =>
      have hmem₀ : h₀ ∈ (o.rebind h₀ ⟨l, r⟩ t).connectionsList := mem_of_list hlist
      refine ⟨h, (move_perm hmem₀).mem_iff.mpr hmem, ?_⟩
      rcases eq_or_ne h h₀ with rfl | hne
      · have hconid :
            ((((o.rebind h ⟨l, r⟩ t).move h).sendOn h
              (dnsFlags isDns ||| flagRebind) data).con h).conid = id := by
          rw [con_rebound_self, (send_keys _ _ _).2.1]
          exact hid
        refine ⟨hconid, ?_⟩
        rw [conaddr_rebound]
        intro hremote
        have hhead : h ∈ o.connectionsList.head? := by rw [hlist]; rfl
        exact (hkeep (ht.find_conaddr_none.mpr hnew) hfull h hhead hid.symm hremote.symm).symm
      · rw [con_rebound_of_ne hne]
        exact ⟨hid, hk⟩
  · exact hb.same (hs.sameTable hnew)

/-- 受け入れた message の持つ conid と address は、宛先の組を決める。 -/
theorem Bound.accepts (ht : TableInv cfg o) {m : Message} (hacc : Accepts cfg o data h m)
    (hb : Bound o m.conid m.remoteAddr k) : (o.con h).conaddr = k := by
  obtain ⟨h', hmem, hid, hk⟩ := hb
  obtain rfl := ht.conid_inj hacc.mem hmem (hacc.conid.trans hid.symm)
  exact hk hacc.remoteAddr

end Bound

end UdpGw
