import PsiphonVpn.UdpGw.Table

/-!
# 割り当ての知らせ

conid を新しい組に割り当てた時、server は `UDPGW_CLIENT_FLAG_REBIND` の付いた message でそれを知る。ところが割り当てる
ことと、最初の message を送信 buffer に入れることは別の一歩である。`reuse_connection` の後の `connection_send` は、
buffer に空きがなければ message を捨て、次の packet にはもう flag を付けない。

* `rebind_announced` — どの付け替えも `ReuseHasRoom` を満たす run では、知らせは失われない
-/

namespace UdpGw

open Infra Net

/-- 割り当ての後に送信 buffer に入った最初の message は、割り当てを知らせる。 -/
def Announces (b : Binding) : Prop := ∀ m ∈ b.placed.head?, m.flags &&& flagRebind ≠ 0

instance (b : Binding) : Decidable (Announces b) :=
  inferInstanceAs (Decidable (∀ m ∈ b.placed.head?, m.flags &&& flagRebind ≠ 0))

/-- 付け替えられる connection の buffer には空きがあるか、最初の job がまだ残っている。 -/
def ReuseHasRoom (cfg : Config) (o : UdpGwClient) : Event → Prop
  | .submit l r _ _ _ =>
    findConnectionByConaddr o ⟨l, r⟩ = none → o.numConnections = cfg.limit →
      ∀ h ∈ o.connectionsList.head?, (o.con h).outHave = true ∨ (o.con h).firstJob = true
  | _ => True

instance (cfg : Config) (o : UdpGwClient) : ∀ e, Decidable (ReuseHasRoom cfg o e)
  | .submit l r _ _ _ => inferInstanceAs (Decidable (findConnectionByConaddr o ⟨l, r⟩ = none →
      o.numConnections = cfg.limit →
      ∀ h ∈ o.connectionsList.head?, (o.con h).outHave = true ∨ (o.con h).firstJob = true))
  | .received _ | .connect _ | .disconnect | .firstJob _ | .offer _ | .drained _ => .isTrue trivial

/-! ## flag -/

theorem and_or_distrib_right (f g r : UInt8) : (f ||| g) &&& r = (f &&& r) ||| (g &&& r) := by
  apply UInt8.toBitVec_inj.mp
  simp only [UInt8.toBitVec_and, UInt8.toBitVec_or]
  exact BitVec.and_or_distrib_right

theorem or_rebind (flags : UInt8) : (flags ||| flagRebind) &&& flagRebind ≠ 0 := by
  rw [and_or_distrib_right, ne_eq, UInt8.or_eq_zero_iff]
  exact fun h => absurd h.2 (by decide)

theorem message_rebind (c : Connection) (flags : UInt8) (data : List UInt8) :
    (c.message flags data).flags &&& flagRebind = flags &&& flagRebind := by
  unfold Connection.message
  split
  next =>
    rw [and_or_distrib_right, show flagIpv6 &&& flagRebind = 0 by decide, UInt8.or_zero]
  next => rfl

theorem message_or_rebind (c : Connection) (flags : UInt8) (data : List UInt8) :
    (c.message (flags ||| flagRebind) data).flags &&& flagRebind ≠ 0 := by
  rw [message_rebind]
  exact or_rebind flags

/-! ## connection ごとの不変量 -/

/-- 知らせはまだ失われておらず、失われることもない。 -/
structure Announced (c : Connection) : Prop where
  bindings : ∀ b ∈ c.bindings, Announces b
  /-- 今の割り当てがまだ知らされていないなら、flag を付けて送る最初の job が残っている。 -/
  pending : c.placed = [] → c.firstJob = true
  firstJob : c.firstJob = true → c.outHave = false

variable {cfg : Config} {o o' : UdpGwClient} {h : Nat} {k : ConAddr} {c : Connection}

theorem announces_nil (k : ConAddr) : Announces ⟨k, []⟩ := by
  intro m hm
  cases hm

/-- すでに知らされた割り当てに message を足しても、最初の message は変わらない。 -/
theorem announces_append {l : List Message} {m : Message} (hl : Announces ⟨k, l⟩)
    (hm : l = [] → m.flags &&& flagRebind ≠ 0) : Announces ⟨k, l ++ [m]⟩ := by
  cases l with
  | nil =>
    intro m' hm'
    obtain rfl := Option.some.inj hm'
    exact hm rfl
  | cons m₀ l => exact hl

variable {flags : UInt8} {data : List UInt8}

theorem send_full (hbuf : c.outHave = false) : c.send flags data = c := by
  unfold Connection.send
  rw [if_neg (by simp [hbuf])]

theorem send_room (hbuf : c.outHave = true) :
    c.send flags data =
      { c with
        outHave := false
        sendBuffer := c.sendBuffer ++ [c.message flags data]
        placed := c.placed ++ [c.message flags data] } := if_pos hbuf

/-- 送ったものが割り当ての最初の message になるなら、flag を持っていなければならない。 -/
theorem announced_place (hb : ∀ b ∈ c.bindings, Announces b) (hbuf : c.outHave = true)
    (hflag : c.placed = [] → (c.message flags data).flags &&& flagRebind ≠ 0) :
    Announced (c.send flags data) := by
  rw [send_room hbuf]
  refine ⟨fun b hmem => ?_, fun hnil => absurd hnil (by simp), fun _ => rfl⟩
  rcases List.mem_cons.mp hmem with rfl | hmem
  · exact announces_append (hb _ List.mem_cons_self) hflag
  · exact hb b (List.mem_cons_of_mem _ hmem)

theorem Announced.send (hc : Announced c) (flags : UInt8) (data : List UInt8) :
    Announced (c.send flags data) := by
  by_cases hbuf : c.outHave = true
  · -- 書き込み先があるなら最初の job は済んでいて、今の割り当てはもう知らされている
    refine announced_place hc.bindings hbuf fun hnil => ?_
    rw [hc.firstJob (hc.pending hnil)] at hbuf
    cases hbuf
  · rw [send_full (by simpa using hbuf)]
    exact hc

theorem Announced.runFirstJob (hc : Announced c) (flags : UInt8) (data : List UInt8) :
    Announced (c.startFirstJob.send (flagRebind ||| flags) data) := by
  refine announced_place hc.bindings rfl fun _ => ?_
  rw [UInt8.or_comm]
  exact message_or_rebind _ _ _

theorem Announced.rebind (hc : Announced c) (hroom : c.outHave = true ∨ c.firstJob = true)
    (k : ConAddr) (flags : UInt8) (data : List UInt8) :
    Announced ((c.rebind k).send (flags ||| flagRebind) data) := by
  have hb : ∀ b ∈ (c.rebind k).bindings, Announces b := by
    intro b hmem
    rcases List.mem_cons.mp hmem with rfl | hmem
    · exact announces_nil k
    · exact hc.bindings b hmem
  by_cases hbuf : c.outHave = true
  · exact announced_place hb hbuf fun _ => message_or_rebind _ _ _
  · have hjob : c.firstJob = true := hroom.resolve_left hbuf
    rw [send_full (c := c.rebind k) (hc.firstJob hjob)]
    exact ⟨hb, fun _ => hjob, hc.firstJob⟩

theorem announced_fresh (k : ConAddr) (id : Nat) (flags : UInt8) (data : List UInt8) :
    Announced (.fresh k id flags data) := by
  refine ⟨fun b hmem => ?_, fun _ => rfl, fun _ => rfl⟩
  obtain rfl := List.mem_singleton.mp hmem
  exact announces_nil k

/-! ## 一歩と run -/

structure AnnouncedInv (cfg : Config) (o : UdpGwClient) : Prop where
  table : TableInv cfg o
  announced : ∀ h ∈ o.connectionsList, Announced (o.con h)

theorem announced_step {e : Event} (hi : AnnouncedInv cfg o) (hroom : ReuseHasRoom cfg o e)
    (hs : Step cfg o e o') : ∀ h ∈ o'.connectionsList, Announced (o'.con h) := by
  obtain ⟨ht, ha⟩ := hi
  intro h hmem'
  have hcon := hs.con ht h hmem'
  generalize o'.con h = c at hcon ⊢
  cases hcon with
  | same hmem => exact ha h hmem
  | created => exact announced_fresh _ _ _ _
  | sent hmem => exact (ha h hmem).send _ _
  | rebound hmem hhead hnew hfull =>
    exact (ha h hmem).rebind (hroom (ht.find_conaddr_none.mpr hnew) hfull h hhead) _ _ _
  | firstJob hmem => exact (ha h hmem).runFirstJob _ _
  | offer hmem hjob =>
    have hc := ha h hmem
    refine ⟨hc.bindings, hc.pending, fun hjob' => ?_⟩
    rw [show (o.con h).firstJob = true from hjob'] at hjob
    cases hjob
  | drained hmem => exact ⟨(ha h hmem).bindings, (ha h hmem).pending, (ha h hmem).firstJob⟩

theorem announcedInv_step_ok {e : Event} {r : M UdpGwClient} (hi : AnnouncedInv cfg o)
    (hroom : ReuseHasRoom cfg o e) (hstep : step cfg o e = some r) :
    ∃ o', r = .ok o' ∧ AnnouncedInv cfg o' := by
  obtain ⟨o', rfl, hs⟩ := step_ok hi.table hstep
  exact ⟨o', rfl, tableInv_step hi.table hs, announced_step hi hroom hs⟩

/--
どの付け替えでも buffer に空きがあるか最初の job が残っている run では、どの割り当ても、buffer に入った最初の
message で知らされる。
-/
theorem rebind_announced (cfg : Config) (es : List Event) (r : M UdpGwClient)
    (hroom : Meets (guarded (step cfg)) (OkThen (ReuseHasRoom cfg)) (.ok .init) es)
    (hrun : exec (guarded (step cfg)) (.ok .init) es = some r) :
    ∃ o, r = .ok o ∧ ∀ h ∈ o.connectionsList, ∀ b ∈ (o.con h).bindings, Announces b := by
  have hinit : AnnouncedInv cfg .init := ⟨tableInv_init cfg, by simp [UdpGwClient.init]⟩
  obtain ⟨o, rfl, hi⟩ := exec_safe (fun _ _ _ => announcedInv_step_ok) hinit hroom hrun
  exact ⟨o, rfl, fun h hmem => (hi.announced h hmem).bindings⟩

/-- 一つだけの connection。 -/
def oneConnection : Config where
  udpMtu := 1
  maxConnections := 1
  maxConnections_pos := Nat.zero_lt_one

def host6 (port : UInt8) : BAddr :=
  .ipv6 #v[0, 0, 0, 0, 0, 0, 0, 0, 0, 0, 0, 0, 0, 0, 0, port] #v[1, port]

/-- buffer に空きができてから付け替える。 -/
def roomyRun : List Event :=
  [.submit (host6 1) (host6 2) false [1] .ok, .firstJob 0, .offer 0,
    .submit (host6 1) (host6 3) true [2] .ok, .connect true, .drained 0, .offer 0,
    .submit (host6 1) (host6 3) true [3] .ok]

theorem rebind_announced_roomyRun :
    ∃ o, exec (guarded (step oneConnection)) (.ok .init) roomyRun = some (.ok o) ∧
      (o.con 0).bindings.map (fun b => b.placed.length) = [2, 1] ∧
      ∀ h ∈ o.connectionsList, ∀ b ∈ (o.con h).bindings, Announces b := by
  obtain ⟨o, hrun, hlen⟩ := exec_ok_exists (step oneConnection) .init roomyRun
    (fun o => (o.con 0).bindings.map (fun b => b.placed.length) = [2, 1]) (by decide +kernel)
  obtain ⟨o', heq, ha⟩ := rebind_announced oneConnection roomyRun (.ok o) (by decide +kernel) hrun
  obtain rfl := Except.ok.inj heq
  exact ⟨o, hrun, hlen, ha⟩

/-! ## 知らせの失われる run -/

/--
server と繋がっていない間に二つの message で buffer が埋まり、別の組の packet が connection を付け替えるが、その
message は捨てられる。buffer に空きができた後の packet は、flag を持たない。
-/
def lossyRun : List Event :=
  [.submit (host6 1) (host6 2) false [1] .ok, .firstJob 0, .offer 0,
    .submit (host6 1) (host6 2) false [2] .ok, .submit (host6 1) (host6 3) false [3] .ok,
    .connect true, .drained 0, .offer 0, .submit (host6 1) (host6 3) false [4] .ok]

theorem rebind_lost :
    ∃ o, exec (guarded (step oneConnection)) (.ok .init) lossyRun = some (.ok o) ∧
      ∃ b ∈ (o.con 0).bindings, ¬ Announces b :=
  exec_ok_exists (step oneConnection) .init lossyRun
    (fun o => ∃ b ∈ (o.con 0).bindings, ¬ Announces b) (by decide +kernel)

section Full

variable {l r : BAddr} {rest : List Nat}

/-- 空きのない付け替えは、組を替えるだけで何も送らない。 -/
theorem submit_full (hi : TableInv cfg o) (hnew : Unknown o ⟨l, r⟩)
    (hfull : o.numConnections = cfg.limit) (hlist : o.connectionsList = h :: rest)
    (hbuf : (o.con h).outHave = false) :
    ∃ o', step cfg o (.submit l r false [] .ok) = some (.ok o') ∧ TableInv cfg o' ∧
      h ∈ o'.connectionsList ∧ o'.con h = (o.con h).rebind ⟨l, r⟩ := by
  obtain ⟨t, hstep, hi'⟩ := step_reuse false [] .ok hi hnew hfull hlist (Nat.zero_le _)
  refine ⟨_, hstep, hi', List.mem_append_right _ List.mem_cons_self, ?_⟩
  rw [con_rebound_self]
  exact send_full hbuf

/-- 書き込み先があれば、知っている組の packet は flag を持たずに buffer に入る。 -/
theorem submit_known (hi : TableInv cfg o) (hmem : h ∈ o.connectionsList)
    (hpair : (o.con h).conaddr = ⟨l, r⟩) (hbuf : (o.con h).outHave = true) :
    ∃ o', step cfg o (.submit l r false [] .ok) = some (.ok o') ∧
      (o'.con h).conaddr = (o.con h).conaddr ∧
      (o'.con h).placed = (o.con h).placed ++ [(o.con h).message (dnsFlags false) []] := by
  have hlen : ([] : List UInt8).length ≤ cfg.udpMtu := Nat.zero_le _
  obtain ⟨o', hok, hs⟩ : ∃ o', submitPacket cfg o l r false [] .ok = .ok o' ∧
      Step cfg o (.submit l r false [] .ok) o' := submitPacket_ok hi hlen
  refine ⟨o', by simp only [step, if_pos hlen, hok], ?_⟩
  cases hs with
  | hit hmem' hpair' =>
    obtain rfl := hi.conaddr_inj hmem' hmem (hpair'.trans hpair.symm)
    unfold UdpGwClient.sendOn
    rw [con_setCon_self]
    show ((o.con _).send _ _).conaddr = _ ∧ ((o.con _).send _ _).placed = _
    rw [send_room hbuf]
    exact ⟨rfl, rfl⟩
  | create hnew => exact absurd hpair (hnew h hmem)
  | createFails hnew => exact absurd hpair (hnew h hmem)
  | rebind hnew => exact absurd hpair (hnew h hmem)

/-- 条件を満たさない付け替えの後に、書き込み先が渡されてから同じ組の packet を送れば、知らせは失われる。 -/
theorem rebind_lost_of_full (hi : TableInv cfg o) (hnew : Unknown o ⟨l, r⟩)
    (hfull : o.numConnections = cfg.limit) (hlist : o.connectionsList = h :: rest)
    (hbuf : (o.con h).outHave = false) (hjob : (o.con h).firstJob = false) :
    ∃ o', exec (guarded (step cfg)) (.ok o)
        [.submit l r false [] .ok, .offer h, .submit l r false [] .ok] = some (.ok o') ∧
      ∃ b ∈ (o'.con h).bindings, ¬ Announces b := by
  obtain ⟨o₁, hstep₁, hi₁, hmem₁, hcon₁⟩ := submit_full hi hnew hfull hlist hbuf
  have hguard : h ∈ o₁.connectionsList ∧ (o₁.con h).firstJob = false ∧
      (o₁.con h).outHave = false := by
    rw [hcon₁]
    exact ⟨hmem₁, hjob, hbuf⟩
  obtain ⟨c₂, hc₂⟩ : ∃ c₂, c₂ = { o₁.con h with outHave := true } := ⟨_, rfl⟩
  have hstep₂ : step cfg o₁ (.offer h) = some (.ok (o₁.setCon h c₂)) := by
    rw [hc₂]
    exact if_pos hguard
  obtain ⟨o₂, hi₂', hs₂⟩ := step_ok hi₁ hstep₂
  obtain rfl := Except.ok.inj hi₂'
  have hi₂ := tableInv_step hi₁ hs₂
  have hcon₂ : (o₁.setCon h c₂).con h = { (o.con h).rebind ⟨l, r⟩ with outHave := true } := by
    rw [con_setCon_self, hc₂, hcon₁]
  have hpair₂ : ((o₁.setCon h c₂).con h).conaddr = ⟨l, r⟩ := by rw [hcon₂]; rfl
  have hbuf₂ : ((o₁.setCon h c₂).con h).outHave = true := by rw [hcon₂]
  obtain ⟨o₃, hstep₃, hpair₃, hplaced₃⟩ := submit_known hi₂ hmem₁ hpair₂ hbuf₂
  refine ⟨o₃, ?_, ⟨(o₃.con h).conaddr, (o₃.con h).placed⟩, List.mem_cons_self, fun ha => ?_⟩
  · have hrun₁ : guarded (step cfg) (.ok o) (.submit l r false [] .ok) = some (.ok o₁) := hstep₁
    have hrun₂ : guarded (step cfg) (.ok o₁) (.offer h) = some (.ok (o₁.setCon h c₂)) := hstep₂
    have hrun₃ : guarded (step cfg) (.ok (o₁.setCon h c₂)) (.submit l r false [] .ok) =
        some (.ok o₃) :=
      hstep₃
    rw [exec_cons hrun₁, exec_cons hrun₂, exec_cons hrun₃, exec_nil]
  · have hnil : ((o₁.setCon h c₂).con h).placed = [] := by rw [hcon₂]; rfl
    rw [hnil, List.nil_append] at hplaced₃
    refine ha _ (by rw [hplaced₃]; rfl) ?_
    rw [message_rebind]
    decide

end Full

end UdpGw
