import PsiphonVpn.UdpGw.Model

/-!
# connection の表

address の組の木、conid の木、list の三つは同じ connection を持つ。この不変量の下では、どの関数も故障せず、
一歩の結果は `Step` の一つの場合になる。後の証明は関数の中を見ず、`Step` の場合分けだけを使う。

* `TableInv` — 三つの構造と `num_connections`・`next_conid` の不変量
* `Step` — 一歩に起こりうること
* `step_ok` — 不変量の下で、一歩は故障せず `Step` に従う
* `tableInv_step` — `Step` は不変量を保つ
* `TableInv.freeConnections` — `UdpGwClient_Free` は三つの構造を空にする
* `table_consistent` — どの run でも、表は矛盾しない
-/

namespace UdpGw

open Infra Net

theorem ConAddr.comparator_eq : ConAddr.comparator =
    compareLex (compareOn ConAddr.remoteAddr) (compareOn ConAddr.localAddr) := rfl

instance : Std.TransCmp ConAddr.comparator := by
  rw [ConAddr.comparator_eq]
  infer_instance

instance : Std.LawfulEqCmp ConAddr.comparator where
  eq_of_compare {a b} h := by
    simp only [ConAddr.comparator, Ordering.then_eq_eq, BAddr.compareOrder_eq_iff] at h
    cases a
    cases b
    obtain ⟨rfl, rfl⟩ := h
    rfl

theorem Config.limit_pos (cfg : Config) : 0 < cfg.limit := by
  have := cfg.maxConnections_pos
  unfold limit
  split <;> omega

theorem Config.limit_le (cfg : Config) : cfg.limit ≤ 65536 := by
  unfold limit
  split <;> omega

theorem uint16_of_lt {cfg : Config} {n : Nat} (h : n < cfg.limit) : uint16 n = n :=
  Nat.mod_eq_of_lt (lt_of_lt_of_le h cfg.limit_le)

/-! ## 不変量 -/

structure TableInv (cfg : Config) (o : UdpGwClient) : Prop where
  byConaddr : SearchTree.Ordered ConAddr.comparator (fun h => (o.con h).conaddr) o.treeByConaddr
  byConid : SearchTree.Ordered compare (fun h => (o.con h).conid) o.treeByConid
  permConaddr : o.treeByConaddr.Perm o.connectionsList
  permConid : o.treeByConid.Perm o.connectionsList
  nodup : o.connectionsList.Nodup
  conid_lt : ∀ h ∈ o.connectionsList, (o.con h).conid < cfg.limit
  num : o.numConnections = o.connectionsList.length
  num_le : o.numConnections ≤ cfg.limit
  next_lt : o.nextConid < cfg.limit
  allocated : ∀ h ∈ o.connectionsList, h < o.allocated
  firstData : ∀ h ∈ o.connectionsList, (o.con h).firstData.length ≤ cfg.udpMtu

theorem tableInv_init (cfg : Config) : TableInv cfg .init where
  byConaddr := SearchTree.ordered_nil
  byConid := SearchTree.ordered_nil
  permConaddr := .refl _
  permConid := .refl _
  nodup := List.nodup_nil
  conid_lt := by simp [UdpGwClient.init]
  num := rfl
  num_le := Nat.zero_le _
  next_lt := cfg.limit_pos
  allocated := by simp [UdpGwClient.init]
  firstData := by simp [UdpGwClient.init]

/-- どの connection も組 `k` を持たない。 -/
def Unknown (o : UdpGwClient) (k : ConAddr) : Prop :=
  ∀ h ∈ o.connectionsList, (o.con h).conaddr ≠ k

variable {cfg : Config} {o o' : UdpGwClient} {h : Nat} {k : ConAddr}

variable {id h' : Nat} {rest t : List Nat} {flags : UInt8} {c : Connection} {e : Event}

namespace TableInv

theorem find_conaddr (hi : TableInv cfg o) :
    findConnectionByConaddr o k = some h ↔ h ∈ o.connectionsList ∧ (o.con h).conaddr = k := by
  rw [← hi.permConaddr.mem_iff]
  exact hi.byConaddr.lookup_eq_some

theorem find_conaddr_none (hi : TableInv cfg o) :
    findConnectionByConaddr o k = none ↔ Unknown o k := by
  unfold Unknown
  simp only [← hi.permConaddr.mem_iff]
  exact hi.byConaddr.lookup_eq_none

theorem find_conid (hi : TableInv cfg o) :
    findConnectionByConid o id = some h ↔ h ∈ o.connectionsList ∧ (o.con h).conid = id := by
  rw [← hi.permConid.mem_iff]
  exact hi.byConid.lookup_eq_some

theorem find_conid_none (hi : TableInv cfg o) :
    findConnectionByConid o id = none ↔ ∀ h ∈ o.connectionsList, (o.con h).conid ≠ id := by
  simp only [← hi.permConid.mem_iff]
  exact hi.byConid.lookup_eq_none

theorem conaddr_inj (hi : TableInv cfg o) (hmem : h ∈ o.connectionsList)
    (hmem' : h' ∈ o.connectionsList) (heq : (o.con h).conaddr = (o.con h').conaddr) : h = h' :=
  hi.byConaddr.key_inj (hi.permConaddr.mem_iff.mpr hmem) (hi.permConaddr.mem_iff.mpr hmem') heq

theorem conid_inj (hi : TableInv cfg o) (hmem : h ∈ o.connectionsList)
    (hmem' : h' ∈ o.connectionsList) (heq : (o.con h).conid = (o.con h').conid) : h = h' :=
  hi.byConid.key_inj (hi.permConid.mem_iff.mpr hmem) (hi.permConid.mem_iff.mpr hmem') heq

theorem fresh_notMem (hi : TableInv cfg o) : o.allocated ∉ o.connectionsList :=
  fun hmem => Nat.lt_irrefl _ (hi.allocated _ hmem)

/-- 空きがあれば、`find_unused_conid` は一周のうちに終わり、使われていない番号を返す。 -/
theorem findUnusedConid (hi : TableInv cfg o) (hroom : o.numConnections < cfg.limit) :
    ∃ id, (∀ fuel, cfg.limit ≤ fuel → findUnusedConid cfg o fuel = some id) ∧ id < cfg.limit ∧
      ∀ h ∈ o.connectionsList, (o.con h).conid ≠ id := by
  have hids : ∀ c < cfg.limit, (findConnectionByConid o (uint16 c)).isSome = true →
      c ∈ o.connectionsList.map fun h => (o.con h).conid := by
    intro c hc hused
    obtain ⟨h, hfind⟩ := Option.isSome_iff_exists.mp hused
    rw [uint16_of_lt hc, hi.find_conid] at hfind
    exact List.mem_map.mpr ⟨h, hfind⟩
  have hlen : (o.connectionsList.map fun h => (o.con h).conid).length < cfg.limit := by
    rw [List.length_map, ← hi.num]
    exact hroom
  obtain ⟨id, hsearch, hid, hfree⟩ := cyclicSearch_some hids hlen hi.next_lt
  refine ⟨id, fun fuel hfuel => cyclicSearch_mono hsearch hfuel, hid, ?_⟩
  rw [uint16_of_lt hid] at hfree
  exact hi.find_conid_none.mp (by simpa using hfree)

end TableInv

/-! ## 一歩に起こりうること -/

/-- 使った connection を list の末尾に移す。 -/
def UdpGwClient.move (o : UdpGwClient) (h : Nat) : UdpGwClient :=
  { o with connectionsList := o.connectionsList.erase h ++ [h] }

def UdpGwClient.sendOn (o : UdpGwClient) (h : Nat) (flags : UInt8) (data : List UInt8) :
    UdpGwClient :=
  o.setCon h ((o.con h).send flags data)

/-- 木を `t₁` と `t₂` にし、list の末尾に `h` を加える。 -/
def UdpGwClient.link (o : UdpGwClient) (t₁ t₂ : List Nat) (h : Nat) : UdpGwClient :=
  { o with
    treeByConaddr := t₁
    treeByConid := t₂
    connectionsList := o.connectionsList ++ [h]
    numConnections := o.numConnections + 1 }

/-- connection `h` の組を `k` に付け替え、組の木を `t` にする。 -/
def UdpGwClient.rebind (o : UdpGwClient) (h : Nat) (k : ConAddr) (t : List Nat) : UdpGwClient :=
  { o.setCon h ((o.con h).rebind k) with treeByConaddr := t }

/-- 受け取った byte の列は、connection `h` 宛ての正しい message `m` である。 -/
structure Accepts (cfg : Config) (o : UdpGwClient) (data : List UInt8) (h : Nat) (m : Message) :
    Prop where
  bytes : data = m.bytes
  wellFormed : m.WellFormed
  length_le : m.payload.length ≤ cfg.udpMtu
  mem : h ∈ o.connectionsList
  conid : (o.con h).conid = m.conid
  remoteAddr : (o.con h).conaddr.remoteAddr = m.remoteAddr

/-- 木 `t'` は、木 `t` に `h` を加えたもので、鍵 `key` について昇順である。 -/
structure Inserted {κ : Type} (cmp : κ → κ → Ordering) (key : Nat → κ) (h : Nat) (t t' : List Nat) :
    Prop where
  ordered : SearchTree.Ordered cmp key t'
  perm : t'.Perm (h :: t)

inductive Step (cfg : Config) (o : UdpGwClient) : Event → UdpGwClient → Prop
  | hit {l r isDns data alloc h} (hmem : h ∈ o.connectionsList)
      (hpair : (o.con h).conaddr = ⟨l, r⟩) :
      Step cfg o (.submit l r isDns data alloc) ((o.move h).sendOn h (dnsFlags isDns) data)
  | create {l r isDns data alloc id t₁ t₂} (hnew : Unknown o ⟨l, r⟩)
      (hroom : o.numConnections < cfg.limit) (hlen : data.length ≤ cfg.udpMtu)
      (hid : id < cfg.limit) (hfree : ∀ h ∈ o.connectionsList, (o.con h).conid ≠ id)
      (h₁ : Inserted ConAddr.comparator
        (fun h =>
          (Function.update o.con o.allocated (.fresh ⟨l, r⟩ id (dnsFlags isDns) data) h).conaddr)
        o.allocated o.treeByConaddr t₁)
      (h₂ : Inserted compare
        (fun h =>
          (Function.update o.con o.allocated (.fresh ⟨l, r⟩ id (dnsFlags isDns) data) h).conid)
        o.allocated o.treeByConid t₂) :
      Step cfg o (.submit l r isDns data alloc)
        ((o.allocate id (.fresh ⟨l, r⟩ id (dnsFlags isDns) data)).link t₁ t₂ o.allocated)
  | createFails {l r isDns data alloc id} (hnew : Unknown o ⟨l, r⟩)
      (hroom : o.numConnections < cfg.limit) (hid : id < cfg.limit) :
      Step cfg o (.submit l r isDns data alloc) { o with nextConid := id }
  | rebind {l r isDns data alloc h rest t} (hnew : Unknown o ⟨l, r⟩)
      (hfull : o.numConnections = cfg.limit) (hlist : o.connectionsList = h :: rest)
      (ht : Inserted ConAddr.comparator
        (fun h' => (Function.update o.con h ((o.con h).rebind ⟨l, r⟩) h').conaddr)
        h (o.treeByConaddr.erase h) t) :
      Step cfg o (.submit l r isDns data alloc)
        (((o.rebind h ⟨l, r⟩ t).move h).sendOn h (dnsFlags isDns ||| flagRebind) data)
  | accepted {data h m} (hacc : Accepts cfg o data h m) :
      Step cfg o (.received data)
        { o.move h with delivered := o.delivered ++ [((o.con h).conaddr, m.payload)] }
  | rejected {data} (hrej : ∀ h m, ¬ Accepts cfg o data h m) : Step cfg o (.received data) o
  | connected : Step cfg o (.connect true) { o with haveServer := true }
  | connectFails : Step cfg o (.connect false) o
  | disconnected : Step cfg o .disconnect { o with haveServer := false }
  | firstJob {h : Nat} (hmem : h ∈ o.connectionsList) (hjob : (o.con h).firstJob = true) :
      Step cfg o (.firstJob h) (o.setCon h
        ((o.con h).startFirstJob.send (flagRebind ||| (o.con h).firstFlags) (o.con h).firstData))
  | offer {h : Nat} (hmem : h ∈ o.connectionsList) (hjob : (o.con h).firstJob = false) :
      Step cfg o (.offer h) (o.setCon h { o.con h with outHave := true })
  | drained {h : Nat} (hmem : h ∈ o.connectionsList) :
      Step cfg o (.drained h) (o.setCon h { o.con h with sendBuffer := (o.con h).sendBuffer.tail })

/-! ## 関数の仕様 -/

theorem mem_of_list (hlist : o.connectionsList = h :: rest) : h ∈ o.connectionsList := by
  rw [hlist]
  exact List.mem_cons_self

theorem unlink_eq {l : List Nat} (hmem : h ∈ l) : unlink h l = .ok (l.erase h) := if_pos hmem

theorem moveToEnd_eq (hmem : h ∈ o.connectionsList) : moveToEnd o h = .ok (o.move h) := by
  unfold moveToEnd
  rw [unlink_eq hmem]
  rfl

variable {data : List UInt8}

theorem connectionSend_eq (hlen : data.length ≤ cfg.udpMtu) :
    connectionSend cfg o h flags data = .ok (o.sendOn h flags data) := by
  unfold connectionSend
  rw [check_bind hlen]
  rfl

theorem insertByConaddr_eq
    (ht : SearchTree.insert ConAddr.comparator (fun h => (o.con h).conaddr) h o.treeByConaddr =
      some t) :
    insertByConaddr o h = .ok { o with treeByConaddr := t } := by
  unfold insertByConaddr
  rw [ht]

theorem insertByConid_eq
    (ht : SearchTree.insert compare (fun h => (o.con h).conid) h o.treeByConid = some t) :
    insertByConid o h = .ok { o with treeByConid := t } := by
  unfold insertByConid
  rw [ht]

/-- 木の外の節点 `h` の構造体を書き換えてから `h` を木に加える。 -/
theorem inserted_update {κ : Type} {cmp : κ → κ → Ordering} [Std.TransCmp cmp]
    [Std.LawfulEqCmp cmp] {key : Connection → κ} {con : Nat → Connection}
    (hord : SearchTree.Ordered cmp (fun h => key (con h)) t) (hmem : h ∉ t)
    (hnew : ∀ h' ∈ t, key (con h') ≠ key c) :
    ∃ t', SearchTree.insert cmp (fun h' => key (Function.update con h c h')) h t = some t' ∧
      Inserted cmp (fun h' => key (Function.update con h c h')) h t t' := by
  have hkey : ∀ h' ∈ t, key (Function.update con h c h') = key (con h') := by
    intro h' hh'
    rw [Function.update_of_ne (ne_of_mem_of_not_mem hh' hmem)]
  have hord' : SearchTree.Ordered cmp (fun h' => key (Function.update con h c h')) t :=
    hord.congr hkey
  obtain ⟨t', hins, hord₁, hperm⟩ := hord'.insert (n := h) fun h' hh' => by
    rw [hkey h' hh', Function.update_self]
    exact hnew h' hh'
  exact ⟨t', hins, hord₁, hperm⟩

theorem linkConnection_eq {t₁ t₂ : List Nat}
    (h₁ : SearchTree.insert ConAddr.comparator (fun h => (o.con h).conaddr) h o.treeByConaddr =
      some t₁)
    (h₂ : SearchTree.insert compare (fun h => (o.con h).conid) h o.treeByConid = some t₂) :
    linkConnection o h = .ok (o.link t₁ t₂ h) := by
  unfold linkConnection
  rw [insertByConaddr_eq h₁, ok_bind, insertByConid_eq (o := { o with treeByConaddr := t₁ }) h₂]
  rfl

section Submit

variable {l r : BAddr} {isDns : Bool} {data : List UInt8} {alloc : Alloc}

/-- 知らない組で、空きがある時。 -/
theorem connectionInit_ok (hi : TableInv cfg o) (hnew : Unknown o ⟨l, r⟩)
    (hroom : o.numConnections < cfg.limit) (hlen : data.length ≤ cfg.udpMtu) :
    ∃ o', connectionInit cfg o ⟨l, r⟩ (dnsFlags isDns) data alloc = .ok o' ∧
      Step cfg o (.submit l r isDns data alloc) o' := by
  unfold connectionInit
  rw [check_bind hroom, check_bind (hi.find_conaddr_none.mpr hnew), check_bind hlen]
  split
  next => exact ⟨o, rfl, .createFails hnew hroom hi.next_lt⟩
  next =>
    obtain ⟨id, hsearch, hid, hfree⟩ := hi.findUnusedConid hroom
    unfold allocateConid
    rw [check_bind hroom, hsearch _ (Nat.le_refl _)]
    simp only
    split
    next => exact ⟨_, rfl, .createFails hnew hroom hid⟩
    next =>
      rw [uint16_of_lt hid]
      have hfresh := hi.fresh_notMem
      obtain ⟨t₁, hins₁, h₁⟩ := inserted_update (c := .fresh ⟨l, r⟩ id (dnsFlags isDns) data)
        hi.byConaddr (fun hmem => hfresh (hi.permConaddr.mem_iff.mp hmem))
        fun h hmem => hnew h (hi.permConaddr.mem_iff.mp hmem)
      obtain ⟨t₂, hins₂, h₂⟩ := inserted_update (c := .fresh ⟨l, r⟩ id (dnsFlags isDns) data)
        hi.byConid (fun hmem => hfresh (hi.permConid.mem_iff.mp hmem))
        fun h hmem => hfree h (hi.permConid.mem_iff.mp hmem)
      exact ⟨_, linkConnection_eq hins₁ hins₂, .create hnew hroom hlen hid hfree h₁ h₂⟩

/-- 知らない組で、空きがない時。list の先頭が付け替えられる。 -/
theorem reuseConnection_ok (hi : TableInv cfg o) (hnew : Unknown o k)
    (hfull : o.numConnections = cfg.limit) :
    ∃ h rest t, o.connectionsList = h :: rest ∧
      reuseConnection o k = .ok (o.rebind h k t, h) ∧
      Inserted ConAddr.comparator (fun h' =>
        (Function.update o.con h ((o.con h).rebind k) h').conaddr)
        h (o.treeByConaddr.erase h) t := by
  have hpos : 0 < o.numConnections := hfull ▸ cfg.limit_pos
  have hlen := hi.num
  unfold reuseConnection
  rw [check_bind (hi.find_conaddr_none.mpr hnew), check_bind hpos]
  cases hlist : o.connectionsList with
  | nil =>
    rw [hlist, List.length_nil] at hlen
    omega
  | cons h rest =>
    have hmem : h ∈ o.treeByConaddr := hi.permConaddr.mem_iff.mpr (mem_of_list hlist)
    have hnodup : o.treeByConaddr.Nodup := hi.permConaddr.nodup_iff.mpr hi.nodup
    obtain ⟨t, hins, ht⟩ := inserted_update (c := (o.con h).rebind k) (hi.byConaddr.erase h)
      (fun hmem' => (hnodup.mem_erase_iff.mp hmem').1 rfl)
      fun h' hmem' => hnew h' (hi.permConaddr.mem_iff.mp (List.mem_of_mem_erase hmem'))
    refine ⟨h, rest, t, rfl, ?_, ht⟩
    simp only
    rw [unlink_eq hmem, ok_bind, insertByConaddr_eq hins]
    rfl

theorem submitPacket_ok (hi : TableInv cfg o) (hlen : data.length ≤ cfg.udpMtu) :
    ∃ o', submitPacket cfg o l r isDns data alloc = .ok o' ∧
      Step cfg o (.submit l r isDns data alloc) o' := by
  unfold submitPacket
  rw [check_bind hlen]
  cases hfind : findConnectionByConaddr o ⟨l, r⟩ with
  | some h =>
    obtain ⟨hmem, hpair⟩ := hi.find_conaddr.mp hfind
    simp only
    rw [moveToEnd_eq hmem, ok_bind, connectionSend_eq hlen]
    exact ⟨_, rfl, .hit hmem hpair⟩
  | none =>
    have hnew := hi.find_conaddr_none.mp hfind
    simp only
    split
    next hfull =>
      obtain ⟨h, rest, t, hlist, hreuse, ht⟩ := reuseConnection_ok hi hnew hfull
      have hmem : h ∈ (o.rebind h ⟨l, r⟩ t).connectionsList := mem_of_list hlist
      rw [hreuse, ok_bind]
      simp only
      rw [moveToEnd_eq hmem, ok_bind, connectionSend_eq hlen]
      exact ⟨_, rfl, .rebind hnew hfull hlist ht⟩
    next hroom => exact connectionInit_ok hi hnew (lt_of_le_of_ne hi.num_le hroom) hlen

end Submit

/-- 受け入れるのは、表にある connection 宛ての正しい message だけである。 -/
theorem accept_eq_ok (hi : TableInv cfg o) {m : Message} :
    accept cfg o data = .ok (h, m) ↔ Accepts cfg o data h m := by
  unfold accept
  constructor
  · intro hacc
    split at hacc
    next => cases hacc
    next m' hparse =>
      obtain ⟨hbytes, hwf, hlen⟩ := parse_eq_ok.mp hparse
      split at hacc
      next => cases hacc
      next h' hfind =>
        obtain ⟨hmem, hconid⟩ := hi.find_conid.mp hfind
        split at hacc
        next => cases hacc
        next hremote =>
          obtain ⟨rfl, rfl⟩ := Prod.mk.inj (Except.ok.inj hacc)
          exact ⟨hbytes, hwf, hlen, hmem, hconid, BAddr.compareOrder_eq_iff.mp (not_not.mp hremote)⟩
  · intro hacc
    rw [parse_eq_ok.mpr ⟨hacc.bytes, hacc.wellFormed, hacc.length_le⟩]
    simp only [hi.find_conid.mpr ⟨hacc.mem, hacc.conid⟩]
    exact if_neg (not_not.mpr (BAddr.compareOrder_eq_iff.mpr hacc.remoteAddr))

theorem recvInterfaceHandlerSend_ok (hi : TableInv cfg o) (hserver : o.haveServer = true)
    (hlen : data.length ≤ cfg.udpgwMtu) :
    ∃ o', recvInterfaceHandlerSend cfg o data = .ok o' ∧ Step cfg o (.received data) o' := by
  unfold recvInterfaceHandlerSend
  rw [check_bind hserver, check_bind hlen]
  cases hacc : accept cfg o data with
  | error reject =>
    refine ⟨o, rfl, .rejected fun h m hm => ?_⟩
    rw [(accept_eq_ok hi).mpr hm] at hacc
    cases hacc
  | ok p =>
    obtain ⟨h, m⟩ := p
    have hm := (accept_eq_ok hi).mp hacc
    simp only
    rw [moveToEnd_eq hm.mem]
    exact ⟨_, rfl, .accepted hm⟩

theorem setCon_setCon (o : UdpGwClient) (h : Nat) (c c' : Connection) :
    (o.setCon h c).setCon h c' = o.setCon h c' := by
  simp [UdpGwClient.setCon]

@[simp] theorem con_setCon_self (o : UdpGwClient) (h : Nat) (c : Connection) :
    (o.setCon h c).con h = c := Function.update_self ..

theorem connectionFirstJobHandler_eq (hlen : (o.con h).firstData.length ≤ cfg.udpMtu) :
    connectionFirstJobHandler cfg (o.setCon h (o.con h).startFirstJob) h = .ok (o.setCon h
      ((o.con h).startFirstJob.send (flagRebind ||| (o.con h).firstFlags)
        (o.con h).firstData)) := by
  unfold connectionFirstJobHandler
  rw [con_setCon_self]
  refine (connectionSend_eq hlen).trans ?_
  unfold UdpGwClient.sendOn
  rw [con_setCon_self, setCon_setCon]
  rfl

theorem step_ok (hi : TableInv cfg o) {r : M UdpGwClient} (hstep : step cfg o e = some r) :
    ∃ o', r = .ok o' ∧ Step cfg o e o' := by
  unfold step at hstep
  split at hstep
  next l r' isDns data alloc =>
    obtain ⟨hlen, rfl⟩ := of_ite_eq_some hstep
    exact submitPacket_ok hi hlen
  next data =>
    obtain ⟨⟨hserver, hlen⟩, rfl⟩ := of_ite_eq_some hstep
    exact recvInterfaceHandlerSend_ok hi hserver hlen
  next ok =>
    obtain ⟨hserver, rfl⟩ := of_ite_eq_some hstep
    unfold connectServer
    rw [check_bind hserver]
    cases ok with
    | true => exact ⟨_, rfl, .connected⟩
    | false => exact ⟨_, rfl, .connectFails⟩
  next =>
    obtain ⟨hserver, rfl⟩ := of_ite_eq_some hstep
    unfold disconnectServer
    rw [check_bind hserver]
    exact ⟨_, rfl, .disconnected⟩
  next h =>
    obtain ⟨⟨hmem, hjob⟩, rfl⟩ := of_ite_eq_some hstep
    exact ⟨_, connectionFirstJobHandler_eq (hi.firstData h hmem), .firstJob hmem hjob⟩
  next h =>
    obtain ⟨⟨hmem, hjob, -⟩, rfl⟩ := of_ite_eq_some hstep
    exact ⟨_, rfl, .offer hmem hjob⟩
  next h =>
    obtain ⟨⟨hmem, -⟩, rfl⟩ := of_ite_eq_some hstep
    exact ⟨_, rfl, .drained hmem⟩

/-! ## 不変量の保存 -/

/-- 表は、list の並びを除いて変わらない。 -/
structure SameTable (o o' : UdpGwClient) : Prop where
  treeByConaddr : o'.treeByConaddr = o.treeByConaddr
  treeByConid : o'.treeByConid = o.treeByConid
  list : o'.connectionsList.Perm o.connectionsList
  num : o'.numConnections = o.numConnections
  next : o'.nextConid = o.nextConid
  allocated : o'.allocated = o.allocated
  conaddr : ∀ h, (o'.con h).conaddr = (o.con h).conaddr
  conid : ∀ h, (o'.con h).conid = (o.con h).conid
  firstData : ∀ h, (o'.con h).firstData = (o.con h).firstData

theorem SameTable.refl (o : UdpGwClient) : SameTable o o :=
  ⟨rfl, rfl, .refl _, rfl, rfl, rfl, fun _ => rfl, fun _ => rfl, fun _ => rfl⟩

theorem SameTable.trans {o'' : UdpGwClient} (h₁ : SameTable o o') (h₂ : SameTable o' o'') :
    SameTable o o'' where
  treeByConaddr := h₂.treeByConaddr.trans h₁.treeByConaddr
  treeByConid := h₂.treeByConid.trans h₁.treeByConid
  list := h₂.list.trans h₁.list
  num := h₂.num.trans h₁.num
  next := h₂.next.trans h₁.next
  allocated := h₂.allocated.trans h₁.allocated
  conaddr h := (h₂.conaddr h).trans (h₁.conaddr h)
  conid h := (h₂.conid h).trans (h₁.conid h)
  firstData h := (h₂.firstData h).trans (h₁.firstData h)

theorem TableInv.of_same (hi : TableInv cfg o) (hs : SameTable o o') : TableInv cfg o' where
  byConaddr := by
    rw [hs.treeByConaddr]
    exact hi.byConaddr.congr fun h _ => hs.conaddr h
  byConid := by
    rw [hs.treeByConid]
    exact hi.byConid.congr fun h _ => hs.conid h
  permConaddr := by
    rw [hs.treeByConaddr]
    exact hi.permConaddr.trans hs.list.symm
  permConid := by
    rw [hs.treeByConid]
    exact hi.permConid.trans hs.list.symm
  nodup := hs.list.nodup_iff.mpr hi.nodup
  conid_lt h hmem := by
    rw [hs.conid]
    exact hi.conid_lt h (hs.list.mem_iff.mp hmem)
  num := by rw [hs.num, hs.list.length_eq, hi.num]
  num_le := by
    rw [hs.num]
    exact hi.num_le
  next_lt := by
    rw [hs.next]
    exact hi.next_lt
  allocated h hmem := by
    rw [hs.allocated]
    exact hi.allocated h (hs.list.mem_iff.mp hmem)
  firstData h hmem := by
    rw [hs.firstData]
    exact hi.firstData h (hs.list.mem_iff.mp hmem)

theorem send_keys (c : Connection) (flags : UInt8) (data : List UInt8) :
    (c.send flags data).conaddr = c.conaddr ∧ (c.send flags data).conid = c.conid ∧
      (c.send flags data).firstData = c.firstData := by
  unfold Connection.send
  split <;> exact ⟨rfl, rfl, rfl⟩

theorem move_perm (hmem : h ∈ o.connectionsList) :
    (o.move h).connectionsList.Perm o.connectionsList :=
  (List.perm_append_singleton h _).trans (List.perm_cons_erase hmem).symm

theorem sameTable_move (hmem : h ∈ o.connectionsList) : SameTable o (o.move h) :=
  ⟨rfl, rfl, move_perm hmem, rfl, rfl, rfl, fun _ => rfl, fun _ => rfl, fun _ => rfl⟩

/-- `h` の値が変わらなければ、どの connection の値も変わらない。 -/
theorem setCon_keeps {α : Type} (f : Connection → α) (hf : f c = f (o.con h)) (h' : Nat) :
    f ((o.setCon h c).con h') = f (o.con h') := by
  unfold UdpGwClient.setCon
  rcases eq_or_ne h' h with rfl | hne
  · simp only [Function.update_self]
    exact hf
  · simp only [Function.update_of_ne hne]

theorem sameTable_setCon (hkeys : c.conaddr = (o.con h).conaddr ∧
    c.conid = (o.con h).conid ∧ c.firstData = (o.con h).firstData) :
    SameTable o (o.setCon h c) := by
  obtain ⟨h1, h2, h3⟩ := hkeys
  exact ⟨rfl, rfl, .refl _, rfl, rfl, rfl, setCon_keeps _ h1, setCon_keeps _ h2, setCon_keeps _ h3⟩

theorem sameTable_sendOn (o : UdpGwClient) (h : Nat) (flags : UInt8) (data : List UInt8) :
    SameTable o (o.sendOn h flags data) := sameTable_setCon (send_keys _ _ _)

theorem tableInv_create {t₁ t₂ : List Nat} (hi : TableInv cfg o)
    (hroom : o.numConnections < cfg.limit) (hlen : data.length ≤ cfg.udpMtu)
    (hid : id < cfg.limit) (h₁ : Inserted ConAddr.comparator
      (fun h => (Function.update o.con o.allocated (.fresh k id flags data) h).conaddr)
      o.allocated o.treeByConaddr t₁) (h₂ : Inserted compare
      (fun h => (Function.update o.con o.allocated (.fresh k id flags data) h).conid)
      o.allocated o.treeByConid t₂) :
    TableInv cfg ((o.allocate id (.fresh k id flags data)).link t₁ t₂ o.allocated) := by
  have hfresh := hi.fresh_notMem
  have hold : ∀ h ∈ o.connectionsList,
      Function.update o.con o.allocated (.fresh k id flags data) h = o.con h := fun h hmem =>
    Function.update_of_ne (ne_of_mem_of_not_mem hmem hfresh) _ _
  -- 加えたものを除けば、もとの connection である
  have hall : ∀ {p : Nat → Connection → Prop}, p o.allocated (.fresh k id flags data) →
      (∀ h ∈ o.connectionsList, p h (o.con h)) → ∀ h ∈ o.connectionsList ++ [o.allocated],
      p h (Function.update o.con o.allocated (.fresh k id flags data) h) := by
    intro p hnew hrest h hmem
    rcases List.mem_append.mp hmem with hmem | hmem
    · rw [hold h hmem]
      exact hrest h hmem
    · obtain rfl := List.mem_singleton.mp hmem
      rw [Function.update_self]
      exact hnew
  have hperm : ∀ {t t' : List Nat}, t.Perm o.connectionsList → t'.Perm (o.allocated :: t) →
      t'.Perm (o.connectionsList ++ [o.allocated]) := fun ht ht' =>
    ht'.trans ((ht.cons _).trans (List.perm_append_singleton _ _).symm)
  exact {
    byConaddr := h₁.ordered
    byConid := h₂.ordered
    permConaddr := hperm hi.permConaddr h₁.perm
    permConid := hperm hi.permConid h₂.perm
    nodup := List.nodup_append.mpr ⟨hi.nodup, List.nodup_singleton _, by
      intro a ha b hb
      rw [List.mem_singleton.mp hb]
      exact ne_of_mem_of_not_mem ha hfresh⟩
    conid_lt := hall (p := fun _ c => c.conid < cfg.limit) hid hi.conid_lt
    num := by
      show o.numConnections + 1 = (o.connectionsList ++ [o.allocated]).length
      rw [List.length_append, hi.num, List.length_singleton]
    num_le := hroom
    next_lt := hid
    allocated := hall (p := fun h _ => h < o.allocated + 1) (Nat.lt_succ_self _)
      fun h hmem => Nat.lt_succ_of_lt (hi.allocated h hmem)
    firstData := hall (p := fun _ c => c.firstData.length ≤ cfg.udpMtu) hlen hi.firstData }

theorem tableInv_rebind (hi : TableInv cfg o) (hlist : o.connectionsList = h :: rest)
    (ht : Inserted ConAddr.comparator
      (fun h' => (Function.update o.con h ((o.con h).rebind k) h').conaddr)
      h (o.treeByConaddr.erase h) t) : TableInv cfg (o.rebind h k t) := by
  have hmem : h ∈ o.treeByConaddr := hi.permConaddr.mem_iff.mpr (mem_of_list hlist)
  have hconid : ∀ h', ((o.rebind h k t).con h').conid = (o.con h').conid :=
    setCon_keeps Connection.conid rfl
  have hfirst : ∀ h', ((o.rebind h k t).con h').firstData = (o.con h').firstData :=
    setCon_keeps Connection.firstData rfl
  exact {
    byConaddr := ht.ordered
    byConid := hi.byConid.congr fun h' _ => hconid h'
    permConaddr := (ht.perm.trans (List.perm_cons_erase hmem).symm).trans hi.permConaddr
    permConid := hi.permConid
    nodup := hi.nodup
    conid_lt := fun h' hmem' => by
      rw [hconid]
      exact hi.conid_lt h' hmem'
    num := hi.num
    num_le := hi.num_le
    next_lt := hi.next_lt
    allocated := hi.allocated
    firstData := fun h' hmem' => by
      rw [hfirst]
      exact hi.firstData h' hmem' }

theorem con_rebound_self (o : UdpGwClient) (h : Nat) (k : ConAddr) (t : List Nat) (flags : UInt8)
    (data : List UInt8) : (((o.rebind h k t).move h).sendOn h flags data).con h =
      ((o.con h).rebind k).send flags data := by
  have hcon : ((o.rebind h k t).move h).con h = (o.con h).rebind k := con_setCon_self o h _
  unfold UdpGwClient.sendOn
  rw [con_setCon_self, hcon]

theorem con_rebound_of_ne (hne : h' ≠ h) :
    (((o.rebind h k t).move h).sendOn h flags data).con h' = o.con h' := by
  show Function.update (Function.update o.con h ((o.con h).rebind k)) h _ h' = o.con h'
  rw [Function.update_of_ne hne, Function.update_of_ne hne]

theorem conaddr_rebound (o : UdpGwClient) (h : Nat) (k : ConAddr) (t : List Nat) (flags : UInt8)
    (data : List UInt8) : ((((o.rebind h k t).move h).sendOn h flags data).con h).conaddr = k := by
  rw [con_rebound_self, (send_keys _ _ _).1]
  rfl

/-- 表が変わるのは、知らない組の packet を送る時だけである。 -/
theorem Step.sameTable (hs : Step cfg o e o')
    (hknown : ¬ ∃ l r isDns data alloc, e = .submit l r isDns data alloc ∧ Unknown o ⟨l, r⟩) :
    SameTable o o' := by
  cases hs with
  | @hit _ _ isDns data _ h hmem _ =>
    exact (sameTable_move hmem).trans (sameTable_sendOn (o.move h) h (dnsFlags isDns) data)
  | create hnew => exact absurd ⟨_, _, _, _, _, rfl, hnew⟩ hknown
  | createFails hnew => exact absurd ⟨_, _, _, _, _, rfl, hnew⟩ hknown
  | rebind hnew => exact absurd ⟨_, _, _, _, _, rfl, hnew⟩ hknown
  | accepted hacc => exact { sameTable_move hacc.mem with }
  | rejected _ => exact .refl o
  | connected => exact { SameTable.refl o with }
  | connectFails => exact .refl o
  | disconnected => exact { SameTable.refl o with }
  | firstJob _ _ => exact sameTable_setCon (send_keys _ _ _)
  | offer _ _ => exact sameTable_setCon ⟨rfl, rfl, rfl⟩
  | drained _ => exact sameTable_setCon ⟨rfl, rfl, rfl⟩

theorem tableInv_step (hi : TableInv cfg o) (hs : Step cfg o e o') : TableInv cfg o' := by
  by_cases hnew : ∃ l r isDns data alloc, e = .submit l r isDns data alloc ∧ Unknown o ⟨l, r⟩
  · obtain ⟨l, r, isDns, data, alloc, rfl, hnew⟩ := hnew
    cases hs with
    | hit hmem hpair => exact absurd hpair (hnew _ hmem)
    | create _ hroom hlen hid _ h₁ h₂ => exact tableInv_create hi hroom hlen hid h₁ h₂
    | createFails _ _ hid => exact { hi with next_lt := hid }
    | rebind _ _ hlist ht =>
      exact ((tableInv_rebind hi hlist ht).of_same (sameTable_move (mem_of_list hlist))).of_same
        (sameTable_sendOn _ _ _ _)
  · exact hi.of_same (hs.sameTable hnew)

theorem tableInv_step_ok {r : M UdpGwClient} (hi : TableInv cfg o) (hstep : step cfg o e = some r) :
    ∃ o', r = .ok o' ∧ TableInv cfg o' := by
  obtain ⟨o', rfl, hs⟩ := step_ok hi hstep
  exact ⟨o', rfl, tableInv_step hi hs⟩

/-! ## connection ごとの一歩 -/

/-- 一歩の後の connection `h`。 -/
inductive ConStep (cfg : Config) (o : UdpGwClient) (h : Nat) : Event → Connection → Prop
  | same {e : Event} (hmem : h ∈ o.connectionsList) : ConStep cfg o h e (o.con h)
  | created {l r isDns data alloc id} :
      ConStep cfg o h (.submit l r isDns data alloc) (.fresh ⟨l, r⟩ id (dnsFlags isDns) data)
  | sent {l r isDns data alloc} (hmem : h ∈ o.connectionsList) :
      ConStep cfg o h (.submit l r isDns data alloc) ((o.con h).send (dnsFlags isDns) data)
  | rebound {l r isDns data alloc} (hmem : h ∈ o.connectionsList)
      (hhead : h ∈ o.connectionsList.head?)
      (hnew : Unknown o ⟨l, r⟩) (hfull : o.numConnections = cfg.limit) :
      ConStep cfg o h (.submit l r isDns data alloc)
        (((o.con h).rebind ⟨l, r⟩).send (dnsFlags isDns ||| flagRebind) data)
  | firstJob (hmem : h ∈ o.connectionsList) :
      ConStep cfg o h (.firstJob h)
        ((o.con h).startFirstJob.send (flagRebind ||| (o.con h).firstFlags) (o.con h).firstData)
  | offer (hmem : h ∈ o.connectionsList) (hjob : (o.con h).firstJob = false) :
      ConStep cfg o h (.offer h) { o.con h with outHave := true }
  | drained (hmem : h ∈ o.connectionsList) :
      ConStep cfg o h (.drained h) { o.con h with sendBuffer := (o.con h).sendBuffer.tail }

theorem con_setCon_of_ne (hne : h' ≠ h) : (o.setCon h c).con h' = o.con h' :=
  Function.update_of_ne hne _ _

theorem conStep_setCon (hc : ConStep cfg o h e c) :
    ∀ h' ∈ o.connectionsList, ConStep cfg o h' e ((o.setCon h c).con h') := by
  intro h' hmem
  rcases eq_or_ne h' h with rfl | hne
  · rw [con_setCon_self]
    exact hc
  · rw [con_setCon_of_ne hne]
    exact .same hmem

/-- どの connection も、変わらないか、作られたか、`ConStep` のどれかのように書き換えられる。 -/
theorem Step.con (hi : TableInv cfg o) (hs : Step cfg o e o') :
    ∀ h ∈ o'.connectionsList, ConStep cfg o h e (o'.con h) := by
  cases hs with
  | @hit _ _ isDns data _ h hmem _ =>
    intro h' hmem'
    exact conStep_setCon (.sent hmem) h' ((move_perm hmem).mem_iff.mp hmem')
  | @create l r isDns data _ id t₁ t₂ =>
    intro h hmem
    show ConStep cfg o h _ (Function.update o.con o.allocated _ h)
    rcases List.mem_append.mp hmem with hmem | hmem
    · rw [Function.update_of_ne (ne_of_mem_of_not_mem hmem hi.fresh_notMem)]
      exact .same hmem
    · rw [List.mem_singleton.mp hmem, Function.update_self]
      exact .created
  | createFails => exact fun h hmem => .same hmem
  | @rebind l r isDns data _ h rest t hnew hfull hlist _ =>
    have hmem := mem_of_list hlist
    have hhead : h ∈ o.connectionsList.head? := by rw [hlist]; rfl
    have hmem₀ : h ∈ (o.rebind h ⟨l, r⟩ t).connectionsList := hmem
    intro h' hmem'
    rcases eq_or_ne h' h with rfl | hne
    · rw [con_rebound_self]
      exact .rebound hmem hhead hnew hfull
    · rw [con_rebound_of_ne hne]
      exact .same ((move_perm hmem₀).mem_iff.mp hmem')
  | accepted hacc => exact fun h hmem => .same ((move_perm hacc.mem).mem_iff.mp hmem)
  | rejected => exact fun h hmem => .same hmem
  | connected => exact fun h hmem => .same hmem
  | connectFails => exact fun h hmem => .same hmem
  | disconnected => exact fun h hmem => .same hmem
  | firstJob hmem => exact conStep_setCon (.firstJob hmem)
  | offer hmem hjob => exact conStep_setCon (.offer hmem hjob)
  | drained hmem => exact conStep_setCon (.drained hmem)

/-- 知らない組で空きがない時の一歩。 -/
theorem step_reuse {l r : BAddr} (isDns : Bool) (data : List UInt8) (alloc : Alloc)
    (hi : TableInv cfg o) (hnew : Unknown o ⟨l, r⟩) (hfull : o.numConnections = cfg.limit)
    (hlist : o.connectionsList = h :: rest) (hlen : data.length ≤ cfg.udpMtu) :
    ∃ t, step cfg o (.submit l r isDns data alloc) =
        some (.ok (((o.rebind h ⟨l, r⟩ t).move h).sendOn h (dnsFlags isDns ||| flagRebind) data)) ∧
      TableInv cfg (((o.rebind h ⟨l, r⟩ t).move h).sendOn h (dnsFlags isDns ||| flagRebind)
        data) := by
  obtain ⟨o', hok, hs⟩ : ∃ o', submitPacket cfg o l r isDns data alloc = .ok o' ∧
      Step cfg o (.submit l r isDns data alloc) o' := submitPacket_ok hi hlen
  have hi' := tableInv_step hi hs
  have hstep : step cfg o (.submit l r isDns data alloc) =
    some (.ok o') := by simp only [step, if_pos hlen, hok]
  cases hs with
  | hit hmem hpair => exact absurd hpair (hnew _ hmem)
  | create _ hroom => exact absurd hfull (Nat.ne_of_lt hroom)
  | createFails _ hroom => exact absurd hfull (Nat.ne_of_lt hroom)
  | rebind _ _ hlist' _ =>
    obtain ⟨rfl, -⟩ := List.cons.inj (hlist.symm.trans hlist')
    exact ⟨_, hstep, hi'⟩

/-! ## 解放 -/

/-- `UdpGwClient_Free` の loop は、connection の数だけ回って終わり、三つの構造を空にする。 -/
theorem freeConnections_ok (l : List Nat) (hlist : o.connectionsList = l)
    (h₁ : o.treeByConaddr.Perm l) (h₂ : o.treeByConid.Perm l) (hnum : o.numConnections = l.length) :
    ∃ o', freeConnections (o.numConnections + 1) o = .ok o' ∧ o'.connectionsList = [] ∧
      o'.treeByConaddr = [] ∧ o'.treeByConid = [] ∧ o'.numConnections = 0 := by
  rw [hnum]
  induction l generalizing o with
  | nil =>
    refine ⟨o, ?_, hlist, h₁.eq_nil, h₂.eq_nil, hnum⟩
    unfold freeConnections
    rw [hlist]
  | cons h rest ih =>
    have hfree : connectionFree o h = .ok
        { o with
          numConnections := o.numConnections - 1
          connectionsList := o.connectionsList.erase h
          treeByConid := o.treeByConid.erase h
          treeByConaddr := o.treeByConaddr.erase h } := by
      unfold connectionFree
      rw [unlink_eq (mem_of_list hlist), ok_bind, unlink_eq (h₂.mem_iff.mpr List.mem_cons_self),
        ok_bind, unlink_eq (h₁.mem_iff.mpr List.mem_cons_self)]
      rfl
    have herase : (h :: rest).erase h = rest := List.erase_cons_head ..
    unfold freeConnections
    rw [hlist]
    simp only [hfree, ok_bind]
    refine ih ?_ ?_ ?_ ?_
    · rw [hlist, herase]
    · exact herase ▸ h₁.erase h
    · exact herase ▸ h₂.erase h
    · rw [hnum, List.length_cons, Nat.add_sub_cancel]

/-! ## run -/

/-- 三つの構造は同じ connection を持ち、組も conid も重ならず、数も番号の候補も範囲にある。 -/
structure Consistent (cfg : Config) (o : UdpGwClient) : Prop where
  treeByConaddr : o.treeByConaddr.Perm o.connectionsList
  treeByConid : o.treeByConid.Perm o.connectionsList
  nodup : o.connectionsList.Nodup
  conaddrs_distinct : (o.connectionsList.map fun h => (o.con h).conaddr).Nodup
  conids_distinct : (o.connectionsList.map fun h => (o.con h).conid).Nodup
  conid_lt : ∀ h ∈ o.connectionsList, (o.con h).conid < cfg.limit
  limit_le : cfg.limit ≤ 65536
  num : o.numConnections = o.connectionsList.length
  num_le : o.numConnections ≤ cfg.limit
  next_lt : o.nextConid < cfg.limit

theorem TableInv.consistent (hi : TableInv cfg o) : Consistent cfg o where
  treeByConaddr := hi.permConaddr
  treeByConid := hi.permConid
  nodup := hi.nodup
  conaddrs_distinct := hi.nodup.map_on fun _ ha _ hb heq => hi.conaddr_inj ha hb heq
  conids_distinct := hi.nodup.map_on fun _ ha _ hb heq => hi.conid_inj ha hb heq
  conid_lt := hi.conid_lt
  limit_le := cfg.limit_le
  num := hi.num
  num_le := hi.num_le
  next_lt := hi.next_lt

/--
どの run も故障せず、表は矛盾しない。空きがあれば、`find_unused_conid` の loop は一周のうちに終わり、使われていない
conid を返す。
-/
theorem table_consistent (cfg : Config) (es : List Event) (r : M UdpGwClient)
    (hrun : exec (guarded (step cfg)) (.ok .init) es = some r) :
    ∃ o, r = .ok o ∧ Consistent cfg o ∧
      (o.numConnections < cfg.limit →
        ∃ id, (∀ fuel, cfg.limit ≤ fuel → findUnusedConid cfg o fuel = some id) ∧ id < cfg.limit ∧
          ∀ h ∈ o.connectionsList, (o.con h).conid ≠ id) := by
  obtain ⟨o, rfl, hi⟩ := exec_safe_all (fun _ _ _ => tableInv_step_ok) (tableInv_init cfg) hrun
  exact ⟨o, rfl, hi.consistent, hi.findUnusedConid⟩

/-- 二つまでの connection。 -/
def twoConnections : Config where
  udpMtu := 1
  maxConnections := 2
  maxConnections_pos := Nat.zero_lt_two

/-- port だけの異なる address。 -/
def host (port : UInt8) : BAddr := .ipv4 #v[10, 0, 0, port] #v[0, port]

/-- `PacketProtoFlow_Init` が一度失敗し、二つの connection が埋まった後、古い方が別の組に付け替えられる。 -/
def reusingRun : List Event :=
  [.submit (host 1) (host 2) false [1] .ok, .firstJob 0, .connect true,
    .submit (host 1) (host 3) false [2] .flowFails, .submit (host 1) (host 3) false [3] .ok,
    .firstJob 1, .received [0, 0, 0, 10, 0, 0, 2, 0, 2, 9], .submit (host 1) (host 4) true [4] .ok,
    .disconnect]

theorem table_consistent_reusingRun :
    ∃ o, exec (guarded (step twoConnections)) (.ok .init) reusingRun = some (.ok o) ∧
      (o.connectionsList = [0, 1] ∧ (o.con 1).conaddr.remoteAddr = host 4) ∧
        Consistent twoConnections o := by
  obtain ⟨o, hrun, hlast⟩ := exec_ok_exists (step twoConnections) .init reusingRun
    (fun o => o.connectionsList = [0, 1] ∧ (o.con 1).conaddr.remoteAddr = host 4)
    (by decide +kernel)
  obtain ⟨o', heq, hc, -⟩ := table_consistent twoConnections reusingRun (.ok o) hrun
  obtain rfl := Except.ok.inj heq
  exact ⟨o, hrun, hlast, hc⟩

/-- どの run の後でも、`UdpGwClient_Free` の loop は止まり、故障せずに表を空にする。 -/
theorem table_freed {es : List Event}
    (hrun : exec (guarded (step cfg)) (.ok .init) es = some (.ok o)) :
    ∃ o', freeConnections (o.numConnections + 1) o = .ok o' ∧ o'.connectionsList = [] ∧
      o'.treeByConaddr = [] ∧ o'.treeByConid = [] ∧ o'.numConnections = 0 := by
  obtain ⟨_, heq, hi⟩ := exec_safe_all (fun _ _ _ => tableInv_step_ok) (tableInv_init cfg) hrun
  obtain rfl := Except.ok.inj heq
  exact freeConnections_ok _ rfl hi.permConaddr hi.permConid hi.num

theorem table_freed_reusingRun :
    ∃ o o', exec (guarded (step twoConnections)) (.ok .init) reusingRun = some (.ok o) ∧
      o.connectionsList = [0, 1] ∧
      freeConnections (o.numConnections + 1) o = .ok o' ∧ o'.connectionsList = [] := by
  obtain ⟨o, hrun, hlist⟩ := exec_ok_exists (step twoConnections) .init reusingRun
    (·.connectionsList = [0, 1])
    (by decide +kernel)
  obtain ⟨o', hfree, hnil, -⟩ := table_freed hrun
  exact ⟨o, o', hrun, hlist, hfree, hnil⟩

end UdpGw
