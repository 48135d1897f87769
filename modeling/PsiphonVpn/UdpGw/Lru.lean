import PsiphonVpn.Infra.Recency
import PsiphonVpn.UdpGw.Table

/-!
# 最も長く使われていない connection

connection を使うとは、それを作る、その組の packet を送る、別の組に付け替える、それ宛ての message を受け入れる、の
どれかである。どの connection がいつ使われたかを事象の列から定め（`usesOf`）、`connections_list` の並びをそれと比べる。

* `list_step` — list は、使った connection を末尾に移したものになる
* `lru_cache` — list は最後に使った順に並び、組を失うのは最も古いものだけである
-/

namespace UdpGw

open Infra Net

/-- message を受け入れる connection。 -/
def acceptedBy (cfg : Config) (o : UdpGwClient) (data : List UInt8) : Option Nat :=
  match parse cfg.udpMtu data with
  | .error _ => none
  | .ok m => o.connectionsList.find? fun h =>
      (o.con h).conid = m.conid ∧ (o.con h).conaddr.remoteAddr = m.remoteAddr

/--
一歩が使う connection。

packet を送った後にその組を持つ connection は、作られたか、付け替えられたか、もとからその組を持っていたかである。
-/
def used (cfg : Config) (o : UdpGwClient) (e : Event) (o' : UdpGwClient) : Option Nat :=
  match e with
  | .submit l r _ _ _ => o'.connectionsList.find? fun h => (o'.con h).conaddr = ⟨l, r⟩
  | .received data => acceptedBy cfg o data
  | _ => none

def usedBetween (cfg : Config) : M UdpGwClient → Event → M UdpGwClient → List Nat
  | .ok o, e, .ok o' => (used cfg o e o').toList
  | _, _, _ => []

/-- run の間に使われた connection を、古い順に並べたもの。 -/
def usesOf (cfg : Config) (es : List Event) : List Nat :=
  history (guarded (step cfg)) (usedBetween cfg) (.ok .init) es

/-- 最後に使ったのが最も古い connection。 -/
def Oldest (uses : List Nat) (o : UdpGwClient) (h : Nat) : Prop :=
  h ∈ o.connectionsList ∧ ∀ h' ∈ o.connectionsList, h' ≠ h → lastUse uses h < lastUse uses h'

/-- 一歩で connection `h` が組を失う。 -/
def Loses (o o' : UdpGwClient) (h : Nat) : Prop :=
  h ∈ o.connectionsList ∧ (h ∉ o'.connectionsList ∨ (o'.con h).conaddr ≠ (o.con h).conaddr)

variable {cfg : Config} {o o' : UdpGwClient} {h : Nat} {k : ConAddr} {e : Event}

/-! ## 使う connection -/

theorem find?_eq_some_of_unique {p : Nat → Bool} {l : List Nat} (hmem : h ∈ l) (hp : p h = true)
    (huniq : ∀ h' ∈ l, p h' = true → h' = h) : l.find? p = some h := by
  cases hfind : l.find? p with
  | none => exact absurd hp (List.find?_eq_none.mp hfind h hmem)
  | some h' => rw [huniq h' (List.mem_of_find?_eq_some hfind) (List.find?_some hfind)]

variable {l r : BAddr} {isDns : Bool} {data : List UInt8} {alloc : Alloc}

theorem used_submit (hi : TableInv cfg o') (hmem : h ∈ o'.connectionsList)
    (hpair : (o'.con h).conaddr = ⟨l, r⟩) :
    used cfg o (.submit l r isDns data alloc) o' = some h := by
  refine find?_eq_some_of_unique hmem (decide_eq_true hpair) fun h' hmem' hpair' => ?_
  exact hi.conaddr_inj hmem' hmem ((of_decide_eq_true hpair').trans hpair.symm)

theorem used_submit_none (hnew : Unknown o' ⟨l, r⟩) :
    used cfg o (.submit l r isDns data alloc) o' = none :=
  List.find?_eq_none.mpr fun h hmem hpair => hnew h hmem (of_decide_eq_true hpair)

/-- 受け入れる connection は、message の宛先である。 -/
theorem acceptedBy_eq_some (hi : TableInv cfg o) :
    acceptedBy cfg o data = some h ↔ ∃ m, Accepts cfg o data h m := by
  unfold acceptedBy
  constructor
  · intro hacc
    split at hacc
    next => cases hacc
    next m hparse =>
      obtain ⟨hbytes, hwf, hlen⟩ := parse_eq_ok.mp hparse
      have hfound := List.find?_some hacc
      simp only [decide_eq_true_eq] at hfound
      obtain ⟨hconid, hremote⟩ := hfound
      exact ⟨m, hbytes, hwf, hlen, List.mem_of_find?_eq_some hacc, hconid, hremote⟩
  · rintro ⟨m, hacc⟩
    rw [parse_eq_ok.mpr ⟨hacc.bytes, hacc.wellFormed, hacc.length_le⟩]
    refine find?_eq_some_of_unique hacc.mem (decide_eq_true ⟨hacc.conid, hacc.remoteAddr⟩) ?_
    intro h' hmem' hp
    exact hi.conid_inj hmem' hacc.mem ((of_decide_eq_true hp).1.trans hacc.conid.symm)

/-! ## list の並び -/

theorem mem_move (o : UdpGwClient) (h : Nat) : h ∈ (o.move h).connectionsList :=
  List.mem_append_right _ List.mem_cons_self

/-- 使った connection を末尾に移す。作ったばかりのものも同じ形になる。 -/
def touched (l : List Nat) : Option Nat → List Nat
  | none => l
  | some h => l.erase h ++ [h]

theorem list_step (hi : TableInv cfg o) (hs : Step cfg o e o') :
    o'.connectionsList = touched o.connectionsList (used cfg o e o') := by
  have hi' := tableInv_step hi hs
  cases hs with
  | @hit _ _ isDns data _ h hmem hpair =>
    have hpair' := ((sameTable_sendOn (o.move h) h (dnsFlags isDns) data).conaddr h).trans hpair
    rw [used_submit hi' (mem_move o h) hpair']
    rfl
  | create hnew hroom hlen hid hfree h₁ h₂ =>
    rw [used_submit hi' (h := o.allocated) (List.mem_append_right _ List.mem_cons_self) ?_]
    · show o.connectionsList ++ [o.allocated] = o.connectionsList.erase o.allocated ++ [o.allocated]
      rw [List.erase_of_not_mem hi.fresh_notMem]
    · show (Function.update o.con o.allocated _ o.allocated).conaddr = _
      rw [Function.update_self]
      rfl
  | createFails hnew _ _ =>
    rw [used_submit_none (by exact hnew)]
    rfl
  | @rebind _ _ _ _ _ h _ _ _ _ _ _ =>
    rw [used_submit hi' (mem_move _ h) (conaddr_rebound _ _ _ _ _ _)]
    rfl
  | @accepted data h m hacc =>
    show _ = touched o.connectionsList (acceptedBy cfg o data)
    rw [(acceptedBy_eq_some hi).mpr ⟨m, hacc⟩]
    rfl
  | @rejected data hrej =>
    have hnone : acceptedBy cfg o data = none := by
      refine Option.eq_none_iff_forall_ne_some.mpr fun h heq => ?_
      obtain ⟨m, hm⟩ := (acceptedBy_eq_some hi).mp heq
      exact hrej h m hm
    show _ = touched o.connectionsList (acceptedBy cfg o data)
    rw [hnone]
    rfl
  | connected => rfl
  | connectFails => rfl
  | disconnected => rfl
  | firstJob _ _ => rfl
  | offer _ _ => rfl
  | drained _ => rfl

theorem byLastUse_step {uses : List Nat} (hi : TableInv cfg o)
    (hl : ByLastUse uses o.connectionsList) (hs : Step cfg o e o') :
    ByLastUse (uses ++ (used cfg o e o').toList) o'.connectionsList := by
  rw [list_step hi hs]
  cases used cfg o e o' with
  | none =>
    rw [Option.toList_none, List.append_nil]
    exact hl
  | some h => exact hl.move h

/-- list は、run のどの時点でも最後に使った順に並んでいる。 -/
theorem byLastUse_run {es : List Event}
    (hrun : exec (guarded (step cfg)) (.ok .init) es = some (.ok o)) :
    TableInv cfg o ∧ ByLastUse (usesOf cfg es) o.connectionsList := by
  have hstep : ∀ (r : M UdpGwClient) (e : Event) (r' : M UdpGwClient) (past : List Nat),
      (∃ o, r = .ok o ∧ TableInv cfg o ∧ ByLastUse past o.connectionsList) →
      guarded (step cfg) r e = some r' →
      ∃ o', r' = .ok o' ∧ TableInv cfg o' ∧
        ByLastUse (past ++ usedBetween cfg r e r') o'.connectionsList := by
    rintro _ e r' past ⟨o, rfl, hi, hl⟩ he
    obtain ⟨o', rfl, hs⟩ := step_ok hi he
    exact ⟨o', rfl, tableInv_step hi hs, byLastUse_step hi hl hs⟩
  obtain ⟨o₁, heq, hi, hl⟩ := exec_history_induct hstep es (.ok .init) (.ok o) []
    ⟨.init, rfl, tableInv_init cfg, byLastUse_nil⟩ hrun
  obtain rfl := Except.ok.inj heq
  exact ⟨hi, hl⟩

/-! ## 組を失う connection -/

theorem SameTable.not_loses (hs : SameTable o o') : ¬ Loses o o' h := by
  rintro ⟨hmem, hnot | hne⟩
  · exact hnot (hs.list.mem_iff.mpr hmem)
  · exact hne (hs.conaddr h)

/-- 組を失う connection があるなら、一歩は付け替えで、失うのは list の先頭である。 -/
theorem Step.loses (hi : TableInv cfg o) (hs : Step cfg o e o') (hl : Loses o o' h) :
    ∃ l r isDns data alloc rest, e = .submit l r isDns data alloc ∧ Unknown o ⟨l, r⟩ ∧
      o.numConnections = cfg.limit ∧ o.connectionsList = h :: rest := by
  by_cases hnew : ∃ l r isDns data alloc, e = .submit l r isDns data alloc ∧ Unknown o ⟨l, r⟩
  · obtain ⟨l, r, isDns, data, alloc, rfl, hnew⟩ := hnew
    obtain ⟨hmem, hlost⟩ := hl
    cases hs with
    | hit hmem' hpair => exact absurd hpair (hnew _ hmem')
    | create _ _ _ _ _ _ _ =>
      rcases hlost with hnot | hne
      · exact absurd (List.mem_append_left _ hmem) hnot
      · refine absurd ?_ hne
        show (Function.update o.con o.allocated _ h).conaddr = _
        rw [Function.update_of_ne (ne_of_mem_of_not_mem hmem hi.fresh_notMem)]
    | createFails _ _ _ =>
      rcases hlost with hnot | hne
      · exact absurd hmem hnot
      · exact absurd rfl hne
    | @rebind _ _ _ _ _ h₀ rest t _ hfull hlist _ =>
      rcases eq_or_ne h h₀ with rfl | hne₀
      · exact ⟨l, r, isDns, data, alloc, rest, rfl, hnew, hfull, hlist⟩
      rcases hlost with hnot | hne
      · have hmem₀ : h₀ ∈ (o.rebind h₀ ⟨l, r⟩ t).connectionsList := mem_of_list hlist
        exact absurd ((move_perm hmem₀).mem_iff.mpr hmem) hnot
      · exact absurd (by rw [con_rebound_of_ne hne₀]) hne
  · exact absurd hl (hs.sameTable hnew).not_loses

/-- 空きのない時に知らない組の packet を送れば、list の先頭がその組に付け替えられる。 -/
theorem Step.rebinds (hs : Step cfg o (.submit l r isDns data alloc) o') (hnew : Unknown o ⟨l, r⟩)
    (hfull : o.numConnections = cfg.limit) :
    ∃ h rest, o.connectionsList = h :: rest ∧ (o'.con h).conaddr = ⟨l, r⟩ := by
  cases hs with
  | hit hmem hpair => exact absurd hpair (hnew _ hmem)
  | create _ hroom _ _ _ _ _ => exact absurd hfull (Nat.ne_of_lt hroom)
  | createFails _ hroom _ => exact absurd hfull (Nat.ne_of_lt hroom)
  | @rebind _ _ _ _ _ h rest _ _ _ hlist _ =>
    exact ⟨h, rest, hlist, conaddr_rebound _ _ _ _ _ _⟩

theorem Step.received (hs : Step cfg o (.received data) o')
    (hrej : ∀ h m, ¬ Accepts cfg o data h m) : o' = o := by
  cases hs with
  | accepted hacc => exact absurd hacc (hrej _ _)
  | rejected _ => rfl

theorem oldest_head {uses rest : List Nat} (hl : ByLastUse uses o.connectionsList)
    (hlist : o.connectionsList = h :: rest) : Oldest uses o h := by
  refine ⟨mem_of_list hlist, ?_⟩
  rw [hlist] at hl ⊢
  exact hl.head_oldest

/--
connection の cache は LRU である。

list は最後に使った順に並ぶ。connection が組を失うのは、空きのない時に知らない組の packet を送る時だけで、
失うのは最後に使ったのが最も古いものである。捨てられる message は何も変えない。
-/
theorem lru_cache (cfg : Config) (es : List Event) (o : UdpGwClient)
    (hrun : exec (guarded (step cfg)) (.ok .init) es = some (.ok o)) :
    ByLastUse (usesOf cfg es) o.connectionsList ∧
      ∀ e r, step cfg o e = some r → ∃ o', r = .ok o' ∧
        (∀ h, Loses o o' h → ∃ l r isDns data alloc, e = .submit l r isDns data alloc ∧
          Unknown o ⟨l, r⟩ ∧ o.numConnections = cfg.limit ∧ Oldest (usesOf cfg es) o h) ∧
        (∀ l r isDns data alloc, e = .submit l r isDns data alloc → Unknown o ⟨l, r⟩ →
          o.numConnections = cfg.limit →
          ∃ h, Oldest (usesOf cfg es) o h ∧ Loses o o' h ∧ (o'.con h).conaddr = ⟨l, r⟩) ∧
        (∀ data, e = .received data → (∀ h m, ¬ Accepts cfg o data h m) → o' = o) := by
  obtain ⟨hi, hl⟩ := byLastUse_run hrun
  refine ⟨hl, fun e r he => ?_⟩
  obtain ⟨o', rfl, hs⟩ := step_ok hi he
  refine ⟨o', rfl, fun h hlost => ?_, ?_, ?_⟩
  · obtain ⟨l, r, isDns, data, alloc, rest, heq, hnew, hfull, hlist⟩ := hs.loses hi hlost
    exact ⟨l, r, isDns, data, alloc, heq, hnew, hfull, oldest_head hl hlist⟩
  · rintro l r isDns data alloc rfl hnew hfull
    obtain ⟨h, rest, hlist, hpair⟩ := hs.rebinds hnew hfull
    have hmem := mem_of_list hlist
    exact ⟨h, oldest_head hl hlist, ⟨hmem, .inr fun heq => hnew h hmem (heq.symm.trans hpair)⟩,
      hpair⟩
  · rintro data rfl hrej
    exact hs.received hrej

theorem lru_cache_reusingRun :
    ∃ o, exec (guarded (step twoConnections)) (.ok .init) reusingRun = some (.ok o) ∧
      usesOf twoConnections reusingRun = [0, 1, 0, 1] ∧
      ByLastUse (usesOf twoConnections reusingRun) o.connectionsList := by
  obtain ⟨o, hrun, -⟩ := exec_ok_exists (step twoConnections) .init reusingRun (fun _ => True)
    (by decide +kernel)
  exact ⟨o, hrun, by decide +kernel, (lru_cache twoConnections reusingRun o hrun).1⟩

end UdpGw
