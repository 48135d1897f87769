import PsiphonVpn.Manager.Routing
import PsiphonVpn.Infra.Ledger

/-!
# tun descriptor の収支

manager が手に入れる descriptor は、`establish()` の結果と `routeThroughTunnel` の `dup` である。
前者は `tunFd` が持ち、`vpnTeardown` が閉じる。後者の持ち主は

`ParcelFileDescriptor` → `options.tun_fd` → `BTap` の `device`

と移り、`BTap_Free`（または `BTap_InitWithFD` の失敗）で閉じられる。
`heldBy` が位相ごとの持ち主で、「持ち主がある」ことと「まだ閉じられていない」ことが一致するのが
不変量である。

持ち主が無いまま descriptor が消える所は、`run()` が `BTap` に達する前に失敗したとき
（`dup_leaked`）、`tunFd` を上書きする `vpnEstablish`、番号 0 の `dup` などである。
-/

namespace Manager

open Infra

/-- 位相 `p` の thread が閉じる責任を負っている descriptor。 -/
def State.heldBy (s : State) : Phase Fd → Option Fd
  | .started fd => some fd
  | .entered => s.optionsTunFd
  | .setup .network | .setup .arguments | .setup .reactor | .setup .tap => s.optionsTunFd
  | .setup .readBuffer | .setup .udpgw | .setup .writeBuf => s.device
  | .loop => s.device
  | .exiting l => if Resource.device ∈ l.releases then s.device else none
  | .ended => none

/-- thread `t` が持っている descriptor。 -/
def State.threadFd (s : State) (t : Nat) : Option Fd :=
  (s.thread t).bind fun th => s.heldBy th.phase

/-- descriptor `id` には持ち主がある。 -/
def Held (s : State) (id : Nat) : Prop :=
  s.tunFd.map Fd.id = some id ∨ ∃ t, (s.threadFd t).map Fd.id = some id

/-- 手に入れた descriptor はすべて、ちょうど一回閉じられている。 -/
def AllClosedOnce (s : State) : Prop := ∀ id, id < s.nextFd → s.closes id = 1

/-- 一歩 `e` で `vpnTeardown` が、`join` を割り込まれずに戻る。 -/
def TeardownReturns (s : State) (e : Event) (s' : State) : Prop :=
  (e = .vpnTeardown ∧ s'.blocked = none) ∨ (e = .joinReturn ∧ ∃ t, s.blocked = some (t, true))

/-- `BTap` に達する前の段。 -/
def Setup.beforeTap : Setup → Bool
  | .network | .arguments | .reactor => true
  | _ => false

/-- thread `t` は `BTap` に達する前の段にいる。 -/
def State.beforeTap (s : State) (t : Nat) : Bool :=
  (s.thread t).any fun th => match th.phase with
    | .setup p => p.beforeTap
    | _ => false

/--
一歩の条件。

* `establish()` が成功するのは `tunFd` が空のときである
* `dup` は番号 0 にならず、thread を起こすのは前の thread がすべて終わった後である
* `run()` は `BTap` に達する前には失敗しない
* `vpnTeardown` が呼ばれるとき、参照されていない thread（割り込まれた `join` が見捨てたもの）は
  生きていない
-/
def KeepsDescriptors (s : State) : Event → Prop
  | .vpnEstablish (.established _ _) => s.tunFd = none
  | .routeThroughTunnel port dup =>
    s.isRoutingThroughTunnel = false ∧ s.tunFd.isSome = true ∧ 0 < port ∧ dup.isSome = true →
      dup ≠ some 0 ∧ s.allEnded
  | .vpnTeardown => ∀ t, t < s.nextThread → s.alive t = true → s.tun2SocksThread = some t
  | .native t (.init false) => s.beforeTap t = false
  | _ => True

instance : ∀ (s : State) (e : Event), Decidable (KeepsDescriptors s e)
  | _, .vpnEstablish (.established _ _) => inferInstanceAs (Decidable (_ = _))
  | _, .routeThroughTunnel _ _ => inferInstanceAs (Decidable (_ → _))
  | _, .vpnTeardown => Nat.decidableBallLT _ _
  | _, .native _ (.init false) => inferInstanceAs (Decidable (_ = _))
  | _, .vpnEstablish .noPrivateAddress | _, .vpnEstablish (.notPrepared _)
  | _, .stopRouteThroughTunnel | _, .joinReturn | _, .joinInterrupted
  | _, .native _ .enter | _, .native _ .reset | _, .native _ (.init true) | _, .native _ .tick
  | _, .native _ .fail | _, .native _ .leave | _, .native _ .cleanup => .isTrue trivial

/-! ## thread の持つ descriptor -/

variable {s s' : State} {t : Nat} {fd : Fd} {e : NativeEvent}

theorem threadFd_eq {th : Tun2Socks} (h : s.thread t = some th) :
    s.threadFd t = s.heldBy th.phase := by
  simp only [State.threadFd, h, Option.bind_some]

theorem threadFd_setPhase {s₀ : State} {th : Tun2Socks} (h : s.thread t = some th)
    (hs : s₀.thread = s.thread) (p : Phase Fd) : (s₀.setPhase t p).threadFd t = s₀.heldBy p := by
  rw [← hs] at h
  rw [threadFd_eq (setPhase_thread_self h p)]
  cases p with
  | setup q => cases q <;> rfl
  | _ => rfl

theorem alive_of_threadFd (h : s.threadFd t = some fd) : s.alive t = true := by
  unfold State.threadFd at h
  obtain ⟨th, hth, hfd⟩ := Option.bind_eq_some_iff.mp h
  cases hp : th.phase <;> simp_all [State.alive, Phase.alive, State.heldBy]

theorem threadFd_terminate (s : State) (t u : Nat) (b : Bool) :
    (terminateTun2Socks s t b).threadFd u = s.threadFd u := by
  have hheld : ∀ p, (terminateTun2Socks s t b).heldBy p = s.heldBy p := by
    intro p
    cases p with
    | setup q => cases q <;> rfl
    | _ => rfl
  unfold State.threadFd
  by_cases hu : u = t
  · subst hu
    cases h : s.thread u with
    | none => simp [terminateTun2Socks, h]
    | some th =>
      simp only [terminateTun2Socks, Function.update_self, h, Option.map_some, Option.bind_some]
      exact hheld th.phase
  · simp only [terminateTun2Socks, Function.update_of_ne hu]
    exact congrArg _ (funext fun th => hheld th.phase)

theorem held_of_threadFd (h : s.threadFd t = some fd) : Held s fd.id :=
  Or.inr ⟨t, by rw [h]; rfl⟩

theorem held_of_tunFd (h : s.tunFd = some fd) : Held s fd.id :=
  Or.inl (by rw [h]; rfl)

/-! ## 不変量 -/

structure DescriptorInv (s : State) : Prop extends ThreadInv s where
  attached : ∀ t, s.tun2SocksThread = some t →
    s.tunFd.isSome = true ∧ (s.isRoutingThroughTunnel = true ∨ s.blocked.isSome = true)
  teardown : ∀ t u, s.blocked = some (t, true) → s.alive u = true → u = t
  nonzero : ∀ t fd, s.threadFd t = some fd → fd.num ≠ 0
  distinct : ∀ a t b, s.tunFd = some a → s.threadFd t = some b → a.id ≠ b.id
  ledger : Ledger (Held s) s.nextFd s.closes

theorem descriptorInv_init : DescriptorInv init where
  toThreadInv := threadInv_init
  attached := by simp [init]
  teardown := by simp [init]
  nonzero := by simp [init, State.threadFd]
  distinct := by simp [init]
  ledger := Ledger.empty.congr fun i => by simp [Held, init, State.threadFd]

/-- descriptor の持ち主が変わらない変更。 -/
theorem DescriptorInv.keep (h : DescriptorInv s) (h' : ThreadInv s') (hfd : s'.tunFd = s.tunFd)
    (ht : ∀ t, s'.threadFd t = s.threadFd t) (hn : s'.nextFd = s.nextFd)
    (hcl : s'.closes = s.closes) (hatt : ∀ t, s'.tun2SocksThread = some t →
      s'.tunFd.isSome = true ∧ (s'.isRoutingThroughTunnel = true ∨ s'.blocked.isSome = true))
    (htd : ∀ t u, s'.blocked = some (t, true) → s'.alive u = true → u = t) :
    DescriptorInv s' where
  toThreadInv := h'
  attached := hatt
  teardown := htd
  nonzero := fun t fd => by rw [ht]; exact h.nonzero t fd
  distinct := fun a t b => by rw [hfd, ht]; exact h.distinct a t b
  ledger := by
    rw [hn, hcl]
    exact h.ledger.congr fun i => by simp only [Held, hfd, ht]

/-- flag が倒れていて誰も待っていないなら、thread は参照されていない。 -/
theorem DescriptorInv.detached (h : DescriptorInv s) (hr : s.isRoutingThroughTunnel = false)
    (hb : s.blocked = none) : s.tun2SocksThread = none := by
  cases ht : s.tun2SocksThread with
  | none => rfl
  | some t =>
    have := (h.attached t ht).2
    simp [hr, hb] at this

theorem descriptorInv_established {a : PrivateAddress} {num : Nat} (h : DescriptorInv s)
    (hb : s.blocked = none) (hfd : s.tunFd = none)
    (h' : ThreadInv (vpnEstablish s (.established a num))) :
    DescriptorInv (vpnEstablish s (.established a num)) where
  toThreadInv := h'
  attached := by
    intro t ht
    have := (h.attached t ht).1
    simp [hfd] at this
  teardown := fun t u hj => by
    have : s.blocked = some (t, true) := hj
    simp [hb] at this
  nonzero := h.nonzero
  distinct := by
    intro b t c hb' hc
    have hlt : c.id < s.nextFd := h.ledger.bound c.id (held_of_threadFd (s := s) hc)
    simp only [vpnEstablish, Option.some.injEq] at hb'
    subst hb'
    show s.nextFd ≠ c.id
    omega
  ledger := by
    refine h.ledger.acquire fun i => ?_
    simp only [Held, hfd, vpnEstablish, Option.map_some, Option.some.injEq,
      Option.map_none, reduceCtorEq, false_or]
    constructor
    · rintro (rfl | ht)
      · exact Or.inr rfl
      · exact Or.inl ht
    · rintro (ht | rfl)
      · exact Or.inr ht
      · exact Or.inl rfl

/-- 前の thread がすべて終わっているなら、持っているのは起こした thread だけである。 -/
theorem threadFd_started (h : ThreadInv s) (hend : s.allEnded) (port : Int) (a : PrivateAddress)
    (num t : Nat) :
    s.threadFd t = none ∧ (started s port a num).threadFd t =
      if t = s.nextThread then some { id := s.nextFd, num := num } else none := by
  have hold : ∀ u, s.threadFd u = none := by
    intro u
    cases hu : s.threadFd u with
    | none => rfl
    | some fd =>
      have halive := alive_of_threadFd hu
      rw [hend u (h.alive_lt halive)] at halive
      simp at halive
  refine ⟨hold t, ?_⟩
  by_cases ht : t = s.nextThread
  · subst ht
    simp [State.threadFd, started, State.heldBy]
  · rw [if_neg ht]
    cases hu : (started s port a num).threadFd t with
    | none => rfl
    | some fd => exact absurd (h.alive_started hend (alive_of_threadFd hu)) ht

theorem descriptorInv_started {port : Int} {a : PrivateAddress} {num : Nat} (h : DescriptorInv s)
    (hfd : s.tunFd.isSome = true) (hb : s.blocked = none) (hnum : num ≠ 0) (hend : s.allEnded)
    (h' : ThreadInv (started s port a num)) :
    DescriptorInv (started s port a num) := by
  have hthread := threadFd_started h.toThreadInv hend port a num
  have honly : ∀ t fd, (started s port a num).threadFd t = some fd →
      fd = { id := s.nextFd, num := num } := by
    intro t fd ht
    rw [(hthread t).2] at ht
    split at ht
    · exact (Option.some.inj ht).symm
    · simp at ht
  refine ⟨h', fun _ _ => ⟨hfd, Or.inl rfl⟩, ?_, ?_, ?_, ?_⟩
  · intro t u hj
    simp [started, hb] at hj
  · intro t fd ht
    rw [honly t fd ht]
    exact hnum
  · intro b t c hb' hc
    have hlt : b.id < s.nextFd := h.ledger.bound b.id (held_of_tunFd hb')
    rw [honly t c hc]
    exact Nat.ne_of_lt hlt
  · refine h.ledger.acquire fun i => ?_
    have hself : ((started s port a num).threadFd s.nextThread).map Fd.id = some s.nextFd := by
      rw [(hthread s.nextThread).2, if_pos rfl]
      rfl
    constructor
    · rintro (hi | ⟨t, ht⟩)
      · exact Or.inl (Or.inl hi)
      · obtain ⟨fd, hfd', rfl⟩ := Option.map_eq_some_iff.mp ht
        rw [honly t fd hfd']
        exact Or.inr rfl
    · rintro ((hi | ⟨t, ht⟩) | rfl)
      · exact Or.inl hi
      · rw [(hthread t).1] at ht
        simp at ht
      · exact Or.inr ⟨_, hself⟩

theorem descriptorInv_route {port : Int} {dup : Option Nat} (h : DescriptorInv s)
    (hb : s.blocked = none) (hc : KeepsDescriptors s (.routeThroughTunnel port dup))
    (h' : ThreadInv (routeThroughTunnel s port dup)) :
    DescriptorInv (routeThroughTunnel s port dup) := by
  obtain ⟨-, he⟩ | ⟨-, -, he⟩ | ⟨hr, hfd, -, hbad, -⟩ | ⟨a, num, ⟨hr, hfd, hport, rfl, -⟩, -, he⟩ :=
    routeThroughTunnel_cases s port dup
  · rw [he]; exact h
  · rw [he] at h' ⊢
    refine h.keep h' rfl (fun _ => rfl) rfl rfl ?_ h.teardown
    exact fun t ht => ⟨(h.attached t ht).1, Or.inl rfl⟩
  · rcases hbad with hbad | hbad
    · have := h.address hfd
      simp [hbad] at this
    · simp [h.detached hr hb] at hbad
  · obtain ⟨hnum, hend⟩ := hc ⟨hr, hfd, hport, rfl⟩
    rw [he] at h' ⊢
    exact descriptorInv_started h hfd hb (fun h0 => hnum (by rw [h0])) hend h'

/-- `tunFd` を閉じて空にする。 -/
theorem descriptorInv_finishTeardown (h : DescriptorInv s) (hn : s.tun2SocksThread = none)
    (hb : s.blocked = none) : DescriptorInv (finishTeardown s) := by
  have h' : ThreadInv (finishTeardown s) := threadInv_finishTeardown h.toThreadInv hb
  have hdet : (finishTeardown s).tun2SocksThread = none := by simpa using hn
  have hfree : (finishTeardown s).blocked = none := by simpa using hb
  cases hfd : s.tunFd with
  | none =>
    have hs : finishTeardown s = { s with tunFd := none, isRoutingThroughTunnel := false } := by
      simp only [finishTeardown, hfd, State.close]
    rw [hs] at h' ⊢
    refine h.keep h' hfd.symm (fun _ => rfl) rfl rfl ?_ h.teardown
    exact fun t ht => absurd ht (by simp [hn])
  | some fd =>
    have hthread : ∀ t, (finishTeardown s).threadFd t = s.threadFd t := by
      intro t
      simp only [finishTeardown, hfd, State.close]
      rfl
    refine ⟨h', ?_, ?_, ?_, ?_, ?_⟩
    · intro t ht
      rw [hdet] at ht
      simp at ht
    · intro t u hj
      rw [hfree] at hj
      simp at hj
    · intro t fd' ht
      rw [hthread] at ht
      exact h.nonzero t fd' ht
    · intro a t b ha
      simp [finishTeardown] at ha
    · have hled : Ledger (Held (finishTeardown s)) s.nextFd
          (Function.update s.closes fd.id (s.closes fd.id + 1)) := by
        refine h.ledger.release (held_of_tunFd hfd) fun i => ?_
        simp only [Held, hfd, finishTeardown, Option.map_none, reduceCtorEq, false_or,
          Option.map_some, Option.some.injEq]
        constructor
        · rintro ⟨t, ht⟩
          refine ⟨Or.inr ⟨t, ht⟩, ?_⟩
          obtain ⟨b, hb', rfl⟩ := Option.map_eq_some_iff.mp ht
          exact (h.distinct fd t b hfd hb').symm
        · rintro ⟨rfl | ht, hne⟩
          · exact absurd rfl hne
          · exact ht
      simpa only [finishTeardown, hfd, State.close] using hled

theorem descriptorInv_stop {b : Bool} (h : DescriptorInv s) (hb : s.blocked = none)
    (hc : b = true → ∀ t, t < s.nextThread → s.alive t = true → s.tun2SocksThread = some t) :
    DescriptorInv (stopRouteThroughTunnel s b) := by
  have h' : ThreadInv (stopRouteThroughTunnel s b) := threadInv_stop h.toThreadInv hb
  obtain ⟨t, -, ht, he⟩ | ⟨hno, he⟩ := stopRouteThroughTunnel_cases s b
  · rw [he] at h' ⊢
    refine h.keep h' rfl (fun u => threadFd_terminate _ t u b) rfl rfl ?_ ?_
    · exact fun u hu => ⟨(h.attached u hu).1, Or.inr rfl⟩
    · intro u v hj hv
      rw [alive_terminate] at hv
      simp only [terminateTun2Socks, Option.some.injEq, Prod.mk.injEq] at hj
      have hvt := hc hj.2 v (h.alive_lt hv) hv
      rw [ht, Option.some.injEq] at hvt
      exact hvt ▸ hj.1
  · have hn : s.tun2SocksThread = none := by
      rcases hno with hr | hn
      · exact h.detached hr hb
      · exact hn
    have h₀ : DescriptorInv { s with isRoutingThroughTunnel := false } := by
      have ht₀ : ThreadInv { s with isRoutingThroughTunnel := false } :=
        h.toThreadInv.of_unblocked hb (fun hs => hs) rfl rfl rfl
      refine h.keep ht₀ rfl (fun _ => rfl) rfl rfl ?_ h.teardown
      exact fun t ht => absurd ht (by simp [hn])
    rw [he]
    cases b with
    | false => exact h₀
    | true => exact descriptorInv_finishTeardown h₀ hn hb

theorem descriptorInv_afterJoin {b : Bool} (h : DescriptorInv s) :
    DescriptorInv (afterJoin s b) := by
  have h₀ : DescriptorInv { s with tun2SocksThread := none, blocked := none } := by
    have ht₀ : ThreadInv { s with tun2SocksThread := none, blocked := none } :=
      h.toThreadInv.of_unblocked rfl (fun hs => hs) rfl rfl rfl
    exact h.keep ht₀ rfl (fun _ => rfl) rfl rfl (by simp) (by simp)
  cases b with
  | false => exact h₀
  | true => exact descriptorInv_finishTeardown h₀ rfl rfl

/-! ## native の一歩と持ち主 -/

/-- `f` から `f'` への一歩で、descriptor は渡されたままか、一回閉じられて手放される。 -/
def PassedOrClosed (f f' : Option Fd) (c c' : Nat → Nat) : Prop :=
  (f' = f ∧ c' = c) ∨
    ∃ fd, f = some fd ∧ f' = none ∧ c' = Function.update c fd.id (c fd.id + 1)

theorem passedOrClosed_close (s : State) (fd : Option Fd) :
    PassedOrClosed fd none s.closes (s.close fd).closes := by
  cases fd with
  | none => exact Or.inl ⟨rfl, rfl⟩
  | some fd => exact Or.inr ⟨fd, rfl, rfl, rfl⟩

/-- 番号が 0 でなければ、`run()` は渡された descriptor を使う。 -/
theorem suppliedFd_of_nonzero (h : ∀ fd, s.optionsTunFd = some fd → fd.num ≠ 0) :
    s.suppliedFd = s.optionsTunFd := by
  unfold State.suppliedFd
  cases hfd : s.optionsTunFd with
  | none => rfl
  | some fd => simp [h fd hfd]

theorem passedOrClosed_setupOk {q : Setup}
    (hnz : ∀ fd, s.heldBy (.setup q) = some fd → fd.num ≠ 0) :
    PassedOrClosed (s.heldBy (.setup q)) ((setupOk s q).heldBy q.nextPhase) s.closes
      (setupOk s q).closes := by
  cases q with
  | tap => exact Or.inl ⟨suppliedFd_of_nonzero hnz, rfl⟩
  | _ => exact Or.inl ⟨rfl, rfl⟩

/-- `BTap` の段からは、失敗しても descriptor の持ち主はなくならない。 -/
theorem passedOrClosed_setupFail {q : Setup}
    (hnz : ∀ fd, s.heldBy (.setup q) = some fd → fd.num ≠ 0) (hq : q.beforeTap = false) :
    PassedOrClosed (s.heldBy (.setup q)) ((setupFail s q).heldBy (.exiting q.failLabel)) s.closes
      (setupFail s q).closes := by
  cases q with
  | tap =>
    have hsup : s.heldBy (.setup .tap) = s.suppliedFd := (suppliedFd_of_nonzero hnz).symm
    rw [hsup]
    exact passedOrClosed_close s s.suppliedFd
  | readBuffer => exact Or.inl ⟨rfl, rfl⟩
  | udpgw => exact Or.inl ⟨rfl, rfl⟩
  | writeBuf => exact Or.inl ⟨rfl, rfl⟩
  | network => simp [Setup.beforeTap] at hq
  | arguments => simp [Setup.beforeTap] at hq
  | reactor => simp [Setup.beforeTap] at hq

theorem passedOrClosed_release (s : State) (l : Label) :
    PassedOrClosed (s.heldBy (.exiting l)) none s.closes (release s l).closes := by
  show PassedOrClosed (if Resource.device ∈ l.releases then s.device else none) none _ _
  unfold release
  by_cases hd : Resource.device ∈ l.releases
  · rw [if_pos hd, if_pos hd]
    exact passedOrClosed_close s s.device
  · rw [if_neg hd, if_neg hd]
    exact Or.inl ⟨rfl, rfl⟩

/-- 条件を満たす native の一歩は、動いた thread の descriptor を渡すか、一回閉じて手放す。 -/
theorem passedOrClosed_native (hnz : ∀ t fd, s.threadFd t = some fd → fd.num ≠ 0)
    (hc : KeepsDescriptors s (.native t e)) (he : nativeStep s t e = some s') :
    PassedOrClosed (s.threadFd t) (s'.threadFd t) s.closes s'.closes := by
  unfold nativeStep at he
  cases hth : s.thread t with
  | none => rw [hth] at he; simp at he
  | some th =>
    rw [hth] at he
    have hheld : s.threadFd t = s.heldBy th.phase := threadFd_eq hth
    have hnz' : ∀ fd, s.heldBy th.phase = some fd → fd.num ≠ 0 := by
      rw [← hheld]
      exact hnz t
    rw [hheld]
    obtain ⟨fd, hp, -, rfl⟩ | ⟨hp, -, rfl⟩ | ⟨q, ok, hp, rfl, rfl⟩ | ⟨hp, -, -, hs⟩ |
      ⟨hp, -, -, rfl⟩ | ⟨l, hp, -, rfl⟩ := phaseStep_cases he
    · have hentered : ({ s with optionsTunFd := some fd }.setPhase t .entered).threadFd t =
          some fd :=
        @threadFd_setPhase s t { s with optionsTunFd := some fd } th hth rfl .entered
      rw [hentered, hp]
      exact Or.inl ⟨rfl, rfl⟩
    · rw [hp]
      exact Or.inl ⟨threadFd_setPhase hth rfl _, rfl⟩
    · rw [hp] at hnz' ⊢
      cases ok with
      | true =>
        have h := passedOrClosed_setupOk hnz'
        rw [← threadFd_setPhase hth (setupOk_thread s q)] at h
        exact h
      | false =>
        have hq : q.beforeTap = false := by
          have hbefore : s.beforeTap t = false := hc
          simpa [State.beforeTap, hth, hp] using hbefore
        have h := passedOrClosed_setupFail hnz' hq
        rw [← threadFd_setPhase hth (setupFail_thread s q)] at h
        exact h
    · rcases hs with rfl | rfl
      · exact Or.inl ⟨hheld, rfl⟩
      · exact Or.inl ⟨hheld, rfl⟩
    · rw [threadFd_setPhase hth rfl, hp]
      exact Or.inl ⟨rfl, rfl⟩
    · rw [threadFd_setPhase hth (release_thread s l), hp]
      exact passedOrClosed_release s l

theorem alive_of_stepped (he : nativeStep s t e = some s') : s.alive t = true := by
  unfold nativeStep at he
  cases hth : s.thread t with
  | none => rw [hth] at he; simp at he
  | some th =>
    rw [hth] at he
    cases hp : th.phase with
    | ended => simp [hp, phaseStep] at he
    | _ => simp [State.alive, hth, hp, Phase.alive]

/-- 生きている thread が一本なら、ほかの thread は動く前も後も何も持っていない。 -/
theorem threadFd_other {u : Nat} (h : ThreadInv s) (he : nativeStep s t e = some s') (hu : u ≠ t) :
    s.threadFd u = none ∧ s'.threadFd u = none := by
  have ht : s.alive t = true := alive_of_stepped he
  constructor
  · cases hfd : s.threadFd u with
    | none => rfl
    | some fd => exact absurd (h.single u t (alive_of_threadFd hfd) ht) hu
  · cases hfd : s'.threadFd u with
    | none => rfl
    | some fd =>
      exact absurd (h.single u t (alive_of_nativeStep he (alive_of_threadFd hfd)) ht) hu

theorem descriptorInv_native (h : DescriptorInv s) (hc : KeepsDescriptors s (.native t e))
    (he : nativeStep s t e = some s') :
    DescriptorInv s' := by
  obtain ⟨th, p, -, hm, -⟩ := nativeStep_frame he
  have h' : ThreadInv s' := threadInv_native h.toThreadInv he
  have hatt : ∀ u, s'.tun2SocksThread = some u →
      s'.tunFd.isSome = true ∧ (s'.isRoutingThroughTunnel = true ∨ s'.blocked.isSome = true) := by
    rw [hm.same.tun2SocksThread, hm.same.tunFd, hm.same.isRoutingThroughTunnel, hm.same.blocked]
    exact h.attached
  have htd : ∀ u v, s'.blocked = some (u, true) → s'.alive v = true → v = u := by
    intro u v hj hv
    rw [hm.same.blocked] at hj
    exact h.teardown u v hj (alive_of_nativeStep he hv)
  rcases passedOrClosed_native h.nonzero hc he with ⟨hpass, hcl⟩ | ⟨fd, hfd, hnone, hcl⟩
  · refine h.keep h' hm.same.tunFd (fun u => ?_) hm.same.nextFd hcl hatt htd
    by_cases hu : u = t
    · rw [hu]; exact hpass
    · obtain ⟨h1, h2⟩ := threadFd_other h.toThreadInv he hu
      rw [h1, h2]
  · -- 持っていたのは動いた thread だけなので、手放した後は誰も持っていない
    have hempty : ∀ u, s'.threadFd u = none := by
      intro u
      by_cases hu : u = t
      · rw [hu]; exact hnone
      · exact (threadFd_other h.toThreadInv he hu).2
    have hone : ∀ u b, s.threadFd u = some b → b = fd := by
      intro u b hb
      by_cases hu : u = t
      · rw [hu, hfd] at hb
        exact (Option.some.inj hb).symm
      · rw [(threadFd_other h.toThreadInv he hu).1] at hb
        simp at hb
    refine ⟨h', hatt, htd, ?_, ?_, ?_⟩
    · intro u b hb
      simp [hempty u] at hb
    · intro a u b _ hb
      simp [hempty u] at hb
    · rw [hm.same.nextFd, hcl]
      refine h.ledger.release (held_of_threadFd hfd) fun i => ?_
      simp only [Held, hempty, hm.same.tunFd, Option.map_none, reduceCtorEq, exists_const, or_false]
      constructor
      · intro hi
        refine ⟨Or.inl hi, ?_⟩
        obtain ⟨a, ha, rfl⟩ := Option.map_eq_some_iff.mp hi
        exact h.distinct a t fd ha hfd
      · rintro ⟨hi | ⟨u, hu⟩, hne⟩
        · exact hi
        · obtain ⟨b, hb, rfl⟩ := Option.map_eq_some_iff.mp hu
          exact absurd (congrArg Fd.id (hone u b hb)) hne

theorem descriptorInv_step {e : Event} (h : DescriptorInv s) (hc : KeepsDescriptors s e)
    (he : step s e = some s') : DescriptorInv s' := by
  have h' : ThreadInv s' := by
    refine threadInv_step h.toThreadInv ?_ he
    rintro port dup a num rfl ⟨hr, hfd, hport, hdup, -⟩
    exact (hc ⟨hr, hfd, hport, by simp [hdup]⟩).2
  refine step_elim (P := fun s' => ThreadInv s' → DescriptorInv s') he ?_ ?_ ?_ ?_ ?_ h'
  · intro o hev hb h'
    subst hev
    cases o with
    | noPrivateAddress => exact h
    | notPrepared a => exact h.keep h' rfl (fun _ => rfl) rfl rfl h.attached h.teardown
    | established a num => exact descriptorInv_established h hb hc h'
  · intro port dup hev hb h'
    subst hev
    exact descriptorInv_route h hb hc h'
  · intro b hev hb _
    refine descriptorInv_stop h hb ?_
    rintro rfl
    subst hev
    exact hc
  · intro t b _ _ _
    exact descriptorInv_afterJoin h
  · intro t n hev hn _
    subst hev
    exact descriptorInv_native h hc hn

/-! ## 定理 -/

/-- `tunFd` が空で thread がすべて終わっていれば、収支は閉じている。 -/
theorem DescriptorInv.allClosedOnce (h : DescriptorInv s) (hfd : s.tunFd = none)
    (hend : ∀ t, s.alive t = false) : AllClosedOnce s := by
  refine h.ledger.closed_of_none fun i => ?_
  rintro (hi | ⟨t, ht⟩)
  · simp [hfd] at hi
  · obtain ⟨fd, hfd', -⟩ := Option.map_eq_some_iff.mp ht
    have := alive_of_threadFd hfd'
    simp [hend t] at this

/-- `vpnTeardown` が戻った所では、`tunFd` は空で、生きている thread は無い。 -/
theorem teardown_ends {e : Event} (h : DescriptorInv s) (hc : KeepsDescriptors s e)
    (he : step s e = some s') (hret : TeardownReturns s e s') :
    s'.tunFd = none ∧ ∀ t, s'.alive t = false := by
  rcases hret with ⟨rfl, hb'⟩ | ⟨rfl, t, hb⟩
  · have hs' : s' = stopRouteThroughTunnel s true := by
      simp only [step] at he
      split at he
      · simp at he
      · exact (Option.some.inj he).symm
    have hb : s.blocked = none := by
      simp only [step] at he
      split at he
      · simp at he
      · next hb => simpa using hb
    subst hs'
    obtain ⟨t, -, -, hstop⟩ | ⟨hno, hstop⟩ := stopRouteThroughTunnel_cases s true
    · rw [hstop] at hb'
      simp [terminateTun2Socks] at hb'
    · have hn : s.tun2SocksThread = none := by
        rcases hno with hr | hn
        · exact h.detached hr hb
        · exact hn
      rw [hstop, if_pos rfl]
      refine ⟨rfl, fun t => ?_⟩
      rw [State.alive, finishTeardown_thread]
      by_contra halive
      have ht : s.alive t = true := by simpa [State.alive] using halive
      have := hc t (h.alive_lt ht) ht
      rw [hn] at this
      simp at this
  · simp only [step, hb] at he
    split at he
    · simp at he
    · next hdead =>
      rw [← Option.some.inj he]
      refine ⟨rfl, fun u => ?_⟩
      rw [State.alive, afterJoin, if_pos rfl, finishTeardown_thread]
      by_contra halive
      have hu : s.alive u = true := by simpa [State.alive] using halive
      rw [h.teardown t u hb hu] at hu
      exact hdead hu

/--
どの一歩も `KeepsDescriptors` を満たす run で `vpnTeardown` が割り込まれずに戻ると、それまでに
手に入れた descriptor はすべて、ちょうど一回閉じられている。
-/
theorem teardown_closes_all {es : List Event} {e : Event} {s s' : State}
    (hrun : exec step init es = some s) (he : step s e = some s')
    (hc : Meets step KeepsDescriptors init (es ++ [e])) (hret : TeardownReturns s e s') :
    AllClosedOnce s' := by
  obtain ⟨hm, hlast⟩ := hc.snoc hrun
  have hinv : DescriptorInv s :=
    exec_induct (fun _ _ _ hi hok he => descriptorInv_step hi hok he) es init s
      descriptorInv_init hm hrun
  obtain ⟨hfd, hend⟩ := teardown_ends hinv hlast he hret
  exact (descriptorInv_step hinv hlast he).allClosedOnce hfd hend

/-- 一度目の run は `BTap_InitWithFD` に失敗し、二度目は loop まで進んでから teardown される。 -/
def teardownAfterRetry : List Event :=
  [[.vpnEstablish (.established ⟨"10.0.0.1", "10.0.0.0", 8, "10.0.0.2"⟩ 40),
      .routeThroughTunnel 1080 (some 41), .native 0 .enter, .native 0 .reset],
    List.replicate 3 (.native 0 (.init true)),
    [.native 0 (.init false), .native 0 .cleanup, .stopRouteThroughTunnel, .joinReturn,
      .routeThroughTunnel 1080 (some 42), .native 1 .enter, .native 1 .reset],
    List.replicate 7 (.native 1 (.init true)),
    [.vpnTeardown, .native 1 .tick, .native 1 .leave, .native 1 .cleanup]].flatten

/-- `teardownAfterRetry` の `join` が戻ると、三つの descriptor はちょうど一回ずつ閉じられている。 -/
theorem teardown_closes_all_teardownAfterRetry :
    ∃ s s', exec step init teardownAfterRetry = some s ∧ step s .joinReturn = some s' ∧
      s'.nextFd = 3 ∧ AllClosedOnce s' := by
  obtain ⟨s, hs, hb, hstep⟩ := exec_exists step init teardownAfterRetry
    (fun s => s.blocked = some (1, true) ∧
      (step s .joinReturn).any (fun s' => decide (s'.nextFd = 3)) = true) (by decide)
  obtain ⟨s', hs', hn⟩ := (Option.any_eq_true _ _).mp hstep
  exact ⟨s, s', hs, hs', of_decide_eq_true hn,
    teardown_closes_all hs hs' (by decide) (Or.inr ⟨rfl, 1, hb⟩)⟩

/-- `BReactor_Init` が失敗する run。`goto fail1` は descriptor に触れない。 -/
def reactorFails : List Event :=
  [.vpnEstablish (.established ⟨"10.0.0.1", "10.0.0.0", 8, "10.0.0.2"⟩ 40),
    .routeThroughTunnel 1080 (some 41), .native 0 .enter, .native 0 .reset,
    .native 0 (.init true), .native 0 (.init true), .native 0 (.init false), .native 0 .cleanup,
    .vpnTeardown]

/--
`run()` が `BTap` に達する前に失敗すると、`detachFd` された `dup` を閉じる者がいない。
`vpnTeardown` が割り込まれずに戻っても、その descriptor は一度も閉じられていない。
-/
theorem dup_leaked :
    ∃ s s', exec step init reactorFails = some s ∧ step s .joinReturn = some s' ∧
      TeardownReturns s .joinReturn s' ∧ ¬ AllClosedOnce s' := by
  obtain ⟨s, hs, hb, hstep⟩ := exec_exists step init reactorFails
    (fun s => s.blocked = some (0, true) ∧
      (step s .joinReturn).any (fun s' => decide (1 < s'.nextFd ∧ s'.closes 1 = 0)) = true)
    (by decide)
  obtain ⟨s', hs', hleak⟩ := (Option.any_eq_true _ _).mp hstep
  obtain ⟨hlt, hzero⟩ := of_decide_eq_true hleak
  refine ⟨s, s', hs, hs', Or.inr ⟨rfl, 0, hb⟩, fun h => ?_⟩
  have hone := h 1 hlt
  omega

end Manager
