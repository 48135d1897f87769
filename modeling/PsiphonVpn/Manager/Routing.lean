import PsiphonVpn.Manager.Threads

/-!
# `isRoutingThroughTunnel` と tun2socks thread

method の呼び出しが済んだ所で、`isRoutingThroughTunnel` が真であることと、
`tun2SocksThread` が「起こされていて terminate の出ていない thread」を指すことが一致し、
`runTun2Socks` は高々一つしか走っていない。これを `RoutingConsistent` と呼ぶ。

実際には三つの所で崩れる。

* `routeThroughTunnel` は flag を立ててから `tunFd` や port を見る。早い return や
  `dup()` の `IOException` では flag だけが残る（`routing_flag_left_set`）
* `vpnEstablish` は thread が走っていても flag を倒す
* `join` が割り込まれると、走っている thread の参照が捨てられ、次の
  `routeThroughTunnel` が二本目を起こす

そのどれも起きない run では成り立つ（`routing_consistent`）。
-/

namespace Manager

open Infra

def State.inProgress (s : State) (t : Nat) : Bool :=
  (s.thread t).any (·.phase.inProgress)

/-- flag と thread の参照が一致し、native の run は高々一つである。 -/
def RoutingConsistent (s : State) : Prop :=
  (s.isRoutingThroughTunnel = true ↔
    ∃ t th, s.tun2SocksThread = some t ∧ s.thread t = some th ∧ th.terminated = false) ∧
  ∀ t u, s.inProgress t = true → s.inProgress u = true → t = u

/--
一歩の条件。

`establish()` が成功するのは flag が倒れている間で、flag を立てる `routeThroughTunnel` は
descriptor と port が揃い、`dup()` が成功し、前の thread がすべて終わった後に呼ばれる。
-/
def RoutesProperly (s : State) : Event → Prop
  | .vpnEstablish (.established _ _) => s.isRoutingThroughTunnel = false
  | .routeThroughTunnel port dup =>
    s.isRoutingThroughTunnel = false →
      s.tunFd.isSome = true ∧ 0 < port ∧ dup.isSome = true ∧ s.allEnded
  | _ => True

instance : ∀ (s : State) (e : Event), Decidable (RoutesProperly s e)
  | _, .vpnEstablish (.established _ _) => inferInstanceAs (Decidable (_ = _))
  | _, .routeThroughTunnel _ _ => inferInstanceAs (Decidable (_ → _))
  | _, .vpnEstablish .noPrivateAddress | _, .vpnEstablish (.notPrepared _)
  | _, .stopRouteThroughTunnel | _, .vpnTeardown | _, .joinReturn | _, .joinInterrupted
  | _, .native _ _ => .isTrue trivial

/-! ## 不変量 -/

structure RoutingInv (s : State) : Prop extends ThreadInv s where
  flag : s.isRoutingThroughTunnel = (s.tun2SocksThread.isSome && s.blocked.isNone)
  attached : ∀ t, s.tun2SocksThread = some t →
    ∃ th, s.thread t = some th ∧ th.terminated = s.blocked.isSome

theorem routingInv_init : RoutingInv init where
  toThreadInv := threadInv_init
  flag := rfl
  attached := by simp [init]

variable {s : State} {b : Bool}

theorem RoutingInv.detached (h : RoutingInv s) (hr : s.isRoutingThroughTunnel = false)
    (hb : s.blocked = none) : s.tun2SocksThread = none := by
  have hf := h.flag
  rw [hr, hb] at hf
  simpa using hf.symm

theorem RoutingInv.consistent (h : RoutingInv s) (hb : s.blocked = none) : RoutingConsistent s := by
  refine ⟨?_, fun t u ht hu => h.single t u ?_ ?_⟩
  · rw [h.flag, hb]
    constructor
    · intro hs
      obtain ⟨t, ht⟩ := Option.isSome_iff_exists.mp (by simpa using hs)
      obtain ⟨th, hth, hterm⟩ := h.attached t ht
      exact ⟨t, th, ht, hth, by simpa [hb] using hterm⟩
    · rintro ⟨t, th, ht, -, -⟩
      simp [ht]
  · obtain ⟨th, hth, hp⟩ := (Option.any_eq_true _ _).mp ht
    exact (Option.any_eq_true _ _).mpr ⟨th, hth, Phase.alive_of_inProgress hp⟩
  · obtain ⟨th, hth, hp⟩ := (Option.any_eq_true _ _).mp hu
    exact (Option.any_eq_true _ _).mpr ⟨th, hth, Phase.alive_of_inProgress hp⟩

theorem routingInv_of_detached (h : ThreadInv s) (hn : s.tun2SocksThread = none)
    (hr : s.isRoutingThroughTunnel = false) : RoutingInv s where
  toThreadInv := h
  flag := by rw [hr, hn]; rfl
  attached := fun t ht => by rw [hn] at ht; simp at ht

theorem routingInv_route {port : Int} {dup : Option Nat} (h : RoutingInv s)
    (hb : s.blocked = none) (hc : RoutesProperly s (.routeThroughTunnel port dup))
    (h' : ThreadInv (routeThroughTunnel s port dup)) :
    RoutingInv (routeThroughTunnel s port dup) := by
  obtain ⟨-, he⟩ | ⟨hr, hbad, -⟩ | ⟨hr, hfd, -, hbad, -⟩ | ⟨a, num, ⟨hr, -, -, -, ha⟩, -, he⟩ :=
    routeThroughTunnel_cases s port dup
  · rw [he]; exact h
  · -- flag だけが立つ場合は、条件に反する
    obtain ⟨h1, h2, h3, -⟩ := hc hr
    rcases hbad with hbad | hbad | hbad
    · simp [hbad] at h1
    · omega
    · simp [hbad] at h3
  · rcases hbad with hbad | hbad
    · have := h.address hfd
      simp [hbad] at this
    · simp [h.detached hr hb] at hbad
  · rw [he] at h' ⊢
    refine ⟨h', by simp [started, hb], ?_⟩
    intro t ht
    simp only [started, Option.some.injEq] at ht
    subst ht
    exact ⟨_, Function.update_self .., by simp [started, hb]⟩

theorem routingInv_terminate {t : Nat} (h : RoutingInv s) (ht : s.tun2SocksThread = some t) :
    RoutingInv (terminateTun2Socks { s with isRoutingThroughTunnel := false } t b) where
  toThreadInv := threadInv_terminate h.toThreadInv ht
  flag := by simp [terminateTun2Socks]
  attached := by
    intro u hu
    have hut : u = t := by
      have : s.tun2SocksThread = some u := hu
      rw [ht] at this
      exact (Option.some.inj this).symm
    subst hut
    obtain ⟨th, hth, -⟩ := h.attached u ht
    exact ⟨{ th with terminated := true }, by simp [terminateTun2Socks, hth], rfl⟩

theorem routingInv_stop (h : RoutingInv s) (hb : s.blocked = none) :
    RoutingInv (stopRouteThroughTunnel s b) := by
  have h' : ThreadInv (stopRouteThroughTunnel s b) := threadInv_stop h.toThreadInv hb
  obtain ⟨t, -, ht, he⟩ | ⟨hno, he⟩ := stopRouteThroughTunnel_cases s b
  · rw [he]; exact routingInv_terminate h ht
  · have hn : s.tun2SocksThread = none := by
      rcases hno with hr | hn
      · exact h.detached hr hb
      · exact hn
    rw [he] at h' ⊢
    cases b with
    | false => exact routingInv_of_detached h' hn rfl
    | true => exact routingInv_of_detached h' (by simpa using hn) rfl

theorem routingInv_afterJoin (h : RoutingInv s) (hr : s.isRoutingThroughTunnel = false) :
    RoutingInv (afterJoin s b) := by
  have h' : ThreadInv (afterJoin s b) := threadInv_afterJoin h.toThreadInv
  cases b with
  | false => exact routingInv_of_detached h' rfl hr
  | true => exact routingInv_of_detached h' (by simp [afterJoin]) rfl

theorem routingInv_native {s' : State} {t : Nat} {e : NativeEvent} (h : RoutingInv s)
    (he : nativeStep s t e = some s') : RoutingInv s' := by
  obtain ⟨th, p, hth, hm, -, -, -⟩ := nativeStep_frame he
  refine ⟨threadInv_native h.toThreadInv he, ?_, ?_⟩
  · rw [hm.same.isRoutingThroughTunnel, hm.same.tun2SocksThread, hm.same.blocked]; exact h.flag
  · intro u hu
    rw [hm.same.tun2SocksThread] at hu
    obtain ⟨thu, hthu, hterm⟩ := h.attached u hu
    rw [hm.same.blocked]
    by_cases hut : u = t
    · subst hut
      rw [hth, Option.some.injEq] at hthu
      subst hthu
      exact ⟨_, hm.self, hterm⟩
    · exact ⟨thu, by rw [hm.other u hut]; exact hthu, hterm⟩

theorem routingInv_step {s' : State} {e : Event} (h : RoutingInv s) (hc : RoutesProperly s e)
    (he : step s e = some s') : RoutingInv s' := by
  have h' : ThreadInv s' := by
    refine threadInv_step h.toThreadInv ?_ he
    rintro port dup a num rfl hst
    exact (hc hst.1).2.2.2
  refine step_elim (P := fun s' => ThreadInv s' → RoutingInv s') he ?_ ?_ ?_ ?_ ?_ h'
  · intro o hev hb h'
    subst hev
    cases o with
    | noPrivateAddress => exact h
    | notPrepared a => exact ⟨h', h.flag, h.attached⟩
    | established a num =>
      have hr : s.isRoutingThroughTunnel = false := hc
      exact routingInv_of_detached h' (h.detached hr hb) rfl
  · intro port dup hev hb h'
    subst hev
    exact routingInv_route h hb hc h'
  · intro b _ hb _
    exact routingInv_stop h hb
  · intro t b hb _ _
    refine routingInv_afterJoin h ?_
    rw [h.flag, hb]
    simp
  · intro t n _ hn _
    exact routingInv_native h hn

/-! ## 定理 -/

/--
どの一歩も `RoutesProperly` を満たす run では、呼び出しの済んだどの状態でも、flag は
「起こされていて terminate の出ていない thread を指している」ことと一致し、
native の run は高々一つである。
-/
theorem routing_consistent {es : List Event} {s : State} (hrun : exec step init es = some s)
    (hc : Meets step RoutesProperly init es) (hb : s.blocked = none) : RoutingConsistent s := by
  have hinv : RoutingInv s :=
    exec_induct (fun _ _ _ hi hok he => routingInv_step hi hok he) es init s
      routingInv_init hc hrun
  exact hinv.consistent hb

/-- 一度止めてから、もう一度 route する run。 -/
def routeTwice : List Event :=
  [[.vpnEstablish (.established ⟨"10.0.0.1", "10.0.0.0", 8, "10.0.0.2"⟩ 40),
      .routeThroughTunnel 1080 (some 41), .native 0 .enter, .native 0 .reset],
    List.replicate 7 (.native 0 (.init true)),
    [.stopRouteThroughTunnel, .native 0 .tick, .native 0 .leave, .native 0 .cleanup, .joinReturn,
      .routeThroughTunnel 1080 (some 42), .native 1 .enter]].flatten

/-- `routeTwice` の後、二本目の thread を指して flag が立っている。 -/
theorem routing_consistent_routeTwice :
    ∃ s, exec step init routeTwice = some s ∧ s.isRoutingThroughTunnel = true ∧
      s.tun2SocksThread = some 1 ∧ RoutingConsistent s := by
  obtain ⟨s, hs, hr, ht, hb⟩ := exec_exists step init routeTwice
    (fun s => s.isRoutingThroughTunnel = true ∧ s.tun2SocksThread = some 1 ∧ s.blocked = none)
    (by decide)
  exact ⟨s, hs, hr, ht, routing_consistent hs (by decide) hb⟩

/--
`dup()` が `IOException` を投げると、thread は無いのに flag が立ったままになる。
この後の `routeThroughTunnel` はすべて最初の `compareAndSet` で戻る。
-/
theorem routing_flag_left_set :
    ∃ s, exec step init
        [.vpnEstablish (.established ⟨"10.0.0.1", "10.0.0.0", 8, "10.0.0.2"⟩ 40),
          .routeThroughTunnel 1080 none] = some s ∧
      s.blocked = none ∧ ¬ RoutingConsistent s := by
  obtain ⟨s, hs, hr, ht, hb⟩ := exec_exists step init
    [.vpnEstablish (.established ⟨"10.0.0.1", "10.0.0.0", 8, "10.0.0.2"⟩ 40),
      .routeThroughTunnel 1080 none]
    (fun s => s.isRoutingThroughTunnel = true ∧ s.tun2SocksThread = none ∧ s.blocked = none)
    (by decide)
  refine ⟨s, hs, hb, fun h => ?_⟩
  obtain ⟨t, th, hth, -⟩ := h.1.mp hr
  simp [ht] at hth

end Manager
