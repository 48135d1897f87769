import PsiphonVpn.Manager.Model

/-!
# tun2socks thread の本数

前の thread がすべて終わってから次を起こすかぎり、生きている thread は高々一本である。
`join` が割り込まれて見捨てられた thread があると、この前提が崩れる。
-/

namespace Manager

open Infra

/-- どの thread も終わっている。 -/
def State.allEnded (s : State) : Prop := ∀ t, t < s.nextThread → s.alive t = false

instance (s : State) : Decidable s.allEnded := Nat.decidableBallLT _ _

structure ThreadInv (s : State) : Prop where
  address : s.tunFd.isSome = true → s.privateAddress.isSome = true
  fresh : ∀ t, s.nextThread ≤ t → s.thread t = none
  joined : ∀ t b, s.blocked = some (t, b) → s.tun2SocksThread = some t
  single : ∀ t u, s.alive t = true → s.alive u = true → t = u

theorem threadInv_init : ThreadInv init := by
  constructor <;> simp [init, State.alive]

variable {s s' : State} {t : Nat} {b : Bool}

theorem ThreadInv.alive_lt (h : ThreadInv s) (ht : s.alive t = true) : t < s.nextThread := by
  by_contra hge
  simp [State.alive, h.fresh t (by omega)] at ht

/-- すべて終わっているなら、起こした thread のほかに生きているものは無い。 -/
theorem ThreadInv.alive_started (h : ThreadInv s) (hend : s.allEnded) {port : Int}
    {a : PrivateAddress} {num : Nat} (ht : (started s port a num).alive t = true) :
    t = s.nextThread := by
  by_contra hne
  have hold : s.alive t = true := by
    simpa [State.alive, started, Function.update_of_ne hne] using ht
  rw [hend t (h.alive_lt hold)] at hold
  simp at hold

theorem threadInv_started {port : Int} {a : PrivateAddress} {num : Nat} (h : ThreadInv s)
    (ha : s.privateAddress = some a) (hb : s.blocked = none) (hend : s.allEnded) :
    ThreadInv (started s port a num) where
  address := fun _ => by simp [started, ha]
  fresh := by
    intro t ht
    have hne : t ≠ s.nextThread := by simp only [started] at ht; omega
    simp only [started, Function.update_of_ne hne]
    exact h.fresh t (by simp only [started] at ht; omega)
  joined := fun t b hj => by simp [started, hb] at hj
  single := fun t u ht hu => by rw [h.alive_started hend ht, h.alive_started hend hu]

theorem alive_terminate (s : State) (t u : Nat) (b : Bool) :
    (terminateTun2Socks s t b).alive u = s.alive u := by
  by_cases hu : u = t
  · subst hu
    cases h : s.thread u <;> simp [State.alive, terminateTun2Socks, h]
  · simp [State.alive, terminateTun2Socks, Function.update_of_ne hu]

theorem threadInv_terminate (h : ThreadInv s) (ht : s.tun2SocksThread = some t) :
    ThreadInv (terminateTun2Socks { s with isRoutingThroughTunnel := false } t b) where
  address := h.address
  fresh := by
    intro u hu
    have hnone : s.thread u = none := h.fresh u hu
    by_cases hut : u = t
    · subst hut; simp [terminateTun2Socks, hnone]
    · simpa [terminateTun2Socks, Function.update_of_ne hut] using hnone
  joined := by
    intro u b' hj
    simp only [terminateTun2Socks, Option.some.injEq, Prod.mk.injEq] at hj
    rw [← hj.1]; exact ht
  single := by
    intro u v hu hv
    rw [alive_terminate] at hu hv
    exact h.single u v hu hv

/-- thread を起こさず、`join` を待たず、`tunFd` を空にすることはあっても埋めない変更。 -/
theorem ThreadInv.of_unblocked (h : ThreadInv s) (hb : s'.blocked = none)
    (hfd : s'.tunFd.isSome = true → s.tunFd.isSome = true)
    (ha : s'.privateAddress = s.privateAddress) (ht : s'.thread = s.thread)
    (hnext : s'.nextThread = s.nextThread) : ThreadInv s' where
  address := fun hs => by rw [ha]; exact h.address (hfd hs)
  fresh := by rw [ht, hnext]; exact h.fresh
  joined := fun t b hj => by rw [hb] at hj; simp at hj
  single := by
    unfold State.alive
    rw [ht]
    exact h.single

theorem threadInv_finishTeardown (h : ThreadInv s) (hb : s.blocked = none) :
    ThreadInv (finishTeardown s) :=
  h.of_unblocked (by simpa using hb) (fun hs => by simp [finishTeardown] at hs)
    (sameManager_close _ _).privateAddress (by simp) (by simp)

theorem threadInv_stop (h : ThreadInv s) (hb : s.blocked = none) :
    ThreadInv (stopRouteThroughTunnel s b) := by
  obtain ⟨t, -, ht, he⟩ | ⟨-, he⟩ := stopRouteThroughTunnel_cases s b
  · rw [he]; exact threadInv_terminate h ht
  · have h₀ : ThreadInv { s with isRoutingThroughTunnel := false } :=
      h.of_unblocked hb (fun hs => hs) rfl rfl rfl
    rw [he]
    cases b with
    | false => exact h₀
    | true => exact threadInv_finishTeardown h₀ hb

theorem threadInv_afterJoin (h : ThreadInv s) : ThreadInv (afterJoin s b) := by
  have h₀ : ThreadInv { s with tun2SocksThread := none, blocked := none } :=
    h.of_unblocked rfl (fun hs => hs) rfl rfl rfl
  cases b with
  | false => exact h₀
  | true => exact threadInv_finishTeardown h₀ rfl

theorem alive_of_nativeStep {e : NativeEvent} (he : nativeStep s t e = some s') {u : Nat}
    (hu : s'.alive u = true) : s.alive u = true := by
  obtain ⟨th, p, hth, hm, halive, -, -⟩ := nativeStep_frame he
  by_cases hut : u = t
  · subst hut
    simp only [State.alive, hm.self, Option.any_some] at hu
    simp [State.alive, hth, halive hu]
  · simpa [State.alive, hm.other u hut] using hu

theorem threadInv_native {e : NativeEvent} (h : ThreadInv s) (he : nativeStep s t e = some s') :
    ThreadInv s' := by
  obtain ⟨th, p, hth, hm, -, -, -⟩ := nativeStep_frame he
  constructor
  · rw [hm.same.tunFd, hm.same.privateAddress]; exact h.address
  · intro u hu
    rw [hm.same.nextThread] at hu
    by_cases hut : u = t
    · subst hut
      rw [h.fresh u hu] at hth
      simp at hth
    · rw [hm.other u hut]; exact h.fresh u hu
  · rw [hm.same.blocked, hm.same.tun2SocksThread]; exact h.joined
  · exact fun u v hu hv => h.single u v (alive_of_nativeStep he hu) (alive_of_nativeStep he hv)

/-- 前の thread がすべて終わってから起こすかぎり、一歩は `ThreadInv` を保つ。 -/
theorem threadInv_step {e : Event} (h : ThreadInv s)
    (hc : ∀ port dup a num, e = .routeThroughTunnel port dup → Starts s port dup a num → s.allEnded)
    (he : step s e = some s') : ThreadInv s' := by
  refine step_elim he ?_ ?_ ?_ ?_ ?_
  · intro o _ _
    cases o with
    | noPrivateAddress => exact h
    | notPrepared a => exact ⟨fun _ => rfl, h.fresh, h.joined, h.single⟩
    | established a num => exact ⟨fun _ => rfl, h.fresh, h.joined, h.single⟩
  · intro port dup hev hb
    obtain ⟨-, he⟩ | ⟨-, -, he⟩ | ⟨-, -, -, -, he⟩ | ⟨a, num, hst, -, he⟩ :=
      routeThroughTunnel_cases s port dup
    · rw [he]; exact h
    · rw [he]; exact ⟨h.address, h.fresh, h.joined, h.single⟩
    · rw [he]; exact ⟨h.address, h.fresh, h.joined, h.single⟩
    · rw [he]
      exact threadInv_started h hst.2.2.2.2 hb (hc port dup a num hev hst)
  · intro b _ hb
    exact threadInv_stop h hb
  · intro t b _ _
    exact threadInv_afterJoin h
  · intro t n _ hn
    exact threadInv_native h hn

end Manager
