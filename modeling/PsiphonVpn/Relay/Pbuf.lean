import PsiphonVpn.Relay.Reachable

/-!
# pbuf の所有

`client_recv_func` は、受け取った pbuf を `ERR_MEM` 以外で返る時に一度だけ解放しなければならない。
lwIP は `ERR_ABRT` の時には何も解放しない。

data を写した後の `SYNC_COMMIT` の間に client が閉じると、`client_recv_func` は pbuf を解放せずに
`ERR_ABRT` を返す。SOCKS が write に失敗し、client へ送るものが残っていない時がそうである
（`pbuf_leaked`）。client が閉じない限り、pbuf は約束どおりに解放される（`pbuf_freed_once`）。
-/

namespace Relay

open Infra

/-- 戻り値と、pbuf を解放した回数の約束。 -/
def FreedOnce (e : Err) (freed : Nat) : Prop :=
  (e = .mem → freed = 0) ∧ (e ≠ .mem → freed = 1)

instance (e : Err) (freed : Nat) : Decidable (FreedOnce e freed) :=
  inferInstanceAs (Decidable (_ ∧ _))

/--
`client_recv_func` の `SYNC_COMMIT` の間に、その client を閉じさせない。

SOCKS の終わりは、client へ送るものが残っている時に限る。SOCKS から受け取った byte を渡す `tcp_write` と
`tcp_output` は失敗しない。
-/
def ReceiverKept (w : World) : Event → Prop
  | .socks i event =>
    w.frame = some { client := i, callback := .recv } → event ≠ .up →
      ∀ c ∈ (w.conn i).client, c.flushes
  | .recvDone i _ lw =>
    w.frame = some { client := i, callback := .recv } →
      (∀ r ∈ lw.tcpWrite, r = .ok) ∧ lw.tcpOutput = true
  | _ => True

instance ReceiverKept.decidable (w : World) : ∀ e, Decidable (ReceiverKept w e)
  | .socks i event =>
    inferInstanceAs (Decidable (w.frame = some { client := i, callback := .recv } →
      event ≠ .up → ∀ c ∈ (w.conn i).client, c.flushes))
  | .recvDone i _ lw =>
    inferInstanceAs (Decidable (w.frame = some { client := i, callback := .recv } →
      (∀ r ∈ lw.tcpWrite, r = .ok) ∧ lw.tcpOutput = true))
  | .accept _ _ | .err _ | .recv _ _ | .fin _ | .sent _ _ _ | .sendDone _ _ | .commit | .murder _ =>
    .isTrue trivial

/-- `SYNC_COMMIT` の中の `client_recv_func` の client は開いている。 -/
structure PbufInv (w : World) : Prop where
  world : WorldInv w
  receiver : ∀ i, w.frame = some { client := i, callback := .recv } → (w.ctx i).isOpen
  returned : ∀ p ∈ w.returned, FreedOnce p.1 p.2

theorem pbufInv_init : PbufInv World.init where
  world := worldInv_init
  receiver := by simp [World.init]
  returned := by simp [World.init]

/-- SOCKS の handler が、受信中の client を閉じない。 -/
theorem pbufInv_put {w : World} {i : Nat} {x : Ctx} (h : PbufInv w) (hinv : CtxInv x)
    (hk : Keeps (w.ctx i) x)
    (hopen : w.frame = some { client := i, callback := .recv } → (w.ctx i).isOpen → x.isOpen) :
    PbufInv (w.put x) where
  world := worldInv_put h.world hinv hk
  receiver := by
    intro j hframe
    have hframe' : w.frame = some { client := j, callback := .recv } := hframe
    have hid : x.id = i := hk.id
    show ∃ c, (Function.update w.conn x.id x.conn j).client = some c ∧ c.clientClosed = false
    rw [hid]
    rcases eq_or_ne j i with rfl | hne
    · rw [Function.update_self]
      exact hopen hframe' (h.receiver j hframe')
    · rw [Function.update_of_ne hne]
      exact h.receiver j hframe'
  returned := h.returned

/-- `SYNC_COMMIT` の外の一歩は、受信の途中の client を作らない。 -/
theorem pbufInv_outside {w w' : World} (h : PbufInv w) (hw : WorldInv w')
    (hframe : ∀ i, w'.frame ≠ some { client := i, callback := .recv })
    (hret : w'.returned = w.returned) : PbufInv w' where
  world := hw
  receiver := fun i hf => absurd hf (hframe i)
  returned := by rw [hret]; exact h.returned

/-- `client_recv_func` がすぐに戻るか、`SYNC_COMMIT` に入る。 -/
theorem pbufInv_recv {w : World} {i : Nat} {x : Ctx} {r : CallbackEnd} (h : PbufInv w)
    (hframe : w.frame = none) (hw : WorldInv ((w.put x).leave i .recv r)) (hid : x.id = i)
    (hr : r = .returns .mem 0 ∨ r = .returns .ok 1 ∨ (r = .commits ∧ x.isOpen)) :
    PbufInv ((w.put x).leave i .recv r) := by
  have hlog : ∀ e freed, FreedOnce e freed →
      ∀ p ∈ w.returned ++ [(e, freed)], FreedOnce p.1 p.2 := by
    intro e freed hp p hmem
    rcases List.mem_append.mp hmem with hold | hnew
    · exact h.returned p hold
    · rw [List.mem_singleton.mp hnew]
      exact hp
  rcases hr with rfl | rfl | ⟨rfl, hopen⟩
  · exact ⟨hw, by simp [World.leave, World.put, hframe], hlog .mem 0 (by decide)⟩
  · exact ⟨hw, by simp [World.leave, World.put, hframe], hlog .ok 1 (by decide)⟩
  · refine ⟨hw, fun j hf => ?_, h.returned⟩
    obtain rfl : i = j := by simpa [World.leave] using hf
    show ∃ c, (Function.update w.conn x.id x.conn i).client = some c ∧ c.clientClosed = false
    rw [hid, Function.update_self]
    exact hopen

/-- `SYNC_COMMIT` を終えた `client_recv_func` は、client が開いているので、pbuf を解放して戻る。 -/
theorem pbufInv_commit {w : World} {f : Frame} {x : Ctx} {killed : Bool} (h : PbufInv w)
    (hframe : w.frame = some f) (hkilled : killed = false ↔ (w.ctx f.client).isOpen)
    (hw : WorldInv (({ w.put x with frame := none } : World).leave f.client f.callback
      (if killed then .returns .abrt 0 else .returns .ok (if f.callback = .recv then 1 else 0)))) :
    PbufInv (({ w.put x with frame := none } : World).leave f.client f.callback
      (if killed then .returns .abrt 0
        else .returns .ok (if f.callback = .recv then 1 else 0))) := by
  obtain ⟨i, callback⟩ := f
  by_cases hcb : callback = .recv
  · subst hcb
    obtain rfl : killed = false := hkilled.mpr (h.receiver i hframe)
    refine ⟨hw, by simp [World.leave], fun p hmem => ?_⟩
    rcases List.mem_append.mp (show p ∈ w.returned ++ [(Err.ok, 1)] from hmem) with hold | hnew
    · exact h.returned p hold
    · rw [List.mem_singleton.mp hnew]
      decide
  · refine pbufInv_outside h hw ?_ ?_
    · cases killed <;> simp [World.leave, hcb]
    · cases killed <;> simp [World.leave, World.put, hcb]

/-- `SYNC_COMMIT` の外で起こり、`client_recv_func` に data を渡さない事象。 -/
def Event.outside : Event → Bool
  | .accept _ _ | .err _ | .fin _ | .sent _ _ _ | .murder _ => true
  | .recv _ _ | .socks _ _ | .sendDone _ _ | .recvDone _ _ _ | .commit => false

theorem step_outside {w w' : World} {e : Event} (hout : e.outside = true)
    (hstep : step w e = some (.ok w')) :
    (∀ i, w'.frame ≠ some { client := i, callback := .recv }) ∧ w'.returned = w.returned := by
  cases e with
  | accept initialized u =>
    obtain ⟨hframe, hstep⟩ := of_ite_eq_some hstep
    unfold listenerAcceptFunc at hstep
    split at hstep
    next =>
      obtain rfl := Except.ok.inj hstep
      exact ⟨by simp [hframe], rfl⟩
    next =>
      obtain ⟨-, -, hstep⟩ := bind_eq_ok.mp hstep
      obtain ⟨x, -, hstep⟩ := bind_eq_ok.mp hstep
      obtain rfl := Except.ok.inj hstep
      exact ⟨by simp [World.leave], rfl⟩
  | err i | fin i | murder i =>
    obtain ⟨⟨hframe, -⟩, hstep⟩ := of_ite_eq_some hstep
    obtain ⟨x, -, hstep⟩ := bind_eq_ok.mp hstep
    obtain rfl := Except.ok.inj hstep
    exact ⟨by simp [World.put, hframe], rfl⟩
  | sent i len lw =>
    obtain ⟨⟨hframe, -⟩, hstep⟩ := of_ite_eq_some hstep
    obtain ⟨⟨x, r⟩, -, hstep⟩ := bind_eq_ok.mp hstep
    obtain rfl := Except.ok.inj hstep
    cases r with
    | commits => exact ⟨by simp [World.leave], rfl⟩
    | returns e freed => exact ⟨by simp [World.leave, World.put, hframe], rfl⟩
  | recv | socks | sendDone | recvDone | commit => cases hout

theorem pbufInv_step (w : World) (e : Event) (r : M World) (h : PbufInv w) (hok : ReceiverKept w e)
    (hstep : step w e = some r) : ∃ w', r = .ok w' ∧ PbufInv w' := by
  obtain ⟨w', rfl, hw'⟩ := worldInv_step w e r h.world hstep
  refine ⟨w', rfl, ?_⟩
  have hnone : ∀ i, w.frame = none → (w.ctx i).dead = none := fun i hframe => by
    rw [dead_ctx, hframe]
    rfl
  cases e with
  | accept | err | fin | sent | murder =>
    obtain ⟨hframe, hret⟩ := step_outside rfl hstep
    exact pbufInv_outside h hw' hframe hret
  | recv i data =>
    obtain ⟨⟨hframe, hcb, hne⟩, hstep⟩ := of_ite_eq_some hstep
    obtain ⟨x, r, hx, hcall, hr⟩ := clientRecvFunc_data (h.world.ctx i) hcb (hnone i hframe) hne
    rw [hx] at hstep
    obtain rfl := Except.ok.inj hstep
    refine pbufInv_recv h hframe hw' hcall.id ?_
    rcases hr with ⟨hmem, -⟩ | hrest
    · exact Or.inl hmem
    · exact Or.inr hrest
  | socks i event =>
    obtain ⟨hpos, hstep⟩ := of_ite_eq_some hstep
    by_cases hup : event = .up
    · subst hup
      obtain ⟨x, hx, hinv, hk, hopen⟩ := clientSocksHandler_up (h.world.ctx i) hpos
      rw [hx] at hstep
      obtain rfl := Except.ok.inj hstep
      exact pbufInv_put h hinv hk fun _ => hopen
    · obtain ⟨x, hx, hinv, hk, hopen⟩ := clientSocksHandler_closes (h.world.ctx i) hup hpos
      rw [hx] at hstep
      obtain rfl := Except.ok.inj hstep
      refine pbufInv_put h hinv hk fun hframe => ?_
      rintro ⟨c, hc, -⟩
      exact hopen c hc (hok hframe hup c hc)
  | sendDone i n =>
    simp only [step] at hstep
    split at hstep
    next data hsend =>
      simp only [Option.ite_none_right_eq_some, Option.some.injEq] at hstep
      obtain ⟨⟨hpos, hn⟩, hstep⟩ := hstep
      obtain ⟨x, hx, hinv, hk, hopen⟩ :=
        clientSocksSendHandlerDone_inv (h.world.ctx i) hsend hpos hn
      rw [hx] at hstep
      obtain rfl := Except.ok.inj hstep
      exact pbufInv_put h hinv hk fun _ => hopen
    next => exact absurd hstep (by simp)
  | recvDone i data lw =>
    obtain ⟨⟨hrecv, hne, hsize⟩, hstep⟩ := of_ite_eq_some hstep
    obtain ⟨x, hx, hinv, hk, hopen⟩ :=
      clientSocksRecvHandlerDone_inv lw (h.world.ctx i) hrecv hne hsize
    rw [← bind_assoc, hx] at hstep
    obtain rfl := Except.ok.inj hstep
    exact pbufInv_put h hinv hk fun hframe => hopen (hok hframe).1 (hok hframe).2
  | commit =>
    simp only [step] at hstep
    split at hstep
    next f hframe =>
      have hdead : (w.ctx f.client).dead = some w.deadVar := by
        rw [dead_ctx, hframe]
        exact if_pos rfl
      obtain ⟨x, killed, hx, -, -, -, -, -, hkilled⟩ := deadLeave_inv (h.world.ctx f.client) hdead
      rw [Option.some.injEq, hx] at hstep
      obtain rfl := Except.ok.inj hstep
      exact pbufInv_commit h hframe hkilled hw'
    next => exact absurd hstep (by simp)

/--
`SYNC_COMMIT` の間に client が閉じない run では、`client_recv_func` は `ERR_MEM` を返す時には pbuf を解放せず、
それ以外では一度だけ解放する。
-/
theorem pbuf_freed_once {es : List Event} {r : M World}
    (hm : Meets (guarded step) (OkThen ReceiverKept) (.ok World.init) es)
    (hrun : exec (guarded step) (.ok World.init) es = some r) :
    ∃ w, r = .ok w ∧ ∀ p ∈ w.returned, FreedOnce p.1 p.2 := by
  obtain ⟨w, rfl, h⟩ := exec_safe pbufInv_step pbufInv_init hm hrun
  exact ⟨w, rfl, h.returned⟩

/-- `SYNC_COMMIT` の間に SOCKS が閉じるが、client へ送るものが残っている。 -/
def keptRun : List Event :=
  [.accept true {}, .socks 0 .up, .commit, .recvDone 0 [5] {}, .recv 0 [1, 2], .sendDone 0 1,
    .socks 0 .errorClosed, .commit]

theorem pbuf_freed_once_keptRun :
    ∃ w, exec (guarded step) (.ok World.init) keptRun = some (.ok w) ∧
      w.returned = [(.ok, 1)] ∧ ∀ p ∈ w.returned, FreedOnce p.1 p.2 := by
  obtain ⟨w, hrun, hret⟩ := exec_ok_exists step World.init keptRun
    (fun w => w.returned = [(.ok, 1)]) (by decide +kernel)
  obtain ⟨w', heq, hfreed⟩ := pbuf_freed_once (by decide +kernel) hrun
  obtain rfl := Except.ok.inj heq
  exact ⟨w, hrun, hret, hfreed⟩

/-- `SYNC_COMMIT` の間に SOCKS への write が失敗し、client へ送るものはない。 -/
def leakingRun : List Event :=
  [.accept true {}, .socks 0 .up, .commit, .recv 0 [1], .socks 0 .error, .commit]

/-- pbuf は解放されないまま、`ERR_ABRT` が返る。 -/
theorem pbuf_leaked :
    ∃ w, exec (guarded step) (.ok World.init) leakingRun = some (.ok w) ∧
      w.returned = [(.abrt, 0)] ∧ ¬ ∀ p ∈ w.returned, FreedOnce p.1 p.2 :=
  exec_ok_exists step World.init leakingRun
    (fun w => w.returned = [(.abrt, 0)] ∧ ¬ ∀ p ∈ w.returned, FreedOnce p.1 p.2) (by decide +kernel)

end Relay
