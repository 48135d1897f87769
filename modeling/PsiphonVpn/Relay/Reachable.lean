import PsiphonVpn.Relay.Socks

/-!
# 中継の run

接続一つについての仕様を、接続がいくつあってもよい全体の一歩に持ち上げる。一歩は接続一つだけを書き換え、
ほかの接続については list の所属も dead 変数も変えない。

ここから、どの run についても次が成り立つ。

* `relay_safe` — `ASSERT` は失敗せず、解放した client に触れず、両側が閉じた時に一度だけ解放する
* `relay_conserves` — どちらの向きの byte も失われず、順序も変わらない
* `relay_never_stalls` — 送受信は止まったままにならず、`buf` は溢れない
-/

namespace Relay

open Infra

/-! ## 全体の不変量 -/

structure WorldInv (w : World) : Prop where
  ctx : ∀ i, CtxInv (w.ctx i)
  allocated : ∀ i, (w.conn i).allocated = decide (i < w.next)

theorem worldInv_init : WorldInv World.init where
  ctx := by
    intro i
    refine ⟨rfl, List.nodup_nil, by simp [World.ctx, World.init, Conn.none],
      fun c hc => absurd hc (by simp [World.ctx, World.init, Conn.none]), fun _ => ?_⟩
    exact ⟨rfl, rfl, rfl, rfl, rfl, rfl, rfl, by simp [World.ctx, World.init], rfl, List.prefix_rfl,
      List.prefix_rfl, fun _ _ _ => rfl, fun _ _ => ⟨rfl, rfl⟩,
      fun hal => absurd hal (by simp [World.ctx, World.init, Conn.none])⟩
  allocated := by
    intro i
    simp [World.init, Conn.none]

variable {x : Ctx} {w : World} {i : Nat}

/-- ほかの client の解放や追加は、この client の不変量を崩さない。 -/
theorem CtxInv.of_others {x' : Ctx} (h : CtxInv x) (hid : x'.id = x.id) (hconn : x'.conn = x.conn)
    (hdead : x'.dead = x.dead) (hcount : x'.numClients = x'.tcpClients.length)
    (hnodup : x'.tcpClients.Nodup) (hmem : x.id ∈ x'.tcpClients ↔ x.id ∈ x.tcpClients) :
    CtxInv x' where
  count := hcount
  nodup := hnodup
  listed := by rw [hid, hmem, hconn]; exact h.listed
  live := by rw [hconn, hdead]; exact h.live
  freed := by rw [hconn, hdead]; exact h.freed

/-- `w'` は、`w` の接続 `i` を `x` で書き換えたもの。 -/
structure Writes (w : World) (i : Nat) (x : Ctx) (w' : World) : Prop where
  conn : w'.conn = Function.update w.conn i x.conn
  numClients : w'.numClients = x.numClients
  tcpClients : w'.tcpClients = x.tcpClients
  next : w'.next = w.next
  dead : (w'.ctx i).dead = x.dead
  otherDead : ∀ j, j ≠ i → (w'.ctx j).dead = (w.ctx j).dead

/-- 接続一つを書き換える一歩。 -/
theorem Writes.worldInv {w' : World} (hw : Writes w i x w') (h : WorldInv w) (hinv : CtxInv x)
    (hid : x.id = i) (hothers : ∀ j, j ≠ i → (j ∈ x.tcpClients ↔ j ∈ w.tcpClients))
    (hal : x.conn.allocated = (w.conn i).allocated) : WorldInv w' where
  ctx := by
    intro j
    have hcount : w'.numClients = w'.tcpClients.length := by
      rw [hw.numClients, hw.tcpClients, hinv.count]
    have hnodup : w'.tcpClients.Nodup := by rw [hw.tcpClients]; exact hinv.nodup
    rcases eq_or_ne j i with rfl | hne
    · refine hinv.of_others hid.symm ?_ hw.dead hcount hnodup (by rw [← hw.tcpClients]; rfl)
      show w'.conn j = x.conn
      rw [hw.conn, Function.update_self]
    · refine (h.ctx j).of_others rfl ?_ (hw.otherDead j hne) hcount hnodup ?_
      · show w'.conn j = w.conn j
        rw [hw.conn, Function.update_of_ne hne]
      · show j ∈ w'.tcpClients ↔ j ∈ w.tcpClients
        rw [hw.tcpClients]
        exact hothers j hne
  allocated := by
    intro j
    rw [hw.conn, hw.next]
    rcases eq_or_ne j i with rfl | hne
    · rw [Function.update_self, hal]
      exact h.allocated j
    · rw [Function.update_of_ne hne]
      exact h.allocated j

theorem dead_ctx (w : World) (i : Nat) :
    (w.ctx i).dead = if w.frame.map Frame.client = some i then some w.deadVar else none := rfl

/-- SOCKS の handler。`SYNC_COMMIT` の中でも外でも走る。 -/
theorem worldInv_put (h : WorldInv w) (hinv : CtxInv x) (hk : Keeps (w.ctx i) x) :
    WorldInv (w.put x) := by
  have hid : x.id = i := hk.id
  have hsome := hk.dead
  rw [dead_ctx] at hsome
  have hw : Writes w i x (w.put x) := by
    refine ⟨by rw [← hid]; rfl, rfl, rfl, rfl, ?_, fun j hne => ?_⟩
    · show (if w.frame.map Frame.client = some i then some (x.dead.getD w.deadVar) else none) =
        x.dead
      split at hsome
      next hframe =>
        obtain ⟨v, hv⟩ := Option.isSome_iff_exists.mp hsome
        rw [if_pos hframe, hv]
        rfl
      next hframe =>
        rw [if_neg hframe]
        exact (Option.isNone_iff_eq_none.mp (by simpa using hsome)).symm
    · show (if w.frame.map Frame.client = some j then some (x.dead.getD w.deadVar) else none) = _
      rw [dead_ctx]
      split
      next hframe =>
        have hnot : ¬ w.frame.map Frame.client = some i := by
          rw [hframe, Option.some.injEq]
          exact hne
        rw [if_neg hnot] at hsome
        rw [show x.dead = none by simpa using hsome]
        rfl
      next => rfl
  exact hw.worldInv h hinv hid hk.others hk.allocated

/-- lwIP の callback。 -/
theorem worldInv_leave {r : CallbackEnd} (callback : Callback) (h : WorldInv w)
    (hframe : w.frame = none) (hok : CallbackOk (w.ctx i) x r) :
    WorldInv ((w.put x).leave i callback r) := by
  have hid : x.id = i := hok.id
  have hdead := hok.dead
  have hw : Writes w i x ((w.put x).leave i callback r) := by
    cases r with
    | commits =>
      rw [if_pos rfl] at hdead
      refine ⟨by rw [← hid]; rfl, rfl, rfl, rfl, ?_, fun j hne => ?_⟩
      · rw [hdead]
        simp [World.ctx, World.leave, World.put, hdead]
      · simp [World.ctx, World.leave, World.put, hframe, Ne.symm hne]
    | returns e freed =>
      rw [if_neg (by simp)] at hdead
      unfold World.leave
      dsimp only
      split <;> exact ⟨by rw [← hid]; rfl, rfl, rfl, rfl,
        by simp [World.ctx, World.put, hframe, hdead], fun j _ => by
          simp [World.ctx, World.put, hframe]⟩
  exact hw.worldInv h hok.inv hid hok.others hok.allocated

/-- `SYNC_COMMIT` の終わり。 -/
theorem worldInv_commit {f : Frame} (e : Err) (freed : Nat) (h : WorldInv w)
    (hframe : w.frame = some f) (hinv : CtxInv x) (hid : x.id = f.client)
    (hlist : x.tcpClients = w.tcpClients) (hal : x.conn.allocated = (w.conn f.client).allocated)
    (hdead : x.dead = none) :
    WorldInv (({ w.put x with frame := none } : World).leave f.client f.callback
      (.returns e freed)) := by
  have hw : Writes w f.client x
      (({ w.put x with frame := none } : World).leave f.client f.callback (.returns e freed)) := by
    unfold World.leave
    dsimp only
    split <;> exact ⟨by rw [← hid]; rfl, rfl, rfl, rfl, by simp [World.ctx, hdead],
      fun j hne => by simp [World.ctx, hframe, Ne.symm hne]⟩
  exact hw.worldInv h hinv hid (fun j _ => by rw [hlist]) hal

/-! ## 受け入れ -/

theorem ctxInv_accept {u : Uninitialized} (hconn : x.conn = .accept u) (hd : x.dead = none)
    (hcount : x.numClients = x.tcpClients.length) (hnodup : x.tcpClients.Nodup)
    (hmem : x.id ∈ x.tcpClients) : CtxInv x := by
  refine ⟨hcount, hnodup, iff_of_true hmem (by rw [hconn]; rfl), ?_, ?_⟩
  · intro c hc
    rw [hconn] at hc ⊢
    rw [hd]
    obtain rfl := Option.some.inj hc
    refine ⟨⟨by simp, rfl, rfl, rfl, rfl, rfl, fun _ => rfl, by simp, by simp, fun _ => rfl, rfl,
      by simp, rfl, rfl, rfl⟩, ⟨⟨by simp, rfl, fun _ => rfl⟩,
      by simp [Conn.accept, Conn.none], by simp, by simp⟩,
        ⟨⟨by simp [Conn.accept, Conn.none], List.prefix_rfl, fun _ => ⟨rfl, rfl, rfl⟩⟩,
        fun _ => rfl, fun _ => le_refl _, by simp, by simp, by simp, by simp⟩⟩
  · intro hc
    rw [hconn] at hc
    exact absurd hc (by simp [Conn.accept])

/-- 番号 `w.next` の接続を作る。 -/
def World.addClient (w : World) (u : Uninitialized) : World :=
  { w with
    conn := Function.update w.conn w.next (.accept u)
    next := w.next + 1
    numClients := w.numClients + 1
    tcpClients := w.tcpClients ++ [w.next] }

theorem WorldInv.next_unlisted (h : WorldInv w) : w.next ∉ w.tcpClients := by
  intro hmem
  obtain ⟨c, hc⟩ := Option.isSome_iff_exists.mp ((h.ctx w.next).listed.mp hmem)
  have hal : (w.conn w.next).allocated = true := (h.ctx w.next).allocated hc
  rw [h.allocated] at hal
  simp at hal

theorem worldInv_addClient (u : Uninitialized) (h : WorldInv w) (hframe : w.frame = none) :
    WorldInv (w.addClient u) := by
  have hcount : (w.addClient u).numClients = (w.addClient u).tcpClients.length := by
    have hcount : w.numClients = w.tcpClients.length := (h.ctx 0).count
    show w.numClients + 1 = ((w.tcpClients ++ [w.next]).length : Int)
    rw [hcount, List.length_append]
    rfl
  have hnodup : (w.addClient u).tcpClients.Nodup := by
    have hw : w.tcpClients.Nodup := (h.ctx 0).nodup
    refine List.nodup_append.mpr ⟨hw, by simp, fun j hj k hk => ?_⟩
    rw [List.mem_singleton.mp hk]
    exact fun heq => h.next_unlisted (heq ▸ hj)
  refine ⟨fun j => ?_, fun j => ?_⟩
  · rcases eq_or_ne j w.next with rfl | hne
    · refine ctxInv_accept (u := u) ?_ ?_ hcount hnodup ?_
      · simp [World.ctx, World.addClient]
      · simp [World.ctx, World.addClient, hframe]
      · simp [World.ctx, World.addClient]
    · refine (h.ctx j).of_others rfl ?_ rfl hcount hnodup ?_
      · simp [World.ctx, World.addClient, Function.update_of_ne hne]
      · simp [World.ctx, World.addClient, hne]
  · rcases eq_or_ne j w.next with rfl | hne
    · simp [World.addClient, Conn.accept]
    · show (Function.update w.conn w.next (.accept u) j).allocated = decide (j < w.next + 1)
      rw [Function.update_of_ne hne, h.allocated, decide_eq_decide]
      omega

theorem listenerAcceptFunc_inv {initialized : Bool} {u : Uninitialized} (h : WorldInv w)
    (hframe : w.frame = none) :
    ∃ w', listenerAcceptFunc initialized u w = .ok w' ∧ WorldInv w' := by
  unfold listenerAcceptFunc
  split
  next => exact ⟨w, rfl, h⟩
  next =>
    have hcount : w.numClients = w.tcpClients.length := (h.ctx 0).count
    have hinv := worldInv_addClient u h hframe
    obtain ⟨x, hx, hok, -⟩ := ctxInv_deadEnter (x := (w.addClient u).ctx w.next) (hinv.ctx w.next)
      (by simp [World.ctx, World.addClient, Conn.accept]; rfl) rfl
      (by simp [World.ctx, World.addClient, hframe])
    refine ⟨_, ?_, worldInv_leave .accept hinv hframe hok⟩
    rw [check_bind (by rw [hcount]; omega)]
    show (deadEnter ((w.addClient u).ctx w.next) >>= _) = _
    rw [hx]
    rfl

/-! ## 一歩 -/

/-- どの一歩も故障せず、不変量を保つ。 -/
theorem worldInv_step (w : World) (e : Event) (r : M World) (h : WorldInv w)
    (hstep : step w e = some r) : ∃ w', r = .ok w' ∧ WorldInv w' := by
  have hnone : ∀ i, w.frame = none → (w.ctx i).dead = none := fun i hframe => by
    rw [dead_ctx, hframe]
    rfl
  cases e with
  | accept initialized u =>
    obtain ⟨hframe, rfl⟩ := of_ite_eq_some hstep
    exact listenerAcceptFunc_inv h hframe
  | err i =>
    obtain ⟨⟨-, hcb⟩, rfl⟩ := of_ite_eq_some hstep
    obtain ⟨x, hx, hinv, hk⟩ := clientErrFunc_inv (h.ctx i) hcb
    exact ⟨w.put x, by rw [hx]; rfl, worldInv_put h hinv hk⟩
  | recv i data =>
    obtain ⟨⟨hframe, hcb, hne⟩, rfl⟩ := of_ite_eq_some hstep
    obtain ⟨x, r, hx, hok, -⟩ := clientRecvFunc_data (h.ctx i) hcb (hnone i hframe) hne
    exact ⟨(w.put x).leave i .recv r, by rw [hx]; rfl, worldInv_leave .recv h hframe hok⟩
  | fin i =>
    obtain ⟨⟨-, hcb⟩, rfl⟩ := of_ite_eq_some hstep
    obtain ⟨x, r, hx, hinv, hk⟩ := clientRecvFunc_fin (h.ctx i) hcb
    exact ⟨w.put x, by rw [hx]; rfl, worldInv_put h hinv hk⟩
  | sent i len lw =>
    obtain ⟨⟨hframe, hcb, hpos, hlen⟩, rfl⟩ := of_ite_eq_some hstep
    obtain ⟨x, r, hx, hok⟩ := clientSentFunc_inv lw (h.ctx i) hcb (hnone i hframe) hpos hlen
    exact ⟨(w.put x).leave i .sent r, by rw [hx]; rfl, worldInv_leave .sent h hframe hok⟩
  | socks i event =>
    obtain ⟨hpos, rfl⟩ := of_ite_eq_some hstep
    obtain ⟨x, hx, hinv, hk⟩ := clientSocksHandler_inv (h.ctx i) hpos
    exact ⟨w.put x, by rw [hx]; rfl, worldInv_put h hinv hk⟩
  | sendDone i n =>
    simp only [step] at hstep
    split at hstep
    next data hsend =>
      rw [Option.ite_none_right_eq_some] at hstep
      obtain ⟨⟨hpos, hn⟩, ⟨⟩⟩ := hstep
      obtain ⟨x, hx, hinv, hk, -⟩ := clientSocksSendHandlerDone_inv (h.ctx i) hsend hpos hn
      exact ⟨w.put x, by rw [hx]; rfl, worldInv_put h hinv hk⟩
    next => exact absurd hstep (by simp)
  | recvDone i data lw =>
    obtain ⟨⟨hrecv, hne, hsize⟩, rfl⟩ := of_ite_eq_some hstep
    obtain ⟨x, hx, hinv, hk, -⟩ := clientSocksRecvHandlerDone_inv lw (h.ctx i) hrecv hne hsize
    exact ⟨w.put x, by rw [← bind_assoc, hx]; rfl, worldInv_put h hinv hk⟩
  | commit =>
    simp only [step] at hstep
    split at hstep
    next f hframe =>
      obtain ⟨⟩ := hstep
      obtain ⟨x, killed, hx, hinv, hid, hlist, hal, hdead, -⟩ :=
        deadLeave_inv (v := w.deadVar) (h.ctx f.client) (by rw [dead_ctx, hframe]; exact if_pos rfl)
      cases killed with
      | true =>
        exact ⟨_, by rw [hx]; rfl, worldInv_commit .abrt 0 h hframe hinv hid hlist hal hdead⟩
      | false => exact ⟨_, by rw [hx]; rfl, worldInv_commit .ok _ h hframe hinv hid hlist hal hdead⟩
    next => exact absurd hstep (by simp)
  | murder i =>
    obtain ⟨⟨hframe, hsome⟩, rfl⟩ := of_ite_eq_some hstep
    obtain ⟨c, hc⟩ := Option.isSome_iff_exists.mp hsome
    obtain ⟨x, hx, hinv, hk⟩ := clientMurder_inv (h.ctx i) hc (hnone i hframe)
    exact ⟨w.put x, by rw [hx]; rfl, worldInv_put h hinv hk⟩

theorem worldInv_exec {es : List Event} {r : M World}
    (hrun : exec (guarded step) (.ok World.init) es = some r) : ∃ w, r = .ok w ∧ WorldInv w :=
  exec_safe_all worldInv_step worldInv_init hrun

/-! ## 生存期間 -/

/--
中継の安全性。

どの run も故障しない。すなわち `ASSERT` は失敗せず、解放した client にも、抜けた scope の dead 変数にも、
手放した pcb にも触れない。`num_clients` は `tcp_clients` の長さで、list は解放されていない client を
一つずつ含む。接続が解放されているのは両側が閉じている時であり、その回数は一度である。
-/
theorem relay_safe {es : List Event} {r : M World}
    (hrun : exec (guarded step) (.ok World.init) es = some r) :
    ∃ w, r = .ok w ∧ w.numClients = w.tcpClients.length ∧ w.tcpClients.Nodup ∧
      (∀ i, i ∈ w.tcpClients ↔ (w.conn i).client.isSome = true) ∧
      ∀ i < w.next,
        ((w.conn i).client = none ↔ (w.conn i).pcbOpen = false ∧ (w.conn i).socksAlive = false) ∧
        (w.conn i).frees = if (w.conn i).client = none then 1 else 0 := by
  obtain ⟨w, rfl, h⟩ := worldInv_exec hrun
  refine ⟨w, rfl, (h.ctx 0).count, (h.ctx 0).nodup, fun i => (h.ctx i).listed, fun i hi => ?_⟩
  have hal : (w.conn i).allocated = true := by
    rw [h.allocated, decide_eq_true hi]
  cases hc : (w.conn i).client with
  | none =>
    have hf := (h.ctx i).freed hc
    refine ⟨iff_of_true rfl ⟨hf.pcbOpen, hf.socksAlive⟩, ?_⟩
    rw [if_pos rfl]
    exact hf.frees.trans (if_pos hal)
  | some c =>
    have hctl := ((h.ctx i).live c hc).1
    refine ⟨iff_of_false (by simp) ?_, ?_⟩
    · rintro ⟨hpcb, hsocks⟩
      have hpcb' : (!c.clientClosed) = false := hctl.pcbOpen.symm.trans hpcb
      have hsocks' : (!c.socksClosed) = false := hctl.socksAlive.symm.trans hsocks
      have hopen := hctl.someOpen (by simpa using hpcb')
      rw [hopen] at hsocks'
      exact absurd hsocks' (by simp)
    · rw [if_neg (by simp)]
      exact hctl.allocated.2.1

/-- 残りの byte を送り終えて解放される接続と、開いたままの接続。 -/
def closingRun : List Event :=
  [.accept true {}, .socks 0 .up, .commit, .accept true {}, .commit, .recv 0 [1, 2], .sendDone 0 1,
    .commit, .fin 0, .sendDone 0 1]

theorem relay_safe_closingRun :
    ∃ w, exec (guarded step) (.ok World.init) closingRun = some (.ok w) ∧
      w.tcpClients = [1] ∧ w.numClients = 1 ∧ (w.conn 0).client = none ∧ (w.conn 0).frees = 1 := by
  obtain ⟨w, hrun, hlist, hnext, hnone⟩ := exec_ok_exists step World.init closingRun
    (fun w => w.tcpClients = [1] ∧ w.next = 2 ∧ (w.conn 0).client = none) (by decide +kernel)
  obtain ⟨w', heq, hcount, -, -, hfreed⟩ := relay_safe hrun
  obtain rfl := Except.ok.inj heq
  have hfrees := (hfreed 0 (by omega)).2
  rw [if_pos hnone] at hfrees
  exact ⟨w, hrun, hlist, by rw [hcount, hlist]; rfl, hnone, hfrees⟩

/-! ## byte の保存 -/

/--
中継は byte を失わない。

SOCKS に書かれた byte は受け取った byte の先頭部分で、`tcp_write` に渡した byte も SOCKS から受け取った byte の
先頭部分である。client が先に閉じ、SOCKS が自ら終わらなければ、SOCKS を解放するのは受け取った byte を
すべて書いた後である。SOCKS が先に閉じたなら、error による abort を除いて、pcb を閉じるのは、
受け取った byte がすべて送られて確認された後である。
-/
theorem relay_conserves {es : List Event} {w : World}
    (hrun : exec (guarded step) (.ok World.init) es = some (.ok w)) {i : Nat} (hi : i < w.next) :
    (w.conn i).written <+: (w.conn i).accepted ∧ (w.conn i).queued <+: (w.conn i).received ∧
      ((w.conn i).murdered = false →
        ((w.conn i).firstClosed = some .client → (w.conn i).socksReported = false →
          (w.conn i).socksAlive = false → (w.conn i).written = (w.conn i).accepted) ∧
        ((w.conn i).firstClosed = some .socks → (w.conn i).pcbOpen = false →
          (∃ r, (w.conn i).pcbEnd = some r ∧ r.isError = true) ∨
            ((w.conn i).queued = (w.conn i).received ∧
              (w.conn i).acked = (w.conn i).queued.length))) := by
  obtain ⟨w', heq, h⟩ := worldInv_exec hrun
  obtain rfl := Except.ok.inj heq
  have hal : (w.conn i).allocated = true := by
    rw [h.allocated, decide_eq_true hi]
  cases hc : (w.conn i).client with
  | none =>
    have hf : Freed (w.conn i) (w.ctx i).dead := (h.ctx i).freed hc
    refine ⟨hf.written_prefix, hf.queued_prefix,
      fun hm => ⟨fun hfirst hrep _ => ?_, fun hfirst _ => ?_⟩⟩
    · exact hf.drained hfirst hrep hm
    · obtain ⟨r, hr, hord | hmurdered⟩ := hf.pcbEnd hal
      · rcases Bool.or_eq_true_iff.mp hord with herr | hfreed
        · exact Or.inl ⟨r, hr, herr⟩
        · exact Or.inr (hf.flushed hfirst (by rw [hr, of_decide_eq_true hfreed]))
      · exact absurd (hm.symm.trans hmurdered) (by simp)
  | some c =>
    obtain ⟨hctl, hup, hdown⟩ : Control (w.conn i) c (w.ctx i).dead ∧ Upstream (w.conn i) c ∧
      Downstream (w.conn i) c := (h.ctx i).live c hc
    refine ⟨⟨c.buf, hup.conserved⟩, hdown.queued_prefix,
      fun _ => ⟨fun hfirst _ hs => ?_, fun hfirst hp => ?_⟩⟩
    -- 片側だけが閉じた接続では、もう一方の側はまだ開いている
    · have hs' : c.socksClosed = true := by simpa using hctl.socksAlive.symm.trans hs
      cases hclosed : c.clientClosed with
      | true => exact absurd ((hctl.someOpen hclosed).symm.trans hs') (by simp)
      | false => exact absurd (hctl.first.symm.trans hfirst) (by simp [hclosed, hs'])
    · have hclosed : c.clientClosed = true := by simpa using hctl.pcbOpen.symm.trans hp
      exact absurd (hctl.first.symm.trans hfirst) (by simp [hclosed])

/-- SOCKS が先に閉じ、待っていた byte の続きを渡して、確認を受けてから閉じる。 -/
def flushingRun : List Event :=
  [.accept true {}, .socks 0 .up, .commit, .recvDone 0 [1, 2] {},
    .recvDone 0 [3] { tcpWrite := [.mem] }, .socks 0 .errorClosed, .sent 0 2 {}, .sent 0 1 {}]

theorem relay_conserves_flushingRun :
    ∃ w, exec (guarded step) (.ok World.init) flushingRun = some (.ok w) ∧
      (w.conn 0).received = [1, 2, 3] ∧ (w.conn 0).queued = [1, 2, 3] ∧ (w.conn 0).acked = 3 := by
  obtain ⟨w, hrun, hnext, hrecv, hfirst, hend, hopen, hmurdered⟩ :=
    exec_ok_exists step World.init flushingRun
      (fun w => w.next = 1 ∧ (w.conn 0).received = [1, 2, 3] ∧
        (w.conn 0).firstClosed = some .socks ∧
        (w.conn 0).pcbEnd = some .freed ∧ (w.conn 0).pcbOpen = false ∧ (w.conn 0).murdered = false)
      (by decide +kernel)
  rcases ((relay_conserves hrun (i := 0) (by omega)).2.2 hmurdered).2 hfirst hopen with
    ⟨r, hr, herr⟩ | ⟨hq, ha⟩
  · rw [hend] at hr
    obtain rfl := Option.some.inj hr
    exact absurd herr (by simp [PcbEnd.isError])
  · rw [hrecv] at hq
    exact ⟨w, hrun, hrecv, hq, by rw [ha, hq]; rfl⟩

/-! ## 止まらないこと -/

/-- 待っている接続に確認が届けば、止まっていた送信が続く。 -/
theorem WorldInv.resumes {len : Nat} {c : Client} (h : WorldInv w)
    (hc : (w.conn i).client = some c) (hopen : c.clientClosed = false) (hsup : c.socksUp = true)
    (hframe : w.frame = none) (lw : Lwip) (hpos : 0 < len) (hlen : len ≤ c.socksRecvTcpPending)
    (hused : 0 < c.socksRecvBufUsed) :
    ∃ w' y up, step w (.sent i len lw) = some (.ok w') ∧
      clientSocksRecvSendOut lw (((w.ctx i).acknowledge len).setClient
        { c.confirm len with socksRecvWaiting := false }) = .ok (y, up) ∧
      (w'.conn i).queued = y.conn.queued ∧
      (lw.tcpWrite.headD .ok = .ok → (w.conn i).queued.length < y.conn.queued.length) := by
  obtain ⟨hctl, -, hdown⟩ : Control (w.conn i) c (w.ctx i).dead ∧ Upstream (w.conn i) c ∧
    Downstream (w.conn i) c := (h.ctx i).live c hc
  have hcb : (w.conn i).sentCb = true := by rw [hctl.sentCb, hopen, hsup]; rfl
  have hpend := hdown.pending hopen hsup
  have hacked : (w.conn i).acked + len ≤ (w.conn i).queued.length := by omega
  have hdead : (w.ctx i).dead = none := by
    rw [dead_ctx, hframe]
    rfl
  obtain ⟨y, up, x, r, hy, hx, hok, hq, hgrows⟩ :=
    clientSentFunc_resumes lw (h.ctx i) hc hopen hsup hdead hpos hacked hused
  refine ⟨(w.put x).leave i .sent r, y, up, ?_, hy, ?_, hgrows⟩
  · rw [step, if_pos ⟨hframe, hcb, hpos, hacked⟩, hx]
    rfl
  · have hconn : ((w.put x).leave i .sent r).conn = Function.update w.conn x.id x.conn := by
      cases r <;> rfl
    rw [hconn, show x.id = i from hok.id, Function.update_self]
    exact hq

/--
中継は止まったままにならず、`buf` は溢れない。

callback と callback の間のどの状態でも、次が成り立つ。

* SOCKS への送信が残っているのは、SOCKS が up で開いていて `buf` が空でない時、かつその時に限る
* 両側が開いていて SOCKS が up なら、SOCKS から受信しているか、確認を待っている。待っている間 `client_sent_func` は
  付いていて、確認が届けば `client_socks_recv_send_out` を続ける。lwIP が受け取る限り、byte が渡る
* SOCKS が閉じて client が開いているなら、渡していない byte か確認されていない byte がある
* client が開いている間、`buf` の長さは受け取った byte 数から `tcp_recved` した byte 数を引いたもので、
  lwIP が窓を守る限り `ERR_MEM` は返らない
-/
theorem relay_never_stalls {es : List Event} {w : World}
    (hrun : exec (guarded step) (.ok World.init) es = some (.ok w)) {i : Nat} {c : Client}
    (hc : (w.conn i).client = some c) :
    ((w.conn i).sending.isSome = true ↔ c.socksUp = true ∧ c.socksClosed = false ∧ c.buf ≠ []) ∧
    (c.clientClosed = false → c.socksClosed = false → c.socksUp = true →
      ((w.conn i).receiving = true ∧ c.socksRecvBufUsed = -1) ∨
      (c.socksRecvWaiting = true ∧ (c.socksRecvBufSent : Int) < c.socksRecvBufUsed ∧
        0 < c.socksRecvTcpPending ∧ (w.conn i).sentCb = true ∧
        (w.frame = none → ∀ len lw, 0 < len → len ≤ c.socksRecvTcpPending →
          ∃ w' y up, step w (.sent i len lw) = some (.ok w') ∧
            clientSocksRecvSendOut lw (((w.ctx i).acknowledge len).setClient
              { c.confirm len with socksRecvWaiting := false }) = .ok (y, up) ∧
            (w'.conn i).queued = y.conn.queued ∧
            (lw.tcpWrite.headD .ok = .ok → (w.conn i).queued.length < y.conn.queued.length)))) ∧
    (c.socksClosed = true → c.clientClosed = false →
      0 < c.socksRecvBufUsed ∨ 0 < c.socksRecvTcpPending) ∧
    (c.clientClosed = false →
      c.buf.length + (w.conn i).recved = (w.conn i).accepted.length ∧
      ∀ data, (step w (.recv i data)).isSome = true →
        (w.conn i).accepted.length + data.length - (w.conn i).recved ≤ tcpWnd →
        ∃ x r, clientRecvFunc (some data) (w.ctx i) = .ok (x, r) ∧ r ≠ .returns .mem 0) := by
  obtain ⟨w', heq, h⟩ := worldInv_exec hrun
  obtain rfl := Except.ok.inj heq
  obtain ⟨hctl, hup, hdown⟩ : Control (w.conn i) c (w.ctx i).dead ∧ Upstream (w.conn i) c ∧
    Downstream (w.conn i) c := (h.ctx i).live c hc
  refine ⟨⟨fun hsome => ?_, fun ⟨hsup, hs, hne⟩ => hup.sends hsup hs hne⟩, fun hopen hs hsup => ?_,
    fun hs hopen => hdown.flushing hopen hs, fun hopen => ?_⟩
  · obtain ⟨data, hdata⟩ := Option.isSome_iff_exists.mp hsome
    obtain ⟨hne, hpre, hsup, hs⟩ := hup.sending data hdata
    refine ⟨hsup, hs, fun hnil => hne ?_⟩
    rw [hnil] at hpre
    exact List.prefix_nil.mp hpre
  · rcases hdown.resting hopen hsup with ⟨hused, -⟩ | ⟨⟨hwait, hused, hsent, hpending⟩, -⟩
    · exact Or.inl ⟨hdown.resumes hopen hsup hs hused, hused⟩
    · have hcb : (w.conn i).sentCb = true := by rw [hctl.sentCb, hopen, hsup]; rfl
      refine Or.inr ⟨hwait, by rw [hused]; exact_mod_cast hsent, hpending, hcb, ?_⟩
      intro hframe len lw hpos hlen
      exact h.resumes hc hopen hsup hframe lw hpos hlen (by rw [hused]; omega)
  · have hlen : c.buf.length + (w.conn i).recved = (w.conn i).accepted.length := by
      rw [hup.recved hopen, ← hup.conserved, List.length_append, Nat.add_comm]
    refine ⟨hlen, fun data hstep hwnd => ?_⟩
    obtain ⟨hframe, hcb, hne⟩ : w.frame = none ∧ (w.conn i).recvCb = true ∧ data ≠ [] := by
      simpa [step] using hstep
    have hdead : (w.ctx i).dead = none := by
      rw [dead_ctx, hframe]
      rfl
    obtain ⟨x, r, hx, -, ⟨-, c', hc', hfull⟩ | rfl | ⟨rfl, -⟩⟩ :=
      clientRecvFunc_data (h.ctx i) hcb hdead hne
    · obtain rfl := Option.some.inj (hc.symm.trans hc')
      omega
    · exact ⟨x, _, hx, by simp⟩
    · exact ⟨x, _, hx, by simp⟩

/-- SOCKS へ送信中で、SOCKS から受け取った byte の確認を待っている接続。 -/
def waitingRun : List Event :=
  [.accept true {}, .socks 0 .up, .commit, .recvDone 0 [1, 2] {}, .recv 0 [7, 8, 9],
    .recvDone 0 [3] { tcpWrite := [.mem] }, .sendDone 0 1, .commit]

theorem relay_never_stalls_waitingRun :
    ∃ w c, exec (guarded step) (.ok World.init) waitingRun = some (.ok w) ∧
      (w.conn 0).client = some c ∧ (w.conn 0).sending.isSome = true ∧ c.socksRecvWaiting = true ∧
      0 < c.socksRecvTcpPending ∧ c.buf.length + 1 = 3 ∧
      ∃ w', step w (.sent 0 1 {}) = some (.ok w') ∧
        (w.conn 0).queued.length < (w'.conn 0).queued.length := by
  obtain ⟨w, hrun, hsome, hrecved, haccepted, hframe⟩ := exec_ok_exists step World.init waitingRun
    (fun w => (w.conn 0).client.any (fun c => c.socksUp && !c.socksClosed && !c.clientClosed &&
        decide (c.buf ≠ []) && decide (c.socksRecvBufUsed ≠ -1)) = true ∧
      (w.conn 0).recved = 1 ∧ (w.conn 0).accepted.length = 3 ∧ w.frame = none) (by decide +kernel)
  obtain ⟨c, hc, hflags⟩ := (Option.any_eq_true _ _).mp hsome
  simp only [Bool.and_eq_true, Bool.not_eq_true', decide_eq_true_eq] at hflags
  obtain ⟨⟨⟨⟨hsup, hs⟩, hopen⟩, hne⟩, hused⟩ := hflags
  obtain ⟨hsend, hresume, -, hbuf⟩ := relay_never_stalls hrun hc
  have hlen := (hbuf hopen).1
  rw [hrecved, haccepted] at hlen
  rcases hresume hopen hs hsup with ⟨-, hidle⟩ | ⟨hwait, -, hpending, -, hack⟩
  · exact absurd hidle hused
  · obtain ⟨w', y, up, hstep, -, hq, hgrows⟩ := hack hframe 1 {} (by decide) hpending
    exact ⟨w, c, hrun, hc, hsend.mpr ⟨hsup, hs, hne⟩, hwait, hpending, hlen, w', hstep,
      hq ▸ hgrows rfl⟩

end Relay
