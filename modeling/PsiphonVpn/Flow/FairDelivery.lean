import PsiphonVpn.Flow.FairStep

/-!
# fair queue は packet を失わない

flow に頼まれた packet は、出力に高々一度渡され、出力がそれを終えた時にちょうど、その flow に告げられる。

* `Accounted` — 頼まれた packet の行方
* `fairQueue_delivers` — どの順に起きても、packet は失われず、待っている flow があれば次が送られる
-/

namespace Flow

open Infra

namespace PacketPassFairQueue

variable {m m' : PacketPassFairQueue}

/-! ## packet の行方 -/

/-- flow に頼まれて、まだ出力に渡していない packet。 -/
def unsent (x : PacketPassFairQueueFlow) : List Packet :=
  match x.input with
  | .operationPending p => [p]
  | .busy p => if x.isQueued then [p] else []
  | _ => []

theorem mem_pending_of_unsent {x : PacketPassFairQueueFlow} {p : Packet} (h : p ∈ unsent x) :
    p ∈ x.input.pending := by
  unfold unsent at h
  split at h
  next q hq => rw [hq]; exact h
  next q hq =>
    rw [hq]
    split at h
    next => exact h
    next => exact absurd h List.not_mem_nil
  next => exact absurd h List.not_mem_nil

structure Accounted (m : PacketPassFairQueue) : Prop where
  serial : ∀ p ∈ m.submitted, p.serial < m.submitted.length
  distinct : m.submitted.Nodup
  pending_submitted : ∀ f ∈ m.flowsList, ∀ p ∈ (m.flow f).input.pending, p ∈ m.submitted
  passed_submitted : ∀ p ∈ m.passed, p ∈ m.submitted
  unpassed : ∀ f ∈ m.flowsList, ∀ p ∈ unsent (m.flow f), p ∉ m.passed
  once : m.passed.Nodup
  passed_eq : m.passed = m.finished ++ m.output.carried
  acknowledged_eq : m.acknowledged = m.finished.map fun p => (p.source, p)
  account : ∀ p ∈ m.submitted,
    p ∈ m.finished ∨ p ∈ m.dropped ∨ p.source ∈ m.flowsList ∧ p ∈ (m.flow p.source).input.pending

/-- flow に頼まれている packet が変わらず、渡していない packet が増えないなら、行方も変わらない。 -/
theorem Accounted.flows (h : Accounted m) {flow' : Nat → PacketPassFairQueueFlow}
    (hpending : ∀ g ∈ m.flowsList, (flow' g).input.pending = (m.flow g).input.pending)
    (hunsent : ∀ g ∈ m.flowsList, ∀ p ∈ unsent (flow' g), p ∈ unsent (m.flow g)) :
    Accounted { m with flow := flow' } := by
  refine { h with pending_submitted := ?_, unpassed := ?_, account := ?_ }
  · intro g hg p hp
    rw [hpending g hg] at hp
    exact h.pending_submitted g hg p hp
  · exact fun g hg p hp => h.unpassed g hg p (hunsent g hg p hp)
  · intro p hp
    rcases h.account p hp with hfin | hdrop | ⟨hlive, hpend⟩
    · exact .inl hfin
    · exact .inr (.inl hdrop)
    · refine .inr (.inr ⟨hlive, ?_⟩)
      rw [hpending p.source hlive]
      exact hpend

/-- 一つの flow だけを書き換えるとき。 -/
theorem Accounted.setFlow (h : Accounted m) {f : Nat} {y : PacketPassFairQueueFlow}
    (hpending : y.input.pending = (m.flow f).input.pending)
    (hunsent : ∀ p ∈ unsent y, p ∈ unsent (m.flow f)) :
    Accounted (m.setFlow f y) := by
  refine h.flows (fun g _ => ?_) fun g _ => ?_
  · by_cases hgf : g = f
    · subst hgf
      rw [Function.update_self, hpending]
    · rw [Function.update_of_ne hgf]
  · by_cases hgf : g = f
    · subst hgf
      rw [Function.update_self]
      exact hunsent
    · rw [Function.update_of_ne hgf]
      exact fun p hp => hp

theorem Accounted.addFlow (h : Accounted m) {f : Nat} (hnew : f ∉ m.flowsList) :
    Accounted { m.setFlow f blankFlow with flowsList := m.flowsList ++ [f] } := by
  have hkeep : ∀ g ∈ m.flowsList, (m.setFlow f blankFlow).flow g = m.flow g := fun g hg =>
    flow_setFlow_of_ne (ne_of_mem_of_not_mem hg hnew) ..
  refine { h with pending_submitted := ?_, unpassed := ?_, account := ?_ }
  · intro g hg
    rcases List.mem_append.mp hg with hg | hg
    · rw [hkeep g hg]
      exact h.pending_submitted g hg
    · rw [List.mem_singleton.mp hg, flow_setFlow_self]
      nofun
  · intro g hg
    rcases List.mem_append.mp hg with hg | hg
    · rw [hkeep g hg]
      exact h.unpassed g hg
    · rw [List.mem_singleton.mp hg, flow_setFlow_self]
      nofun
  · intro p hp
    refine (h.account p hp).imp_right
      (Or.imp_right fun ⟨hlive, hpend⟩ => ⟨List.mem_append_left _ hlive, ?_⟩)
    rw [hkeep p.source hlive]
    exact hpend

theorem Accounted.freeFlow (h : Accounted m) (hnodup : m.flowsList.Nodup) (f : Nat)
    (sendingFlow previousFlow : Option Nat) (tree : List Nat) :
    Accounted { m with
      sendingFlow := sendingFlow, previousFlow := previousFlow, queuedTree := tree,
      flowsList := m.flowsList.erase f
      dropped := m.dropped ++ (m.flow f).input.pending } := by
  have hlive : ∀ g ∈ m.flowsList.erase f, g ∈ m.flowsList := fun g hg => List.mem_of_mem_erase hg
  refine { h with
    pending_submitted := fun g hg => h.pending_submitted g (hlive g hg), unpassed := fun g hg =>
      h.unpassed g (hlive g hg)
    account := ?_ }
  intro p hp
  rcases h.account p hp with hfin | hdrop | ⟨hmem, hpend⟩
  · exact .inl hfin
  · exact .inr (.inl (List.mem_append_left _ hdrop))
  · by_cases hsource : p.source = f
    · rw [hsource] at hpend
      exact .inr (.inl (List.mem_append_right _ hpend))
    · exact .inr (.inr ⟨hnodup.mem_erase_iff.mpr ⟨hsource, hmem⟩, hpend⟩)

/-- 新しい packet は、これまでのどれとも違う番号を持つ。 -/
theorem Accounted.submit (h : Accounted m) {f : Nat} (hmem : f ∈ m.flowsList)
    (hidle : (m.flow f).input = .none) (data : Option Nat) (len : Nat) :
    Accounted { m.setInput f (.operationPending (m.newPacket f data len)) with
      submitted := m.submitted ++ [m.newPacket f data len] } := by
  have hnew : m.newPacket f data len ∉ m.submitted := fun hin => Nat.lt_irrefl _ (h.serial _ hin)
  have hself : ∀ p,
      p ∈ ((m.setInput f (.operationPending (m.newPacket f data len))).flow f).input.pending ↔
        p = m.newPacket f data len := by
    intro p
    rw [setInput, flow_setFlow_self]
    exact List.mem_singleton
  have hother : ∀ g, g ≠ f → (m.setInput f (.operationPending (m.newPacket f data len))).flow g =
      m.flow g :=
    fun g hg => flow_setFlow_of_ne hg ..
  refine { h with
    serial := ?_, distinct := ?_, pending_submitted := ?_, passed_submitted := ?_,
    unpassed := ?_, account := ?_ }
  · intro p hp
    rw [List.length_append]
    rcases List.mem_append.mp hp with hp | hp
    · exact (h.serial p hp).trans_le (Nat.le_add_right _ _)
    · rw [List.mem_singleton.mp hp]
      exact Nat.lt_succ_self _
  · refine List.nodup_append.mpr ⟨h.distinct, by simp, fun p hp q hq heq => ?_⟩
    rw [List.mem_singleton.mp hq] at heq
    exact hnew (heq ▸ hp)
  · intro g hg p hp
    by_cases hgf : g = f
    · subst hgf
      rw [(hself p).mp hp]
      exact List.mem_append_right _ (List.mem_singleton_self _)
    · rw [hother g hgf] at hp
      exact List.mem_append_left _ (h.pending_submitted g hg p hp)
  · exact fun p hp => List.mem_append_left _ (h.passed_submitted p hp)
  · intro g hg p hp
    by_cases hgf : g = f
    · subst hgf
      rw [(hself p).mp (mem_pending_of_unsent hp)]
      exact fun hin => hnew (h.passed_submitted _ hin)
    · rw [hother g hgf] at hp
      exact h.unpassed g hg p hp
  · intro p hp
    rcases List.mem_append.mp hp with hp | hp
    · refine (h.account p hp).imp_right (Or.imp_right (And.imp_right fun hpend => ?_))
      have hne : p.source ≠ f := by
        intro heq
        rw [heq, hidle] at hpend
        exact absurd hpend List.not_mem_nil
      rw [hother p.source hne]
      exact hpend
    · rw [List.mem_singleton.mp hp]
      exact .inr (.inr ⟨hmem, (hself _).mpr rfl⟩)

/-- まだ渡していない packet を渡す。 -/
theorem Accounted.sent (h : Accounted m) (hi : Inv m) {f : Nat} {p : Packet}
    {y : PacketPassFairQueueFlow} {job : Bool} {rest : List Nat} (hmem : f ∈ m.flowsList)
    (hout : m.output = .none) (hp : p ∈ unsent (m.flow f)) (hinput : y.input = .busy p)
    (hpending : (m.flow f).input.pending = [p]) (hqueued : y.isQueued = false) :
    Accounted (PacketPassFairQueue.sent
      { m.setFlow f y with scheduleJob := job, previousFlow := none, queuedTree := rest } f p) := by
  have hsource : p.source = f := ((hi.flows f hmem).pending p (mem_pending_of_unsent hp)).1
  have hnone : unsent y = [] := by
    unfold unsent
    rw [hinput, hqueued]
    rfl
  have hflow : Accounted (m.setFlow f y) := by
    refine h.setFlow ?_ ?_
    · rw [hinput, hpending]
      rfl
    · rw [hnone]
      nofun
  refine { hflow with passed_submitted := ?_, unpassed := ?_, once := ?_, passed_eq := ?_ }
  · intro q hq
    rcases List.mem_append.mp hq with hq | hq
    · exact h.passed_submitted q hq
    · rw [List.mem_singleton.mp hq]
      exact h.pending_submitted f hmem p (mem_pending_of_unsent hp)
  · intro g hg q hq hin
    have hq' : q ∈ unsent ((m.setFlow f y).flow g) := hq
    rcases List.mem_append.mp hin with hin | hin
    · exact hflow.unpassed g hg q hq hin
    · -- ほかの flow の packet は、頼まれた flow が違う
      rw [List.mem_singleton.mp hin] at hq'
      by_cases hgf : g = f
      · subst hgf
        rw [flow_setFlow_self, hnone] at hq'
        exact absurd hq' List.not_mem_nil
      · rw [flow_setFlow_of_ne hgf] at hq'
        exact hgf (((hi.flows g hg).pending p (mem_pending_of_unsent hq')).1.symm.trans hsource)
  · refine List.nodup_append.mpr ⟨h.once, by simp, fun q hq x hx heq => ?_⟩
    rw [List.mem_singleton.mp hx] at heq
    exact h.unpassed f hmem p hp (heq ▸ hq)
  · show m.passed ++ [p] = m.finished ++ [p]
    rw [h.passed_eq, hout]
    exact congrArg (· ++ [p]) (List.append_nil _)

/-- 出力が終えた packet を、その flow に告げる。 -/
theorem Accounted.finish (h : Accounted m) (hi : Inv m) {f : Nat} {p : Packet}
    {flow' : Nat → PacketPassFairQueueFlow} (hsend : m.sendingFlow = some f)
    (hdone : m.output = .donePending p) (hown : (m.flow f).input = .busy p)
    (hothers : ∀ g ∈ m.flowsList, g ≠ f →
      flow' g = { m.flow g with time := (m.flow g).time - m.excess f m.amount })
    (hself : flow' f =
      { m.flow f with
        time := (m.flow f).time + m.amount - m.excess f m.amount, input := .donePending (),
        handlerBusy := false }) :
    Accounted { m with
      flow := flow', sendingFlow := none, previousFlow := some f, scheduleJob := true,
      output := .none
      finished := m.finished ++ [p], acknowledged := m.acknowledged ++ [(f, p)] } := by
  have hmem := (hi.sending_live f hsend).1
  have hsource : p.source = f :=
    ((hi.flows f hmem).pending p (by rw [hown]; exact List.mem_singleton_self p)).1
  refine { h with
    pending_submitted := ?_, unpassed := ?_, passed_eq := ?_, acknowledged_eq := ?_,
    account := ?_ }
  · intro g hg q (hq : q ∈ (flow' g).input.pending)
    by_cases hgf : g = f
    · subst hgf
      rw [hself] at hq
      exact absurd hq List.not_mem_nil
    · rw [hothers g hg hgf] at hq
      exact h.pending_submitted g hg q hq
  · intro g hg q (hq : q ∈ unsent (flow' g))
    by_cases hgf : g = f
    · subst hgf
      rw [hself] at hq
      exact absurd hq List.not_mem_nil
    · rw [hothers g hg hgf] at hq
      exact h.unpassed g hg q hq
  · show m.passed = m.finished ++ [p] ++ []
    rw [h.passed_eq, hdone, List.append_nil]
    rfl
  · show m.acknowledged ++ [(f, p)] = (m.finished ++ [p]).map _
    rw [h.acknowledged_eq, List.map_append, List.map_singleton, hsource]
  · intro q hq
    rcases h.account q hq with hfin | hdrop | ⟨hlive, hpend⟩
    · exact .inl (List.mem_append_left _ hfin)
    · exact .inr (.inl hdrop)
    · by_cases hqf : q.source = f
      · rw [hqf, hown] at hpend
        exact .inl (List.mem_append_right _ hpend)
      · refine .inr (.inr ⟨hlive, ?_⟩)
        dsimp only
        rw [hothers q.source hlive hqf]
        exact hpend

theorem Moves.accounted {e : FairEvent} (hmoves : Moves m e m') (hi : Inv m) (h : Accounted m) :
    Accounted m' := by
  have hcarried : ∀ (o : Phase Packet Packet) (c : Bool), o.carried = m.output.carried →
      Accounted { m with output := o, cancelRequested := c } := by
    intro o c hsame
    refine { h with passed_eq := ?_ }
    dsimp only
    rw [hsame]
    exact h.passed_eq
  cases hmoves with
  | addFlow f running new => exact h.addFlow new
  | freeFlow f mem allowed => exact h.freeFlow hi.nodup f _ _ _
  | submit f data len running mem idle fits given => exact h.submit mem idle data len
  | wait f p t running mem asked occupied perm ordered =>
    have hflow : Accounted (m.setFlow f (m.waitingFlow f p)) := by
      refine h.setFlow (by rw [asked]; rfl) fun q hq => ?_
      rw [unsent, asked]
      exact hq
    exact { hflow with }
  | start f p running mem asked idle noJob alone noPrevious =>
    exact h.sent hi mem (hi.resting idle running)
      (by rw [unsent, asked]; exact List.mem_singleton_self p) rfl
      (by rw [asked]; rfl) rfl
  | inputDone f running mem done => exact h.setFlow (by rw [done]; rfl) nofun
  | outputOperation p running asked => exact hcarried (.busy p) _ (by rw [asked]; rfl)
  | outputDone p running begun => exact hcarried (.donePending p) _ (by rw [begun]; rfl)
  | finish f p flow' running sending done own others self =>
    exact h.finish hi sending done own others self
  | rest running job empty => exact { h with }
  | next f rest running job first =>
    have hf : f ∈ m.queuedTree := by rw [first]; exact List.mem_cons_self
    have hinput := hi.queued hf
    refine h.sent hi (hi.live f hf) (hi.resting (hi.sending_of_job job) running) ?_ hinput
      (by rw [hinput]; rfl) rfl
    rw [unsent, hinput, hi.isQueued f hf]
    exact List.mem_singleton_self _
  | requestCancel f output running sending same => exact hcarried output _ same
  | setBusyHandler f handler running sending => exact h.setFlow rfl fun p hp => hp
  | prepareFree => exact { h with }

/-! ## run -/

/-- 作られたばかりの queue。 -/
def fresh (c : FairConfig) : PacketPassFairQueue where
  cfg := c
  flow := fun _ => blankFlow
  sendingFlow := none
  sendingLen := 0
  previousFlow := none
  queuedTree := []
  flowsList := []
  freeing := false
  scheduleJob := false
  output := .none
  cancelRequested := false
  submitted := []
  passed := []
  finished := []
  acknowledged := []
  dropped := []

theorem eq_fresh_of_init {c : FairConfig} (hinit : init c = .ok (some m)) : m = fresh c := by
  obtain ⟨_, -, hinit⟩ := bind_eq_ok.mp hinit
  obtain ⟨_, -, hinit⟩ := bind_eq_ok.mp hinit
  split at hinit
  next => exact (Option.some.inj (Except.ok.inj hinit)).symm
  next => cases hinit

theorem inv_init {c : FairConfig} (hinit : init c = .ok (some m)) : Inv m ∧ Accounted m := by
  obtain ⟨_, -, hinit⟩ := bind_eq_ok.mp hinit
  obtain ⟨_, hcancel, hinit⟩ := bind_eq_ok.mp hinit
  split at hinit
  next hfits =>
    obtain rfl := Option.some.inj (Except.ok.inj hinit)
    constructor
    · refine ⟨?_, ?_, List.nodup_nil, SearchTree.ordered_nil, nofun, nofun, nofun, nofun, nofun,
        fun _ _ => rfl, nofun, fun _ hne => absurd rfl hne, nofun⟩
      · show c.mtu + c.packetWeight ≤ c.maxTime
        omega
      · intro huse
        refine (of_ensure_eq_ok hcancel).resolve_left fun hno => ?_
        rw [hno] at huse
        cases huse
    · exact ⟨nofun, List.nodup_nil, nofun, nofun, nofun, List.nodup_nil, rfl, rfl, nofun⟩
  next => cases hinit

theorem inv_step (m : PacketPassFairQueue) (e : FairEvent) (r : Except Fault PacketPassFairQueue)
    (h : Inv m ∧ Accounted m) (hstep : m.step e = some r) :
    ∃ m', r = .ok m' ∧ Inv m' ∧ Accounted m' := by
  obtain ⟨m', hr, hmoves⟩ := moves_of_step h.1 hstep
  exact ⟨m', hr, hmoves.inv h.1, hmoves.accounted h.1 h.2⟩

/-- queue の形と、packet の行方。 -/
structure Delivering (m : PacketPassFairQueue) : Prop where
  /-- 渡した packet が終わっていない flow は、送っている flow だけである。 -/
  single : ∀ f ∈ m.flowsList, ∀ p, (m.flow f).input = .busy p → (m.flow f).isQueued = false →
    m.sendingFlow = some f
  awake : m.freeing = false → m.queuedTree ≠ [] → m.sendingFlow ≠ none ∨ m.scheduleJob = true
  previous : m.previousFlow ≠ none → m.scheduleJob = true
  mem_tree : ∀ f, f ∈ m.queuedTree ↔ f ∈ m.flowsList ∧ (m.flow f).isQueued = true
  ordered : SearchTree.Ordered compareFlows m.key m.queuedTree
  /-- packet はどれも違い、渡すのは一度である。 -/
  distinct : m.submitted.Nodup
  once : m.passed.Nodup
  /-- 渡した packet は、終えたものと、出力がまだ持っているものである。 -/
  passed_eq : m.passed = m.finished ++ m.output.carried
  /-- 出力が終えた packet が、その順に、頼んだ flow に告げられている。 -/
  acknowledged_eq : m.acknowledged = m.finished.map fun p => (p.source, p)
  /-- 除かれた flow のものを除き、終えていない packet は、頼んだ flow が持っている。 -/
  account : ∀ p ∈ m.submitted,
    p ∈ m.finished ∨ p ∈ m.dropped ∨ p.source ∈ m.flowsList ∧ p ∈ (m.flow p.source).input.pending

theorem delivering_of_inv (h : Inv m) (ha : Accounted m) : Delivering m where
  single := by
    intro f hf p hp hq
    refine ((h.flows f hf).busy p hp).resolve_left fun htrue => ?_
    rw [hq] at htrue
    cases htrue
  awake := h.awake
  previous := by
    intro hne
    obtain ⟨f, hf⟩ := Option.ne_none_iff_exists'.mp hne
    exact (h.previous f hf).2
  mem_tree := h.mem_tree
  ordered := h.ordered
  distinct := ha.distinct
  once := ha.once
  passed_eq := ha.passed_eq
  acknowledged_eq := ha.acknowledged_eq
  account := ha.account

end PacketPassFairQueue

/--
**fair queue は packet を失わない。**

flow をいつ足し、いつ除き、packet をどの順に頼み、出力がいつ終え、job がどの順に走っても、queue は故障しない。送っている flow は高々
一つで、解放を始めていない限り、待っている flow があれば送っているか、`schedule_job` が積まれている。木は待っている flow を
ちょうど含み、鍵の順を保つ。packet は高々一度渡され、出力が終えた時にちょうど、頼んだ flow に告げられる。
-/
theorem fairQueue_delivers {c : FairConfig} {m : PacketPassFairQueue}
    (hinit : PacketPassFairQueue.init c = .ok (some m)) (events : List FairEvent)
    (r : Except Fault PacketPassFairQueue)
    (hrun : exec (guarded PacketPassFairQueue.step) (.ok m) events = some r) :
    ∃ m', r = .ok m' ∧ m'.Delivering := by
  obtain ⟨m', rfl, hinv, hacc⟩ :=
    exec_safe_all PacketPassFairQueue.inv_step (PacketPassFairQueue.inv_init hinit) hrun
  exact ⟨m', rfl, PacketPassFairQueue.delivering_of_inv hinv hacc⟩

/-- MTU が 1000 の出力に、重み 1 で繋ぐ。 -/
def sampleFair : FairConfig := ⟨1000, false, false, 1, 2 ^ 64 - 1, by decide⟩

theorem init_sampleFair : PacketPassFairQueue.init sampleFair = .ok
    (some (PacketPassFairQueue.fresh sampleFair)) := rfl

/-- flow 1 が送っている間に flow 2 が待つ。 -/
def twoFlows : List FairEvent :=
  [.addFlow 1, .addFlow 2, .submit 1 (some 100) 1000, .inputOperation 1, .submit 2 (some 200) 40,
    .inputOperation 2]

theorem fairQueue_delivers_twoFlows :
    ∃ m, PacketPassFairQueue.init sampleFair = .ok (some (PacketPassFairQueue.fresh sampleFair)) ∧
      exec (guarded PacketPassFairQueue.step) (.ok (PacketPassFairQueue.fresh sampleFair))
        (twoFlows ++ [.outputOperation, .outputDone, .outputHandler, .scheduleJob]) = some (.ok m) ∧
      (m.acknowledged.length = 1 ∧ m.sendingFlow = some 2 ∧ m.queuedTree = []) ∧ m.Delivering := by
  obtain ⟨m, hrun, hm⟩ := exec_ok_exists PacketPassFairQueue.step
    (PacketPassFairQueue.fresh sampleFair)
    (twoFlows ++ [.outputOperation, .outputDone, .outputHandler, .scheduleJob])
    (fun m => m.acknowledged.length = 1 ∧ m.sendingFlow = some 2 ∧ m.queuedTree = [])
      (by decide +kernel)
  obtain ⟨m', hm', hdelivering⟩ := fairQueue_delivers init_sampleFair _ _ hrun
  obtain rfl := Except.ok.inj hm'
  exact ⟨m, init_sampleFair, hrun, hm, hdelivering⟩

/-- 解放を始めてから送っている flow を除くと、待っている flow が残ったまま、何も送られず job も積まれていない。 -/
theorem freeing_leaves_waiting_flow :
    ∃ m₀ m, PacketPassFairQueue.init sampleFair = .ok (some m₀) ∧
      exec (guarded PacketPassFairQueue.step) (.ok m₀) (twoFlows ++ [.prepareFree, .freeFlow 1]) =
        some (.ok m) ∧
      ¬ (m.queuedTree ≠ [] → m.sendingFlow ≠ none ∨ m.scheduleJob = true) := by
  obtain ⟨m, hrun, hm⟩ := exec_ok_exists PacketPassFairQueue.step
    (PacketPassFairQueue.fresh sampleFair)
    (twoFlows ++ [.prepareFree, .freeFlow 1])
    (fun m => ¬ (m.queuedTree ≠ [] → m.sendingFlow ≠ none ∨ m.scheduleJob = true))
      (by decide +kernel)
  exact ⟨PacketPassFairQueue.fresh sampleFair, m, init_sampleFair, hrun, hm⟩

end Flow
