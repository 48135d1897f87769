import PsiphonVpn.Flow.FairQueue

/-!
# fair queue の一歩

`PacketPassFairQueue` の一歩がすることを、故障しないときの前後の状態で一つずつ言う（`Moves`）。run についての性質は、どれもここから導く。

* `Inv` — 木・送っている flow・前の flow・job の関係と、時刻の順
* `moves_of_step` — 不変量の下で、一歩は故障せず、`Moves` のどれかである
* `Moves.inv` — 不変量は保たれる
-/

namespace Flow

open Infra

/-! ## 順序と 64 bit の和差 -/

theorem compareFlows_eq : compareFlows = compareLex (compareOn Prod.fst) (compareOn Prod.snd) := rfl

instance : Std.TransCmp compareFlows := by
  rw [compareFlows_eq]
  infer_instance

instance : Std.LawfulEqCmp compareFlows where
  eq_of_compare {a b} h := by
    simp only [compareFlows, Ordering.then_eq_eq, Std.LawfulEqCmp.compare_eq_iff_eq] at h
    exact Prod.ext h.1 h.2

theorem compareFlows_lt_iff {a b : Nat × Nat} :
    compareFlows a b = .lt ↔ a.1 < b.1 ∨ a.1 = b.1 ∧ a.2 < b.2 := by
  rw [compareFlows, Ordering.then_eq_lt, Nat.compare_eq_lt, Nat.compare_eq_eq, Nat.compare_eq_lt]

variable {a t f g : Nat} {x y : PacketPassFairQueueFlow} {p : Packet} {e : FairEvent}

theorem add64_of_lt {b : Nat} (h : a + b < 2 ^ 64) : add64 a b = a + b := Nat.mod_eq_of_lt h

theorem sub64_of_le {b : Nat} (h : b ≤ a) (hlt : a < 2 ^ 64) : sub64 a b = a - b := by
  have heq : a + 2 ^ 64 - b = a - b + 2 ^ 64 := by omega
  rw [sub64, heq, Nat.add_mod_right, Nat.mod_eq_of_lt (by omega)]

theorem add64_sub64 {s : Nat} (hs : s < 2 ^ 64) (hle : s ≤ t + a) (hlt : t + a - s < 2 ^ 64) :
    add64 (sub64 t s) a = t + a - s := by
  have heq : t + 2 ^ 64 - s + a = t + a - s + 2 ^ 64 := by omega
  rw [add64, sub64, Nat.mod_add_mod, heq, Nat.add_mod_right, Nat.mod_eq_of_lt hlt]

theorem Phase.carried_eq_nil {o : Phase Packet Packet} : o.carried = [] ↔ o = .none := by
  cases o <;> simp [Phase.carried]

namespace PacketPassFairQueue

variable {m m' : PacketPassFairQueue}

@[simp] theorem flow_setFlow_self (m : PacketPassFairQueue) (f : Nat)
    (x : PacketPassFairQueueFlow) :
    (m.setFlow f x).flow f = x := Function.update_self ..

@[simp] theorem flow_setFlow_of_ne (h : g ≠ f) (m : PacketPassFairQueue)
    (x : PacketPassFairQueueFlow) :
    (m.setFlow f x).flow g = m.flow g := Function.update_of_ne h ..

theorem setFlow_of_flow_eq (h : m'.flow = Function.update m.flow f x)
    (y : PacketPassFairQueueFlow) :
    m'.setFlow f y = { m' with flow := Function.update m.flow f y } := by
  unfold setFlow
  rw [h, Function.update_idem]

/-! ## 不変量 -/

/-- 一つの flow の中身 `x`。木・送っている flow との関係も言う。 -/
structure FlowInv (cfg : FairConfig) (tree : List Nat) (sendingFlow : Option Nat) (f : Nat)
    (x : PacketPassFairQueueFlow) :
    Prop where
  mem_tree : f ∈ tree ↔ x.isQueued = true
  queued : x.isQueued = true → x.input = .busy x.queued
  pending : ∀ p ∈ x.input.pending, p.source = f ∧ p.len ≤ cfg.mtu ∧ (¬ 0 < p.len ∨ p.data ≠ none)
  busy : ∀ p, x.input = .busy p → x.isQueued = true ∨ sendingFlow = some f
  time_le : x.time ≤ cfg.maxTime

structure Inv (m : PacketPassFairQueue) : Prop where
  fits : m.cfg.mtu + m.cfg.packetWeight ≤ m.cfg.maxTime
  cancel : m.cfg.useCancel = true → m.cfg.hasCancel = true
  nodup : m.flowsList.Nodup
  ordered : SearchTree.Ordered compareFlows m.key m.queuedTree
  live : ∀ f ∈ m.queuedTree, f ∈ m.flowsList
  flows : ∀ f ∈ m.flowsList, FlowInv m.cfg m.queuedTree m.sendingFlow f (m.flow f)
  sending_live : ∀ f, m.sendingFlow = some f → f ∈ m.flowsList ∧ f ∉ m.queuedTree
  sending_alone : ∀ f, m.sendingFlow = some f → m.previousFlow = none ∧ m.scheduleJob = false
  /-- 送っている flow の packet を、出力が持っている。 -/
  carries : ∀ f, m.sendingFlow = some f →
    ∃ p, (m.flow f).input = .busy p ∧ m.output.carried = [p] ∧ m.sendingLen = p.len
  resting : m.sendingFlow = none → m.freeing = false → m.output = .none
  previous : ∀ f, m.previousFlow = some f → f ∈ m.flowsList ∧ m.scheduleJob = true
  awake : m.freeing = false → m.queuedTree ≠ [] → m.sendingFlow ≠ none ∨ m.scheduleJob = true
  /-- 送っている flow の時刻は、待っているどの flow の時刻も超えない。 -/
  lowest : ∀ f, m.sendingFlow = some f → ∀ g ∈ m.queuedTree, (m.flow f).time ≤ (m.flow g).time

theorem Inv.mem_tree (h : Inv m) (f : Nat) :
    f ∈ m.queuedTree ↔ f ∈ m.flowsList ∧ (m.flow f).isQueued = true :=
  ⟨fun hf => ⟨h.live f hf, (h.flows f (h.live f hf)).mem_tree.mp hf⟩,
    fun hf => (h.flows f hf.1).mem_tree.mpr hf.2⟩

theorem Inv.queued (h : Inv m) (hf : f ∈ m.queuedTree) :
    (m.flow f).input = .busy (m.flow f).queued :=
  (h.flows f (h.live f hf)).queued ((h.mem_tree f).mp hf).2

/-! ## 今の時刻 -/

/-- 今の時刻を教える flow。送っている flow があればそれ、なければ待っている最初の flow と、直前に送り終えた flow。 -/
def known (m : PacketPassFairQueue) : List Nat :=
  match m.sendingFlow with
  | some f => [f]
  | none => m.queuedTree.head?.toList ++ m.previousFlow.toList

/-- 今の時刻。教える flow がなければ `none`。 -/
def now (m : PacketPassFairQueue) : Option Nat := (m.known.map fun f => (m.flow f).time).min?

theorem known_of_sending (h : m.sendingFlow = some f) : m.known = [f] := by rw [known, h]

theorem known_of_idle (h : m.sendingFlow = none) :
    m.known = m.queuedTree.head?.toList ++ m.previousFlow.toList := by
  rw [known, h]

theorem now_of_sending (h : m.sendingFlow = some f) : m.now = some (m.flow f).time := by
  rw [now, known_of_sending h]
  rfl

theorem now_eq_some :
    m.now = some t ↔ (∃ f ∈ m.known, (m.flow f).time = t) ∧ ∀ f ∈ m.known, t ≤ (m.flow f).time := by
  rw [now, List.min?_eq_some_iff, List.mem_map, List.forall_mem_map]

theorem firstTime_ok (hqueued : ∀ f ∈ m.queuedTree, (m.flow f).isQueued = true) :
    m.firstTime = .ok (m.queuedTree.head?.map fun f => (m.flow f).time) := by
  unfold firstTime
  cases hfirst : m.queuedTree.head? with
  | none => rfl
  | some f => exact ensure_bind (hqueued f (List.mem_of_mem_head? hfirst)) _

theorem getCurrentTime_ok (hqueued : ∀ f ∈ m.queuedTree, (m.flow f).isQueued = true) :
    m.getCurrentTime = .ok (m.now.getD 0) := by
  unfold getCurrentTime now
  cases hsend : m.sendingFlow with
  | some f =>
    rw [known_of_sending hsend]
    rfl
  | none =>
    rw [firstTime_ok hqueued, known_of_idle hsend]
    cases hfirst : m.queuedTree.head? with
    | none => cases m.previousFlow <;> rfl
    | some g =>
      cases hprev : m.previousFlow with
      | none => rfl
      | some prev =>
        show Except.ok (if (m.flow prev).time < (m.flow g).time then (m.flow prev).time
          else (m.flow g).time) =
          Except.ok (min (m.flow g).time (m.flow prev).time)
        congr 1
        split <;> omega

theorem Inv.isQueued (h : Inv m) : ∀ f ∈ m.queuedTree, (m.flow f).isQueued = true := fun f hf =>
  ((h.mem_tree f).mp hf).2

theorem Inv.notQueued (h : Inv m) (hmem : f ∈ m.flowsList) (hf : f ∉ m.queuedTree) :
    (m.flow f).isQueued = false := by
  rw [← Bool.not_eq_true]
  exact fun hq => hf ((h.mem_tree f).mpr ⟨hmem, hq⟩)

/-- 待っている最初の flow の時刻は、どの待っている flow の時刻も超えない。 -/
theorem Inv.head_le (h : Inv m) (hf : m.queuedTree.head? = some f) (hg : g ∈ m.queuedTree) :
    (m.flow f).time ≤ (m.flow g).time := by
  cases htree : m.queuedTree with
  | nil => rw [htree] at hg; exact absurd hg List.not_mem_nil
  | cons f' rest =>
    have hord := h.ordered
    rw [htree] at hf hg hord
    obtain rfl := Option.some.inj hf
    rcases List.mem_cons.mp hg with rfl | hg
    · exact le_refl _
    · have hlt := compareFlows_lt_iff.mp (List.rel_of_pairwise_cons hord hg)
      simp only [key] at hlt
      omega

/-! ## 時刻を進めること -/

/-- 引き下げた flow。送り終えた `f` だけは巻き戻ってよい。 -/
def lowered (f subtract g : Nat) (x : PacketPassFairQueueFlow) : PacketPassFairQueueFlow :=
  { x with time := if g = f then sub64 x.time subtract else x.time - subtract }

theorem subtractTime_ok {subtract : Nat} (hlt : (m.flow g).time < 2 ^ 64)
    (hqueued : g ≠ f → (m.flow g).isQueued = true → subtract ≤ (m.flow g).time) :
    m.subtractTime f subtract g = .ok (m.setFlow g (lowered f subtract g (m.flow g))) := by
  unfold subtractTime lowered
  split
  next h =>
    have hidle : (m.flow g).isQueued = false := by
      rw [← Bool.not_eq_true]
      intro hq
      have := hqueued h.2 hq
      omega
    rw [ensure_bind hidle, if_neg h.2, Nat.sub_eq_zero_of_le h.1.le]
    rfl
  next h =>
    by_cases hgf : g = f
    · rw [if_pos hgf]
      rfl
    · have hle : subtract ≤ (m.flow g).time := Nat.not_lt.mp fun hgt => h ⟨hgt, hgf⟩
      rw [if_neg hgf, sub64_of_le hle hlt]
      rfl

/-- loop の後。回った flow はどれも一度ずつ引き下げられている。 -/
theorem subtractTimes_ok {subtract : Nat} (l : List Nat) (hnodup : l.Nodup) :
    ∀ m : PacketPassFairQueue, (∀ g ∈ l, (m.flow g).time < 2 ^ 64) →
      (∀ g ∈ l, g ≠ f → (m.flow g).isQueued = true → subtract ≤ (m.flow g).time) →
      ∃ flow', subtractTimes f subtract l m = .ok { m with flow := flow' } ∧
        (∀ g ∈ l, flow' g = lowered f subtract g (m.flow g)) ∧ ∀ g ∉ l, flow' g = m.flow g := by
  induction l with
  | nil => exact fun m _ _ => ⟨m.flow, rfl, nofun, fun _ _ => rfl⟩
  | cons g l ih =>
    intro m hlt hqueued
    obtain ⟨hg, hnodup'⟩ := List.nodup_cons.mp hnodup
    have hkeep : ∀ x ∈ l, (m.setFlow g (lowered f subtract g (m.flow g))).flow x = m.flow x :=
      fun x hx => flow_setFlow_of_ne (ne_of_mem_of_not_mem hx hg) m _
    obtain ⟨flow', hrest, hin, hout⟩ := ih hnodup' (m.setFlow g (lowered f subtract g (m.flow g)))
      (fun x hx => by rw [hkeep x hx]; exact hlt x (List.mem_cons_of_mem g hx))
      (fun x hx hne hq => by
        rw [hkeep x hx] at hq ⊢
        exact hqueued x (List.mem_cons_of_mem g hx) hne hq)
    refine ⟨flow', ?_, ?_, ?_⟩
    · rw [subtractTimes, subtractTime_ok (hlt g List.mem_cons_self) (hqueued g List.mem_cons_self),
        ok_bind]
      exact hrest
    · intro x hx
      rcases List.mem_cons.mp hx with rfl | hx
      · rw [hout x hg, flow_setFlow_self]
      · rw [hin x hx, hkeep x hx]
    · intro x hx
      obtain ⟨hne, hx'⟩ := not_or.mp (mt List.mem_cons.mpr hx)
      rw [hout x hx', flow_setFlow_of_ne hne]

/-- 溢れるときに引く量。溢れなければ零である。 -/
def excess (m : PacketPassFairQueue) (f amount : Nat) : Nat :=
  if amount ≤ m.cfg.maxTime - (m.flow f).time then 0
  else (m.queuedTree.head?.map fun g => (m.flow g).time).getD (m.flow f).time

/-- 引く量は、待っているどの flow の時刻も超えない。 -/
theorem Inv.excess_le (h : Inv m) (f amount : Nat) (hg : g ∈ m.queuedTree) :
    m.excess f amount ≤ (m.flow g).time := by
  unfold excess
  split
  next => exact Nat.zero_le _
  next =>
    cases hfirst : m.queuedTree.head? with
    | none =>
      rw [List.head?_eq_none_iff] at hfirst
      rw [hfirst] at hg
      exact absurd hg List.not_mem_nil
    | some first => exact h.head_le hfirst hg

/-- 送り終えた flow の、新しい時刻。 -/
theorem Inv.excess_spec (h : Inv m) (hmem : f ∈ m.flowsList)
    (hlow : ∀ g ∈ m.queuedTree, (m.flow f).time ≤ (m.flow g).time) {amount : Nat}
    (hamount : amount ≤ m.cfg.maxTime) :
    m.excess f amount ≤ (m.flow f).time + amount ∧
      (m.flow f).time + amount - m.excess f amount ≤ m.cfg.maxTime ∧
        m.excess f amount ≤ m.cfg.maxTime := by
  have htime := (h.flows f hmem).time_le
  unfold excess
  split
  next => omega
  next hover =>
    cases hfirst : m.queuedTree.head? with
    | none =>
      simp only [Option.map_none, Option.getD_none]
      omega
    | some first =>
      have hfirst' : first ∈ m.queuedTree := List.mem_of_mem_head? hfirst
      have hle := hlow first hfirst'
      have hmax := (h.flows first (h.live first hfirst')).time_le
      simp only [Option.map_some, Option.getD_some]
      omega

/--
`increment_sent_flow` は故障しない。

送り終えた flow には `amount` を足し、どの flow からも `excess` を引く。引ききれない時刻は零になる。
-/
theorem Inv.incrementSentFlow (h : Inv m) (hsend : m.sendingFlow = some f) {amount : Nat}
    (hamount : amount ≤ m.cfg.maxTime) (output : Phase Packet Packet) (finished : List Packet) :
    ∃ flow', PacketPassFairQueue.incrementSentFlow
        { m with
          output := output, finished := finished, sendingFlow := none, previousFlow := some f }
        f amount =
          .ok { m with
            output := output, finished := finished, sendingFlow := none, previousFlow := some f,
            flow := flow' } ∧
      (∀ g ∈ m.flowsList, g ≠ f → flow' g =
        { m.flow g with time := (m.flow g).time - m.excess f amount }) ∧
      flow' f = { m.flow f with time := (m.flow f).time + amount - m.excess f amount } := by
  obtain ⟨hmem, hnot⟩ := h.sending_live f hsend
  have hlow := h.lowest f hsend
  obtain ⟨hle, hmax, hsub⟩ := h.excess_spec hmem hlow hamount
  have hlt := m.cfg.maxTime_lt
  have htime := (h.flows f hmem).time_le
  have hidle := h.notQueued hmem hnot
  have hroom : sub64 m.cfg.maxTime (m.flow f).time = m.cfg.maxTime - (m.flow f).time :=
    sub64_of_le htime hlt
  rw [PacketPassFairQueue.incrementSentFlow, ensure_bind (by exact hamount),
    ensure_bind (by exact hidle), ensure_bind rfl]
  unfold renormaliseIf
  by_cases hover : amount ≤ m.cfg.maxTime - (m.flow f).time
  · -- 溢れない
    have hzero : m.excess f amount = 0 := if_pos hover
    rw [if_neg (by rw [hroom]; exact Nat.not_lt.mpr hover), hzero]
    refine ⟨Function.update m.flow f { m.flow f with time := (m.flow f).time + amount }, ?_, ?_, ?_⟩
    · show Except.ok (setFlow _ f _) = _
      rw [add64_of_lt (by dsimp only; omega)]
      rfl
    · exact fun g _ hne => Function.update_of_ne hne ..
    · exact Function.update_self ..
  · have hexcess : m.excess f amount = (m.queuedTree.head?.map fun g => (m.flow g).time).getD
        (m.flow f).time :=
      if_neg hover
    rw [if_pos (by rw [hroom]; exact Nat.not_le.mp hover)]
    obtain ⟨flow', hloop, hin, -⟩ := @subtractTimes_ok f (m.excess f amount) m.flowsList h.nodup
      { m with output := output, finished := finished, sendingFlow := none, previousFlow := some f }
      (fun g hg => (h.flows g hg).time_le.trans_lt hlt)
      (fun g hg _ hq => h.excess_le f amount ((h.mem_tree g).mpr ⟨hg, hq⟩))
    refine ⟨Function.update flow' f
      { m.flow f with time := (m.flow f).time + amount - m.excess f amount }, ?_, ?_, ?_⟩
    · have hfirst : PacketPassFairQueue.firstTime
          { m with
            output := output, finished := finished, sendingFlow := none, previousFlow := some f } =
            .ok (m.queuedTree.head?.map fun g => (m.flow g).time) := firstTime_ok h.isQueued
      have hrenorm : renormalise
          { m with
            output := output, finished := finished, sendingFlow := none, previousFlow := some f }
          f =
            .ok { m with
              output := output, finished := finished, sendingFlow := none, previousFlow := some f,
              flow := flow' } := by
        rw [renormalise, hfirst, ok_bind, ← hexcess]
        exact hloop
      rw [hrenorm, ok_bind]
      show Except.ok (setFlow _ f _) = _
      dsimp only
      rw [hin f hmem, lowered, if_pos rfl]
      dsimp only
      rw [add64_sub64 (by omega) hle (by omega)]
      rfl
    · intro g hg hne
      rw [Function.update_of_ne hne, hin g hg, lowered, if_neg hne]
    · exact Function.update_self ..

/-! ## 一歩がすること -/

/-- flow `f` の packet `p` を出力に渡した後。 -/
def sent (m : PacketPassFairQueue) (f : Nat) (p : Packet) : PacketPassFairQueue :=
  { m with
    sendingFlow := some f, sendingLen := p.len, output := .operationPending p,
    cancelRequested := false
    passed := m.passed ++ [p] }

/-- 待ち始める flow の時刻。直前に送り終えた flow はそのまま、ほかは今の時刻まで進める。 -/
def entryTime (m : PacketPassFairQueue) (f : Nat) : Nat :=
  if m.previousFlow = some f then (m.flow f).time else max (m.flow f).time (m.now.getD 0)

/-- 待ち始めた flow。 -/
def waitingFlow (m : PacketPassFairQueue) (f : Nat) (p : Packet) : PacketPassFairQueueFlow :=
  { m.flow f with input := .busy p, time := m.entryTime f, queued := p, isQueued := true }

/-- 送り終えた packet の分だけ進める時刻。 -/
def amount (m : PacketPassFairQueue) : Nat := m.cfg.packetWeight + m.sendingLen

/-- 故障しない一歩の前後。 -/
inductive Moves (m : PacketPassFairQueue) : FairEvent → PacketPassFairQueue → Prop where
  | addFlow (f : Nat) (running : m.freeing = false) (new : f ∉ m.flowsList) :
      Moves m (.addFlow f) { m.setFlow f blankFlow with flowsList := m.flowsList ++ [f] }
  | freeFlow (f : Nat) (mem : f ∈ m.flowsList)
      (allowed : m.freeing = true ∨ m.sendingFlow ≠ some f) :
      Moves m (.freeFlow f)
        { m with
          sendingFlow := if m.sendingFlow = some f then none else m.sendingFlow
          previousFlow := if m.previousFlow = some f then none else m.previousFlow
          queuedTree := m.queuedTree.erase f, flowsList := m.flowsList.erase f
          dropped := m.dropped ++ (m.flow f).input.pending }
  | submit (f : Nat) (data : Option Nat) (len : Nat) (running : m.freeing = false)
      (mem : f ∈ m.flowsList)
      (idle : (m.flow f).input = .none) (fits : len ≤ m.cfg.mtu) (given : ¬ 0 < len ∨ data ≠ none) :
      Moves m (.submit f data len)
        { m.setInput f (.operationPending (m.newPacket f data len)) with
          submitted := m.submitted ++ [m.newPacket f data len] }
  /-- 待つ。 -/
  | wait (f : Nat) (p : Packet) (t : List Nat) (running : m.freeing = false) (mem : f ∈ m.flowsList)
      (asked : (m.flow f).input = .operationPending p)
      (occupied : m.sendingFlow ≠ none ∨ m.scheduleJob = true)
      (perm : t.Perm (f :: m.queuedTree))
      (ordered : SearchTree.Ordered compareFlows (m.setFlow f (m.waitingFlow f p)).key t) :
      Moves m (.inputOperation f)
        { m.setFlow f (m.waitingFlow f p) with
          queuedTree := t, previousFlow := if m.previousFlow = some f then none
            else m.previousFlow }
  /-- 待たずに送る。 -/
  | start (f : Nat) (p : Packet) (running : m.freeing = false) (mem : f ∈ m.flowsList)
      (asked : (m.flow f).input = .operationPending p) (idle : m.sendingFlow = none)
      (noJob : m.scheduleJob = false)
      (alone : m.queuedTree = []) (noPrevious : m.previousFlow = none) :
      Moves m (.inputOperation f)
        (sent { m.setFlow f { m.waitingFlow f p with isQueued := false } with
          queuedTree := [], previousFlow := none } f p)
  | inputDone (f : Nat) (running : m.freeing = false) (mem : f ∈ m.flowsList)
      (done : (m.flow f).input = .donePending ()) : Moves m (.inputDone f) (m.setInput f .none)
  | outputOperation (p : Packet) (running : m.freeing = false)
      (asked : m.output = .operationPending p) :
      Moves m .outputOperation { m with output := .busy p }
  | outputDone (p : Packet) (running : m.freeing = false) (begun : m.output = .busy p) :
      Moves m .outputDone { m with output := .donePending p }
  | finish (f : Nat) (p : Packet) (flow' : Nat → PacketPassFairQueueFlow)
      (running : m.freeing = false)
      (sending : m.sendingFlow = some f) (done : m.output = .donePending p)
      (own : (m.flow f).input = .busy p)
      (others : ∀ g ∈ m.flowsList, g ≠ f →
        flow' g = { m.flow g with time := (m.flow g).time - m.excess f m.amount })
      (self : flow' f =
        { m.flow f with
          time := (m.flow f).time + m.amount - m.excess f m.amount, input := .donePending (),
          handlerBusy := false }) :
      Moves m .outputHandler
        { m with
          flow := flow', sendingFlow := none, previousFlow := some f, scheduleJob := true,
          output := .none
          finished := m.finished ++ [p], acknowledged := m.acknowledged ++ [(f, p)] }
  /-- 待っている flow がない。 -/
  | rest (running : m.freeing = false) (job : m.scheduleJob = true) (empty : m.queuedTree = []) :
      Moves m .scheduleJob { m with scheduleJob := false, previousFlow := none }
  | next (f : Nat) (rest : List Nat) (running : m.freeing = false) (job : m.scheduleJob = true)
      (first : m.queuedTree = f :: rest) :
      Moves m .scheduleJob
        (sent { m.setFlow f { m.flow f with isQueued := false } with
          scheduleJob := false, previousFlow := none, queuedTree := rest } f (m.flow f).queued)
  | requestCancel (f : Nat) (output : Phase Packet Packet) (running : m.freeing = false)
      (sending : m.sendingFlow = some f) (same : output.carried = m.output.carried) :
      Moves m (.requestCancel f) { m with cancelRequested := true, output := output }
  | setBusyHandler (f : Nat) (handler : Bool) (running : m.freeing = false)
      (sending : m.sendingFlow = some f) :
      Moves m (.setBusyHandler f handler) (m.setFlow f { m.flow f with handlerBusy := handler })
  | prepareFree : Moves m .prepareFree { m with freeing := true }

theorem schedule_ok {rest : List Nat} (hidle : m.sendingFlow = none)
    (hprev : m.previousFlow = none) (hrun : m.freeing = false) (hfirst : m.queuedTree = f :: rest)
    (hqueued : (m.flow f).isQueued = true) (hout : m.output = .none)
    (hlen : (m.flow f).queued.len ≤ m.cfg.mtu)
    (hdata : ¬ 0 < (m.flow f).queued.len ∨ (m.flow f).queued.data ≠ none) :
    m.schedule =
      .ok (sent { m.setFlow f { m.flow f with isQueued := false } with queuedTree := rest } f
        (m.flow f).queued) := by
  have hremove : m.treeRemove f = .ok { m with queuedTree := rest } := by
    rw [treeRemove, hfirst, ensure_bind List.mem_cons_self, List.erase_cons_head]
    rfl
  have hsend : senderSend { m.setFlow f { m.flow f with isQueued := false } with
      queuedTree := rest } (m.flow f).queued =
      .ok { m.setFlow f { m.flow f with isQueued := false } with
        queuedTree := rest, output := .operationPending (m.flow f).queued, cancelRequested := false
        passed := m.passed ++ [(m.flow f).queued] } := by
    rw [senderSend, ensure_bind (by exact hlen), ensure_bind (by exact hdata)]
    dsimp only [setFlow]
    rw [hout]
    rfl
  rw [schedule, ensure_bind hidle, ensure_bind hprev, ensure_bind hrun, hfirst, List.head?_cons]
  dsimp only
  rw [ensure_bind hqueued, hremove, ok_bind]
  have hself :
      (setFlow { m with queuedTree := rest } f { m.flow f with isQueued := false }).flow f =
        { m.flow f with isQueued := false } := flow_setFlow_self ..
  dsimp only
  rw [hself]
  refine bind_eq_ok.mpr ⟨_, hsend, ?_⟩
  dsimp only
  rw [flow_setFlow_self]
  rfl

@[simp] theorem time_setInput (m : PacketPassFairQueue) (f g : Nat) (x : Phase Packet Unit) :
    ((m.setInput f x).flow g).time = (m.flow g).time := by
  by_cases h : g = f
  · subst h
    rw [setInput, flow_setFlow_self]
  · rw [setInput, flow_setFlow_of_ne h]

@[simp] theorem isQueued_setInput (m : PacketPassFairQueue) (f g : Nat) (x : Phase Packet Unit) :
    ((m.setInput f x).flow g).isQueued = (m.flow g).isQueued := by
  by_cases h : g = f
  · subst h
    rw [setInput, flow_setFlow_self]
  · rw [setInput, flow_setFlow_of_ne h]

theorem now_setInput (m : PacketPassFairQueue) (f : Nat) (x : Phase Packet Unit) :
    (m.setInput f x).now = m.now := by
  show ((m.known.map fun g => ((m.setInput f x).flow g).time).min?) = _
  simp only [time_setInput]
  rfl

theorem Inv.raiseTime (h : Inv m) (f : Nat) (p : Packet) :
    PacketPassFairQueue.raiseTime (m.setInput f (.busy p)) f =
      .ok { m.setFlow f { m.flow f with input := .busy p, time := m.entryTime f } with
        previousFlow := if m.previousFlow = some f then none else m.previousFlow } := by
  unfold PacketPassFairQueue.raiseTime entryTime
  by_cases hprev : m.previousFlow = some f
  · rw [if_pos (by exact hprev), if_pos hprev, if_pos hprev]
    rfl
  · have hqueued : ∀ g ∈ (m.setInput f (.busy p)).queuedTree,
        ((m.setInput f (.busy p)).flow g).isQueued = true := by
      intro g hg
      rw [isQueued_setInput]
      exact h.isQueued g hg
    rw [if_neg (by exact hprev), if_neg hprev, if_neg hprev, getCurrentTime_ok hqueued,
      now_setInput]
    show Except.ok (setFlow _ f _) = _
    rw [setInput, flow_setFlow_self, setFlow_of_flow_eq (m := m) rfl]
    rfl

theorem treeInsert_of_insert {t : List Nat}
    (h : SearchTree.insert compareFlows m.key f m.queuedTree = some t) :
    PacketPassFairQueue.treeInsert m f = .ok { m with queuedTree := t } := by
  rw [PacketPassFairQueue.treeInsert, h]

/-- 待っていない flow を木に入れる。鍵が address を含むので、必ず入る。 -/
theorem Inv.treeInsert (h : Inv m) (hf : f ∉ m.queuedTree) (x : PacketPassFairQueueFlow) :
    ∃ t, SearchTree.insert compareFlows (m.setFlow f x).key f m.queuedTree = some t ∧
      SearchTree.Ordered compareFlows (m.setFlow f x).key t ∧ t.Perm (f :: m.queuedTree) := by
  have hkey : ∀ g ∈ m.queuedTree, (m.setFlow f x).key g = m.key g := by
    intro g hg
    unfold key
    rw [flow_setFlow_of_ne (ne_of_mem_of_not_mem hg hf)]
  refine (h.ordered.congr hkey).insert fun g hg heq => ?_
  exact ne_of_mem_of_not_mem hg hf (congrArg Prod.snd heq)

theorem key_setFlow_congr (m : PacketPassFairQueue) (f : Nat) (h : x.time = y.time) :
    (m.setFlow f x).key = (m.setFlow f y).key := by
  funext g
  unfold key
  by_cases hg : g = f
  · subst hg
    rw [flow_setFlow_self, flow_setFlow_self, h]
  · rw [flow_setFlow_of_ne hg, flow_setFlow_of_ne hg]

/-- packet を頼まれた flow は、まだ待っても送ってもいない。 -/
theorem Inv.of_asked (h : Inv m) (hasked : (m.flow f).input = .operationPending p) :
    m.sendingFlow ≠ some f ∧ f ∉ m.queuedTree := by
  constructor
  · intro hsend
    obtain ⟨q, hq, -⟩ := h.carries f hsend
    rw [hasked] at hq
    cases hq
  · intro hf
    have hq := h.queued hf
    rw [hasked] at hq
    cases hq

theorem Inv.moves_inputOperation (h : Inv m) (hrun : m.freeing = false) (hmem : f ∈ m.flowsList)
    (hasked : (m.flow f).input = .operationPending p) :
    ∃ m', (m.setInput f (.busy p)).inputHandlerSend f p = .ok m' ∧
      Moves m (.inputOperation f) m' := by
  obtain ⟨hsend, hnot⟩ := h.of_asked hasked
  have hidle := h.notQueued hmem hnot
  obtain ⟨-, hlen, hdata⟩ := (h.flows f hmem).pending p
    (by rw [hasked]; exact List.mem_singleton_self p)
  obtain ⟨t, ht, hord, hperm⟩ := h.treeInsert hnot (m.waitingFlow f p)
  rw [inputHandlerSend, ensure_bind (by exact hsend),
    ensure_bind (by rw [isQueued_setInput]; exact hidle), ensure_bind (by exact hrun), h.raiseTime,
    ok_bind]
  -- 送る packet を書いた後
  obtain ⟨x, hx⟩ : ∃ x : PacketPassFairQueueFlow,
      x = { m.flow f with input := .busy p, time := m.entryTime f, queued := p } := ⟨_, rfl⟩
  obtain ⟨prev, hprev⟩ : ∃ prev, prev = if m.previousFlow = some f then none else m.previousFlow :=
    ⟨_, rfl⟩
  have hinsert : PacketPassFairQueue.treeInsert { m.setFlow f x with previousFlow := prev } f =
      .ok { m.setFlow f x with previousFlow := prev, queuedTree := t } := by
    have hkey : (m.setFlow f x).key = (m.setFlow f (m.waitingFlow f p)).key :=
      m.key_setFlow_congr f (by rw [hx]; rfl)
    rw [← hkey] at ht
    exact treeInsert_of_insert ht
  have hflow : ∀ y z : PacketPassFairQueueFlow, setFlow { m.setFlow f y with previousFlow := prev }
      f z =
      { m.setFlow f z with previousFlow := prev } := fun y z => setFlow_of_flow_eq rfl z
  have hflow' : ∀ y z : PacketPassFairQueueFlow,
      setFlow { m.setFlow f y with previousFlow := prev, queuedTree := t } f z =
      { m.setFlow f z with previousFlow := prev, queuedTree := t } :=
        fun y z => setFlow_of_flow_eq rfl z
  dsimp only
  rw [← hprev, flow_setFlow_self, hflow, ← hx, hinsert, ok_bind]
  dsimp only
  rw [flow_setFlow_self, hflow']
  have hwaiting : { x with isQueued := true } = m.waitingFlow f p := by rw [hx]; rfl
  rw [hwaiting]
  by_cases hocc : m.sendingFlow = none ∧ m.scheduleJob = false
  · -- 待っている flow も前の flow もないので、待たずに送る
    have halone : m.queuedTree = [] := by
      by_contra hne
      rcases h.awake hrun hne with hs | hj
      · exact hs hocc.1
      · rw [hocc.2] at hj
        cases hj
    have hnone : m.previousFlow = none := by
      rw [Option.eq_none_iff_forall_ne_some]
      intro g hg
      have hjob := (h.previous g hg).2
      rw [hocc.2] at hjob
      cases hjob
    rw [halone] at hperm
    obtain rfl := List.perm_singleton.mp hperm
    rw [hnone, if_neg (Option.some_ne_none f).symm] at hprev
    subst hprev
    have hnow : (PacketPassFairQueue.flow
        { m.setFlow f (m.waitingFlow f p) with previousFlow := none, queuedTree := [f] } f) =
        m.waitingFlow f p := flow_setFlow_self ..
    have hsched :=
      schedule_ok
        (m := { m.setFlow f (m.waitingFlow f p) with previousFlow := none, queuedTree := [f] })
      hocc.1 rfl hrun rfl (by rw [hnow]; rfl) (h.resting hocc.1 hrun) (by rw [hnow]; exact hlen)
      (by rw [hnow]; exact hdata)
    rw [hnow, hflow'] at hsched
    exact ⟨_, (if_pos (by exact hocc)).trans hsched,
      .start f p hrun hmem hasked hocc.1 hocc.2 halone hnone⟩
  · refine ⟨_, if_neg (by exact hocc), ?_⟩
    rw [hprev]
    refine .wait f p t hrun hmem hasked ?_ hperm hord
    rcases not_and_or.mp hocc with hs | hj
    · exact .inl hs
    · exact .inr (by rw [Bool.not_eq_false] at hj; exact hj)

theorem Inv.of_output (h : Inv m) (hrun : m.freeing = false) (hp : m.output.carried = [p]) :
    ∃ f, m.sendingFlow = some f ∧ (m.flow f).input = .busy p ∧ m.sendingLen = p.len := by
  cases hsend : m.sendingFlow with
  | none =>
    rw [h.resting hsend hrun] at hp
    cases hp
  | some f =>
    obtain ⟨q, hq, hcarried, hlen⟩ := h.carries f hsend
    rw [hp] at hcarried
    obtain rfl := List.singleton_inj.mp hcarried
    exact ⟨f, rfl, hq, hlen⟩

theorem Inv.amount_le (h : Inv m) (hsend : m.sendingFlow = some f) :
    m.amount ≤ m.cfg.mtu + m.cfg.packetWeight := by
  obtain ⟨p, hp, -, hlen⟩ := h.carries f hsend
  have hle :=
    ((h.flows f (h.sending_live f hsend).1).pending p
      (by rw [hp]; exact List.mem_singleton_self p)).2.1
  unfold amount
  omega

theorem Inv.moves_outputHandler (h : Inv m) (hrun : m.freeing = false)
    (hdone : m.output = .donePending p) :
    ∃ m', { m with output := .none, finished := m.finished ++ [p] }.outputHandlerDone = .ok m' ∧
      Moves m .outputHandler m' := by
  obtain ⟨f, hsend, hown, -⟩ := h.of_output hrun (by rw [hdone]; rfl)
  obtain ⟨hmem, hnot⟩ := h.sending_live f hsend
  obtain ⟨hnoPrevious, hnoJob⟩ := h.sending_alone f hsend
  have hidle := h.notQueued hmem hnot
  have hamount := (h.amount_le hsend).trans h.fits
  have hadd : add64 m.cfg.packetWeight m.sendingLen = m.amount :=
    add64_of_lt (hamount.trans_lt m.cfg.maxTime_lt)
  obtain ⟨flow', hincr, hothers, hself⟩ :=
    h.incrementSentFlow hsend hamount .none (m.finished ++ [p])
  have hinput : (flow' f).input = .busy p := by rw [hself]; exact hown
  rw [outputHandlerDone, ensure_bind (by exact hnoPrevious), ensure_bind (by exact hnoJob),
    ensure_bind (by exact hrun)]
  dsimp only
  rw [hsend]
  dsimp only
  rw [ensure_bind hidle, hadd, hincr, ok_bind, acknowledge]
  dsimp only
  rw [hinput]
  refine ⟨_, rfl, ?_⟩
  dsimp only [setFlow, Phase.pending]
  rw [Function.update_self, Function.update_idem]
  refine .finish f p _ hrun hsend hdone hown (fun g hg hne => ?_) ?_
  · rw [Function.update_of_ne hne, hothers g hg hne]
  · rw [Function.update_self, hself]

theorem Inv.sending_of_job (h : Inv m) (hjob : m.scheduleJob = true) : m.sendingFlow = none := by
  rw [Option.eq_none_iff_forall_ne_some]
  intro f hf
  have hno := (h.sending_alone f hf).2
  rw [hjob] at hno
  cases hno

theorem Inv.moves_scheduleJob (h : Inv m) (hrun : m.freeing = false) (hjob : m.scheduleJob = true) :
    ∃ m', { m with scheduleJob := false }.scheduleJobHandler = .ok m' ∧
      Moves m .scheduleJob m' := by
  have hidle := h.sending_of_job hjob
  rw [scheduleJobHandler, ensure_bind (by exact hidle), ensure_bind (by exact hrun)]
  unfold scheduleIf
  cases htree : m.queuedTree with
  | nil =>
    refine ⟨_, if_neg (by simp), ?_⟩
    rw [← htree]
    exact .rest hrun hjob htree
  | cons f rest =>
    have hf : f ∈ m.queuedTree := by rw [htree]; exact List.mem_cons_self
    obtain ⟨hmem, hqueued⟩ := (h.mem_tree f).mp hf
    obtain ⟨-, hlen, hdata⟩ := (h.flows f hmem).pending (m.flow f).queued
      (by rw [h.queued hf]; exact List.mem_singleton_self _)
    have hsched :=
      schedule_ok
        (m := { m with scheduleJob := false, previousFlow := none, queuedTree := f :: rest })
      hidle rfl hrun rfl hqueued (h.resting hidle hrun) hlen hdata
    refine ⟨_, (if_pos (by simp)).trans hsched, ?_⟩
    exact .next f rest hrun hjob htree

theorem Inv.moves_freeFlow (h : Inv m) (hmem : f ∈ m.flowsList)
    (hallowed : m.freeing = true ∨ m.sendingFlow ≠ some f) :
    ∃ m', m.flowFree f = .ok m' ∧ Moves m (.freeFlow f) m' := by
  rw [flowFree, ensure_bind hallowed]
  unfold treeRemoveIf
  dsimp only
  by_cases hq : (m.flow f).isQueued = true
  · have hf : f ∈ m.queuedTree := (h.mem_tree f).mpr ⟨hmem, hq⟩
    rw [if_pos hq, treeRemove, ensure_bind (by exact hf)]
    exact ⟨_, rfl, .freeFlow f hmem hallowed⟩
  · rw [if_neg hq]
    have hf : f ∉ m.queuedTree := fun hf => hq ((h.mem_tree f).mp hf).2
    have hmoves := Moves.freeFlow f hmem hallowed
    rw [List.erase_of_not_mem hf] at hmoves
    exact ⟨_, rfl, hmoves⟩

theorem Inv.moves_requestCancel (h : Inv m) (hrun : m.freeing = false)
    (hsend : m.sendingFlow = some f) (huse : m.cfg.useCancel = true) :
    ∃ m', m.requestCancel f = .ok m' ∧ Moves m (.requestCancel f) m' := by
  obtain ⟨-, hnoJob⟩ := h.sending_alone f hsend
  obtain ⟨p, -, hcarried, -⟩ := h.carries f hsend
  have hne : m.output ≠ .none := by
    intro hnone
    rw [hnone] at hcarried
    cases hcarried
  rw [PacketPassFairQueue.requestCancel, ensure_bind hsend, ensure_bind huse, ensure_bind hrun,
    ensure_bind hnoJob, senderRequestCancel, ensure_bind hne, ensure_bind (h.cancel huse)]
  split
  next hreq =>
    have hmoves := Moves.requestCancel f m.output hrun hsend rfl
    rw [← hreq] at hmoves
    exact ⟨m, rfl, hmoves⟩
  next =>
    split
    next q hq => exact ⟨_, rfl, .requestCancel f (.donePending q) hrun hsend (by rw [hq]; rfl)⟩
    next => exact ⟨_, rfl, .requestCancel f m.output hrun hsend rfl⟩

theorem moves_of_stepRunning (h : Inv m) (hrun : m.freeing = false)
    {r : Except Fault PacketPassFairQueue} (hstep : m.stepRunning e = some r) :
    ∃ m', r = .ok m' ∧ Moves m e m' := by
  unfold stepRunning at hstep
  split at hstep
  next f =>
    split at hstep
    next => cases hstep
    next hnew =>
      rw [flowInit, ensure_bind hrun] at hstep
      exact ⟨_, (Option.some.inj hstep).symm, .addFlow f hrun hnew⟩
  next f data len =>
    split at hstep
    next hok =>
      exact ⟨_, (Option.some.inj hstep).symm, .submit f data len hrun hok.1 hok.2.1 hok.2.2.1
        hok.2.2.2⟩
    next => cases hstep
  next f =>
    split at hstep
    next hmem =>
      split at hstep
      next p hasked =>
        obtain ⟨m', hm', hmoves⟩ := h.moves_inputOperation hrun hmem hasked
        exact ⟨m', (Option.some.inj hstep).symm.trans hm', hmoves⟩
      next => cases hstep
    next => cases hstep
  next f =>
    split at hstep
    next hmem =>
      split at hstep
      next hdone => exact ⟨_, (Option.some.inj hstep).symm, .inputDone f hrun hmem hdone⟩
      next => cases hstep
    next => cases hstep
  next =>
    split at hstep
    next p hasked => exact ⟨_, (Option.some.inj hstep).symm, .outputOperation p hrun hasked⟩
    next => cases hstep
  next =>
    split at hstep
    next p hbegun => exact ⟨_, (Option.some.inj hstep).symm, .outputDone p hrun hbegun⟩
    next => cases hstep
  next =>
    split at hstep
    next p hdone =>
      obtain ⟨m', hm', hmoves⟩ := h.moves_outputHandler hrun hdone
      exact ⟨m', (Option.some.inj hstep).symm.trans hm', hmoves⟩
    next => cases hstep
  next =>
    split at hstep
    next hjob =>
      obtain ⟨m', hm', hmoves⟩ := h.moves_scheduleJob hrun hjob
      exact ⟨m', (Option.some.inj hstep).symm.trans hm', hmoves⟩
    next => cases hstep
  next f =>
    split at hstep
    next hok =>
      obtain ⟨m', hm', hmoves⟩ := h.moves_requestCancel hrun hok.1 hok.2
      exact ⟨m', (Option.some.inj hstep).symm.trans hm', hmoves⟩
    next => cases hstep
  next f handler =>
    split at hstep
    next hsend => exact ⟨_, (Option.some.inj hstep).symm, .setBusyHandler f handler hrun hsend⟩
    next => cases hstep
  next => cases hstep

theorem moves_of_step (h : Inv m) {r : Except Fault PacketPassFairQueue}
    (hstep : m.step e = some r) :
    ∃ m', r = .ok m' ∧ Moves m e m' := by
  unfold step at hstep
  split at hstep
  next => exact ⟨_, (Option.some.inj hstep).symm, .prepareFree⟩
  next f =>
    split at hstep
    next hok =>
      obtain ⟨m', hm', hmoves⟩ := h.moves_freeFlow hok.1 hok.2
      exact ⟨m', (Option.some.inj hstep).symm.trans hm', hmoves⟩
    next => cases hstep
  next =>
    split at hstep
    next => cases hstep
    next hrun => exact moves_of_stepRunning h (Bool.not_eq_true _ ▸ hrun) hstep

/-! ## 不変量が保たれること -/

theorem FlowInv.congr {cfg : FairConfig} {tree tree' : List Nat} {s s' : Option Nat}
    (h : FlowInv cfg tree s f x) (htree : f ∈ tree' ↔ f ∈ tree) (hsend : s = some f → s' = some f) :
    FlowInv cfg tree' s' f x where
  mem_tree := htree.trans h.mem_tree
  queued := h.queued
  pending := h.pending
  busy := fun p hp => (h.busy p hp).imp_right hsend
  time_le := h.time_le

theorem Inv.tree_nodup (h : Inv m) : m.queuedTree.Nodup := by
  refine h.ordered.imp fun {a b} hlt heq => ?_
  rw [heq] at hlt
  exact SearchTree.ne_of_cmp hlt (by decide) rfl

theorem time_setFlow (htime : y.time = (m.flow f).time) (g : Nat) :
    ((m.setFlow f y).flow g).time = (m.flow g).time := by
  by_cases hg : g = f
  · subst hg
    rw [flow_setFlow_self, htime]
  · rw [flow_setFlow_of_ne hg]

/-- 一つの flow の、時刻のほかの部分を書き換える。 -/
theorem Inv.setFlow (h : Inv m) (htime : y.time = (m.flow f).time)
    (hflow : FlowInv m.cfg m.queuedTree m.sendingFlow f y)
    (hsend : m.sendingFlow = some f → y.input = (m.flow f).input) : Inv (m.setFlow f y) := by
  have htimes := time_setFlow htime
  refine { h with ordered := ?_, flows := ?_, carries := ?_, lowest := ?_ }
  · refine h.ordered.congr fun g _ => ?_
    unfold key
    rw [htimes]
  · intro g hg
    by_cases hgf : g = f
    · subst hgf
      rw [flow_setFlow_self]
      exact hflow
    · rw [flow_setFlow_of_ne hgf]
      exact h.flows g hg
  · intro g hg
    by_cases hgf : g = f
    · subst hgf
      rw [flow_setFlow_self, hsend hg]
      exact h.carries g hg
    · rw [flow_setFlow_of_ne hgf]
      exact h.carries g hg
  · intro g hg x hx
    rw [htimes, htimes]
    exact h.lowest g hg x hx

theorem Inv.addFlow (h : Inv m) (hnew : f ∉ m.flowsList) :
    Inv { m.setFlow f blankFlow with flowsList := m.flowsList ++ [f] } := by
  have hne : ∀ g ∈ m.flowsList, g ≠ f := fun g hg => ne_of_mem_of_not_mem hg hnew
  have hkeep : ∀ g ∈ m.flowsList, (m.setFlow f blankFlow).flow g = m.flow g :=
    fun g hg => flow_setFlow_of_ne (hne g hg) ..
  refine { h with
    nodup := ?_, ordered := ?_, live := ?_, flows := ?_, sending_live := ?_, carries := ?_,
    previous := ?_, lowest := ?_ }
  · exact List.nodup_append.mpr ⟨h.nodup, by simp, fun g hg x hx => by
      rw [List.mem_singleton.mp hx]
      exact hne g hg⟩
  · refine h.ordered.congr fun g hg => ?_
    unfold key
    rw [hkeep g (h.live g hg)]
  · exact fun g hg => List.mem_append_left _ (h.live g hg)
  · intro g hg
    rcases List.mem_append.mp hg with hg | hg
    · rw [hkeep g hg]
      exact h.flows g hg
    · obtain rfl := List.mem_singleton.mp hg
      rw [flow_setFlow_self]
      exact ⟨iff_of_false (fun hg => hnew (h.live g hg)) (by decide), nofun, nofun, nofun,
        Nat.zero_le _⟩
  · exact fun g hg => ⟨List.mem_append_left _ (h.sending_live g hg).1, (h.sending_live g hg).2⟩
  · intro g hg
    rw [hkeep g (h.sending_live g hg).1]
    exact h.carries g hg
  · exact fun g hg => ⟨List.mem_append_left _ (h.previous g hg).1, (h.previous g hg).2⟩
  · intro g hg x hx
    rw [hkeep g (h.sending_live g hg).1, hkeep x (h.live x hx)]
    exact h.lowest g hg x hx

theorem Inv.freeFlow (h : Inv m) (hallowed : m.freeing = true ∨ m.sendingFlow ≠ some f)
    (dropped : List Packet) :
    Inv { m with
      sendingFlow := if m.sendingFlow = some f then none else m.sendingFlow
      previousFlow := if m.previousFlow = some f then none else m.previousFlow
      queuedTree := m.queuedTree.erase f, flowsList := m.flowsList.erase f,
      dropped := dropped } := by
  have hsend : ∀ g, (if m.sendingFlow = some f then none else m.sendingFlow) = some g →
      m.sendingFlow = some g ∧ g ≠ f := by
    intro g hg
    split at hg
    next => cases hg
    next hne => exact ⟨hg, fun heq => hne (heq ▸ hg)⟩
  have htree : ∀ g ∈ m.queuedTree.erase f, g ∈ m.queuedTree := fun g hg => List.mem_of_mem_erase hg
  refine { h with
    nodup := h.nodup.erase f, ordered := h.ordered.erase f, live := ?_, flows := ?_,
    sending_live := ?_
    sending_alone := ?_, carries := ?_, resting := ?_, previous := ?_, awake := ?_, lowest := ?_ }
  · intro g hg
    obtain ⟨hne, hg⟩ := h.tree_nodup.mem_erase_iff.mp hg
    exact h.nodup.mem_erase_iff.mpr ⟨hne, h.live g hg⟩
  · intro g hg
    obtain ⟨hne, hg⟩ := h.nodup.mem_erase_iff.mp hg
    refine (h.flows g hg).congr (List.mem_erase_of_ne hne) fun hs => ?_
    rw [if_neg (by rw [hs]; exact fun heq => hne (Option.some.inj heq))]
    exact hs
  · intro g hg
    obtain ⟨hg, hne⟩ := hsend g hg
    obtain ⟨hmem, hnot⟩ := h.sending_live g hg
    exact ⟨h.nodup.mem_erase_iff.mpr ⟨hne, hmem⟩, fun hx => hnot (htree g hx)⟩
  · intro g hg
    obtain ⟨hprev, hjob⟩ := h.sending_alone g (hsend g hg).1
    refine ⟨?_, hjob⟩
    show (if m.previousFlow = some f then none else m.previousFlow) = none
    rw [hprev]
    exact ite_self none
  · exact fun g hg => h.carries g (hsend g hg).1
  · intro hs hrun
    refine h.resting ?_ hrun
    split at hs
    next heq =>
      -- 解放を始めていないので、送っている flow は除かれない
      rcases hallowed with hfree | hne
      · rw [hfree] at hrun
        cases hrun
      · exact absurd heq hne
    next => exact hs
  · intro g hg
    dsimp only at hg
    split at hg
    next => cases hg
    next hne =>
      obtain ⟨hmem, hjob⟩ := h.previous g hg
      exact ⟨h.nodup.mem_erase_iff.mpr ⟨fun heq => hne (heq ▸ hg), hmem⟩, hjob⟩
  · intro hrun hne
    refine (h.awake hrun fun hnil => hne (by rw [hnil]; rfl)).imp_left fun hs => ?_
    rcases hallowed with hfree | hnot
    · rw [hfree] at hrun
      cases hrun
    · rw [if_neg hnot]
      exact hs
  · exact fun g hg x hx => h.lowest g (hsend g hg).1 x (htree x hx)

/-- 出力が持つ packet が同じなら、出力の進み具合は問わない。 -/
theorem Inv.setOutput (h : Inv m) {o : Phase Packet Packet} (hsame : o.carried = m.output.carried)
    (cancelRequested : Bool) :
    Inv { m with output := o, cancelRequested := cancelRequested } := by
  refine { h with carries := ?_, resting := ?_ }
  · intro f hf
    dsimp only
    rw [hsame]
    exact h.carries f hf
  · intro hs hrun
    rw [← Phase.carried_eq_nil, hsame, Phase.carried_eq_nil]
    exact h.resting hs hrun

/-- flow `f` の packet を渡す。残る木 `rest` の flow は、どれも `f` より早くない。 -/
theorem Inv.sent (h : Inv m) {rest : List Nat} {job : Bool} (hidle : m.sendingFlow = none)
    (hmem : f ∈ m.flowsList) (hnot : f ∉ rest)
    (hrest : ∀ g, g ≠ f → (g ∈ rest ↔ g ∈ m.queuedTree))
    (hord : SearchTree.Ordered compareFlows m.key rest) (hjob : job = false)
    (hqueued : y.isQueued = false) (hinput : y.input = .busy p)
    (hp : p.source = f ∧ p.len ≤ m.cfg.mtu ∧ (¬ 0 < p.len ∨ p.data ≠ none))
    (htime : y.time ≤ m.cfg.maxTime) (hlow : ∀ g ∈ rest, y.time ≤ (m.flow g).time) :
    Inv (PacketPassFairQueue.sent
      { m.setFlow f y with scheduleJob := job, previousFlow := none, queuedTree := rest } f p) := by
  have hne : ∀ g ∈ rest, g ≠ f := fun g hg => ne_of_mem_of_not_mem hg hnot
  refine { h with
    ordered := ?_, live := ?_, flows := ?_, sending_live := ?_, sending_alone := ?_, carries := ?_,
    resting := nofun
    previous := nofun, awake := fun _ _ => .inl (Option.some_ne_none f), lowest := ?_ }
  · refine hord.congr fun g hg => ?_
    show (((m.setFlow f y).flow g).time, g) = _
    rw [flow_setFlow_of_ne (hne g hg)]
    rfl
  · exact fun g hg => h.live g ((hrest g (hne g hg)).mp hg)
  · intro g hg
    show FlowInv m.cfg rest (some f) g ((m.setFlow f y).flow g)
    by_cases hgf : g = f
    · subst hgf
      rw [flow_setFlow_self]
      refine ⟨iff_of_false hnot (by rw [hqueued]; decide), ?_, ?_, fun _ _ => .inr rfl, htime⟩
      · rw [hqueued]
        nofun
      · rw [hinput]
        intro q hq
        rw [List.mem_singleton.mp hq]
        exact hp
    · rw [flow_setFlow_of_ne hgf]
      refine (h.flows g hg).congr (hrest g hgf) fun hs => ?_
      rw [hidle] at hs
      cases hs
  · rintro g ⟨⟩
    exact ⟨hmem, hnot⟩
  · exact fun _ _ => ⟨rfl, hjob⟩
  · rintro g ⟨⟩
    refine ⟨p, ?_, rfl, rfl⟩
    show ((m.setFlow f y).flow f).input = _
    rw [flow_setFlow_self, hinput]
  · rintro g ⟨⟩ x hx
    show ((m.setFlow f y).flow f).time ≤ ((m.setFlow f y).flow x).time
    rw [flow_setFlow_self, flow_setFlow_of_ne (hne x hx)]
    exact hlow x hx

theorem Inv.known_live (h : Inv m) (hf : f ∈ m.known) : f ∈ m.flowsList := by
  cases hsend : m.sendingFlow with
  | some g =>
    rw [known_of_sending hsend, List.mem_singleton] at hf
    exact hf ▸ (h.sending_live g hsend).1
  | none =>
    rw [known_of_idle hsend, List.mem_append, Option.mem_toList, Option.mem_toList] at hf
    rcases hf with hf | hf
    · exact h.live f (List.mem_of_mem_head? hf)
    · exact (h.previous f hf).1

theorem Inv.now_le (h : Inv m) (ht : m.now = some t) : t ≤ m.cfg.maxTime := by
  obtain ⟨⟨f, hf, rfl⟩, -⟩ := now_eq_some.mp ht
  exact (h.flows f (h.known_live hf)).time_le

theorem Inv.entryTime_le (h : Inv m) (hmem : f ∈ m.flowsList) : m.entryTime f ≤ m.cfg.maxTime := by
  have htime := (h.flows f hmem).time_le
  unfold entryTime
  split
  next => exact htime
  next =>
    refine Nat.max_le.mpr ⟨htime, ?_⟩
    cases hnow : m.now with
    | none => exact Nat.zero_le _
    | some t => exact h.now_le hnow

theorem Inv.wait (h : Inv m) {t : List Nat} (hmem : f ∈ m.flowsList)
    (hasked : (m.flow f).input = .operationPending p)
    (hocc : m.sendingFlow ≠ none ∨ m.scheduleJob = true) (hperm : t.Perm (f :: m.queuedTree))
    (hord : SearchTree.Ordered compareFlows (m.setFlow f (m.waitingFlow f p)).key t) :
    Inv { m.setFlow f (m.waitingFlow f p) with
      queuedTree := t, previousFlow := if m.previousFlow = some f then none
        else m.previousFlow } := by
  obtain ⟨hsend, hnot⟩ := h.of_asked hasked
  have hmem_t : ∀ g, g ∈ t ↔ g = f ∨ g ∈ m.queuedTree := fun g => hperm.mem_iff.trans List.mem_cons
  have hne : ∀ g, m.sendingFlow = some g → g ≠ f := fun g hg heq => hsend (heq ▸ hg)
  refine { h with
    ordered := hord, live := ?_, flows := ?_, sending_live := ?_, sending_alone := ?_,
    carries := ?_, previous := ?_
    awake := fun _ _ => hocc, lowest := ?_ }
  · intro g hg
    rcases (hmem_t g).mp hg with rfl | hg
    · exact hmem
    · exact h.live g hg
  · intro g hg
    show FlowInv m.cfg t m.sendingFlow g ((m.setFlow f (m.waitingFlow f p)).flow g)
    by_cases hgf : g = f
    · subst hgf
      rw [flow_setFlow_self]
      refine ⟨iff_of_true ((hmem_t g).mpr (.inl rfl)) rfl, fun _ => rfl, fun q hq => ?_,
        fun _ _ => .inl rfl, h.entryTime_le hmem⟩
      exact (h.flows g hmem).pending q (by rw [hasked]; exact hq)
    · rw [flow_setFlow_of_ne hgf]
      exact (h.flows g hg).congr ((hmem_t g).trans (or_iff_right hgf)) id
  · intro g hg
    obtain ⟨hlive, hout⟩ := h.sending_live g hg
    exact ⟨hlive, fun hgt => ((hmem_t g).mp hgt).elim (hne g hg) hout⟩
  · intro g hg
    obtain ⟨hprev, hjob⟩ := h.sending_alone g hg
    refine ⟨?_, hjob⟩
    show (if m.previousFlow = some f then none else m.previousFlow) = none
    rw [hprev]
    exact ite_self none
  · intro g hg
    obtain ⟨q, hq⟩ := h.carries g hg
    refine ⟨q, ?_⟩
    show ((m.setFlow f (m.waitingFlow f p)).flow g).input = .busy q ∧ _
    rw [flow_setFlow_of_ne (hne g hg)]
    exact hq
  · intro g hg
    dsimp only at hg
    split at hg
    next => cases hg
    next => exact h.previous g hg
  · intro g hg x hx
    show ((m.setFlow f (m.waitingFlow f p)).flow g).time ≤
      ((m.setFlow f (m.waitingFlow f p)).flow x).time
    rw [flow_setFlow_of_ne (hne g hg)]
    by_cases hxf : x = f
    · -- 送っている flow があれば、今の時刻はその時刻である
      subst hxf
      have hnow : m.now = some (m.flow g).time := now_of_sending hg
      rw [flow_setFlow_self]
      show (m.flow g).time ≤ m.entryTime x
      rw [entryTime, (h.sending_alone g hg).1, if_neg (Option.some_ne_none x).symm, hnow]
      exact Nat.le_max_right _ _
    · rw [flow_setFlow_of_ne hxf]
      exact h.lowest g hg x (((hmem_t x).mp hx).resolve_left hxf)

/-- 送り終えた後。引き下げても、木の順は変わらない。 -/
theorem Inv.finish (h : Inv m) {flow' : Nat → PacketPassFairQueueFlow}
    (hsend : m.sendingFlow = some f)
    (hothers : ∀ g ∈ m.flowsList, g ≠ f →
      flow' g = { m.flow g with time := (m.flow g).time - m.excess f m.amount })
    (hself : flow' f =
      { m.flow f with
        time := (m.flow f).time + m.amount - m.excess f m.amount, input := .donePending (),
        handlerBusy := false })
    (finished : List Packet) (acknowledged : List (Nat × Packet)) :
    Inv { m with
      flow := flow', sendingFlow := none, previousFlow := some f, scheduleJob := true,
      output := .none
      finished := finished, acknowledged := acknowledged } := by
  obtain ⟨hmem, hnot⟩ := h.sending_live f hsend
  have hne : ∀ g ∈ m.queuedTree, g ≠ f := fun g hg => ne_of_mem_of_not_mem hg hnot
  have htime : ∀ g ∈ m.queuedTree, (flow' g).time + m.excess f m.amount = (m.flow g).time := by
    intro g hg
    have hle := h.excess_le f m.amount hg
    rw [hothers g (h.live g hg) (hne g hg)]
    dsimp only
    omega
  refine { h with
    ordered := ?_, flows := ?_, sending_live := nofun, sending_alone := nofun, carries := nofun,
    resting := fun _ _ => rfl
    previous := ?_, awake := fun _ _ => .inr rfl, lowest := nofun }
  · refine h.ordered.imp_of_mem fun {a b} ha hb hlt => ?_
    have hta := htime a ha
    have htb := htime b hb
    rw [compareFlows_lt_iff] at hlt ⊢
    unfold key at hlt ⊢
    dsimp only at hlt ⊢
    omega
  · intro g hg
    have hflow := h.flows g hg
    show FlowInv m.cfg m.queuedTree none g (flow' g)
    by_cases hgf : g = f
    · subst hgf
      rw [hself]
      refine ⟨hflow.mem_tree, fun hq => absurd (hflow.mem_tree.mpr hq) hnot, nofun, nofun, ?_⟩
      exact (h.excess_spec hmem (h.lowest g hsend) ((h.amount_le hsend).trans h.fits)).2.1
    · rw [hothers g hg hgf]
      refine ⟨hflow.mem_tree, hflow.queued, hflow.pending, fun p hp => ?_,
        (Nat.sub_le _ _).trans hflow.time_le⟩
      refine (hflow.busy p hp).imp_right fun hs => ?_
      rw [hsend] at hs
      exact absurd (Option.some.inj hs).symm hgf
  · rintro g ⟨⟩
    exact ⟨hmem, rfl⟩

theorem Moves.inv (hmoves : Moves m e m') (h : Inv m) : Inv m' := by
  cases hmoves with
  | addFlow f running new => exact h.addFlow new
  | freeFlow f mem allowed => exact h.freeFlow allowed _
  | submit f data len running mem idle fits given =>
    have hflow := h.flows f mem
    refine { h.setFlow (y := { m.flow f with input := .operationPending (m.newPacket f data len) })
      rfl ?_ fun hs => ?_ with }
    · refine ⟨hflow.mem_tree, fun hq => ?_, fun q hq => ?_, nofun, hflow.time_le⟩
      · have hbusy := hflow.queued hq
        rw [idle] at hbusy
        cases hbusy
      · rw [List.mem_singleton.mp hq]
        exact ⟨rfl, fits, given⟩
    · obtain ⟨q, hq, -⟩ := h.carries f hs
      rw [idle] at hq
      cases hq
  | wait f p t running mem asked occupied perm ordered =>
    exact h.wait mem asked occupied perm ordered
  | start f p running mem asked idle noJob alone noPrevious =>
    have hnone : ∀ g : Nat, g ∈ ([] : List Nat) ↔ g ∈ m.queuedTree := fun g => by rw [alone]
    exact h.sent idle mem List.not_mem_nil (fun g _ => hnone g) SearchTree.ordered_nil noJob rfl rfl
      ((h.flows f mem).pending p (by rw [asked]; exact List.mem_singleton_self p))
      (h.entryTime_le mem) nofun
  | inputDone f running mem done =>
    have hflow := h.flows f mem
    refine h.setFlow rfl ⟨hflow.mem_tree, fun hq => ?_, nofun, nofun, hflow.time_le⟩ fun hs => ?_
    · have hbusy := hflow.queued hq
      rw [done] at hbusy
      cases hbusy
    · obtain ⟨q, hq, -⟩ := h.carries f hs
      rw [done] at hq
      cases hq
  | outputOperation p running asked => exact h.setOutput (by rw [asked]; rfl) _
  | outputDone p running begun => exact h.setOutput (by rw [begun]; rfl) _
  | finish f p flow' running sending done own others self => exact h.finish sending others self _ _
  | rest running job empty =>
    have hidle := h.sending_of_job job
    exact { h with
      sending_alone := fun f hf => absurd (hidle.symm.trans hf) nofun, previous := nofun,
      awake := fun _ hne => absurd empty hne }
  | next f rest running job first =>
    have hf : f ∈ m.queuedTree := by rw [first]; exact List.mem_cons_self
    have hidle := h.sending_of_job job
    have hnodup := h.tree_nodup
    have hord := h.ordered
    rw [first] at hnodup hord
    refine h.sent hidle (h.live f hf) (List.nodup_cons.mp hnodup).1 (fun g hne => ?_) hord.of_cons
      rfl rfl (h.queued hf)
      ((h.flows f (h.live f hf)).pending _ (by rw [h.queued hf]; exact List.mem_singleton_self _))
      (h.flows f (h.live f hf)).time_le fun g hg => ?_
    · rw [first, List.mem_cons, or_iff_right hne]
    · exact h.head_le (by rw [first]; rfl) (by rw [first]; exact List.mem_cons_of_mem f hg)
  | requestCancel f output running sending same => exact h.setOutput same _
  | setBusyHandler f handler running sending =>
    have hflow := h.flows f (h.sending_live f sending).1
    exact h.setFlow rfl ⟨hflow.mem_tree, hflow.queued, hflow.pending, hflow.busy, hflow.time_le⟩
      fun _ => rfl
  | prepareFree => exact { h with resting := nofun, awake := nofun }

end PacketPassFairQueue

end Flow
