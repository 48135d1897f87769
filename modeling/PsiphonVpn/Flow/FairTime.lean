import PsiphonVpn.Flow.FairDelivery

/-!
# fair queue の時刻

時刻は送った分だけ進み続けるので、いつか `FAIRQUEUE_MAX_TIME` を超える。超えるときは、待っている最初の flow の時刻を全体から引く。
引かれた flow は一度巻き戻り、足し戻されて正しい値になる。

時刻が公平さを保つのは、待ち始める flow の時刻が今の時刻まで進められるからである。ところが今の時刻はどこにも書かれておらず、送っている flow、
待っている最初の flow、直前に送り終えた flow から求める。そのどれもないとき、時刻は零とみなされ、待ち始める flow の時刻は進まない。

* `fairQueue_time_survives_overflow` — 溢れても、送り終えた flow と待っている flow の時刻の差は、限りのない整数で計算したものと同じである
* `idle_flow_lags` — 休んだ後では、待っている flow の時刻の差がいくらでも開く
* `fairQueue_bound` — 今の時刻が分からないときに待ち始める flow が遅れていなければ、差は packet 一つ分に収まる
-/

namespace Flow

open Infra

namespace PacketPassFairQueue

variable {m m' : PacketPassFairQueue}

/-! ## 溢れ -/

/-- 送り終えた `f` に `amount` を足した時刻を、限りのない整数で計算したもの。 -/
def unboundedTime (m : PacketPassFairQueue) (f g : Nat) : Nat :=
  if g = f then (m.flow g).time + m.amount else (m.flow g).time

/-- 送り終えた後の時刻は、限りのない整数で計算したものから、どれも同じだけ引いたものである。 -/
structure Shifted (m m' : PacketPassFairQueue) (f subtract : Nat) : Prop where
  same : ∀ g ∈ f :: m.queuedTree, (m'.flow g).time + subtract = m.unboundedTime f g
  /-- 溢れなければ引かない。 -/
  unchanged : m.unboundedTime f f ≤ m.cfg.maxTime → subtract = 0
  difference : ∀ a ∈ f :: m.queuedTree, ∀ b ∈ f :: m.queuedTree,
    ((m'.flow a).time : Int) - (m'.flow b).time = m.unboundedTime f a - m.unboundedTime f b
  order : ∀ a ∈ f :: m.queuedTree, ∀ b ∈ f :: m.queuedTree,
    (m'.flow a).time ≤ (m'.flow b).time ↔ m.unboundedTime f a ≤ m.unboundedTime f b

theorem shifted_of_same {f subtract : Nat}
    (hsame : ∀ g ∈ f :: m.queuedTree, (m'.flow g).time + subtract = m.unboundedTime f g)
    (hunchanged : m.unboundedTime f f ≤ m.cfg.maxTime → subtract = 0) :
    Shifted m m' f subtract where
  same := hsame
  unchanged := hunchanged
  difference := by
    intro a ha b hb
    have hta := hsame a ha
    have htb := hsame b hb
    omega
  order := by
    intro a ha b hb
    have hta := hsame a ha
    have htb := hsame b hb
    omega

theorem Moves.shifted (hmoves : Moves m .outputHandler m') (h : Inv m) :
    ∃ f subtract, m.sendingFlow = some f ∧ Shifted m m' f subtract := by
  cases hmoves with
  | finish f p flow' running sending done own others self =>
    obtain ⟨hmem, hnot⟩ := h.sending_live f sending
    have hamount := (h.amount_le sending).trans h.fits
    refine ⟨f, m.excess f m.amount, sending, shifted_of_same ?_ ?_⟩
    · intro g hg
      unfold unboundedTime
      dsimp only
      rcases List.mem_cons.mp hg with rfl | hg
      · have hle := (h.excess_spec hmem (h.lowest g sending) hamount).1
        rw [if_pos rfl, self]
        dsimp only
        omega
      · have hne : g ≠ f := ne_of_mem_of_not_mem hg hnot
        have hle := h.excess_le f m.amount hg
        rw [if_neg hne, others g (h.live g hg) hne]
        dsimp only
        omega
    · intro hfit
      have htime := (h.flows f hmem).time_le
      rw [unboundedTime, if_pos rfl] at hfit
      exact if_pos (by omega)

theorem Moves.cfg_eq {e : FairEvent} (hmoves : Moves m e m') : m'.cfg = m.cfg := by
  cases hmoves <;> rfl

theorem inv_step_of_cfg (c : FairConfig) (m : PacketPassFairQueue) (e : FairEvent)
    (r : Except Fault PacketPassFairQueue) (h : Inv m ∧ m.cfg = c) (hstep : m.step e = some r) :
    ∃ m', r = .ok m' ∧ Inv m' ∧ m'.cfg = c := by
  obtain ⟨m', hr, hmoves⟩ := moves_of_step h.1 hstep
  exact ⟨m', hr, hmoves.inv h.1, hmoves.cfg_eq.trans h.2⟩

end PacketPassFairQueue

/--
**時刻は溢れても壊れない。**

`FAIRQUEUE_MAX_TIME` が出力の MTU と重みの和より小さくなければ、queue は作れ、どの run でも、flow の時刻は `FAIRQUEUE_MAX_TIME` を
超えず、送っている flow の時刻は待っているどの flow の時刻も超えない。送り終えた後の時刻は、送り終えた flow と待っている flow のどれも、
限りのない整数で計算したものから同じだけ引いたものである。
-/
theorem fairQueue_time_survives_overflow (c : FairConfig) (hweight : 0 < c.packetWeight)
    (hcancel : c.useCancel = false ∨ c.hasCancel = true)
    (hmax : c.mtu + c.packetWeight ≤ c.maxTime) :
    ∃ m₀, PacketPassFairQueue.init c = .ok (some m₀) ∧
      ∀ (events : List FairEvent) (r : Except Fault PacketPassFairQueue),
        exec (guarded PacketPassFairQueue.step) (.ok m₀) events = some r →
        ∃ m, r = .ok m ∧ (∀ f ∈ m.flowsList, (m.flow f).time ≤ c.maxTime) ∧
          (∀ f, m.sendingFlow = some f → ∀ g ∈ m.queuedTree, (m.flow f).time ≤ (m.flow g).time) ∧
          ∀ r', m.step .outputHandler = some r' →
            ∃ m' f subtract, r' = .ok m' ∧ m.sendingFlow = some f ∧ m.Shifted m' f subtract := by
  have hinit : PacketPassFairQueue.init c = .ok (some (PacketPassFairQueue.fresh c)) := by
    rw [PacketPassFairQueue.init, ensure_bind hweight, ensure_bind hcancel, if_pos (by omega)]
    rfl
  refine ⟨PacketPassFairQueue.fresh c, hinit, fun events r hrun => ?_⟩
  obtain ⟨m, rfl, hinv, rfl⟩ := exec_safe_all (PacketPassFairQueue.inv_step_of_cfg c)
    ⟨(PacketPassFairQueue.inv_init hinit).1, rfl⟩ hrun
  refine ⟨m, rfl, fun f hf => (hinv.flows f hf).time_le, hinv.lowest, fun r' hstep => ?_⟩
  obtain ⟨m', rfl, hmoves⟩ := PacketPassFairQueue.moves_of_step hinv hstep
  obtain ⟨f, subtract, hsend, hshift⟩ := hmoves.shifted hinv
  exact ⟨m', f, subtract, rfl, hsend, hshift⟩

/-- すぐに溢れる `FAIRQUEUE_MAX_TIME`。 -/
def smallFair : FairConfig := ⟨10, false, false, 1, 20, by decide⟩

/-- flow 1 が二つ目の packet を送り、flow 2 が待っている。どちらの時刻も 11 である。 -/
def overflowRun : List FairEvent :=
  [.addFlow 1, .addFlow 2, .submit 1 (some 0) 10, .inputOperation 1, .outputOperation, .outputDone,
    .outputHandler, .inputDone 1, .submit 1 (some 0) 10, .inputOperation 1, .submit 2 (some 0) 10,
    .inputOperation 2, .scheduleJob, .outputOperation, .outputDone]

/-- 22 は入らないので、どちらからも 11 を引く。 -/
theorem fairQueue_time_survives_overflow_small :
    ∃ m₀ m m' subtract, PacketPassFairQueue.init smallFair = .ok (some m₀) ∧
      exec (guarded PacketPassFairQueue.step) (.ok m₀) overflowRun = some (.ok m) ∧
      m.step .outputHandler = some (.ok m') ∧
      (m.unboundedTime 1 1 = 22 ∧ (m'.flow 1).time = 11 ∧ (m'.flow 2).time = 0) ∧
        m.Shifted m' 1 subtract := by
  obtain ⟨m₀, hinit, hsafe⟩ := fairQueue_time_survives_overflow smallFair (by decide) (by decide)
    (by decide)
  obtain rfl : PacketPassFairQueue.fresh smallFair = m₀ := Option.some.inj (Except.ok.inj hinit)
  obtain ⟨m, hrun, hsend, htime⟩ :=
    exec_ok_exists PacketPassFairQueue.step (PacketPassFairQueue.fresh smallFair) overflowRun
    (fun m => m.sendingFlow = some 1 ∧ m.unboundedTime 1 1 = 22) (by decide +kernel)
  obtain ⟨m', hrun', htimes⟩ := exec_ok_exists PacketPassFairQueue.step
    (PacketPassFairQueue.fresh smallFair)
    (overflowRun ++ [.outputHandler]) (fun m' => (m'.flow 1).time = 11 ∧ (m'.flow 2).time = 0)
      (by decide +kernel)
  rw [exec_append, hrun, Option.bind_some] at hrun'
  obtain ⟨r, hstep, hlast⟩ := exec_cons_eq_some.mp hrun'
  obtain rfl := Option.some.inj hlast
  obtain ⟨m₁, hm₁, -, -, hshift⟩ := hsafe overflowRun _ hrun
  obtain rfl := Except.ok.inj hm₁
  obtain ⟨m₂, f, subtract, hm₂, hf, hshifted⟩ := hshift _ hstep
  obtain rfl := Except.ok.inj hm₂
  obtain rfl := Option.some.inj (hsend.symm.trans hf)
  exact ⟨_, m, m', subtract, hinit, hrun, hstep, ⟨htime, htimes⟩, hshifted⟩

namespace PacketPassFairQueue

variable {m m' : PacketPassFairQueue}

/-! ## 時刻の幅 -/

/-- 待っているか、送っている。 -/
def Backlogged (m : PacketPassFairQueue) (f : Nat) : Prop :=
  f ∈ m.queuedTree ∨ m.sendingFlow = some f

/-- 最も大きな packet を一つ送って進む時刻。 -/
def maxAmount (c : FairConfig) : Nat := c.mtu + c.packetWeight

/-- どの flow の時刻も、今の時刻から packet 一つ分より先にはない。 -/
def Level (m : PacketPassFairQueue) : Prop :=
  ∀ t, m.now = some t → ∀ f ∈ m.flowsList, (m.flow f).time ≤ t + maxAmount m.cfg

/-- 今の時刻が分からないときに待ち始める flow は、ほかの flow から packet 一つ分より遅れていない。 -/
def Informed (m : PacketPassFairQueue) : FairEvent → Prop
  | .inputOperation f =>
    m.known = [] → ∀ g ∈ m.flowsList, (m.flow g).time ≤ (m.flow f).time + maxAmount m.cfg
  | _ => True

theorem exists_now_of_known {f : Nat} (hf : f ∈ m.known) :
    ∃ t, m.now = some t ∧ t ≤ (m.flow f).time := by
  cases hnow : m.now with
  | none =>
    rw [now, List.min?_eq_none_iff, List.map_eq_nil_iff] at hnow
    rw [hnow] at hf
    exact absurd hf List.not_mem_nil
  | some t => exact ⟨t, rfl, (now_eq_some.mp hnow).2 f hf⟩

/-- 今の時刻は、待っている flow・送っている flow・直前に送り終えた flow の時刻を超えない。 -/
theorem Inv.exists_now (h : Inv m) {f : Nat} (hf : m.Backlogged f ∨ m.previousFlow = some f) :
    ∃ t, m.now = some t ∧ t ≤ (m.flow f).time := by
  cases hsend : m.sendingFlow with
  | some g =>
    refine ⟨(m.flow g).time, now_of_sending hsend, ?_⟩
    rcases hf with (hf | hf) | hf
    · exact h.lowest g hsend f hf
    · rw [hsend] at hf
      rw [Option.some.inj hf]
    · rw [(h.sending_alone g hsend).1] at hf
      cases hf
  | none =>
    have hknown := known_of_idle hsend
    rcases hf with (hf | hf) | hf
    · -- 木の最初の flow が今の時刻を教える
      obtain ⟨g, hg⟩ := Option.isSome_iff_exists.mp (List.isSome_head?.mpr (List.ne_nil_of_mem hf))
      obtain ⟨t, ht, hle⟩ := exists_now_of_known (m := m) (f := g)
        (by rw [hknown, hg]; exact List.mem_cons_self)
      exact ⟨t, ht, hle.trans (h.head_le hg hf)⟩
    · rw [hsend] at hf
      cases hf
    · exact exists_now_of_known
        (by rw [hknown, hf]; exact List.mem_append_right _ (List.mem_singleton_self f))

theorem known_backlogged {f : Nat} (hf : f ∈ m.known) :
    m.Backlogged f ∨ m.previousFlow = some f := by
  cases hsend : m.sendingFlow with
  | some g =>
    rw [known_of_sending hsend, List.mem_singleton] at hf
    exact .inl (.inr (hf ▸ hsend))
  | none =>
    rw [known_of_idle hsend, List.mem_append, Option.mem_toList, Option.mem_toList] at hf
    exact hf.imp_left fun hhead => .inl (List.mem_of_mem_head? hhead)

/-- 一歩の後の `Level` は、ある時刻 `t` を境に、教える flow がそれより前になく、どの flow も packet 一つ分より先にないことから出る。 -/
theorem level_of_base (t : Nat) (hknown : ∀ f ∈ m.known, t ≤ (m.flow f).time)
    (hflows : ∀ f ∈ m.flowsList, (m.flow f).time ≤ t + maxAmount m.cfg) : Level m := by
  intro now hnow f hf
  obtain ⟨⟨g, hg, rfl⟩, -⟩ := now_eq_some.mp hnow
  have hle := hknown g hg
  have htime := hflows f hf
  omega

/-- 時刻が動かず、今の時刻を教える flow が新しく現れなければ、今の時刻は戻らない。 -/
theorem Level.mono (hl : Level m) (h : Inv m) (hcfg : m'.cfg = m.cfg)
    (hknown : ∀ f ∈ m'.known, (m.Backlogged f ∨ m.previousFlow = some f) ∧
      (m'.flow f).time = (m.flow f).time)
    (hflows : ∀ f ∈ m'.flowsList, (m'.flow f).time = 0 ∨ f ∈ m.flowsList ∧
      (m'.flow f).time = (m.flow f).time) :
    Level m' := by
  intro now hnow
  obtain ⟨⟨g, hg, hgt⟩, -⟩ := now_eq_some.mp hnow
  obtain ⟨hactive, htime⟩ := hknown g hg
  obtain ⟨t, ht, hle⟩ := h.exists_now hactive
  intro f hf
  rw [hcfg]
  rcases hflows f hf with hzero | ⟨hlive, heq⟩
  · omega
  · have hf' := hl t ht f hlive
    omega

/-- 一つの flow の、時刻のほかの部分を書き換える。 -/
theorem Level.setFlow (hl : Level m) {f : Nat} {y : PacketPassFairQueueFlow}
    (htime : y.time = (m.flow f).time) :
    Level (m.setFlow f y) := by
  have htimes := time_setFlow htime
  have hnow : (m.setFlow f y).now = m.now := by
    show ((m.known.map fun g => ((m.setFlow f y).flow g).time).min?) = _
    simp only [htimes]
    rfl
  intro t ht g hg
  rw [hnow] at ht
  rw [htimes]
  exact hl t ht g hg

/-! ## 一歩ごとに -/

theorem Level.freeFlow (hl : Level m) (h : Inv m) (f : Nat) (dropped : List Packet) :
    Level { m with
      sendingFlow := if m.sendingFlow = some f then none else m.sendingFlow
      previousFlow := if m.previousFlow = some f then none else m.previousFlow
      queuedTree := m.queuedTree.erase f, flowsList := m.flowsList.erase f,
      dropped := dropped } := by
  refine hl.mono h rfl (fun g hg => ⟨?_, rfl⟩) fun g hg => .inr ⟨List.mem_of_mem_erase hg, rfl⟩
  rcases known_backlogged hg with (hg | hg) | hg
  · exact .inl (.inl (List.mem_of_mem_erase hg))
  · dsimp only at hg
    split at hg
    next => cases hg
    next => exact .inl (.inr hg)
  · dsimp only at hg
    split at hg
    next => cases hg
    next => exact .inr hg

theorem Level.wait (hl : Level m) (h : Inv m) {f : Nat} {p : Packet} {t : List Nat}
    (hmem : f ∈ m.flowsList) (hperm : t.Perm (f :: m.queuedTree))
    (hinformed : m.Informed (.inputOperation f)) :
    Level { m.setFlow f (m.waitingFlow f p) with
      queuedTree := t, previousFlow := if m.previousFlow = some f then none
        else m.previousFlow } := by
  obtain ⟨m', hm'⟩ : ∃ m', m' = { m.setFlow f (m.waitingFlow f p) with
    queuedTree := t, previousFlow := if m.previousFlow = some f then none else m.previousFlow } :=
      ⟨_, rfl⟩
  have hself : (m'.flow f).time = m.entryTime f := by
    rw [hm']
    exact congrArg PacketPassFairQueueFlow.time (flow_setFlow_self ..)
  have hother : ∀ g, g ≠ f → m'.flow g = m.flow g := by
    intro g hg
    rw [hm']
    exact flow_setFlow_of_ne hg ..
  -- 新しく現れうるのは `f` だけである
  have hactive : ∀ g ∈ m'.known, g ≠ f → m.Backlogged g ∨ m.previousFlow = some g := by
    intro g hg hne
    rw [hm'] at hg
    rcases known_backlogged hg with (hg | hg) | hg
    · exact .inl (.inl ((List.mem_cons.mp (hperm.mem_iff.mp hg)).resolve_left hne))
    · exact .inl (.inr hg)
    · dsimp only at hg
      split at hg
      next => cases hg
      next => exact .inr hg
  have hcfg : m'.cfg = m.cfg := by rw [hm']; rfl
  have hlist : m'.flowsList = m.flowsList := by rw [hm']; rfl
  rw [← hm']
  have hbase : ∀ base, base ≤ m.entryTime f → m.entryTime f ≤ base + maxAmount m.cfg →
      (∀ g, m.Backlogged g ∨ m.previousFlow = some g → base ≤ (m.flow g).time) →
      (∀ g ∈ m.flowsList, (m.flow g).time ≤ base + maxAmount m.cfg) → Level m' := by
    intro base hge hle hlow hhigh
    refine level_of_base base (fun g hg => ?_) fun g hg => ?_
    · by_cases hgf : g = f
      · rw [hgf, hself]
        exact hge
      · rw [hother g hgf]
        exact hlow g (hactive g hg hgf)
    · rw [hcfg]
      by_cases hgf : g = f
      · rw [hgf, hself]
        exact hle
      · rw [hother g hgf]
        exact hhigh g (hlist ▸ hg)
  by_cases hprev : m.previousFlow = some f
  · -- 直前に送り終えた flow の時刻は変わらない
    have htime : ∀ g, (m'.flow g).time = (m.flow g).time := by
      intro g
      by_cases hg : g = f
      · rw [hg, hself, entryTime, if_pos hprev]
      · rw [hother g hg]
    refine hl.mono h hcfg (fun g hg => ⟨?_, htime g⟩) fun g hg => .inr ⟨hlist ▸ hg, htime g⟩
    by_cases hgf : g = f
    · exact .inr (hgf ▸ hprev)
    · exact hactive g hg hgf
  · have hentry : m.entryTime f = max (m.flow f).time (m.now.getD 0) := if_neg hprev
    cases hnow : m.now with
    | none =>
      have hnone : m.known = [] := by rwa [now, List.min?_eq_none_iff, List.map_eq_nil_iff] at hnow
      rw [hnow, Option.getD_none, Nat.max_eq_left (Nat.zero_le _)] at hentry
      refine hbase (m.flow f).time (le_of_eq hentry.symm) (by omega) (fun g hg => ?_)
        (hinformed hnone)
      obtain ⟨t', ht', -⟩ := h.exists_now hg
      rw [hnow] at ht'
      cases ht'
    | some now =>
      have hf := hl now hnow f hmem
      rw [hnow, Option.getD_some] at hentry
      refine hbase now (by omega) (by omega) (fun g hg => ?_) (hl now hnow)
      obtain ⟨t', ht', hle⟩ := h.exists_now hg
      obtain rfl := Option.some.inj (hnow.symm.trans ht')
      exact hle

/-- 送り終えた flow は、今の時刻から packet 一つ分まで進む。 -/
theorem Level.finish (hl : Level m) (h : Inv m) {f : Nat} {flow' : Nat → PacketPassFairQueueFlow}
    (hsend : m.sendingFlow = some f)
    (hothers : ∀ g ∈ m.flowsList, g ≠ f →
      flow' g = { m.flow g with time := (m.flow g).time - m.excess f m.amount })
    (hself : (flow' f).time = (m.flow f).time + m.amount - m.excess f m.amount)
    (finished : List Packet) (acknowledged : List (Nat × Packet)) :
    Level { m with
      flow := flow', sendingFlow := none, previousFlow := some f, scheduleJob := true,
      output := .none
      finished := finished, acknowledged := acknowledged } := by
  obtain ⟨hmem, hnot⟩ := h.sending_live f hsend
  have hamount := h.amount_le hsend
  have hexcess := (h.excess_spec hmem (h.lowest f hsend) (hamount.trans h.fits)).1
  -- 引いた後の、送り終える前の今の時刻
  refine level_of_base ((m.flow f).time - m.excess f m.amount) (fun g hg => ?_) fun g hg => ?_
  · have hg' : g ∈ m.queuedTree ∨ g = f := by
      rw [known_of_idle rfl] at hg
      rcases List.mem_append.mp hg with hg | hg
      · exact .inl (List.mem_of_mem_head? (Option.mem_toList.mp hg))
      · exact .inr (Option.some.inj (Option.mem_toList.mp hg)).symm
    show _ ≤ (flow' g).time
    rcases hg' with hg' | rfl
    · have hlow := h.lowest f hsend g hg'
      rw [hothers g (h.live g hg') (ne_of_mem_of_not_mem hg' hnot)]
      exact Nat.sub_le_sub_right hlow _
    · omega
  · have hle := hl _ (now_of_sending hsend) g hg
    show (flow' g).time ≤ _ + maxAmount m.cfg
    by_cases hgf : g = f
    · rw [hgf, hself]
      unfold maxAmount
      omega
    · rw [hothers g hg hgf]
      dsimp only
      omega

theorem Moves.level {e : FairEvent} (hmoves : Moves m e m') (h : Inv m) (hinformed : m.Informed e)
    (hl : Level m) :
    Level m' := by
  cases hmoves with
  | addFlow f running new =>
    have hkeep : ∀ g ∈ m.flowsList, (m.setFlow f blankFlow).flow g = m.flow g := fun g hg =>
      flow_setFlow_of_ne (ne_of_mem_of_not_mem hg new) ..
    refine hl.mono h rfl (fun g hg => ?_) fun g hg => ?_
    · have hg' : g ∈ m.known := hg
      refine ⟨known_backlogged hg', ?_⟩
      dsimp only
      rw [hkeep g (h.known_live hg')]
    · dsimp only at hg ⊢
      rcases List.mem_append.mp hg with hg | hg
      · exact .inr ⟨hg, by rw [hkeep g hg]⟩
      · rw [List.mem_singleton.mp hg, flow_setFlow_self]
        exact .inl rfl
  | freeFlow f mem allowed => exact hl.freeFlow h f _
  | submit f data len running mem idle fits given =>
    exact Level.setFlow (y := { m.flow f with input := .operationPending (m.newPacket f data len) })
      hl rfl
  | wait f p t running mem asked occupied perm ordered => exact hl.wait h mem perm hinformed
  | start f p running mem asked idle noJob alone noPrevious =>
    have hknown : m.known = [] := by
      rw [known_of_idle idle, alone, noPrevious]
      rfl
    have hentry : m.entryTime f = (m.flow f).time := by
      rw [entryTime, noPrevious, if_neg (Option.some_ne_none f).symm, now, hknown]
      exact Nat.max_eq_left (Nat.zero_le _)
    have htime : ∀ g, ((m.setFlow f { m.waitingFlow f p with isQueued := false }).flow g).time =
        (m.flow g).time :=
      time_setFlow hentry
    refine level_of_base (m.flow f).time (fun g hg => ?_) fun g hg => ?_
    · rw [known_of_sending rfl, List.mem_singleton] at hg
      rw [hg]
      exact (htime f).ge
    · exact (htime g).trans_le (hinformed hknown g hg)
  | inputDone f running mem done => exact hl.setFlow rfl
  | outputOperation p running asked => exact hl
  | outputDone p running begun => exact hl
  | finish f p flow' running sending done own others self =>
    exact hl.finish h sending others (by rw [self]) _ _
  | rest running job empty =>
    refine hl.mono h rfl (fun g hg => ⟨?_, rfl⟩) fun g hg => .inr ⟨hg, rfl⟩
    rcases known_backlogged hg with hg | hg
    · exact .inl hg
    · cases hg
  | next f rest running job first =>
    have htime : ∀ g, ((m.setFlow f { m.flow f with isQueued := false }).flow g).time =
      (m.flow g).time := time_setFlow rfl
    refine hl.mono h rfl (fun g hg => ⟨?_, htime g⟩) fun g hg => .inr ⟨hg, htime g⟩
    rw [known_of_sending rfl, List.mem_singleton] at hg
    rw [hg]
    exact .inl (.inl (by rw [first]; exact List.mem_cons_self))
  | requestCancel f output running sending same => exact hl
  | setBusyHandler f handler running sending => exact hl.setFlow rfl
  | prepareFree => exact hl

theorem level_step (c : FairConfig) (m : PacketPassFairQueue) (e : FairEvent)
    (r : Except Fault PacketPassFairQueue) (h : Inv m ∧ m.cfg = c ∧ Level m)
    (hinformed : m.Informed e) (hstep : m.step e = some r) :
    ∃ m', r = .ok m' ∧ Inv m' ∧ m'.cfg = c ∧ Level m' := by
  obtain ⟨m', hr, hmoves⟩ := moves_of_step h.1 hstep
  exact ⟨m', hr, hmoves.inv h.1, hmoves.cfg_eq.trans h.2.1, hmoves.level h.1 hinformed h.2.2⟩

theorem Level.backlogged_le (hl : Level m) (h : Inv m) {f g : Nat} (hf : m.Backlogged f)
    (hg : m.Backlogged g) :
    (m.flow f).time ≤ (m.flow g).time + maxAmount m.cfg := by
  obtain ⟨t, ht, hle⟩ := h.exists_now (.inl hg)
  have hlive : f ∈ m.flowsList := by
    rcases hf with hf | hf
    · exact h.live f hf
    · exact (h.sending_live f hf).1
  have hf' := hl t ht f hlive
  omega

instance : ∀ (m : PacketPassFairQueue) (e : FairEvent), Decidable (m.Informed e)
  | m, .inputOperation _ => inferInstanceAs (Decidable (m.known = [] → ∀ g ∈ m.flowsList, _))
  | _, .addFlow _ | _, .freeFlow _ | _, .submit _ _ _ | _, .inputDone _ | _, .outputOperation
  | _, .outputDone | _, .outputHandler | _, .scheduleJob | _, .requestCancel _
  | _, .setBusyHandler _ _ | _, .prepareFree => .isTrue trivial

end PacketPassFairQueue

/--
**公平さの幅。**

今の時刻が分からないとき、すなわち送っている flow も、待っている flow も、直前に送り終えた flow もないときに待ち始める flow が、ほかの
flow から packet 一つ分より遅れていなければ、待っているか送っている二つの flow の時刻の差は、いつも packet 一つ分に収まる。
-/
theorem fairQueue_bound {c : FairConfig} {m : PacketPassFairQueue}
    (hinit : PacketPassFairQueue.init c = .ok (some m)) (events : List FairEvent)
    (r : Except Fault PacketPassFairQueue)
    (hinformed : Meets (guarded PacketPassFairQueue.step) (OkThen PacketPassFairQueue.Informed)
      (.ok m) events)
    (hrun : exec (guarded PacketPassFairQueue.step) (.ok m) events = some r) :
    ∃ m', r = .ok m' ∧
      ∀ f g, m'.Backlogged f → m'.Backlogged g →
        (m'.flow f).time ≤ (m'.flow g).time + (c.mtu + c.packetWeight) := by
  obtain rfl := PacketPassFairQueue.eq_fresh_of_init hinit
  have hlevel : (PacketPassFairQueue.fresh c).Level := nofun
  obtain ⟨m', rfl, hinv, rfl, hl⟩ := exec_safe (PacketPassFairQueue.level_step c)
    ⟨(PacketPassFairQueue.inv_init hinit).1, rfl, hlevel⟩ hinformed hrun
  exact ⟨m', rfl, fun f g hf hg => hl.backlogged_le hinv hf hg⟩

/-- flow 1 が一つ送って休み、flow 2 が送っている間に、また待ち始める。 -/
def restedRun : List FairEvent :=
  [.addFlow 1, .addFlow 2, .submit 1 (some 100) 1000, .inputOperation 1, .outputOperation,
    .outputDone, .outputHandler, .inputDone 1, .scheduleJob, .submit 2 (some 200) 40,
    .inputOperation 2, .submit 1 (some 100) 1000, .inputOperation 1]

theorem fairQueue_bound_rested :
    ∃ m, exec (guarded PacketPassFairQueue.step) (.ok (PacketPassFairQueue.fresh sampleFair))
      restedRun = some (.ok m) ∧
      (m.Backlogged 1 ∧ m.Backlogged 2 ∧ (m.flow 1).time = 1001 ∧ (m.flow 2).time = 0) ∧
      (m.flow 1).time ≤ (m.flow 2).time + (sampleFair.mtu + sampleFair.packetWeight) := by
  obtain ⟨m, hrun, hm⟩ := exec_ok_exists PacketPassFairQueue.step
    (PacketPassFairQueue.fresh sampleFair) restedRun
    (fun m => (1 ∈ m.queuedTree ∨ m.sendingFlow = some 1) ∧
      (2 ∈ m.queuedTree ∨ m.sendingFlow = some 2) ∧
      (m.flow 1).time = 1001 ∧ (m.flow 2).time = 0) (by decide +kernel)
  obtain ⟨m', hm', hbound⟩ := fairQueue_bound init_sampleFair restedRun (.ok m) (by decide +kernel)
    hrun
  obtain rfl := Except.ok.inj hm'
  exact ⟨m, hrun, hm, hbound 1 2 hm.1 hm.2.1⟩

/-- flow 1 が一人で二つ送り、その度に休む。 -/
def laggingRun : List FairEvent :=
  [.addFlow 1, .addFlow 2,
    .submit 1 (some 100) 1000, .inputOperation 1, .outputOperation, .outputDone, .outputHandler,
    .inputDone 1, .scheduleJob, .submit 1 (some 100) 1000, .inputOperation 1, .outputOperation,
    .outputDone, .outputHandler, .inputDone 1, .scheduleJob, .submit 2 (some 200) 1000,
    .inputOperation 2, .submit 1 (some 100) 1000, .inputOperation 1]

/-- 休んだ後に flow 2 が先に送り始めると、flow 1 は packet 二つ分待たされる。 -/
theorem idle_flow_lags :
    ∃ m₀ m, PacketPassFairQueue.init sampleFair = .ok (some m₀) ∧
      exec (guarded PacketPassFairQueue.step) (.ok m₀) laggingRun = some (.ok m) ∧
      m.Backlogged 1 ∧ m.Backlogged 2 ∧
      ¬ (m.flow 1).time ≤ (m.flow 2).time + (sampleFair.mtu + sampleFair.packetWeight) := by
  obtain ⟨m, hrun, hm⟩ := exec_ok_exists PacketPassFairQueue.step
    (PacketPassFairQueue.fresh sampleFair) laggingRun
    (fun m => (1 ∈ m.queuedTree ∨ m.sendingFlow = some 1) ∧
      (2 ∈ m.queuedTree ∨ m.sendingFlow = some 2) ∧
      ¬ (m.flow 1).time ≤ (m.flow 2).time + (sampleFair.mtu + sampleFair.packetWeight))
        (by decide +kernel)
  exact ⟨_, m, init_sampleFair, hrun, hm⟩

end Flow
