import PsiphonVpn.Reactor.Loop

/-!
# `BReactor_Synchronize`

目印の job が一番上に来るまで、積まれた job を走らせる。走る handler は job を積み、外し、解放し、`BReactor_Synchronize` を入れ子に呼ぶ。それでも、
目印より下にあった job は、handler がはっきり触らない限り、走らず、同じ順に残る。

* `synchronize_frames` — 入れ子の呼び出しを含むどの run でも成り立つ
-/

namespace Reactor

open Infra Flow BReactor

/-- 記録の中で、handler が `j` を積んだ、外した、または解放した。 -/
def touched (log : List JobEvent) (j : Nat) : Bool :=
  log.any fun
    | .handled a => a.job == j
    | .executed _ => false

/-- 呼んだ時の job の列が `start`、それからの記録が `log` であれば、今の列 `jobs` の目印の上と下はこうなっている。 -/
structure Kept (start : JobStack Nat) (ref : Nat) (log : List JobEvent) (jobs : JobStack Nat) :
    Prop where
  /-- 走った job は、目印の上にあったか、走る前に積まれた。 -/
  only : ∀ (i j : Nat), log[i]? = some (.executed j) → j ∈ start.above ref ∨
    .handled (.set j) ∈ log.take i
  above : ∀ j ∈ jobs.above ref, j ∈ start.above ref ∨ .handled (.set j) ∈ log
  below : jobs.below ref = (start.below ref).filter fun j => !touched log j

section Kept

variable {start jobs rest : JobStack Nat} {ref j : Nat} {log : List JobEvent}

theorem kept_nil (start : JobStack Nat) (ref : Nat) : Kept start ref [] start where
  only := by simp
  above := fun j hj => Or.inl hj
  below := (List.filter_eq_self.mpr fun j _ => rfl).symm

/-- 記録が一つ伸びても、前に走った job については変わらない。 -/
theorem Kept.only_append (h : Kept start ref log jobs) {x : JobEvent}
    (hx : ∀ j, x = .executed j → j ∈ start.above ref ∨ .handled (.set j) ∈ log) (i j : Nat)
    (hi : (log ++ [x])[i]? = some (.executed j)) :
    j ∈ start.above ref ∨ .handled (.set j) ∈ (log ++ [x]).take i := by
  rcases Nat.lt_trichotomy i log.length with hlt | rfl | hgt
  · rw [List.getElem?_append_left hlt] at hi
    rw [List.take_append_of_le_length (Nat.le_of_lt hlt)]
    exact h.only i j hi
  · rw [List.getElem?_concat_length, Option.some.injEq] at hi
    rw [List.take_left]
    exact hx j hi
  · have hlen : (log ++ [x]).length ≤ i := by
      rw [List.length_append, List.length_singleton]
      exact hgt
    rw [List.getElem?_eq_none hlen] at hi
    cases hi

theorem touched_append (log : List JobEvent) (x : JobEvent) (j : Nat) :
    touched (log ++ [x]) j = (touched log j || touched [x] j) := List.any_append ..

/-- 目印でない job への動作。 -/
theorem Kept.handled (h : Kept start ref log jobs) {a : JobAction} (hmem : ref ∈ jobs)
    (ha : a.job ≠ ref) :
    Kept start ref (log ++ [.handled a]) (a.perform jobs) where
  only := h.only_append (by intro j hj; cases hj)
  above := by
    intro j hj
    cases a with
    | set i =>
      change j ∈ (jobs.set i).above ref at hj
      rw [JobStack.above_set (show i ≠ ref from ha)] at hj
      rcases List.mem_cons.mp hj with rfl | hj
      · exact Or.inr (List.mem_append_right _ (List.mem_singleton_self _))
      · exact (h.above j (List.mem_filter.mp hj).1).imp_right (List.mem_append_left _)
    | unset i | free i =>
      change j ∈ (jobs.unset i).above ref at hj
      rw [JobStack.above_unset (show i ≠ ref from ha)] at hj
      exact (h.above j (List.mem_filter.mp hj).1).imp_right (List.mem_append_left _)
  below := by
    have hperform : (a.perform jobs).below ref = (jobs.below ref).filter (· ≠ a.job) := by
      cases a with
      | set i => exact JobStack.below_set hmem ha
      | unset i | free i => exact JobStack.below_unset hmem ha
    rw [hperform, h.below, List.filter_filter]
    refine List.filter_congr fun j _ => ?_
    rw [touched_append, Bool.not_or, Bool.and_comm]
    congr 1
    by_cases hj : j = a.job
    · subst hj
      simp [touched]
    · simp [touched, hj, Ne.symm hj]

/-- 一番上の、目印でない job を走らせる。 -/
theorem Kept.executed (h : Kept start ref log jobs) (hpop : jobs.pop = some (j, rest))
    (hj : j ≠ ref) :
    Kept start ref (log ++ [.executed j]) rest where
  only := by
    refine h.only_append ?_
    rintro i ⟨⟩
    refine h.above j ?_
    rw [JobStack.above_of_pop hpop hj]
    exact List.mem_cons_self
  above := by
    intro i hi
    refine (h.above i ?_).imp_right (List.mem_append_left _)
    rw [JobStack.above_of_pop hpop hj]
    exact List.mem_cons_of_mem _ hi
  below := by
    rw [← JobStack.below_of_pop hpop hj, h.below]
    refine List.filter_congr fun i _ => ?_
    rw [touched_append, show touched [.executed j] i = false from rfl, Bool.or_false]

end Kept

/-! ## 一回の呼び出し -/

/-- 呼んだ後、まだ戻っていない。`k` は呼んだ時に実行していた所である。 -/
def InCall (k : List Frame) (ref : Nat) (r : BReactor) : Prop :=
  (.synchronize ref :: k) <:+ r.control

instance (k : List Frame) (ref : Nat) (r : BReactor) : Decidable (InCall k ref r) :=
  inferInstanceAs (Decidable (_ <:+ _))

/-- 戻る値。目印が一番上にあり、止まろうとしていない。 -/
def reached (ref : Nat) (r : BReactor) : Bool :=
  !r.exiting && decide (r.pendingJobs.jobs.head? = some ref)

/-- 呼んでから、戻るまでの state。 -/
structure During (start : BReactor) (ref : Nat) (r : BReactor) : Prop where
  inv : r.Inv
  kept : ∃ log, r.jobLog = start.jobLog ++ log ∧ Kept start.pendingJobs ref log r.pendingJobs
  place : InCall start.control ref r ∨ r.control = start.control ∧ r.returned = some (reached ref r)

variable {c : List Frame}

section InCall

variable {start r : BReactor} {ref : Nat} {k : List Frame}

theorem mem_markers_of_suffix (h : (.synchronize ref :: k) <:+ c) : ref ∈ markers c := by
  induction c with
  | nil => exact absurd (List.suffix_nil.mp h) (List.cons_ne_nil _ _)
  | cons f c ih =>
    rcases List.suffix_cons_iff.mp h with heq | htail
    · obtain ⟨rfl, rfl⟩ := List.cons.inj heq
      exact List.mem_cons_self
    · cases f with
      | synchronize m => exact List.mem_cons_of_mem _ (ih htail)
      | user => exact ih htail
      | exec => exact ih htail
      | waiting now timeoutAbs => exact ih htail

theorem InCall.mem_markers (h : InCall k ref r) : ref ∈ markers r.control := mem_markers_of_suffix h

theorem InCall.not_exec (h : InCall k ref r) (hinv : r.Inv) : r.control ≠ .exec :: c := by
  intro hc
  have hnested := hinv.nested
  have hmem := h.mem_markers
  rw [hc] at hnested hmem
  cases hnested
  exact absurd hmem List.not_mem_nil

theorem InCall.not_waiting (h : InCall k ref r) (hinv : r.Inv) {now : Int}
    {timeoutAbs : Option Int} :
    r.control ≠ .waiting now timeoutAbs :: c := by
  intro hc
  have hnested := hinv.nested
  have hmem := h.mem_markers
  rw [hc] at hnested hmem
  cases hnested
  exact absurd hmem List.not_mem_nil

/-- 内側のものが一つ終わる。それが目印の呼び出しでなければ、まだ戻っていない。 -/
theorem InCall.tail (h : InCall k ref r) {f : Frame} (hc : r.control = f :: c) :
    f = .synchronize ref ∧ c = k ∨ (.synchronize ref :: k) <:+ c := by
  rw [InCall, hc] at h
  rcases List.suffix_cons_iff.mp h with heq | htail
  · obtain ⟨rfl, rfl⟩ := List.cons.inj heq
    exact Or.inl ⟨rfl, rfl⟩
  · exact Or.inr htail

theorem During.quiet (h : During start ref r) {r' : BReactor} (hinv : r'.Inv)
    (hjobs : r'.pendingJobs = r.pendingJobs)
    (hlog : r'.jobLog = r.jobLog)
    (hplace : InCall start.control ref r' ∨ r'.control = start.control ∧
      r'.returned = some (reached ref r')) :
    During start ref r' where
  inv := hinv
  kept := by
    rw [hjobs, hlog]
    exact h.kept
  place := hplace

theorem During.perform (h : During start ref r) (hcall : InCall start.control ref r)
    (hc : r.control = .user :: c) {a : UserAction} {res : Except Fault BReactor}
    (hstep : r.perform a = some res) :
    ∃ r', res = .ok r' ∧ During start ref r' := by
  obtain ⟨r', rfl, hinv⟩ := h.inv.perform hc hstep
  refine ⟨r', rfl, ?_⟩
  cases a with
  | job a =>
    obtain ⟨ha, ⟨⟩⟩ := of_ite_eq_some hstep
    have hne : a.job ≠ ref := fun heq => ha (heq ▸ hcall.mem_markers)
    obtain ⟨log, hlog, hkept⟩ := h.kept
    refine ⟨hinv, ⟨log ++ [.handled a], ?_, hkept.handled (h.inv.marked ref hcall.mem_markers) hne⟩,
      Or.inl hcall⟩
    rw [hlog, List.append_assoc]
  | fd a =>
    obtain ⟨x, hx, hr⟩ := Option.map_eq_some_iff.mp hstep
    cases x with
    | error e => cases hr
    | ok p =>
      cases hr
      exact h.quiet hinv rfl rfl (Or.inl hcall)
  | timer a =>
    obtain ⟨x, hx, hr⟩ := Option.map_eq_some_iff.mp hstep
    cases x with
    | error e => cases hr
    | ok ts =>
      cases hr
      exact h.quiet hinv rfl rfl (Or.inl hcall)
  | quit code =>
    cases hstep
    exact h.quiet hinv rfl rfl (Or.inl hcall)
  | synchronize m =>
    obtain ⟨-, ⟨⟩⟩ := of_ite_eq_some hstep
    exact h.quiet hinv rfl rfl (Or.inl (List.IsSuffix.trans hcall (List.suffix_cons _ _)))
  | exec =>
    -- main は `BReactor_Synchronize` の中ではない
    obtain ⟨hmain, -⟩ := of_ite_eq_some hstep
    have hmem := hcall.mem_markers
    rw [hmain] at hmem
    exact absurd hmem List.not_mem_nil
  | ret =>
    obtain ⟨-, ⟨⟩⟩ := of_ite_eq_some hstep
    refine h.quiet hinv rfl rfl (Or.inl ?_)
    rw [hc, List.tail_cons]
    exact (hcall.tail hc).resolve_left fun hx => by cases hx.1

theorem During.iterate (h : During start ref r) (hcall : InCall start.control ref r) {m : Nat}
    (hc : r.control = .synchronize m :: c) (hspare : r.SparesMarkers m c) :
    ∃ r', r.synchronizeIteration m = .ok r' ∧ During start ref r' := by
  obtain ⟨r', hstep, hinv⟩ := h.inv.synchronizeIteration hc
  replace hinv := hinv hspare
  refine ⟨r', hstep, ?_⟩
  -- 内側の呼び出しが戻る。目印のものであれば、戻る値は `reached` である
  have hreturn : ∀ value, (m = ref → value = reached ref r) →
      InCall start.control ref { r with control := r.control.tail, returned := some value } ∨
      r.control.tail = start.control ∧ some value = some (reached ref r) := by
    intro value hvalue
    show _ <:+ r.control.tail ∨ _
    rw [hc, List.tail_cons]
    rcases hcall.tail hc with ⟨heq, hk⟩ | htail
    · exact Or.inr ⟨hk, congrArg some (hvalue (Frame.synchronize.inj heq))⟩
    · exact Or.inl htail
  unfold BReactor.synchronizeIteration at hstep
  split at hstep
  next hexit =>
    cases hstep
    refine h.quiet hinv rfl rfl (hreturn false ?_)
    intro _
    simp [reached, hexit]
  next hexit =>
    split at hstep
    next => cases hstep
    next j rest hpop =>
      split at hstep
      next hj =>
        cases hstep
        refine h.quiet hinv rfl rfl (hreturn true ?_)
        rintro rfl
        simp [reached, hexit, JobStack.jobs_of_pop hpop, hj]
      next hj =>
        cases hstep
        have hmem := hcall.mem_markers
        rw [hc] at hmem
        have hne : j ≠ ref := fun heq => hspare.not_marker hexit hpop hj (heq ▸ hmem)
        obtain ⟨log, hlog, hkept⟩ := h.kept
        refine ⟨hinv, ⟨log ++ [.executed j], ?_, hkept.executed hpop hne⟩,
          Or.inl (List.IsSuffix.trans hcall (List.suffix_cons _ _))⟩
        show r.jobLog ++ [.executed j] = _
        rw [hlog, List.append_assoc]

theorem during_step (r : BReactor) (e : ReactorEvent) (res : Except Fault BReactor)
    (h : During start ref r) (hcall : InCall start.control ref r) (hstep : r.step e = some res) :
    ∃ r', res = .ok r' ∧ During start ref r' := by
  cases e with
  | tick d =>
    obtain ⟨r', hr', hinv⟩ := inv_step r _ _ h.inv hstep
    obtain ⟨-, rfl⟩ := of_ite_eq_some hstep
    cases hr'
    exact ⟨_, rfl, h.quiet hinv rfl rfl (Or.inl hcall)⟩
  | user a =>
    obtain ⟨hhead, hr⟩ := Option.ite_none_right_eq_some.mp hstep
    obtain ⟨c, hc⟩ := List.head?_eq_some_iff.mp hhead
    exact h.perform hcall hc hr
  | iterate =>
    simp only [step] at hstep
    split at hstep
    next c hc => exact absurd hc (hcall.not_exec h.inv)
    next m c hc =>
      obtain ⟨hspare, hr⟩ := of_ite_eq_some hstep
      rw [← hr]
      exact h.iterate hcall hc hspare
    next => cases hstep
  | epollWait outcome =>
    simp only [step] at hstep
    split at hstep
    next now timeoutAbs c hc => exact absurd hc (hcall.not_waiting h.inv)
    next => cases hstep

end InCall

/-! ## 枠 -/

/-- `start` で `BReactor_Synchronize` を呼んでから `r` までの間に起きたこと。`log` は呼んでからの記録。 -/
structure Framed (start : BReactor) (ref : Nat) (log : List JobEvent) (r : BReactor) : Prop where
  /-- 走るのは、目印の上にあった job か、呼んだ後で積まれた job だけである。 -/
  only : ∀ (i j : Nat), log[i]? = some (.executed j) →
    j ∈ start.pendingJobs.above ref ∨ .handled (.set j) ∈ log.take i
  /-- 目印の下には、触られなかった job が同じ順に残る。 -/
  below : r.pendingJobs.below ref = (start.pendingJobs.below ref).filter fun j => !touched log j
  /-- それらは積まれたままで、走っていない。 -/
  untouched : ∀ j ∈ start.pendingJobs.below ref, touched log j = false → j ∈ r.pendingJobs ∧
    .executed j ∉ log
  /-- loop は、目印が一番上にあり、止まろうとしていない時に 1 を返す。 -/
  loop : r.control = .synchronize ref :: start.control → ∃ r', r.synchronizeIteration ref = .ok r' ∧
    (r'.control = start.control ∧ r'.returned = some true ↔ reached ref r = true)
  /-- 戻っていれば、戻った値は、その時に目印が一番上にあり、止まろうとしていなかったことを言う。 -/
  returned : r.control = start.control → r.returned = some (reached ref r)

section Framed

variable {start r : BReactor} {ref : Nat} {log : List JobEvent}

theorem touched_of_set {j : Nat} (h : .handled (.set j) ∈ log) : touched log j = true :=
  List.any_eq_true.mpr ⟨_, h, beq_self_eq_true j⟩

theorem loop_of_inv (hinv : r.Inv) (hc : r.control = .synchronize ref :: start.control) :
    ∃ r', r.synchronizeIteration ref = .ok r' ∧
      (r'.control = start.control ∧ r'.returned = some true ↔ reached ref r = true) := by
  obtain ⟨r', hr', -⟩ := hinv.synchronizeIteration hc
  refine ⟨r', hr', ?_⟩
  have htail : r.control.tail = start.control := by rw [hc, List.tail_cons]
  unfold synchronizeIteration at hr'
  split at hr'
  next hexit =>
    cases hr'
    simp [reached, hexit]
  next hexit =>
    split at hr'
    next => cases hr'
    next j rest hpop =>
      split at hr'
      next hj =>
        cases hr'
        simp [reached, hexit, JobStack.jobs_of_pop hpop, hj, htail]
      next hj =>
        cases hr'
        -- job を走らせただけで、まだ戻っていない
        have hlen : (.user :: r.control) ≠ start.control := by
          rw [hc]
          intro heq
          have := congrArg List.length heq
          rw [List.length_cons, List.length_cons] at this
          omega
        refine iff_of_false (fun hx => hlen hx.1) ?_
        simp [reached, JobStack.jobs_of_pop hpop, hj]

theorem During.framed (h : During start ref r) (hmem : ref ∈ start.pendingJobs) :
    ∃ log, r.jobLog = start.jobLog ++ log ∧ Framed start ref log r := by
  obtain ⟨log, hlog, hkept⟩ := h.kept
  refine ⟨log, hlog, hkept.only, hkept.below, ?_, loop_of_inv h.inv, ?_⟩
  · intro j hj huntouched
    constructor
    · refine JobStack.mem_of_mem_below (j := ref) ?_
      rw [hkept.below]
      exact List.mem_filter.mpr ⟨hj, by rw [huntouched]; rfl⟩
    · intro hexec
      obtain ⟨i, hi⟩ := List.mem_iff_getElem?.mp hexec
      rcases hkept.only i j hi with habove | hset
      · exact JobStack.not_mem_above hmem hj habove
      · rw [touched_of_set (List.mem_of_mem_take hset)] at huntouched
        cases huntouched
  · intro hc
    rcases h.place with hcall | ⟨-, hreturned⟩
    · -- 戻る前の `control` は、呼んだ時のものより長い
      have := hcall.length_le
      rw [hc, List.length_cons] at this
      omega
    · exact hreturned

end Framed

/--
`BReactor_Synchronize` は枠を守る。

どの state から `ref` を目印にして呼んでも、戻るまでのどの run でも、走るのは目印の上にあった job か後で積まれた job だけで、目印の下にあって触られなかった
job は、積まれたまま、走らずに、同じ順に残る。1 が返るのは、目印が一番上にあり、止まろうとしていない時である。
-/
theorem synchronize_frames (bfd : Nat → BFileDescriptor) (before during : List ReactorEvent)
    (start called : BReactor) (ref : Nat) (res : Except Fault BReactor)
    (hbefore : exec (guarded step) (.ok (init bfd)) before = some (.ok start))
    (hcall : start.step (.user (.synchronize ref)) = some (.ok called))
    (hduring : Meets (guarded step) (OkThen fun r _ => InCall start.control ref r) (.ok called)
      during)
    (hrun : exec (guarded step) (.ok called) during = some res) :
    ∃ r log, res = .ok r ∧ r.jobLog = start.jobLog ++ log ∧ Framed start ref log r := by
  obtain ⟨start', heq, hinv⟩ := inv_of_exec hbefore
  cases heq
  obtain ⟨called', heq, hinv'⟩ := inv_step start _ _ hinv hcall
  cases heq
  obtain ⟨-, hperform⟩ := Option.ite_none_right_eq_some.mp hcall
  obtain ⟨hmem, ⟨⟩⟩ := of_ite_eq_some hperform
  have hfirst : During start ref { start with control := .synchronize ref :: start.control } :=
    ⟨hinv', ⟨[], (List.append_nil _).symm, kept_nil _ _⟩, Or.inl List.suffix_rfl⟩
  obtain ⟨r, hr, hduring⟩ := exec_safe during_step hfirst hduring hrun
  obtain ⟨log, hlog, hframed⟩ := hduring.framed hmem
  exact ⟨r, log, hr, hlog, hframed⟩

/-- 下から 4、3（目印）、2、1 の順に積む。 -/
def stackedJobs : List ReactorEvent := [4, 3, 2, 1].map fun j => .user (.job (.set j))

/-- 積み終えた state。 -/
def stackedReactor : BReactor :=
  { init fun _ => ⟨0, false, fun _ => false, none⟩ with
    pendingJobs := ⟨[1, 2, 3, 4], by decide⟩
    jobLog := [4, 3, 2, 1].map fun j => .handled (.set j) }

/-- job 1 は 6 と 5 を積み、6 を目印に入れ子に呼ぶ。その中で 5 が走る。戻った後、6 と 2 が走る。 -/
def nestedSynchronize : List ReactorEvent :=
  [.iterate, .user (.job (.set 6)), .user (.job (.set 5)), .user (.synchronize 6), .iterate,
    .user .ret, .iterate, .user .ret, .iterate, .user .ret, .iterate, .user .ret, .iterate]

theorem synchronize_frames_nested :
    ∃ r log, exec (guarded step) (.ok { stackedReactor with control := [.synchronize 3, .user] })
        nestedSynchronize =
        some (.ok r) ∧
      (r.control = [.user] ∧ r.returned = some true ∧ r.pendingJobs.jobs = [3, 4]) ∧
      Framed stackedReactor 3 log r := by
  obtain ⟨r, hr, hend⟩ := exec_ok_exists step
    { stackedReactor with control := [.synchronize 3, .user] }
    nestedSynchronize (fun r => r.control = [.user] ∧ r.returned = some true ∧
      r.pendingJobs.jobs = [3, 4])
    (by decide +kernel)
  obtain ⟨r', log, heq, -, hframed⟩ :=
    synchronize_frames (fun _ => ⟨0, false, fun _ => false, none⟩) stackedJobs
    nestedSynchronize stackedReactor { stackedReactor with control := [.synchronize 3, .user] } 3 _
      rfl rfl
    (by decide +kernel) hr
  cases heq
  exact ⟨r, log, hr, hend, hframed⟩

end Reactor
