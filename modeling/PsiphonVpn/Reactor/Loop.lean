import PsiphonVpn.Infra.JobStack
import PsiphonVpn.Reactor.Descriptors
import PsiphonVpn.Reactor.Timers

/-!
# reactor の loop

`system/BReactor_badvpn.c` の `BReactor_Exec`・`wait_for_events`・`BReactor_Synchronize`。loop の一周は、
積まれた job、時刻の来た timer、`epoll_wait` の結果の順に一つを選んで handler を呼び、何も無ければ待つ。

## model

* **handler** は何をするか分からないので、handler の動作を一つずつの事象にする（`UserAction`）。handler の中から `BReactor_Synchronize`
  を呼ぶと、その中で別の job の handler が走る。どこを実行しているかは `control` が持つ
* **時計** は戻らない。`epoll_wait` は、渡した時間が過ぎる前に時間切れで戻ることはない
* **job** は番地で呼ぶ。`BPendingGroup` の列は `Infra.JobStack` で表す
* **`BReactor_Synchronize` の目印** は、呼んでいる間、handler が積み直したり外したりしない。入れ子の呼び出しが、外側の目印を走らせることもない

`waits` は `epoll_wait` を呼んだ記録、`jobLog` は job についての記録である。
-/

namespace Reactor

open Infra Flow

/-- 実行している所。先頭が一番内側である。 -/
inductive Frame where
  /-- handler か、`BReactor_Exec` を呼ぶ main。 -/
  | user
  /-- `BReactor_Exec` の loop -/
  | exec
  /-- `wait_for_events` の中の `epoll_wait`。時刻 `now` を読んで呼んだ。`timeoutAbs` は木の先頭の時刻。 -/
  | waiting (now : Int) (timeoutAbs : Option Int)
  /-- `BReactor_Synchronize` の loop -/
  | synchronize (ref : Nat)
  deriving DecidableEq, Repr

/-- `epoll_wait` を呼んだ記録。`absTimes` は木にある timer の時刻。 -/
structure WaitCall where
  timeout : Int
  clock : Int
  absTimes : List Int
  deriving DecidableEq, Repr

inductive JobAction where
  /-- `BSmallPending_Set` -/
  | set (j : Nat)
  /-- `BSmallPending_Unset` -/
  | unset (j : Nat)
  /-- `BSmallPending_Free` -/
  | free (j : Nat)
  deriving DecidableEq, Repr

/-- job についての記録。 -/
inductive JobEvent where
  | handled (a : JobAction)
  | executed (j : Nat)
  deriving DecidableEq, Repr

inductive UserAction where
  | job (a : JobAction)
  | fd (a : FdAction)
  | timer (a : TimerAction)
  /-- `BReactor_Quit` -/
  | quit (code : Int)
  /-- `BReactor_Synchronize` を呼ぶ。 -/
  | synchronize (ref : Nat)
  /-- `BReactor_Exec` を呼ぶ。 -/
  | exec
  /-- handler から戻る。 -/
  | ret

/-- `epoll_wait` の戻り方。 -/
inductive WaitOutcome where
  | descriptors (returned : List (Watched × FdEvents))
  | timedOut
  /-- `EINTR` -/
  | interrupted

inductive ReactorEvent where
  | tick (d : Nat)
  | user (a : UserAction)
  /-- 一番内側の loop の一周 -/
  | iterate
  | epollWait (outcome : WaitOutcome)

structure BReactor where
  exiting : Bool
  exitCode : Int
  pendingJobs : JobStack Nat
  timers : Timers
  descriptors : Descriptors
  control : List Frame
  /-- 最後に戻った `BReactor_Synchronize` の値 -/
  returned : Option Bool
  clock : Int
  -- 記録
  waits : List WaitCall
  jobLog : List JobEvent

/-- `INT_MAX` -/
def intMax : Int := 2 ^ 31 - 1

/-- `btime_t` の差。 -/
def btimeSub (t₁ t₂ : Int) : Int := (t₁ - t₂ + 2 ^ 63) % 2 ^ 64 - 2 ^ 63

/-- `timeout_rel_trunc` -/
def truncTimeout (rel : Int) : Int := if rel > intMax then intMax else rel

/-- `epoll_wait` に渡す時間。 -/
def waitTimeout (now : Int) : Option Int → Int
  | none => -1
  | some abs => truncTimeout (btimeSub abs now)

def JobAction.job : JobAction → Nat
  | .set j => j
  | .unset j => j
  | .free j => j

def JobAction.perform (jobs : JobStack Nat) : JobAction → JobStack Nat
  | .set j => jobs.set j
  | .unset j => jobs.unset j
  | .free j => jobs.unset j

/-- 呼んでいる `BReactor_Synchronize` の目印。内側のものから並ぶ。 -/
def markers : List Frame → List Nat
  | [] => []
  | .synchronize ref :: k => ref :: markers k
  | .user :: k => markers k
  | .exec :: k => markers k
  | .waiting _ _ :: k => markers k

namespace BReactor

/-- `BReactor_Init`。まだ main しか動いていない。 -/
def init (bfd : Nat → BFileDescriptor) : BReactor where
  exiting := false
  exitCode := 0
  pendingJobs := ⟨[], List.nodup_nil⟩
  timers := Timers.init
  descriptors := Descriptors.init bfd
  control := [.user]
  returned := none
  clock := 0
  waits := []
  jobLog := []

/-- `BPendingGroup_ExecuteJob` -/
def executeJob (r : BReactor) (j : Nat) (rest : JobStack Nat) : BReactor :=
  { r with pendingJobs := rest, control := .user :: r.control, jobLog := r.jobLog ++ [.executed j] }

/-- `epoll_wait` を呼ぶ。 -/
def enterWait (r : BReactor) (timeoutAbs : Option Int) : BReactor :=
  { r with
    control := .waiting r.clock timeoutAbs :: r.control
    waits := r.waits ++
      [⟨waitTimeout r.clock timeoutAbs, r.clock, r.timers.tree.map r.timers.absTime⟩] }

/-- `wait_for_events` が終わる。 -/
def endWait (r : BReactor) : BReactor := { r with control := r.control.tail }

/-- `wait_for_events` の、`epoll_wait` を初めて呼ぶまで。 -/
def waitForEvents (r : BReactor) : Except Fault BReactor := do
  ensure (r.pendingJobs.jobs = [])
  ensure (r.timers.expired = [])
  ensure (r.descriptors.pos = r.descriptors.results.length)
  let cleared : BReactor := { r with descriptors := r.descriptors.clear }
  match r.timers.tree with
  | [] => pure (cleared.enterWait none)
  | first :: _ => do
    ensure ((r.timers.timer first).state = .running)
    let (timers, moved) ← r.timers.moveExpiredTimers r.clock
    if moved = true then
      pure { cleared with timers := timers }
    else
      pure ({ cleared with timers := timers }.enterWait (some (timers.absTime first)))

/-- 時間が来た。`move_first_timers` を呼んで終わる。 -/
def expireFirst (r : BReactor) : Except Fault BReactor := do
  let timers ← r.timers.moveFirstTimers
  pure { r.endWait with timers := timers }

/-- `wait_for_events` の `try_again` -/
def tryAgain (r : BReactor) : Option Int → Except Fault BReactor
  | none => pure (r.endWait.enterWait none)
  | some abs => if r.clock ≥ abs then r.expireFirst else pure (r.endWait.enterWait (some abs))

/-- `epoll_wait` が戻った。 -/
def epollReturns (r : BReactor) (now : Int) (timeoutAbs : Option Int) : WaitOutcome →
    Option (Except Fault BReactor)
  | .descriptors returned =>
    if r.descriptors.Returnable returned then
      some (do
        let descriptors ← r.descriptors.deliver returned
        pure { r.endWait with descriptors := descriptors })
    else none
  | .timedOut =>
    match timeoutAbs with
    -- 時間を渡していなければ、時間切れにならない
    | none => none
    | some abs =>
      let rel := btimeSub abs now
      if now + truncTimeout rel ≤ r.clock then
        some (if truncTimeout rel = rel then r.expireFirst else r.tryAgain (some abs))
      else none
  | .interrupted => some (r.tryAgain timeoutAbs)

/-- `BReactor_Exec` の loop の一周 -/
def execIteration (r : BReactor) : Except Fault BReactor :=
  if r.exiting = true then
    pure { r with control := r.control.tail }
  else
    match r.pendingJobs.pop with
    | some (j, rest) => pure (r.executeJob j rest)
    | none =>
      match r.timers.expired with
      | t :: _ => do
        let timers ← r.timers.fire r.clock t
        pure { r with timers := timers, control := .user :: r.control }
      | [] =>
        match r.descriptors.results[r.descriptors.pos]? with
        | some event => do
          let (descriptors, called) ← r.descriptors.dispatch event
          pure { r with descriptors := descriptors, control := if called = true then
            .user :: r.control else r.control }
        | none => r.waitForEvents

/-- `BReactor_Synchronize` の loop の一周 -/
def synchronizeIteration (r : BReactor) (ref : Nat) : Except Fault BReactor :=
  if r.exiting = true then
    pure { r with control := r.control.tail, returned := some false }
  else
    match r.pendingJobs.pop with
    | none => .error (.reject .failed)
    | some (j, rest) =>
      if j = ref then
        pure { r with control := r.control.tail, returned := some true }
      else
        pure (r.executeJob j rest)

/-- 次に走らせる job は、外側の `BReactor_Synchronize` の目印ではない。`k` は `ref` を目印にした呼び出しの外側である。 -/
def SparesMarkers (r : BReactor) (ref : Nat) (k : List Frame) : Prop :=
  r.exiting = false → ∀ j ∈ r.pendingJobs.jobs.head?, j ≠ ref → j ∉ markers k

instance (r : BReactor) (ref : Nat) (k : List Frame) : Decidable (r.SparesMarkers ref k) :=
  inferInstanceAs (Decidable (_ → _))

/-- handler の動作。 -/
def perform (r : BReactor) : UserAction → Option (Except Fault BReactor)
  | .job a =>
    if a.job ∉ markers r.control then
      some
        (.ok { r with pendingJobs := a.perform r.pendingJobs, jobLog := r.jobLog ++ [.handled a] })
    else none
  | .fd a =>
    (r.descriptors.perform a).map fun x => x.map fun descriptors =>
      { r with descriptors := descriptors }
  | .timer a =>
    (r.timers.perform r.clock a).map fun x => x.map fun timers => { r with timers := timers }
  | .quit code => some (.ok { r with exiting := true, exitCode := code })
  | .synchronize ref =>
    if ref ∈ r.pendingJobs.jobs then some (.ok { r with control := .synchronize ref :: r.control })
      else none
  | .exec =>
    if r.control = [.user] then some (.ok { r with control := .exec :: r.control }) else none
  | .ret => if r.control.tail ≠ [] then some (.ok { r with control := r.control.tail }) else none

def step (r : BReactor) : ReactorEvent → Option (Except Fault BReactor)
  | .tick d => if r.clock + d ≤ int64Max then some (.ok { r with clock := r.clock + d }) else none
  | .user a => if r.control.head? = some .user then r.perform a else none
  | .iterate =>
    match r.control with
    | .exec :: _ => some r.execIteration
    | .synchronize ref :: k =>
      if r.SparesMarkers ref k then some (r.synchronizeIteration ref) else none
    | _ => none
  | .epollWait outcome =>
    match r.control with
    | .waiting now timeoutAbs :: _ => r.epollReturns now timeoutAbs outcome
    | _ => none

/-! ## 不変量 -/

/-- 実行している所の重なり方。handler は、`BReactor_Exec` か `BReactor_Synchronize` から呼ばれる。 -/
inductive Nested : List Frame → Prop where
  | main : Nested [.user]
  | loop : Nested [.exec, .user]
  | waiting (now : Int) (timeoutAbs : Option Int) : Nested [.waiting now timeoutAbs, .exec, .user]
  | dispatched : Nested [.user, .exec, .user]
  | synchronizing {k : List Frame} (ref : Nat) : Nested (.user :: k) →
    Nested (.synchronize ref :: .user :: k)
  | handling {k : List Frame} {ref : Nat} : Nested (.synchronize ref :: k) →
    Nested (.user :: .synchronize ref :: k)

/-- 目印は積まれている。 -/
def Marked (jobs : JobStack Nat) (ms : List Nat) : Prop := ∀ m ∈ ms, m ∈ jobs

/-- `epoll_wait` の間。配る結果も、時刻の来た timer も無く、木の先頭は待っている時刻である。 -/
structure Waiting (timers : Timers) (descriptors : Descriptors) (clock now : Int)
    (timeoutAbs : Option Int) : Prop where
  expired : timers.expired = []
  results : descriptors.results = []
  pos : descriptors.pos = 0
  now_le : now ≤ clock
  timeout : match timeoutAbs with
    | none => timers.tree = []
    | some abs =>
      ∃ first rest, timers.tree = first :: rest ∧ timers.absTime first = abs ∧ 0 ≤ now ∧ now < abs

/-- 木が空でなければ、渡す時間は負でなく、どの timer の時刻も越えない。 -/
def WaitBounded (w : WaitCall) : Prop :=
  w.absTimes ≠ [] → 0 ≤ w.timeout ∧ ∀ abs ∈ w.absTimes, w.timeout ≤ abs - w.clock

structure Inv (r : BReactor) : Prop where
  clock_nonneg : 0 ≤ r.clock
  clock_le : r.clock ≤ int64Max
  nested : Nested r.control
  marked : Marked r.pendingJobs (markers r.control)
  timers : r.timers.Inv r.clock
  descriptors : r.descriptors.Inv
  waiting : ∀ now timeoutAbs k, r.control = .waiting now timeoutAbs :: k →
    Waiting r.timers r.descriptors r.clock now timeoutAbs
  waits : ∀ w ∈ r.waits, WaitBounded w

variable {r : BReactor}

theorem inv_init (bfd : Nat → BFileDescriptor) : Inv (init bfd) where
  clock_nonneg := Int.le_refl 0
  clock_le := show (0 : Int) ≤ int64Max by decide
  nested := .main
  marked := fun m hm => absurd hm List.not_mem_nil
  timers := Timers.inv_init 0
  descriptors := Descriptors.inv_init bfd
  waiting := by
    intro now timeoutAbs k h
    cases h
  waits := by simp [init]

theorem Inv.isBTime_clock (h : Inv r) : IsBTime r.clock :=
  ⟨Int.le_trans (by decide) h.clock_nonneg, h.clock_le⟩

/-! ### 目印 -/

section Markers

variable {jobs rest : JobStack Nat} {ms : List Nat} {j ref : Nat}

theorem Marked.of_cons (h : Marked jobs (ref :: ms)) : Marked jobs ms :=
  fun m hm => h m (List.mem_cons_of_mem _ hm)

theorem Marked.perform (h : Marked jobs ms) {a : JobAction} (ha : a.job ∉ ms) :
    Marked (a.perform jobs) ms := by
  intro m hm
  have hne : m ≠ a.job := fun heq => ha (heq ▸ hm)
  cases a with
  | set j => exact JobStack.mem_set.mpr (Or.inr (h m hm))
  | unset j | free j => exact JobStack.mem_unset.mpr ⟨hne, h m hm⟩

theorem Marked.pop (h : Marked jobs ms) (hpop : jobs.pop = some (j, rest)) (hj : j ∉ ms) :
    Marked rest ms := by
  intro m hm
  have hne : m ≠ j := fun heq => hj (heq ▸ hm)
  exact ((JobStack.mem_of_pop hpop m).mp (h m hm)).resolve_left hne

end Markers

/-! ### handler の動作 -/

variable {k : List Frame} {res : Except Fault BReactor}

theorem Nested.head_user (h : Nested (.user :: k)) (hk : k ≠ []) :
    Nested k ∧ ∀ now timeoutAbs k', k ≠ .waiting now timeoutAbs :: k' := by
  cases h with
  | main => exact absurd rfl hk
  | dispatched => exact ⟨.loop, by simp⟩
  | handling h => exact ⟨h, by simp⟩

theorem Inv.perform (h : Inv r) (hk : r.control = .user :: k) {a : UserAction}
    (hstep : r.perform a = some res) : ∃ r', res = .ok r' ∧ Inv r' := by
  -- 内側で動いているのは handler なので、`epoll_wait` の間ではない
  have hwait : ∀ now timeoutAbs k', r.control ≠ .waiting now timeoutAbs :: k' := by
    intro now timeoutAbs k' heq
    rw [hk] at heq
    cases heq
  cases a with
  | job a =>
    obtain ⟨ha, hr⟩ := of_ite_eq_some hstep
    refine ⟨_, hr.symm, ?_⟩
    exact { h with
      marked := h.marked.perform ha
      waiting := fun now timeoutAbs k' heq => absurd heq (hwait now timeoutAbs k') }
  | fd a =>
    obtain ⟨x, hx, rfl⟩ := Option.map_eq_some_iff.mp hstep
    obtain ⟨p, rfl, hp⟩ := h.descriptors.perform hx
    refine ⟨_, rfl, ?_⟩
    exact { h with
      descriptors := hp
      waiting := fun now timeoutAbs k' heq => absurd heq (hwait now timeoutAbs k') }
  | timer a =>
    obtain ⟨x, hx, rfl⟩ := Option.map_eq_some_iff.mp hstep
    obtain ⟨ts, rfl, hts⟩ := h.timers.perform h.isBTime_clock hx
    refine ⟨_, rfl, ?_⟩
    exact { h with
      timers := hts
      waiting := fun now timeoutAbs k' heq => absurd heq (hwait now timeoutAbs k') }
  | quit code => exact ⟨_, (Option.some.inj hstep).symm, { h with }⟩
  | synchronize ref =>
    obtain ⟨hmem, hr⟩ := of_ite_eq_some hstep
    refine ⟨_, hr.symm, ?_⟩
    have hnested : Nested (.synchronize ref :: r.control) := by
      have := h.nested
      rw [hk] at this ⊢
      exact .synchronizing ref this
    exact { h with
      nested := hnested
      marked := fun m hm => (List.mem_cons.mp hm).elim (fun heq => heq ▸ hmem) (h.marked m)
      waiting := by
        intro now timeoutAbs k' heq
        cases heq }
  | exec =>
    obtain ⟨hmain, hr⟩ := of_ite_eq_some hstep
    refine ⟨_, hr.symm, ?_⟩
    have hnested : Nested (.exec :: r.control) := by
      rw [hmain]
      exact .loop
    exact { h with
      nested := hnested
      marked := h.marked
      waiting := by
        intro now timeoutAbs k' heq
        cases heq }
  | ret =>
    obtain ⟨hne, hr⟩ := of_ite_eq_some hstep
    refine ⟨_, hr.symm, ?_⟩
    rw [hk, List.tail_cons] at hne
    have hnested := h.nested
    have hmarked := h.marked
    rw [hk] at hnested hmarked
    obtain ⟨hnested, hnot⟩ := hnested.head_user hne
    refine { h with nested := ?_, marked := ?_, waiting := ?_ }
    · rw [hk]
      exact hnested
    · rw [hk]
      exact hmarked
    · intro now timeoutAbs k' (heq : r.control.tail = _)
      rw [hk] at heq
      exact absurd heq (hnot now timeoutAbs k')

/-! ### 待つこと -/

theorem btimeSub_eq {abs now : Int} (hnow : 0 ≤ now) (hlt : now < abs) (hle : abs ≤ int64Max) :
    btimeSub abs now = abs - now := by
  unfold btimeSub int64Max at *
  omega

theorem truncTimeout_bounds {rel : Int} (h : 0 ≤ rel) :
    0 ≤ truncTimeout rel ∧ truncTimeout rel ≤ rel := by
  unfold truncTimeout intMax
  split <;> omega

theorem first_le {ts : Timers} {clock : Int} (h : ts.Inv clock) {first : Nat} {rest : List Nat}
    (htree : ts.tree = first :: rest) {t : Nat} (ht : t ∈ ts.tree) :
    ts.absTime first ≤ ts.absTime t := by
  have hord := h.placed.ordered
  rw [htree] at hord ht
  rcases List.mem_cons.mp ht with rfl | ht
  · exact Int.le_refl _
  · exact Timers.le_of_compareTimers (List.rel_of_pairwise_cons hord ht)

theorem Inv.enterWait (h : Inv r) (hk : r.control = [.exec, .user]) {timeoutAbs : Option Int}
    (hw : Waiting r.timers r.descriptors r.clock r.clock timeoutAbs) :
    Inv (r.enterWait timeoutAbs) := by
  refine { h with nested := ?_, marked := h.marked, waiting := ?_, waits := ?_ }
  · show Nested (.waiting r.clock timeoutAbs :: r.control)
    rw [hk]
    exact .waiting _ _
  · intro now abs k heq
    obtain ⟨⟨rfl, rfl⟩, -⟩ := List.cons.inj heq |>.imp_left Frame.waiting.inj
    exact hw
  · intro w hmem
    rcases List.mem_append.mp hmem with hmem | hmem
    · exact h.waits w hmem
    · rw [List.mem_singleton.mp hmem]
      intro hne
      have htimeout := hw.timeout
      cases timeoutAbs with
      | none =>
        have hnil : r.timers.tree = [] := htimeout
        exact absurd (by rw [hnil]; rfl) hne
      | some abs =>
        obtain ⟨first, rest, htree, rfl, hnow, hlt⟩ := htimeout
        have hrange := h.timers.placed.range first (htree ▸ List.mem_cons_self)
        have hrel : btimeSub (r.timers.absTime first) r.clock = r.timers.absTime first - r.clock :=
          btimeSub_eq hnow hlt hrange.2
        have hpos : 0 ≤ r.timers.absTime first - r.clock := by omega
        obtain ⟨hlo, hhi⟩ := truncTimeout_bounds hpos
        show 0 ≤ truncTimeout (btimeSub _ _) ∧
          ∀ a ∈ r.timers.tree.map r.timers.absTime, truncTimeout (btimeSub _ _) ≤ a - r.clock
        rw [hrel]
        refine ⟨hlo, fun a ha => ?_⟩
        obtain ⟨t, ht, rfl⟩ := List.mem_map.mp ha
        have := first_le h.timers htree ht
        omega

theorem Inv.waitForEvents (h : Inv r) (hk : r.control = [.exec, .user])
    (hjobs : r.pendingJobs.jobs = []) (hexpired : r.timers.expired = [])
    (hpos : r.descriptors.pos = r.descriptors.results.length) :
    ∃ r', r.waitForEvents = .ok r' ∧ Inv r' := by
  have hclear : Inv { r with descriptors := r.descriptors.clear } := by
    refine { h with descriptors := h.descriptors.clear hpos, waiting := ?_ }
    intro now timeoutAbs k heq
    rw [show r.control = _ from hk] at heq
    cases heq
  unfold BReactor.waitForEvents
  rw [ensure_bind hjobs, ensure_bind hexpired, ensure_bind hpos]
  dsimp only
  split
  next hnil =>
    exact ⟨_, rfl, hclear.enterWait hk ⟨hexpired, rfl, rfl, Int.le_refl _, hnil⟩⟩
  next first rest htree =>
    have hrun : (r.timers.timer first).state = .running :=
      (h.timers.placed.running first).mp (htree ▸ List.mem_cons_self)
    obtain ⟨ts, moved, hmove, hts, hkept⟩ := h.timers.moveExpired hexpired htree
    have htimers : Inv { r with descriptors := r.descriptors.clear, timers := ts } := by
      refine { hclear with timers := hts, waiting := ?_ }
      intro now timeoutAbs k heq
      rw [show r.control = _ from hk] at heq
      cases heq
    rw [ensure_bind hrun, hmove, ok_bind]
    dsimp only
    split
    next => exact ⟨_, rfl, htimers⟩
    next hmoved =>
      obtain ⟨rfl, hlt⟩ := hkept (Bool.eq_false_iff.mpr hmoved)
      refine ⟨_, rfl, htimers.enterWait hk ⟨hexpired, rfl, rfl, Int.le_refl _, ?_⟩⟩
      exact ⟨first, rest, htree, rfl, h.clock_nonneg, hlt⟩

section Wait

variable {now : Int} {timeoutAbs : Option Int} {k : List Frame}

theorem Nested.waiting_tail (h : Nested (.waiting now timeoutAbs :: k)) : k = [.exec, .user] := by
  cases h
  rfl

theorem Inv.endWait (h : Inv r) (hk : r.control = .waiting now timeoutAbs :: k) :
    Inv r.endWait ∧ r.endWait.control = [.exec, .user] := by
  have hnested := h.nested
  have hmarked := h.marked
  rw [hk] at hnested hmarked
  have htail : k = [.exec, .user] := hnested.waiting_tail
  subst htail
  have hcontrol : r.endWait.control = [.exec, .user] := by
    show r.control.tail = _
    rw [hk]
    rfl
  refine ⟨{ h with nested := ?_, marked := ?_, waiting := ?_ }, hcontrol⟩
  · rw [hcontrol]
    exact .loop
  · rw [hcontrol]
    exact hmarked
  · intro now' timeoutAbs' k' heq
    rw [hcontrol] at heq
    cases heq

/-- 時間が来ていれば、木の先頭を移して終わる。 -/
theorem Inv.expireFirst {abs : Int} (h : Inv r) (hk : r.control = .waiting now (some abs) :: k)
    (hdue : abs ≤ r.clock) :
    ∃ r', r.expireFirst = .ok r' ∧ Inv r' := by
  have hw := h.waiting _ _ _ hk
  obtain ⟨first, rest, htree, rfl, -, -⟩ := hw.timeout
  obtain ⟨ts, hts, hinv⟩ := h.timers.moveFirst hw.expired htree hdue
  obtain ⟨hend, hcontrol⟩ := h.endWait hk
  unfold BReactor.expireFirst
  rw [hts, ok_bind]
  refine ⟨_, rfl, { hend with timers := hinv, waiting := ?_ }⟩
  intro now' timeoutAbs' k' heq
  rw [show r.endWait.control = _ from hcontrol] at heq
  cases heq

theorem Inv.tryAgain (h : Inv r) (hk : r.control = .waiting now timeoutAbs :: k) :
    ∃ r', r.tryAgain timeoutAbs = .ok r' ∧ Inv r' := by
  have hw := h.waiting _ _ _ hk
  obtain ⟨hend, hcontrol⟩ := h.endWait hk
  cases timeoutAbs with
  | none =>
    exact ⟨_, rfl, hend.enterWait hcontrol
      ⟨hw.expired, hw.results, hw.pos, Int.le_refl _, hw.timeout⟩⟩
  | some abs =>
    by_cases hdue : r.clock ≥ abs
    · rw [show r.tryAgain (some abs) = r.expireFirst from if_pos hdue]
      exact h.expireFirst hk hdue
    · rw [show r.tryAgain (some abs) = .ok (r.endWait.enterWait (some abs)) from if_neg hdue]
      obtain ⟨first, rest, htree, habs, -, -⟩ := hw.timeout
      refine ⟨_, rfl, hend.enterWait hcontrol ⟨hw.expired, hw.results, hw.pos, Int.le_refl _, ?_⟩⟩
      exact ⟨first, rest, htree, habs, h.clock_nonneg, Int.not_le.mp hdue⟩

theorem Inv.epollReturns (h : Inv r) (hk : r.control = .waiting now timeoutAbs :: k)
    {outcome : WaitOutcome} (hstep : r.epollReturns now timeoutAbs outcome = some res) :
    ∃ r', res = .ok r' ∧ Inv r' := by
  have hw := h.waiting _ _ _ hk
  cases outcome with
  | descriptors returned =>
    obtain ⟨hret, hr⟩ := of_ite_eq_some hstep
    obtain ⟨p, hp, hinv⟩ := h.descriptors.deliver hw.results hw.pos hret
    obtain ⟨hend, hcontrol⟩ := h.endWait hk
    rw [hp, ok_bind] at hr
    refine ⟨_, hr.symm, { hend with descriptors := hinv, waiting := ?_ }⟩
    intro now' timeoutAbs' k' heq
    rw [show r.endWait.control = _ from hcontrol] at heq
    cases heq
  | timedOut =>
    cases timeoutAbs with
    | none => cases hstep
    | some abs =>
      obtain ⟨helapsed, hr⟩ := of_ite_eq_some hstep
      obtain ⟨first, rest, htree, habs, hnow, hlt⟩ := hw.timeout
      have hle : abs ≤ int64Max := habs ▸
        (h.timers.placed.range first (htree ▸ List.mem_cons_self)).2
      have hres : res = if truncTimeout (btimeSub abs now) = btimeSub abs now then r.expireFirst
          else r.tryAgain (some abs) := hr.symm
      split at hres
      next htrunc =>
        -- 削っていなければ、渡した時間は待つべき時間そのものである
        rw [htrunc, btimeSub_eq hnow hlt hle] at helapsed
        rw [hres]
        exact h.expireFirst hk (by omega)
      next =>
        rw [hres]
        exact h.tryAgain hk
  | interrupted =>
    rw [← Option.some.inj hstep]
    exact h.tryAgain hk

end Wait

/-! ### loop の一周 -/

theorem Nested.exec_tail (h : Nested (.exec :: k)) : k = [.user] := by
  cases h
  rfl

theorem Inv.call (h : Inv r) (hk : r.control = [.exec, .user]) :
    Inv { r with control := .user :: r.control } := by
  have hmarked := h.marked
  rw [hk] at hmarked
  refine { h with nested := ?_, marked := ?_, waiting := ?_ }
  · rw [hk]
    exact .dispatched
  · rw [hk]
    exact hmarked
  · intro now timeoutAbs k heq
    cases heq

theorem Inv.execIteration (h : Inv r) (hexec : r.control = .exec :: k) :
    ∃ r', r.execIteration = .ok r' ∧ Inv r' := by
  have hnested := h.nested
  rw [hexec] at hnested
  have hk : r.control = [.exec, .user] := by rw [hexec, hnested.exec_tail]
  have hmarked := h.marked
  rw [hk] at hmarked
  have hwait : ∀ now timeoutAbs k', r.control ≠ .waiting now timeoutAbs :: k' := by
    intro now timeoutAbs k' heq
    rw [hk] at heq
    cases heq
  unfold BReactor.execIteration
  split
  next =>
    refine ⟨_, rfl, { h with nested := ?_, marked := ?_, waiting := ?_ }⟩
    · rw [hk]
      exact .main
    · rw [hk]
      exact hmarked
    · intro now timeoutAbs k' (heq : r.control.tail = _)
      rw [hk] at heq
      cases heq
  next =>
    split
    next j rest hpop =>
      have hpopped : Marked rest (markers r.control) := by
        rw [hk]
        exact hmarked.pop hpop List.not_mem_nil
      exact ⟨_, rfl, { h.call hk with marked := hpopped }⟩
    next hpop =>
      split
      next t _ hexpired =>
        obtain ⟨ts, hts, hinv⟩ := h.timers.fire hexpired
        rw [hts, ok_bind]
        refine ⟨_, rfl, { h.call hk with timers := hinv, waiting := ?_ }⟩
        intro now timeoutAbs k' heq
        cases heq
      next hexpired =>
        split
        next event hevent =>
          obtain ⟨p, called, hp, hinv⟩ := h.descriptors.dispatch hevent
          rw [hp, ok_bind]
          dsimp only
          cases called with
          | true =>
            refine ⟨_, rfl, { h.call hk with descriptors := hinv, waiting := ?_ }⟩
            intro now timeoutAbs k' heq
            cases heq
          | false =>
            refine ⟨_, rfl, { h with descriptors := hinv, waiting := ?_ }⟩
            exact fun now timeoutAbs k' heq => absurd heq (hwait now timeoutAbs k')
        next hevent =>
          have hlen : r.descriptors.results.length ≤ r.descriptors.pos :=
            List.getElem?_eq_none_iff.mp hevent
          exact h.waitForEvents hk (JobStack.pop_eq_none.mp hpop) hexpired
            (Nat.le_antisymm h.descriptors.linked.le hlen)

/-- `BReactor_Synchronize` が走らせる job は、どの目印でもない。 -/
theorem SparesMarkers.not_marker {ref j : Nat} {rest : JobStack Nat} (h : r.SparesMarkers ref k)
    (hexit : ¬ r.exiting = true) (hpop : r.pendingJobs.pop = some (j, rest)) (hj : j ≠ ref) :
    j ∉ ref :: markers k := by
  have hhead : j ∈ r.pendingJobs.jobs.head? := by
    rw [JobStack.jobs_of_pop hpop]
    rfl
  rw [List.mem_cons, not_or]
  exact ⟨hj, h (Bool.eq_false_iff.mpr hexit) j hhead hj⟩

theorem Inv.synchronizeIteration (h : Inv r) {ref : Nat} (hk : r.control = .synchronize ref :: k) :
    ∃ r', r.synchronizeIteration ref = .ok r' ∧ (r.SparesMarkers ref k → Inv r') := by
  have hnested := h.nested
  have hmarked := h.marked
  rw [hk] at hnested hmarked
  have hreturn : ∀ value, Inv { r with control := r.control.tail, returned := some value } := by
    intro value
    refine { h with nested := ?_, marked := ?_, waiting := ?_ }
    · show Nested r.control.tail
      rw [hk]
      cases hnested with
      | synchronizing _ hrest => exact hrest
    · show Marked r.pendingJobs (markers r.control.tail)
      rw [hk]
      exact hmarked.of_cons
    · intro now timeoutAbs k' (heq : r.control.tail = _)
      rw [hk] at heq
      cases hnested with
      | synchronizing _ hrest => cases heq
  unfold BReactor.synchronizeIteration
  split
  next => exact ⟨_, rfl, fun _ => hreturn false⟩
  next hexit =>
    split
    next hpop =>
      -- 目印が積まれているので、列は空でない
      have hmem := hmarked ref List.mem_cons_self
      rw [JobStack.mem_def, JobStack.pop_eq_none.mp hpop] at hmem
      exact absurd hmem List.not_mem_nil
    next j rest hpop =>
      split
      next => exact ⟨_, rfl, fun _ => hreturn true⟩
      next hj =>
        refine ⟨_, rfl, fun hspare => { h with nested := ?_, marked := ?_, waiting := ?_ }⟩
        · show Nested (.user :: r.control)
          rw [hk]
          exact .handling hnested
        · show Marked rest (markers (.user :: r.control))
          rw [hk]
          exact hmarked.pop hpop (hspare.not_marker hexit hpop hj)
        · intro now timeoutAbs k' heq
          cases heq

theorem inv_step (r : BReactor) (e : ReactorEvent) (res : Except Fault BReactor) (h : Inv r)
    (hstep : r.step e = some res) : ∃ r', res = .ok r' ∧ Inv r' := by
  cases e with
  | tick d =>
    obtain ⟨hle, hr⟩ := of_ite_eq_some hstep
    refine ⟨_, hr.symm, ?_⟩
    have hclock : r.clock ≤ r.clock + d := by omega
    refine { h with
      clock_nonneg := Int.le_trans h.clock_nonneg hclock
      clock_le := hle
      timers := h.timers.mono hclock
      waiting := fun now timeoutAbs k heq => ?_ }
    have hw := h.waiting now timeoutAbs k heq
    exact { hw with now_le := Int.le_trans hw.now_le hclock }
  | user a =>
    obtain ⟨hhead, hr⟩ := Option.ite_none_right_eq_some.mp hstep
    obtain ⟨k, hk⟩ := List.head?_eq_some_iff.mp hhead
    exact h.perform hk hr
  | iterate =>
    simp only [step] at hstep
    split at hstep
    next k hk =>
      rw [← Option.some.inj hstep]
      exact h.execIteration hk
    next ref k hk =>
      obtain ⟨hspare, hr⟩ := of_ite_eq_some hstep
      obtain ⟨r', hr', hinv⟩ := h.synchronizeIteration hk
      exact ⟨r', hr.symm.trans hr', hinv hspare⟩
    next => cases hstep
  | epollWait outcome =>
    simp only [step] at hstep
    split at hstep
    next now timeoutAbs k hk => exact h.epollReturns hk hstep
    next => cases hstep

theorem inv_of_exec {bfd : Nat → BFileDescriptor} {events : List ReactorEvent}
    (hrun : exec (guarded step) (.ok (init bfd)) events = some res) : ∃ r, res = .ok r ∧ Inv r :=
  exec_safe_all inv_step (inv_init bfd) hrun

end BReactor

open BReactor

/-! ## 配ること -/

/--
reactor は古い結果を配らない。

handler が descriptor を足し、外し、記憶を使い回し、また足し、待つものを変え、止める、どの run でも、handler を呼ぶのはその結果の登録が生きている
descriptor だけであり、知らせるのは待っているものと `ERROR`・`HUP` だけである。一つの結果は高々一度配り、まだ配っていない結果と descriptor とは互いに
指し合う。
-/
theorem reactor_never_stale (bfd : Nat → BFileDescriptor) (events : List ReactorEvent)
    (res : Except Fault BReactor) (hrun : exec (guarded step) (.ok (init bfd)) events = some res) :
    ∃ r, res = .ok r ∧ r.descriptors.NeverStale := by
  obtain ⟨r, hr, hinv⟩ := inv_of_exec hrun
  exact ⟨r, hr, hinv.descriptors.neverStale⟩

/-- 二つの descriptor の結果が来て、一つ目の handler が二つ目を外し、その記憶で別の fd を足す。 -/
def replacedDescriptor : List ReactorEvent :=
  [.user (.fd (.reuse 0 ⟨5, false, fun _ => false, none⟩)), .user (.fd (.add 0 true)),
    .user (.fd (.setEvents 0 fun _ => true)),
    .user (.fd (.reuse 1 ⟨6, false, fun _ => false, none⟩)), .user (.fd (.add 1 true)),
    .user (.fd (.setEvents 1 fun _ => true)), .user .exec, .iterate,
    .epollWait (.descriptors [(⟨5, 0, 0⟩, readyEvents .recv), (⟨6, 1, 1⟩, readyEvents .recv)]),
    .iterate, .user (.fd (.remove 1)),
    .user (.fd (.reuse 1 (BFileDescriptor.init ⟨6, true, fun _ => true, some 0⟩ 7))),
    .user (.fd (.add 1 true)), .user (.fd (.setEvents 1 fun _ => true)), .user .ret, .iterate]

theorem reactor_never_stale_replaced :
    ∃ r, exec (guarded step) (.ok (init fun _ => ⟨0, false, fun _ => false, none⟩))
      replacedDescriptor = some (.ok r) ∧
      (r.descriptors.dispatched.map (·.bfd) = [0] ∧ r.descriptors.pos = 2) ∧
        r.descriptors.NeverStale := by
  obtain ⟨r, hr, hlog⟩ := exec_ok_exists step (init fun _ => ⟨0, false, fun _ => false, none⟩)
    replacedDescriptor
    (fun r => r.descriptors.dispatched.map (·.bfd) = [0] ∧ r.descriptors.pos = 2)
      (by decide +kernel)
  obtain ⟨r', heq, hnever⟩ := reactor_never_stale _ _ _ hr
  cases heq
  exact ⟨r, hr, hlog, hnever⟩

/-! ## timer -/

/--
timer は、仕掛けるたびに高々一度、求めた時刻が来てから鳴る。

handler が timer を仕掛け、仕掛け直し、外す、どの run でも、timer のある所は state の通りであり、外したり仕掛け直したりした分の handler は呼ばれない。
一度にまとめて移した timer は時刻の順に鳴り、`epoll_wait` に渡す時間は最も早い timer までの時間を越えない。
-/
theorem reactor_timers_punctual (bfd : Nat → BFileDescriptor) (events : List ReactorEvent)
    (res : Except Fault BReactor) (hrun : exec (guarded step) (.ok (init bfd)) events = some res) :
    ∃ r, res = .ok r ∧ r.timers.Punctual ∧ ∀ w ∈ r.waits, WaitBounded w := by
  obtain ⟨r, hr, hinv⟩ := inv_of_exec hrun
  exact ⟨r, hr, hinv.timers.punctual, hinv.waits⟩

/-- 三つの timer を仕掛けて待つ。二つが鳴る間に、一つ目の handler が三つ目を外し、自分を仕掛け直す。 -/
def rearmedTimer : List ReactorEvent :=
  [.user (.timer (.set 0 .relative 10)), .user (.timer (.set 1 .absolute 10)),
    .user (.timer (.set 2 .absolute 20)), .user .exec, .iterate, .tick 3, .epollWait .interrupted,
    .tick 7, .epollWait .timedOut, .iterate, .user (.timer (.remove 2)),
    .user (.timer (.set 0 .relative int64Max)), .user .ret, .iterate, .user .ret, .iterate]

theorem reactor_timers_punctual_rearmed :
    ∃ r, exec (guarded step) (.ok (init fun _ => ⟨0, false, fun _ => false, none⟩)) rearmedTimer =
      some (.ok r) ∧
      (r.timers.fired.map (·.setting) = [some ⟨0, 10⟩, some ⟨1, 10⟩] ∧ r.timers.cancelled = [2] ∧
        r.waits.map (·.timeout) = [10, 7, intMax]) ∧
      r.timers.Punctual ∧ ∀ w ∈ r.waits, WaitBounded w := by
  obtain ⟨r, hr, hlog⟩ := exec_ok_exists step (init fun _ => ⟨0, false, fun _ => false, none⟩)
    rearmedTimer
    (fun r => r.timers.fired.map (·.setting) = [some ⟨0, 10⟩, some ⟨1, 10⟩] ∧
      r.timers.cancelled = [2] ∧
      r.waits.map (·.timeout) = [10, 7, intMax]) (by decide +kernel)
  obtain ⟨r', heq, hpunctual⟩ := reactor_timers_punctual _ _ _ hr
  cases heq
  exact ⟨r, hr, hlog, hpunctual⟩

end Reactor
