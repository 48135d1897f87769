import Mathlib.Algebra.Group.Int.Defs
import Mathlib.Algebra.Group.Nat.Defs
import Mathlib.Data.List.Nodup
import PsiphonVpn.Infra.SearchTree
import PsiphonVpn.Flow.Interface

/-!
# reactor の timer

`system/BReactor_badvpn.c` の timer の部分。動いている timer は `timers_tree` に、時刻の来た timer は
`timers_expired_list` にある。時刻が来ると、`move_expired_timers` か `move_first_timers` が木から列へまとめて移し、
`BReactor_Exec` が列の先頭から一つずつ handler を呼ぶ。その間に handler は、列にある他の timer を外したり、仕掛け直したり
する。

時刻は `btime_t`（64 bit の符号付き整数）である。木は通りがけ順の列で表す（`Structure.insert_spec`）。

## 記録

記録は、program の関数の外で、呼び出しのたびに書く（`perform`）。`BReactor_SetSmallTimer` を呼ぶたびに番号を付け、呼び出しの
求めた絶対時刻と共に `setting` に置く。`cancelled` は、handler を呼ぶ前に外された、または仕掛け直された番号である。`batch` は、
木から列へ移した回数である。
-/

namespace Reactor

open Infra Flow

/-! ## 時刻 -/

/-- `INT64_MIN` -/
def int64Min : Int := -2 ^ 63

/-- `INT64_MAX` -/
def int64Max : Int := 2 ^ 63 - 1

/-- `add_int64_overflows` -/
def addInt64Overflows (a b : Int) : Int :=
  if decide (a < 0) ≠ decide (b < 0) then 0
  else if a < 0 then (if a < int64Min - b then -1 else 0)
  else if a > int64Max - b then 1 else 0

/-- `btime_add` -/
def btimeAdd (t₁ t₂ : Int) : Int :=
  if addInt64Overflows t₁ t₂ ≠ 0 then
    if addInt64Overflows t₁ t₂ > 0 then int64Max else int64Min
  else t₁ + t₂

/-- `btime_t` の値である。 -/
def IsBTime (t : Int) : Prop := int64Min ≤ t ∧ t ≤ int64Max

instance (t : Int) : Decidable (IsBTime t) := inferInstanceAs (Decidable (_ ∧ _))

/-- `btime_t` の範囲に丸めた値。 -/
def saturate (v : Int) : Int := max int64Min (min v int64Max)

theorem isBTime_saturate (v : Int) : IsBTime (saturate v) := by
  unfold IsBTime saturate int64Min int64Max
  omega

theorem btimeAdd_eq {a b : Int} (ha : IsBTime a) (hb : IsBTime b) :
    btimeAdd a b = saturate (a + b) := by
  unfold IsBTime at ha hb
  unfold btimeAdd addInt64Overflows saturate
  unfold int64Min int64Max at *
  by_cases hsa : a < 0 <;> by_cases hsb : b < 0
  · simp only [hsa, hsb, ne_eq, not_true_eq_false, if_false, if_true]
    split <;> omega
  · simp only [hsa, hsb, decide_true, decide_false, ne_eq, Bool.true_eq_false, not_false_eq_true,
      if_true, not_true_eq_false, if_false]
    omega
  · simp only [hsa, hsb, decide_true, decide_false, ne_eq, Bool.false_eq_true, not_false_eq_true,
      if_true, not_true_eq_false, if_false]
    omega
  · simp only [hsa, hsb, ne_eq, not_true_eq_false, if_false]
    split <;> omega

/-! ## model -/

/-- `TIMER_STATE_*` -/
inductive TimerState where
  | inactive
  | running
  | expired
  deriving DecidableEq, Repr

structure BSmallTimer where
  state : TimerState
  absTime : Int
  deriving DecidableEq, Repr

/-- `BTIMER_SET_ABSOLUTE`・`BTIMER_SET_RELATIVE` -/
inductive TimerMode where
  | absolute
  | relative
  deriving DecidableEq, Repr

/-- 呼び出しの求める絶対時刻。 -/
def TimerMode.requested (clock time : Int) : TimerMode → Int
  | .absolute => time
  | .relative => saturate (clock + time)

/-- 一度の仕掛け。`time` は、呼び出しの求めた絶対時刻である。 -/
structure Setting where
  number : Nat
  time : Int
  deriving DecidableEq, Repr

/-- handler を呼んだ記録。`clock` はその時の時刻。 -/
structure Fired where
  timer : Nat
  setting : Option Setting
  clock : Int
  batch : Nat
  deriving DecidableEq, Repr

def Fired.number (x : Fired) : Option Nat := x.setting.map (·.number)

def Fired.time (x : Fired) : Option Int := x.setting.map (·.time)

structure Timers where
  timer : Nat → BSmallTimer
  /-- `timers_tree` -/
  tree : List Nat
  /-- `timers_expired_list` -/
  expired : List Nat
  -- 記録
  setting : Nat → Option Setting
  settings : Nat
  cancelled : List Nat
  batch : Nat
  fired : List Fired

/-- handler のすること。 -/
inductive TimerAction where
  /-- `BReactor_SetSmallTimer`。`BReactor_SetTimer` などはこれを呼ぶ。 -/
  | set (t : Nat) (mode : TimerMode) (time : Int)
  /-- `BReactor_RemoveSmallTimer` -/
  | remove (t : Nat)
  deriving DecidableEq, Repr

/-- `compare_timers`。時刻、番地の順に比べる。 -/
def compareTimers (t₁ t₂ : Int × Nat) : Ordering := (compare t₁.1 t₂.1).then (compare t₁.2 t₂.2)

variable {stop : Int} {rest : List Nat}

namespace Timers

def init : Timers where
  timer := fun _ => ⟨.inactive, 0⟩
  tree := []
  expired := []
  setting := fun _ => none
  settings := 0
  cancelled := []
  batch := 0
  fired := []

def absTime (ts : Timers) (t : Nat) : Int := (ts.timer t).absTime

/-- 木の鍵。 -/
def key (ts : Timers) (t : Nat) : Int × Nat := (ts.absTime t, t)

def setState (ts : Timers) (t : Nat) (state : TimerState) : Timers :=
  { ts with timer := Function.update ts.timer t { ts.timer t with state := state } }

/-- `BReactor_RemoveSmallTimer` -/
def removeSmallTimer (ts : Timers) (t : Nat) : Except Fault Timers :=
  match (ts.timer t).state with
  | .inactive => pure ts
  | .expired => do
    ensure (t ∈ ts.expired)
    pure { ts.setState t .inactive with expired := ts.expired.erase t }
  | .running => do
    ensure (t ∈ ts.tree)
    pure { ts.setState t .inactive with tree := ts.tree.erase t }

/-- 時刻を書いて、動いている timer にする。 -/
def arm (ts : Timers) (t : Nat) (time : Int) : Timers :=
  { ts with timer := Function.update ts.timer t ⟨.running, time⟩ }

/-- `BReactor__TimersTree_Insert` -/
def treeInsert (ts : Timers) (t : Nat) : Except Fault Timers :=
  match SearchTree.insert compareTimers ts.key t ts.tree with
  | none => .error (.reject .failed)
  | some tree => .ok { ts with tree := tree }

/-- `BReactor_SetSmallTimer` -/
def setSmallTimer (ts : Timers) (clock : Int) (t : Nat) (mode : TimerMode) (time : Int) :
    Except Fault Timers := do
  let ts ← ts.removeSmallTimer t
  let time := match mode with
    | .absolute => time
    | .relative => btimeAdd clock time
  (ts.arm t time).treeInsert t

/-- 木の先頭の timer を列の最後に移す。 -/
def expire (ts : Timers) (t : Nat) : Timers :=
  { ts.setState t .expired with tree := ts.tree.erase t, expired := ts.expired ++ [t] }

/--
`move_expired_timers`・`move_first_timers` の loop。時刻が `stop` までの timer を移す。
`check` は loop の中の `ASSERT` で、移したかどうかを返す。
-/
def moveUntil (check : Int → Prop) [DecidablePred check] (stop : Int) :
    Bool → List Nat → Timers → Except Fault (Timers × Bool)
  | moved, [], ts => pure (ts, moved)
  | moved, t :: rest, ts => do
    ensure ((ts.timer t).state = .running)
    ensure (check (ts.absTime t))
    if ts.absTime t > stop then
      pure (ts, moved)
    else
      moveUntil check stop true rest (ts.expire t)

/-- `move_expired_timers` -/
def moveExpiredTimers (ts : Timers) (now : Int) : Except Fault (Timers × Bool) :=
  moveUntil (fun _ => True) now false ts.tree { ts with batch := ts.batch + 1 }

/-- `move_first_timers` -/
def moveFirstTimers (ts : Timers) : Except Fault Timers :=
  match ts.tree with
  | [] => .error (.reject .failed)
  | first :: rest => do
    ensure ((ts.timer first).state = .running)
    let firstTime := ts.absTime first
    let (ts, _) ← moveUntil (firstTime ≤ ·) firstTime true rest
      ({ ts with batch := ts.batch + 1 }.expire first)
    pure ts

/-- `BReactor_Exec` が列の先頭の timer の handler を呼ぶ。 -/
def fire (ts : Timers) (clock : Int) (t : Nat) : Except Fault Timers := do
  ensure ((ts.timer t).state = .expired)
  pure { ts.setState t .inactive with
    expired := ts.expired.erase t
    setting := Function.update ts.setting t none
    fired := ts.fired ++ [⟨t, ts.setting t, clock, ts.batch⟩] }

/-- 待っていた仕掛けがあれば、取り消したと記す。 -/
def noteCancelled (ts : Timers) (t : Nat) : Timers :=
  { ts with
    setting := Function.update ts.setting t none
    cancelled := ts.cancelled ++ ((ts.setting t).map (·.number)).toList }

/-- 絶対時刻 `time` の仕掛けを記す。 -/
def noteSet (ts : Timers) (t : Nat) (time : Int) : Timers :=
  { ts with
    setting := Function.update ts.setting t (some ⟨ts.settings, time⟩)
    settings := ts.settings + 1 }

/-- 呼び出しと、その記録。仕掛ける時刻は `btime_t` の値である。 -/
def perform (ts : Timers) (clock : Int) : TimerAction → Option (Except Fault Timers)
  | .set t mode time =>
    if IsBTime time then
      some (do
        let ts ← (ts.noteCancelled t).setSmallTimer clock t mode time
        pure (ts.noteSet t (mode.requested clock time)))
    else none
  | .remove t => some ((ts.noteCancelled t).removeSmallTimer t)

/-! ## 不変量 -/

/-- handler を呼んだ番号と、取り消した番号。 -/
def spent (ts : Timers) : List Nat := ts.fired.filterMap Fired.number ++ ts.cancelled

/-- どこにあるかは state で決まる。 -/
structure Placed (timer : Nat → BSmallTimer) (tree expired : List Nat) : Prop where
  ordered : SearchTree.Ordered compareTimers (fun t => ((timer t).absTime, t)) tree
  running : ∀ t, t ∈ tree ↔ (timer t).state = .running
  waiting : ∀ t, t ∈ expired ↔ (timer t).state = .expired
  nodup : expired.Nodup
  range : ∀ t ∈ tree, IsBTime (timer t).absTime

/-- 列にある timer は時刻の来たもので、時刻の順に並ぶ。同じ回に handler を呼んだものは、列にあるものより早い。 -/
structure Ripe (absTime : Nat → Int) (expired : List Nat) (fired : List Fired) (batch : Nat)
    (clock : Int) : Prop where
  due : ∀ t ∈ expired, absTime t ≤ clock
  sorted : expired.Pairwise fun a b => absTime a ≤ absTime b
  after : ∀ x ∈ fired, x.batch = batch → ∀ a ∈ x.time, ∀ t ∈ expired, a ≤ absTime t

/-- 待っている仕掛けの番号は、まだ使われておらず、互いに異なる。 -/
structure Numbered (setting : Nat → Option Setting) (settings : Nat) (spent : List Nat) : Prop where
  lt : ∀ t, ∀ s ∈ setting t, s.number < settings
  inj : ∀ t u, ∀ s ∈ setting t, ∀ s' ∈ setting u, s.number = s'.number → t = u
  spent_lt : ∀ n ∈ spent, n < settings
  spent_nodup : spent.Nodup
  fresh : ∀ t, ∀ s ∈ setting t, s.number ∉ spent

/-- handler は求めた時刻が来てから呼ばれ、一つの回の中では時刻の順に呼ばれる。 -/
structure Chronicle (fired : List Fired) (batch : Nat) : Prop where
  due : ∀ x ∈ fired, ∃ a ∈ x.time, a ≤ x.clock
  batch_le : ∀ x ∈ fired, x.batch ≤ batch
  sorted : fired.Pairwise fun x y => x.batch = y.batch → ∀ a ∈ x.time, ∀ b ∈ y.time, a ≤ b

/-- 動いている timer の持つ時刻。 -/
def pending (timer : BSmallTimer) : Option Int :=
  if timer.state = .inactive then none else some timer.absTime

structure Inv (ts : Timers) (clock : Int) : Prop where
  placed : Placed ts.timer ts.tree ts.expired
  ripe : Ripe ts.absTime ts.expired ts.fired ts.batch clock
  numbered : Numbered ts.setting ts.settings ts.spent
  chronicle : Chronicle ts.fired ts.batch
  /-- timer の持つ時刻は、呼び出しの求めた時刻である。 -/
  asked : ∀ t, (ts.setting t).map (·.time) = pending (ts.timer t)

theorem compareTimers_eq : compareTimers = compareLex (compareOn Prod.fst) (compareOn Prod.snd) :=
  rfl

instance : Std.TransCmp compareTimers := by
  rw [compareTimers_eq]
  infer_instance

instance : Std.LawfulEqCmp compareTimers where
  eq_of_compare {a b} h := by
    simp only [compareTimers, Ordering.then_eq_eq, Std.LawfulEqCmp.compare_eq_iff_eq] at h
    exact Prod.ext h.1 h.2

theorem le_of_compareTimers {a b : Int × Nat} (h : compareTimers a b = .lt) : a.1 ≤ b.1 := by
  rw [compareTimers, Ordering.then_eq_lt, Int.compare_eq_lt, Int.compare_eq_eq] at h
  omega

variable {ts : Timers} {clock : Int} {t : Nat}

theorem inv_init (clock : Int) : Inv init clock where
  placed := ⟨SearchTree.ordered_nil, by simp [init], by simp [init], List.nodup_nil, by simp [init]⟩
  ripe := ⟨by simp [init], List.Pairwise.nil, by simp [init]⟩
  numbered := ⟨by simp [init], by simp [init], by simp [init, spent], List.nodup_nil,
    by simp [init]⟩
  chronicle := ⟨by simp [init], by simp [init], List.Pairwise.nil⟩
  asked := fun _ => rfl

theorem Inv.mono (h : Inv ts clock) {clock' : Int} (hle : clock ≤ clock') : Inv ts clock' :=
  { h with ripe := { h.ripe with due := fun t ht => Int.le_trans (h.ripe.due t ht) hle } }

/-! ## 外すこと -/

section Place

variable {timer : Nat → BSmallTimer} {tree expired : List Nat}

theorem Placed.not_expired (h : Placed timer tree expired) (ht : t ∈ tree) : t ∉ expired := by
  intro hx
  rw [h.running] at ht
  rw [h.waiting, ht] at hx
  cases hx

theorem Placed.not_tree (h : Placed timer tree expired) (ht : t ∈ expired) : t ∉ tree :=
  fun hx => h.not_expired hx ht

theorem Placed.tree_nodup (h : Placed timer tree expired) : tree.Nodup := by
  refine h.ordered.imp fun {a b} hlt => ?_
  rintro rfl
  exact SearchTree.ne_of_cmp hlt (by decide) rfl

theorem ne_and_state_iff {x : BSmallTimer} {state : TimerState} (timer : Nat → BSmallTimer)
    (hx : x.state ≠ state) (u : Nat) :
    u ≠ t ∧ (timer u).state = state ↔ (Function.update timer t x u).state = state := by
  by_cases hne : u = t
  · subst hne
    rw [Function.update_self]
    exact iff_of_false (fun h => h.1 rfl) hx
  · rw [Function.update_of_ne hne]
    exact and_iff_right hne

/-- 木から、または列から外し、動いていない timer にする。 -/
theorem Placed.remove (h : Placed timer tree expired) (t : Nat) :
    Placed (Function.update timer t { timer t with state := .inactive }) (tree.erase t)
      (expired.erase t) where
  ordered := by
    refine (h.ordered.erase t).congr fun u hu => ?_
    have hne : u ≠ t := (List.Nodup.mem_erase_iff h.tree_nodup).mp hu |>.1
    simp only [Function.update_of_ne hne]
  running := by
    intro u
    rw [List.Nodup.mem_erase_iff h.tree_nodup, h.running]
    exact ne_and_state_iff timer (by simp) u
  waiting := by
    intro u
    rw [List.Nodup.mem_erase_iff h.nodup, h.waiting]
    exact ne_and_state_iff timer (by simp) u
  nodup := h.nodup.erase t
  range := by
    intro u hu
    obtain ⟨hne, hu⟩ := (List.Nodup.mem_erase_iff h.tree_nodup).mp hu
    rw [Function.update_of_ne hne]
    exact h.range u hu

end Place

@[simp] theorem absTime_setState (ts : Timers) (t : Nat) (state : TimerState) :
    (ts.setState t state).absTime = ts.absTime := by
  funext u
  by_cases hne : u = t
  · subst hne
    simp only [absTime, setState, Function.update_self]
  · simp only [absTime, setState, Function.update_of_ne hne]

theorem Ripe.erase {absTime : Nat → Int} {expired : List Nat} {fired : List Fired} {batch : Nat}
    (h : Ripe absTime expired fired batch clock) (t : Nat) :
    Ripe absTime (expired.erase t) fired batch clock where
  due := fun u hu => h.due u (List.mem_of_mem_erase hu)
  sorted := h.sorted.sublist List.erase_sublist
  after := fun x hx hbatch a ha u hu => h.after x hx hbatch a ha u (List.mem_of_mem_erase hu)

section Record

variable {setting : Nat → Option Setting} {settings : Nat} {spent spent' : List Nat} {s : Setting}

theorem mem_update {next : Option Setting} {u : Nat} (h : s ∈ Function.update setting t next u) :
    (u = t ∧ s ∈ next) ∨ (u ≠ t ∧ s ∈ setting u) := by
  by_cases hut : u = t
  · subst hut
    rw [Function.update_self] at h
    exact Or.inl ⟨rfl, h⟩
  · rw [Function.update_of_ne hut] at h
    exact Or.inr ⟨hut, h⟩

/-- 待っていた仕掛けがあれば、その番号を使い終える。 -/
theorem Numbered.spend (h : Numbered setting settings spent)
    (hperm : spent'.Perm (((setting t).map (·.number)).toList ++ spent)) :
    Numbered (Function.update setting t none) settings spent' := by
  have hwaiting : ∀ n ∈ ((setting t).map (·.number)).toList, ∃ s ∈ setting t, s.number = n := by
    intro n hn
    obtain ⟨s, hs, rfl⟩ := Option.map_eq_some_iff.mp (Option.mem_toList.mp hn)
    exact ⟨s, hs, rfl⟩
  have hother : ∀ u, ∀ s ∈ Function.update setting t none u, u ≠ t ∧ s ∈ setting u :=
    fun u s hs => (mem_update hs).resolve_left fun h => nomatch h.2
  constructor
  · exact fun u s hs => h.lt u s (hother u s hs).2
  · exact fun u v s hs s' hs' => h.inj u v s (hother u s hs).2 s' (hother v s' hs').2
  · intro n hn
    rcases List.mem_append.mp (hperm.mem_iff.mp hn) with hn | hn
    · obtain ⟨s, hs, rfl⟩ := hwaiting n hn
      exact h.lt t s hs
    · exact h.spent_lt n hn
  · refine hperm.nodup_iff.mpr (List.nodup_append.mpr ⟨?_, h.spent_nodup, ?_⟩)
    · cases setting t <;> simp
    · rintro n hn _ hm rfl
      obtain ⟨s, hs, rfl⟩ := hwaiting n hn
      exact h.fresh t s hs hm
  · intro u s hs hmem
    obtain ⟨hne, hs⟩ := hother u s hs
    rcases List.mem_append.mp (hperm.mem_iff.mp hmem) with hn | hmem
    · obtain ⟨s', hs', heq⟩ := hwaiting _ hn
      exact hne (h.inj u t s hs s' hs' heq.symm)
    · exact h.fresh u s hs hmem

/-- 仕掛けた timer に、まだ使われていない番号を付ける。 -/
theorem Numbered.assign (h : Numbered setting settings spent) (time : Int) :
    Numbered (Function.update setting t (some ⟨settings, time⟩)) (settings + 1) spent := by
  have hcase : ∀ u, ∀ s ∈ Function.update setting t (some ⟨settings, time⟩) u,
      (u = t ∧ s.number = settings) ∨ (s ∈ setting u ∧ s.number < settings) := by
    intro u s hs
    rcases mem_update hs with ⟨hut, hs⟩ | ⟨-, hs⟩
    · exact Or.inl ⟨hut, congrArg Setting.number (Option.some.inj hs).symm⟩
    · exact Or.inr ⟨hs, h.lt u s hs⟩
  refine ⟨fun u s hs => ?_, fun u v s hs s' hs' heq => ?_,
    fun n hn => Nat.lt_succ_of_lt (h.spent_lt n hn), h.spent_nodup, fun u s hs hmem => ?_⟩
  · rcases hcase u s hs with ⟨-, hnum⟩ | ⟨-, hlt⟩ <;> omega
  · rcases hcase u s hs with ⟨hut, hnum⟩ | ⟨hs, hlt⟩ <;>
      rcases hcase v s' hs' with ⟨hvt, hnum'⟩ | ⟨hs', hlt'⟩
    · rw [hut, hvt]
    · omega
    · omega
    · exact h.inj u v s hs s' hs' heq
  · rcases hcase u s hs with ⟨-, hnum⟩ | ⟨hs, -⟩
    · have := h.spent_lt _ hmem
      omega
    · exact h.fresh u s hs hmem

end Record

theorem spent_noteCancelled_perm (ts : Timers) (t : Nat) :
    (ts.noteCancelled t).spent.Perm (((ts.setting t).map (·.number)).toList ++ ts.spent) := by
  show (ts.fired.filterMap Fired.number ++ (ts.cancelled ++ _)).Perm _
  rw [← List.append_assoc]
  exact List.perm_append_comm

/-- 外した後の状態。外れた所は state で決まるが、もう一方には元から無い。 -/
theorem removeSmallTimer_eq (h : Placed ts.timer ts.tree ts.expired) (t : Nat) :
    ts.removeSmallTimer t =
      .ok { ts.setState t .inactive with
        tree := ts.tree.erase t, expired := ts.expired.erase t } := by
  unfold removeSmallTimer
  cases hstate : (ts.timer t).state with
  | inactive =>
    have htree : t ∉ ts.tree := fun ht => by simp [(h.running t).mp ht] at hstate
    have hlist : t ∉ ts.expired := fun ht => by simp [(h.waiting t).mp ht] at hstate
    have hself : Function.update ts.timer t { ts.timer t with state := .inactive } = ts.timer := by
      rw [← hstate]
      exact Function.update_eq_self t ts.timer
    rw [List.erase_of_not_mem htree, List.erase_of_not_mem hlist, setState, hself]
    rfl
  | running =>
    have hmem : t ∈ ts.tree := (h.running t).mpr hstate
    dsimp only
    rw [ensure_bind hmem, List.erase_of_not_mem (h.not_expired hmem)]
    rfl
  | expired =>
    have hmem : t ∈ ts.expired := (h.waiting t).mpr hstate
    dsimp only
    rw [ensure_bind hmem, List.erase_of_not_mem (h.not_tree hmem)]
    rfl

theorem asked_update (h : Inv ts clock) {timer : BSmallTimer} {next : Option Setting}
    (heq : next.map (·.time) = pending timer) (u : Nat) :
    (Function.update ts.setting t next u).map (·.time) =
      pending (Function.update ts.timer t timer u) := by
  by_cases hut : u = t
  · subst hut
    rw [Function.update_self, Function.update_self]
    exact heq
  · rw [Function.update_of_ne hut, Function.update_of_ne hut]
    exact h.asked u

theorem Inv.remove (h : Inv ts clock) (t : Nat) :
    ∃ ts', (ts.noteCancelled t).removeSmallTimer t = .ok ts' ∧ Inv ts' clock ∧
      (ts'.timer t).state = .inactive := by
  refine ⟨_, @removeSmallTimer_eq (ts.noteCancelled t) h.placed t, ⟨h.placed.remove t, ?_,
    h.numbered.spend (spent_noteCancelled_perm ts t), { h.chronicle with }, asked_update h rfl⟩, ?_⟩
  · show Ripe (ts.setState t .inactive).absTime _ _ _ _
    rw [absTime_setState]
    exact h.ripe.erase t
  · show (Function.update ts.timer t _ t).state = _
    rw [Function.update_self]

/-! ## 仕掛けること -/

section Arm

variable {timer : Nat → BSmallTimer} {tree tree' expired : List Nat} {time : Int}

theorem Placed.ne_of_inactive (h : Placed timer tree expired) (ht : (timer t).state = .inactive) :
    (∀ u ∈ tree, u ≠ t) ∧ ∀ u ∈ expired, u ≠ t := by
  refine ⟨fun u hu heq => ?_, fun u hu heq => ?_⟩
  · rw [h.running, heq, ht] at hu
    cases hu
  · rw [h.waiting, heq, ht] at hu
    cases hu

/-- 動いていない timer を木に加える。 -/
theorem Placed.insert (h : Placed timer tree expired) (ht : (timer t).state = .inactive)
    (htime : IsBTime time) (hord : SearchTree.Ordered compareTimers
      (fun u => ((Function.update timer t ⟨.running, time⟩ u).absTime, u)) tree')
    (hperm : tree'.Perm (t :: tree)) :
    Placed (Function.update timer t ⟨.running, time⟩) tree' expired where
  ordered := hord
  running := by
    intro u
    rw [hperm.mem_iff, List.mem_cons]
    by_cases hu : u = t
    · subst hu
      rw [Function.update_self]
      exact iff_of_true (Or.inl rfl) rfl
    · rw [Function.update_of_ne hu, ← h.running]
      exact or_iff_right hu
  waiting := by
    intro u
    by_cases hu : u = t
    · subst hu
      rw [Function.update_self]
      exact iff_of_false (fun hx => (h.ne_of_inactive ht).2 u hx rfl) (by simp)
    · rw [Function.update_of_ne hu]
      exact h.waiting u
  nodup := h.nodup
  range := by
    intro u hu
    rcases List.mem_cons.mp (hperm.mem_iff.mp hu) with rfl | hu
    · rw [Function.update_self]
      exact htime
    · rw [Function.update_of_ne ((h.ne_of_inactive ht).1 u hu)]
      exact h.range u hu

/-- 列にある timer の時刻だけで決まる。 -/
theorem Ripe.congr {absTime absTime' : Nat → Int} {fired : List Fired} {batch : Nat}
    (h : Ripe absTime expired fired batch clock) (heq : ∀ u ∈ expired, absTime' u = absTime u) :
    Ripe absTime' expired fired batch clock where
  due := by
    intro u hu
    rw [heq u hu]
    exact h.due u hu
  sorted := by
    refine h.sorted.imp_of_mem fun {a b} ha hb hle => ?_
    rw [heq a ha, heq b hb]
    exact hle
  after := by
    intro x hx hbatch a ha u hu
    rw [heq u hu]
    exact h.after x hx hbatch a ha u hu

end Arm

theorem Inv.arm (h : Inv ts clock) (ht : (ts.timer t).state = .inactive) {time : Int}
    (htime : IsBTime time) :
    ∃ ts', (ts.arm t time).treeInsert t = .ok ts' ∧ Inv (ts'.noteSet t time) clock := by
  obtain ⟨htree, hlist⟩ := h.placed.ne_of_inactive ht
  have hord : SearchTree.Ordered compareTimers (ts.arm t time).key ts.tree := by
    refine h.placed.ordered.congr fun u hu => ?_
    simp only [key, absTime, Timers.arm, Function.update_of_ne (htree u hu)]
  obtain ⟨tree, hins, hord', hperm⟩ :=
    hord.insert (n := t) fun u hu heq => htree u hu (congrArg Prod.snd heq)
  refine ⟨{ ts.arm t time with tree := tree }, ?_, h.placed.insert ht htime hord' hperm, ?_,
    h.numbered.assign time, { h.chronicle with }, asked_update h rfl⟩
  · unfold treeInsert
    rw [show (ts.arm t time).tree = ts.tree from rfl, hins]
  · refine h.ripe.congr fun u hu => ?_
    show (Function.update ts.timer t _ u).absTime = _
    rw [Function.update_of_ne (hlist u hu)]
    rfl

theorem Inv.set (h : Inv ts clock) (hclock : IsBTime clock) {time : Int} (htime : IsBTime time)
    (t : Nat) (mode : TimerMode) :
    ∃ ts', (ts.noteCancelled t).setSmallTimer clock t mode time = .ok ts' ∧
      Inv (ts'.noteSet t (mode.requested clock time)) clock := by
  obtain ⟨ts₁, h₁, hinv₁, hstate₁⟩ := h.remove t
  unfold setSmallTimer
  rw [h₁, ok_bind]
  cases mode with
  | absolute => exact hinv₁.arm hstate₁ htime
  | relative =>
    dsimp only [TimerMode.requested]
    rw [btimeAdd_eq hclock htime]
    exact hinv₁.arm hstate₁ (isBTime_saturate _)

theorem Inv.perform (h : Inv ts clock) (hclock : IsBTime clock) {a : TimerAction}
    {r : Except Fault Timers} (hstep : ts.perform clock a = some r) :
    ∃ ts', r = .ok ts' ∧ Inv ts' clock := by
  cases a with
  | set t mode time =>
    obtain ⟨htime, hr⟩ := of_ite_eq_some hstep
    obtain ⟨ts', hts', hinv⟩ := h.set hclock htime t mode
    rw [hts', ok_bind] at hr
    exact ⟨_, hr.symm, hinv⟩
  | remove t =>
    obtain ⟨ts', hts', hinv, -⟩ := h.remove t
    exact ⟨ts', (Option.some.inj hstep).symm.trans hts', hinv⟩

/-! ## 移すこと -/

/-- 木から列へ移すことは、timer の時刻と、動いているかどうかを変えない。 -/
structure SameTimers (timer timer' : Nat → BSmallTimer) : Prop where
  absTime : ∀ t, (timer' t).absTime = (timer t).absTime
  inactive : ∀ t, (timer' t).state = .inactive ↔ (timer t).state = .inactive

theorem SameTimers.refl (timer : Nat → BSmallTimer) : SameTimers timer timer :=
  ⟨fun _ => rfl, fun _ => Iff.rfl⟩

theorem SameTimers.trans {timer timer' timer'' : Nat → BSmallTimer} (h : SameTimers timer timer')
    (h' : SameTimers timer' timer'') : SameTimers timer timer'' :=
  ⟨fun t => (h'.absTime t).trans (h.absTime t), fun t => (h'.inactive t).trans (h.inactive t)⟩

theorem SameTimers.pending {timer timer' : Nat → BSmallTimer} (h : SameTimers timer timer')
    (t : Nat) :
    Timers.pending (timer' t) = Timers.pending (timer t) := by
  simp only [Timers.pending, h.inactive, h.absTime]

theorem sameTimers_expire (ts : Timers) (ht : (ts.timer t).state = .running) :
    SameTimers ts.timer (ts.expire t).timer := by
  constructor
  · intro u
    show (ts.setState t .expired).absTime u = _
    rw [absTime_setState]
    rfl
  · intro u
    show (Function.update ts.timer t _ u).state = _ ↔ _
    by_cases hne : u = t
    · subst hne
      rw [Function.update_self, ht]
      exact iff_of_false (by simp) (by decide)
    · rw [Function.update_of_ne hne]

/-- 木の先頭を移す。 -/
theorem Placed.expire (h : Placed ts.timer ts.tree ts.expired) (ht : t ∈ ts.tree) :
    Placed (ts.expire t).timer (ts.expire t).tree (ts.expire t).expired where
  ordered := by
    refine (h.ordered.erase t).congr fun u _ => ?_
    exact congrArg (·, u) ((sameTimers_expire ts ((h.running t).mp ht)).absTime u)
  running := by
    intro u
    show u ∈ ts.tree.erase t ↔ (Function.update ts.timer t _ u).state = _
    rw [List.Nodup.mem_erase_iff h.tree_nodup, h.running]
    exact ne_and_state_iff ts.timer (by simp) u
  waiting := by
    intro u
    show u ∈ ts.expired ++ [t] ↔ (Function.update ts.timer t _ u).state = _
    rw [List.mem_append, List.mem_singleton, h.waiting]
    by_cases hne : u = t
    · subst hne
      rw [Function.update_self]
      exact iff_of_true (Or.inr rfl) rfl
    · rw [Function.update_of_ne hne]
      exact or_iff_left hne
  nodup := by
    refine List.nodup_append.mpr ⟨h.nodup, List.nodup_singleton _, ?_⟩
    rintro a ha b hb rfl
    rw [List.mem_singleton.mp hb] at ha
    exact h.not_expired ht ha
  range := by
    intro u hu
    rw [(sameTimers_expire ts ((h.running t).mp ht)).absTime u]
    exact h.range u (List.mem_of_mem_erase hu)

/-- 移している途中の状態。列は時刻の順に並び、木にあるものより早く、`stop` までのものだけである。 -/
structure Moving (ts : Timers) (stop : Int) : Prop where
  placed : Placed ts.timer ts.tree ts.expired
  sorted : ts.expired.Pairwise fun a b => ts.absTime a ≤ ts.absTime b
  front : ∀ a ∈ ts.expired, ∀ b ∈ ts.tree, ts.absTime a ≤ ts.absTime b
  le_stop : ∀ a ∈ ts.expired, ts.absTime a ≤ stop

theorem absTime_expire (ts : Timers) (t : Nat) : (ts.expire t).absTime = ts.absTime :=
  absTime_setState ts t .expired

theorem Moving.expire (h : Moving ts stop) (htree : ts.tree = t :: rest)
    (hle : ts.absTime t ≤ stop) : Moving (ts.expire t) stop := by
  have ht : t ∈ ts.tree := htree ▸ List.mem_cons_self
  refine ⟨h.placed.expire ht, ?_, ?_, ?_⟩
  · rw [absTime_expire]
    refine List.pairwise_append.mpr ⟨h.sorted, List.pairwise_singleton _ _, fun a ha b hb => ?_⟩
    rw [List.mem_singleton.mp hb]
    exact h.front a ha t ht
  · rw [absTime_expire]
    intro a ha b hb
    rcases List.mem_append.mp ha with ha | ha
    · exact h.front a ha b (List.mem_of_mem_erase hb)
    · rw [List.mem_singleton.mp ha]
      have hb : b ∈ rest := by
        change b ∈ ts.tree.erase t at hb
        rwa [htree, List.erase_cons_head] at hb
      have hord := h.placed.ordered
      rw [htree] at hord
      exact le_of_compareTimers (List.rel_of_pairwise_cons hord hb)
  · rw [absTime_expire]
    intro a ha
    rcases List.mem_append.mp ha with ha | ha
    · exact h.le_stop a ha
    · rw [List.mem_singleton.mp ha]
      exact hle

/-- loop は、木の先頭から `stop` までの timer を移して終わる。移すものがなければ何も変わらない。 -/
theorem moveUntil_ok (check : Int → Prop) [DecidablePred check] (moved : Bool) {l : List Nat}
    (h : Moving ts stop) (hl : ts.tree = l) (hcheck : ∀ t ∈ l, check (ts.absTime t)) :
    ∃ timer tree expired moved', moveUntil check stop moved l ts =
        .ok ({ ts with timer := timer, tree := tree, expired := expired }, moved') ∧
      Moving { ts with timer := timer, tree := tree, expired := expired } stop ∧
        SameTimers ts.timer timer ∧
      (moved = true → moved' = true) := by
  induction l generalizing ts moved with
  | nil => exact ⟨ts.timer, ts.tree, ts.expired, moved, rfl, h, .refl _, id⟩
  | cons t rest ih =>
    have ht : t ∈ ts.tree := hl ▸ List.mem_cons_self
    have hrun : (ts.timer t).state = .running := (h.placed.running t).mp ht
    unfold moveUntil
    rw [ensure_bind hrun, ensure_bind (hcheck t List.mem_cons_self)]
    split
    next => exact ⟨ts.timer, ts.tree, ts.expired, moved, rfl, h, .refl _, id⟩
    next hle =>
      have htree : (ts.expire t).tree = rest := by
        show ts.tree.erase t = rest
        rw [hl, List.erase_cons_head]
      have hcheck' : ∀ u ∈ rest, check ((ts.expire t).absTime u) := by
        intro u hu
        rw [absTime_expire]
        exact hcheck u (List.mem_cons_of_mem _ hu)
      obtain ⟨timer, tree, expired, moved', heq, hmoving, hsame, hmoved⟩ :=
        ih true (h.expire hl (Int.not_lt.mp hle)) htree hcheck'
      exact ⟨timer, tree, expired, moved', heq, hmoving, (sameTimers_expire ts hrun).trans hsame,
        fun _ => hmoved rfl⟩

/-- 移し終えれば、次の回の列になる。 -/
theorem Moving.inv {timer : Nat → BSmallTimer} {tree expired : List Nat} (h : Inv ts clock)
    (hm : Moving { ts with timer := timer, tree := tree, expired := expired, batch := ts.batch + 1 }
      stop)
    (hsame : SameTimers ts.timer timer) (hstop : stop ≤ clock) :
    Inv { ts with timer := timer, tree := tree, expired := expired, batch := ts.batch + 1 }
      clock where
  placed := hm.placed
  ripe := by
    refine ⟨fun t ht => Int.le_trans (hm.le_stop t ht) hstop, hm.sorted, ?_⟩
    intro x hx hbatch
    have hle := h.chronicle.batch_le x hx
    have heq : x.batch = ts.batch + 1 := hbatch
    omega
  numbered := h.numbered
  chronicle := { h.chronicle with
    batch_le := fun x hx => Nat.le_succ_of_le (h.chronicle.batch_le x hx) }
  asked := fun t => (h.asked t).trans (hsame.pending t).symm

theorem Inv.moving (h : Inv ts clock) (hempty : ts.expired = []) (stop : Int) :
    Moving { ts with batch := ts.batch + 1 } stop where
  placed := h.placed
  sorted := h.ripe.sorted
  front := by
    intro a ha
    rw [hempty] at ha
    exact absurd ha List.not_mem_nil
  le_stop := by
    intro a ha
    rw [hempty] at ha
    exact absurd ha List.not_mem_nil

/-- 時刻の来た timer があれば移す。無ければ、木の先頭の時刻は先である。 -/
theorem Inv.moveExpired (h : Inv ts clock) (hempty : ts.expired = [])
    (htree : ts.tree = t :: rest) :
    ∃ ts' moved, ts.moveExpiredTimers clock = .ok (ts', moved) ∧ Inv ts' clock ∧
      (moved = false → ts' = { ts with batch := ts.batch + 1 } ∧ clock < ts.absTime t) := by
  have hmoving : Moving { ts with batch := ts.batch + 1 } clock := h.moving hempty clock
  by_cases hlt : ts.absTime t > clock
  · refine ⟨{ ts with batch := ts.batch + 1 }, false, ?_, ?_, fun _ => ⟨rfl, hlt⟩⟩
    · have hrun : (ts.timer t).state = .running :=
        (h.placed.running t).mp (htree ▸ List.mem_cons_self)
      refine (congrArg
        (moveUntil (fun _ => True) clock false · { ts with batch := ts.batch + 1 }) htree).trans ?_
      unfold moveUntil
      rw [ensure_bind (by exact hrun), ensure_bind trivial]
      exact if_pos hlt
    · exact Moving.inv h hmoving (.refl _) (Int.le_refl _)
  · -- 先頭を移した後は、移したことを忘れない
    have hrun : (ts.timer t).state = .running :=
      (h.placed.running t).mp (htree ▸ List.mem_cons_self)
    have hfirst : Moving ({ ts with batch := ts.batch + 1 }.expire t) clock :=
      hmoving.expire htree (Int.not_lt.mp hlt)
    obtain ⟨timer, tree, expired, moved, heq, hm, hsame, hmoved⟩ :=
      moveUntil_ok (fun _ => True) true (l := rest) hfirst
        (by show ts.tree.erase t = rest; rw [htree, List.erase_cons_head]) (fun _ _ => trivial)
    refine ⟨_, moved, ?_, Moving.inv h hm
      ((sameTimers_expire { ts with batch := ts.batch + 1 } hrun).trans hsame)
      (Int.le_refl _), fun hfalse => ?_⟩
    · refine (congrArg
        (moveUntil (fun _ => True) clock false · { ts with batch := ts.batch + 1 }) htree).trans ?_
      unfold moveUntil
      rw [ensure_bind (by exact hrun), ensure_bind trivial]
      exact (if_neg hlt).trans heq
    · rw [hmoved rfl] at hfalse
      cases hfalse

/-- 待つのを終えて、最も早い timer を移す。 -/
theorem Inv.moveFirst (h : Inv ts clock) (hempty : ts.expired = []) (htree : ts.tree = t :: rest)
    (hdue : ts.absTime t ≤ clock) : ∃ ts', ts.moveFirstTimers = .ok ts' ∧ Inv ts' clock := by
  have hrun : (ts.timer t).state = .running := (h.placed.running t).mp (htree ▸ List.mem_cons_self)
  have hfirst : Moving ({ ts with batch := ts.batch + 1 }.expire t) (ts.absTime t) :=
    (h.moving hempty (ts.absTime t)).expire htree (Int.le_refl _)
  have hcheck : ∀ u ∈ rest, ts.absTime t ≤ ({ ts with batch := ts.batch + 1 }.expire t).absTime
      u := by
    intro u hu
    rw [absTime_expire]
    have hord := h.placed.ordered
    rw [htree] at hord
    exact le_of_compareTimers (List.rel_of_pairwise_cons hord hu)
  obtain ⟨timer, tree, expired, moved, heq, hm, hsame, -⟩ :=
    moveUntil_ok (ts.absTime t ≤ ·) true (l := rest) hfirst
      (by show ts.tree.erase t = rest; rw [htree, List.erase_cons_head]) hcheck
  refine ⟨_, ?_, Moving.inv h hm
    ((sameTimers_expire { ts with batch := ts.batch + 1 } hrun).trans hsame) hdue⟩
  unfold moveFirstTimers
  split
  next hnil => rw [hnil] at htree; cases htree
  next first rest' hcons =>
    obtain ⟨rfl, rfl⟩ := List.cons.inj (htree.symm.trans hcons)
    rw [ensure_bind hrun]
    dsimp only
    rw [heq]
    rfl

/-! ## handler を呼ぶこと -/

theorem Inv.fire (h : Inv ts clock) (hexpired : ts.expired = t :: rest) :
    ∃ ts', ts.fire clock t = .ok ts' ∧ Inv ts' clock := by
  have ht : t ∈ ts.expired := hexpired ▸ List.mem_cons_self
  have hstate : (ts.timer t).state = .expired := (h.placed.waiting t).mp ht
  have htime : (ts.setting t).map (·.time) = some (ts.absTime t) := by
    rw [h.asked, pending, if_neg (by rw [hstate]; decide)]
    rfl
  unfold Timers.fire
  rw [ensure_bind hstate]
  refine ⟨_, rfl, ?_, ?_, ?_, ?_, asked_update h rfl⟩
  · have htree : ts.tree.erase t = ts.tree := List.erase_of_not_mem (h.placed.not_tree ht)
    have := h.placed.remove t
    rwa [htree] at this
  · have hripe := h.ripe.erase t
    show Ripe (ts.setState t .inactive).absTime _ _ _ _
    rw [absTime_setState]
    refine { hripe with after := ?_ }
    intro x hx hbatch a ha u hu
    rcases List.mem_append.mp hx with hx | hx
    · exact hripe.after x hx hbatch a ha u hu
    · rw [List.mem_singleton.mp hx] at ha
      obtain rfl := Option.some.inj (htime.symm.trans ha)
      have hsorted := h.ripe.sorted
      rw [hexpired, List.erase_cons_head] at hu
      rw [hexpired] at hsorted
      exact List.rel_of_pairwise_cons hsorted hu
  · refine h.numbered.spend ?_
    show ((ts.fired ++ [_]).filterMap Fired.number ++ ts.cancelled).Perm _
    rw [List.filterMap_append, List.append_assoc]
    have hlast : [(⟨t, ts.setting t, clock, ts.batch⟩ : Fired)].filterMap Fired.number =
        ((ts.setting t).map (·.number)).toList := by
      rw [List.filterMap_cons, Fired.number]
      cases (ts.setting t).map (·.number) <;> rfl
    rw [hlast, spent, ← List.append_assoc, ← List.append_assoc]
    exact List.perm_append_comm.append_right _
  · refine ⟨?_, ?_, ?_⟩
    · intro x hx
      rcases List.mem_append.mp hx with hx | hx
      · exact h.chronicle.due x hx
      · rw [List.mem_singleton.mp hx]
        exact ⟨_, htime, h.ripe.due t ht⟩
    · intro x hx
      rcases List.mem_append.mp hx with hx | hx
      · exact h.chronicle.batch_le x hx
      · rw [List.mem_singleton.mp hx]
        exact Nat.le_refl ts.batch
    · refine List.pairwise_append.mpr ⟨h.chronicle.sorted, List.pairwise_singleton _ _, ?_⟩
      intro x hx y hy hbatch a ha b hb
      rw [List.mem_singleton.mp hy] at hbatch hb
      obtain rfl := Option.some.inj (htime.symm.trans hb)
      exact h.ripe.after x hx hbatch a ha t ht

/-- timer は、仕掛けた通りに鳴る。 -/
structure Punctual (ts : Timers) : Prop where
  running : ∀ t, t ∈ ts.tree ↔ (ts.timer t).state = .running
  expired : ∀ t, t ∈ ts.expired ↔ (ts.timer t).state = .expired
  inactive : ∀ t, t ∉ ts.tree ∧ t ∉ ts.expired ↔ (ts.timer t).state = .inactive
  /-- 一度仕掛けたものは、高々一度鳴る。 -/
  once : (ts.fired.filterMap Fired.number).Nodup
  /-- 外した、または仕掛け直したものは鳴らない。 -/
  uncancelled : ∀ x ∈ ts.fired, ∀ n ∈ x.number, n ∉ ts.cancelled
  /-- 鳴るのは仕掛けたものだけで、呼び出しの求めた時刻より早くはない。 -/
  due : ∀ x ∈ ts.fired, ∃ a ∈ x.time, a ≤ x.clock
  sorted : ts.fired.Pairwise fun x y => x.batch = y.batch → ∀ a ∈ x.time, ∀ b ∈ y.time, a ≤ b

theorem Inv.punctual (h : Inv ts clock) : Punctual ts where
  running := h.placed.running
  expired := h.placed.waiting
  inactive := by
    intro t
    rw [h.placed.running, h.placed.waiting]
    cases (ts.timer t).state <;> decide
  once := (List.nodup_append.mp h.numbered.spent_nodup).1
  uncancelled := by
    intro x hx n hn hcancelled
    exact (List.nodup_append.mp h.numbered.spent_nodup).2.2 n (List.mem_filterMap.mpr ⟨x, hx, hn⟩) n
      hcancelled rfl
  due := h.chronicle.due
  sorted := h.chronicle.sorted

end Timers

end Reactor
