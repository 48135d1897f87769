import PsiphonVpn.Base.SLinkedList
import PsiphonVpn.Infra.JobStack

/-!
# job の列

`base/BPending.c` の `BPendingGroup` と `BSmallPending`。job は侵入型の list に並び、`BPendingGroup_ExecuteJob`
は先頭のものを外してその handler を呼ぶ。

## model

* **job** は番地 `P` で呼ぶ。`handler` と `user` の組は、中を見ない値 `H` である
* **handler** は `BPendingGroup_ExecuteJob` の最後に呼ばれ、戻った後にすることは無い。handler のすることは、続く事象として現れる。
  handler の中から `BPendingGroup_ExecuteJob` を呼ぶ場合も同じである
* **使っていない object の memory** は、何にでも書き変わりうる（`PendingEvent.reuse`）
* `pending` は `NDEBUG` でない時にだけある field で、`ASSERT` が読む

`log` は、呼ばれた関数と走った job の記録である。
-/

namespace Base

open Infra

inductive PendingEntry (P H : Type) where
  | init (p : P) (handler : H)
  | setHandler (p : P) (handler : H)
  | set (p : P)
  | unset (p : P)
  | free (p : P)
  /-- job `p` の handler が呼ばれた。 -/
  | executed (p : P) (handler : H)
  deriving DecidableEq, Repr

structure BPendingGroup (P H : Type) where
  jobs : SLinkedList P
  pending : P → Bool
  handler : P → H
  /-- 初期化されていて、解放されていない。 -/
  live : P → Bool
  log : List (PendingEntry P H)

namespace BPendingGroup

variable {P H : Type} [DecidableEq P]

/-- `BPendingGroup_Init`。object の memory には何が入っていてもよい。 -/
def init (node : P → SLinkedListNode P) (pending : P → Bool) (handler : P → H) :
    BPendingGroup P H :=
  { jobs := ⟨none, node⟩, pending, handler, live := fun _ => false, log := [] }

def record (g : BPendingGroup P H) (x : PendingEntry P H) : BPendingGroup P H :=
  { g with log := g.log ++ [x] }

def hasJobs (g : BPendingGroup P H) : Bool := !g.jobs.isEmpty

/-- `BPendingGroup_ExecuteJob` -/
def executeJob (g : BPendingGroup P H) : Except Fault (BPendingGroup P H) := do
  check .assertion (g.jobs.isEmpty = false)
  let p ← SLinkedList.deref g.jobs.first
  check .assertion (g.jobs.isRemoved p = false)
  check .assertion (g.pending p = true)
  let jobs ← g.jobs.removeFirst
  pure ({ g with jobs := jobs.markRemoved p, pending := Function.update g.pending p false }.record
    (.executed p (g.handler p)))

end BPendingGroup

namespace BSmallPending

variable {P H : Type} [DecidableEq P]

/-- `BSmallPending_Init` -/
def init (g : BPendingGroup P H) (o : P) (handler : H) : BPendingGroup P H :=
  { g with
    handler := Function.update g.handler o handler
    jobs := g.jobs.markRemoved o
    pending := Function.update g.pending o false
    live := Function.update g.live o true }.record (.init o handler)

/-- `BSmallPending_SetHandler` -/
def setHandler (g : BPendingGroup P H) (o : P) (handler : H) : BPendingGroup P H :=
  { g with handler := Function.update g.handler o handler }.record (.setHandler o handler)

/-- `BSmallPending_Free` と `BSmallPending_Set` の、積まれていれば外す所。 -/
def removeFromList (g : BPendingGroup P H) (o : P) : Except Fault (SLinkedList P) :=
  if g.jobs.isRemoved o = false then g.jobs.remove o else .ok g.jobs

/-- `BSmallPending_Free` -/
def free (g : BPendingGroup P H) (o : P) : Except Fault (BPendingGroup P H) := do
  check .assertion (g.pending o = !g.jobs.isRemoved o)
  let jobs ← removeFromList g o
  pure ({ g with jobs, live := Function.update g.live o false }.record (.free o))

/-- `BSmallPending_Set` -/
def set (g : BPendingGroup P H) (o : P) : Except Fault (BPendingGroup P H) := do
  check .assertion (g.pending o = !g.jobs.isRemoved o)
  let jobs ← removeFromList g o
  pure ({ g with jobs := jobs.prepend o, pending := Function.update g.pending o true }.record
    (.set o))

/-- `BSmallPending_Unset` -/
def unset (g : BPendingGroup P H) (o : P) : Except Fault (BPendingGroup P H) := do
  check .assertion (g.pending o = !g.jobs.isRemoved o)
  if g.jobs.isRemoved o = false then
    let jobs ← g.jobs.remove o
    pure ({ g with jobs := jobs.markRemoved o, pending := Function.update g.pending o false }.record
      (.unset o))
  else pure (g.record (.unset o))

/-- `BSmallPending_IsSet` -/
def isSet (g : BPendingGroup P H) (o : P) : Except Fault Bool := do
  check .assertion (g.pending o = !g.jobs.isRemoved o)
  pure (!g.jobs.isRemoved o)

end BSmallPending

inductive PendingEvent (P H : Type) where
  | init (p : P) (handler : H)
  | setHandler (p : P) (handler : H)
  | set (p : P)
  | unset (p : P)
  | free (p : P)
  | executeJob
  /-- 使っていない object の memory が書き変わる。 -/
  | reuse (p : P) (node : SLinkedListNode P) (pending : Bool) (handler : H)

namespace BPendingGroup

variable {P H : Type} [DecidableEq P]

/-- 初期化するのは使っていない object、他の関数に渡すのは使っている object であり、`BPendingGroup_ExecuteJob` は `HasJobs` の時に呼ぶ。 -/
def step (g : BPendingGroup P H) : PendingEvent P H → Option (Except Fault (BPendingGroup P H))
  | .init p handler =>
    if g.live p = false then some (.ok (BSmallPending.init g p handler)) else none
  | .setHandler p handler =>
    if g.live p = true then some (.ok (BSmallPending.setHandler g p handler)) else none
  | .set p => if g.live p = true then some (BSmallPending.set g p) else none
  | .unset p => if g.live p = true then some (BSmallPending.unset g p) else none
  | .free p => if g.live p = true then some (BSmallPending.free g p) else none
  | .executeJob => if g.hasJobs = true then some g.executeJob else none
  | .reuse p node pending handler =>
    if g.live p = false then
      some (.ok { g with
        jobs := { g.jobs with node := Function.update g.jobs.node p node }
        pending := Function.update g.pending p pending
        handler := Function.update g.handler p handler })
    else none

end BPendingGroup

/-! ## 抽象の stack -/

/-- job の stack と、取り出して走らせた job。 -/
structure JobSpec (P : Type) where
  stack : JobStack P
  executed : List P

namespace JobSpec

variable {P H : Type} [DecidableEq P]

def init : JobSpec P := ⟨⟨[], List.nodup_nil⟩, []⟩

def step (s : JobSpec P) : PendingEvent P H → JobSpec P
  | .set p => { s with stack := s.stack.set p }
  | .unset p | .free p => { s with stack := s.stack.unset p }
  | .executeJob =>
    match s.stack.pop with
    | some (p, rest) => ⟨rest, s.executed ++ [p]⟩
    | none => s
  | .init _ _ | .setHandler _ _ | .reuse _ _ _ _ => s

/-- 事象の列が作る stack。 -/
def run (es : List (PendingEvent P H)) : JobSpec P := es.foldl step init

end JobSpec

/-! ## 記録 -/

namespace PendingEntry

variable {P H : Type}

/-- それまでの `Set` を使い切るか、取り消す。 -/
def Disarms (p : P) : PendingEntry P H → Prop
  | .executed q _ | .unset q | .free q | .init q _ => q = p
  | .set _ | .setHandler _ _ => False

/-- 走った job -/
def executed? : PendingEntry P H → Option P
  | .executed p _ => some p
  | _ => none

/-- `p` に与えた handler -/
def gives? [DecidableEq P] (p : P) : PendingEntry P H → Option H
  | .init q h | .setHandler q h => if q = p then some h else none
  | _ => none

/-- `p` の `Set` があって、その後に使い切られても取り消されてもいない。 -/
def Armed (log : List (PendingEntry P H)) (p : P) : Prop :=
  ∃ before after, log = before ++ .set p :: after ∧ ∀ x ∈ after, ¬x.Disarms p

/-- `p` に最後に与えた handler -/
def given [DecidableEq P] (log : List (PendingEntry P H)) (p : P) : Option H :=
  (log.filterMap (gives? p)).getLast?

variable {log : List (PendingEntry P H)} {x : PendingEntry P H} {p : P}

theorem armed_append_set : Armed (log ++ [.set p]) p := ⟨log, [], rfl, by simp⟩

theorem not_armed_of_disarms (hx : x.Disarms p) : ¬Armed (log ++ [x]) p := by
  rintro ⟨before, after, heq, hafter⟩
  rcases List.eq_nil_or_concat' after with rfl | ⟨after, y, rfl⟩
  · obtain ⟨-, he⟩ := List.append_inj' heq rfl
    obtain rfl : x = .set p := by simpa using he
    exact hx
  · rw [← List.cons_append, ← List.append_assoc] at heq
    obtain ⟨-, he⟩ := List.append_inj' heq rfl
    obtain rfl : x = y := by simpa using he
    exact hafter x (by simp) hx

/-- `p` を使い切りも取り消しもせず、`p` の `Set` でもない記録は、`Armed` を変えない。 -/
theorem armed_append_iff (hset : x ≠ .set p) (hx : ¬x.Disarms p) :
    Armed (log ++ [x]) p ↔ Armed log p := by
  constructor
  · rintro ⟨before, after, heq, hafter⟩
    rcases List.eq_nil_or_concat' after with rfl | ⟨after, y, rfl⟩
    · obtain ⟨-, he⟩ := List.append_inj' heq rfl
      exact absurd (by simpa using he) hset
    · rw [← List.cons_append, ← List.append_assoc] at heq
      obtain ⟨rfl, -⟩ := List.append_inj' heq rfl
      exact ⟨before, after, rfl, fun z hz => hafter z (by simp [hz])⟩
  · rintro ⟨before, after, rfl, hafter⟩
    refine ⟨before, after ++ [x], by simp, fun z hz => ?_⟩
    rcases List.mem_append.mp hz with hz | hz
    · exact hafter z hz
    · obtain rfl : z = x := by simpa using hz
      exact hx

variable [DecidableEq P]

theorem given_append_of_none (h : gives? p x = none) : given (log ++ [x]) p = given log p := by
  simp [given, List.filterMap_append, h]

theorem given_append_of_some {h : H} (hx : gives? p x = some h) :
    given (log ++ [x]) p = some h := by
  simp [given, List.filterMap_append, hx]

end PendingEntry

open PendingEntry in
/-- 記録の中のどの実行も、使われていない `Set` によるものであり、その job に最後に与えた handler を呼んでいる。 -/
def Sound {P H : Type} [DecidableEq P] (log : List (PendingEntry P H)) : Prop :=
  ∀ before p h after, log = before ++ .executed p h :: after → Armed before p ∧
    given before p = some h

/-! ## list が stack を表すこと -/

section Refinement

variable {P H : Type} [DecidableEq P] {g g' : BPendingGroup P H} {s : JobSpec P} {p : P}

/-- memory は stack を表す。「積まれていない」ことは、`next` が自分を指すことで表す。 -/
structure Listed (g : BPendingGroup P H) (l : List P) : Prop where
  linked : g.jobs.Linked l
  live : ∀ p ∈ l, g.live p = true
  removed : ∀ p, g.live p = true → p ∉ l → (g.jobs.node p).next = some p
  pending : ∀ p, g.live p = true → (g.pending p = true ↔ p ∈ l)

/-- 記録は stack と合っている。 -/
structure Logged (g : BPendingGroup P H) (s : JobSpec P) : Prop where
  executed : g.log.filterMap PendingEntry.executed? = s.executed
  armed : ∀ p, PendingEntry.Armed g.log p ↔ p ∈ s.stack
  given : ∀ p, g.live p = true → PendingEntry.given g.log p = some (g.handler p)
  sound : Sound g.log

variable {l : List P}

theorem Listed.isRemoved_iff (h : Listed g l) (hp : g.live p = true) :
    g.jobs.isRemoved p = true ↔ p ∉ l := by
  constructor
  · intro hr hmem
    rw [h.linked.isRemoved_eq_false hmem] at hr
    cases hr
  · intro hmem
    rw [SLinkedList.isRemoved, h.removed p hp hmem]
    exact beq_self_eq_true _

/-- `ASSERT(o->pending == !BPending__ListIsRemoved(o))` -/
theorem Listed.pending_eq (h : Listed g l) (hp : g.live p = true) :
    g.pending p = !g.jobs.isRemoved p := by
  rw [Bool.eq_iff_iff, h.pending p hp, Bool.not_eq_true', ← Bool.not_eq_true, h.isRemoved_iff hp,
    not_not]

/-- 積まれていれば外す。他の要素の `next` は、積まれていない限り変わらない。 -/
theorem Listed.removeFromList (h : Listed g l) (hp : g.live p = true) :
    ∃ o, BSmallPending.removeFromList g p = .ok o ∧
      o.Linked (l.erase p) ∧ ∀ a ∉ l, (o.node a).next = (g.jobs.node a).next := by
  unfold BSmallPending.removeFromList
  by_cases hmem : p ∈ l
  · rw [if_pos (h.linked.isRemoved_eq_false hmem)]
    exact h.linked.remove hmem
  · rw [if_neg (by simp [(h.isRemoved_iff hp).mpr hmem]), List.erase_of_not_mem hmem]
    exact ⟨g.jobs, rfl, h.linked, fun _ _ => rfl⟩

/-- `p` を除いた列と、`p` 以外では変わらない field から、`p` を積まれていないものとする。 -/
theorem Listed.drop (h : Listed g l) {o : SLinkedList P} {rest : List P}
    (hrest : ∀ a, a ∈ rest ↔ a ≠ p ∧ a ∈ l) (ho : o.Linked rest)
    (hframe : ∀ a ∉ l, (o.node a).next = (g.jobs.node a).next) (log : List (PendingEntry P H)) :
    Listed { g with jobs := o.markRemoved p, pending := Function.update g.pending p false, log }
      rest := by
  have hp : p ∉ rest := fun hmem => ((hrest p).mp hmem).1 rfl
  refine ⟨ho.setNext hp _, fun a ha => h.live a ((hrest a).mp ha).2, fun a hlive ha => ?_,
    fun a hlive => ?_⟩
  · show ((o.setNext p (some p)).node a).next = some a
    rw [SLinkedList.next_setNext]
    split
    · next he => rw [he]
    · next hne =>
      have hal : a ∉ l := fun hmem => ha ((hrest a).mpr ⟨hne, hmem⟩)
      rw [hframe a hal, h.removed a hlive hal]
  · show Function.update g.pending p false a = true ↔ a ∈ rest
    by_cases hap : a = p
    · subst hap
      simp [hp]
    · rw [Function.update_of_ne hap, h.pending a hlive, hrest]
      exact (and_iff_right hap).symm

theorem Listed.set (h : Listed g l) (hp : g.live p = true) :
    ∃ g', BSmallPending.set g p = .ok g' ∧ Listed g' (p :: l.erase p) ∧ g'.log = g.log ++ [.set p] ∧
      g'.live = g.live ∧ g'.handler = g.handler := by
  obtain ⟨o, ho, hlinked, hframe⟩ := h.removeFromList hp
  have hmem : ∀ a, a ∈ l.erase p ↔ a ≠ p ∧ a ∈ l := fun a => h.linked.nodup.mem_erase_iff
  refine ⟨{ g with jobs := o.prepend p, pending := Function.update g.pending p true }.record
    (.set p), ?_, ?_, rfl, rfl, rfl⟩
  · rw [BSmallPending.set, check_bind (h.pending_eq hp), ho, ok_bind]
    rfl
  refine ⟨hlinked.prepend fun hin => ((hmem p).mp hin).1 rfl, fun a ha => ?_, fun a hlive ha => ?_,
    fun a hlive => ?_⟩
  · rcases List.mem_cons.mp ha with rfl | ha
    · exact hp
    · exact h.live a ((hmem a).mp ha).2
  · rw [List.mem_cons, not_or, hmem] at ha
    have hal : a ∉ l := fun hin => ha.2 ⟨ha.1, hin⟩
    show ((o.prepend p).node a).next = some a
    rw [SLinkedList.next_prepend, if_neg ha.1, hframe a hal, h.removed a hlive hal]
  · show Function.update g.pending p true a = true ↔ _
    by_cases hap : a = p
    · subst hap
      simp
    · rw [Function.update_of_ne hap, h.pending a hlive, List.mem_cons, hmem]
      simp [hap]

theorem Listed.unset (h : Listed g l) (hp : g.live p = true) :
    ∃ g', BSmallPending.unset g p = .ok g' ∧ Listed g' (l.erase p) ∧ g'.log = g.log ++ [.unset p] ∧
      g'.live = g.live ∧ g'.handler = g.handler := by
  by_cases hmem : p ∈ l
  · obtain ⟨o, ho, hlinked, hframe⟩ := h.linked.remove hmem
    refine ⟨_, ?_, h.drop (fun a => h.linked.nodup.mem_erase_iff) hlinked hframe
      (g.log ++ [.unset p]), rfl, rfl, rfl⟩
    rw [BSmallPending.unset, check_bind (h.pending_eq hp),
      if_pos (h.linked.isRemoved_eq_false hmem), ho]
    rfl
  · refine ⟨g.record (.unset p), ?_, ?_, rfl, rfl, rfl⟩
    · rw [BSmallPending.unset, check_bind (h.pending_eq hp),
        if_neg (by simp [(h.isRemoved_iff hp).mpr hmem])]
      rfl
    · rw [List.erase_of_not_mem hmem]
      exact ⟨h.linked, h.live, h.removed, h.pending⟩

theorem Listed.free (h : Listed g l) (hp : g.live p = true) :
    ∃ g', BSmallPending.free g p = .ok g' ∧ Listed g' (l.erase p) ∧ g'.log = g.log ++ [.free p] ∧
      g'.live = Function.update g.live p false ∧ g'.handler = g.handler := by
  obtain ⟨o, ho, hlinked, hframe⟩ := h.removeFromList hp
  have hmem : ∀ a, a ∈ l.erase p ↔ a ≠ p ∧ a ∈ l := fun a => h.linked.nodup.mem_erase_iff
  -- 使っている object は `p` ではない
  have hlive : ∀ a, Function.update g.live p false a = true → a ≠ p ∧ g.live a = true := by
    intro a ha
    by_cases hap : a = p
    · subst hap
      simp at ha
    · rw [Function.update_of_ne hap] at ha
      exact ⟨hap, ha⟩
  refine ⟨{ g with jobs := o, live := Function.update g.live p false }.record (.free p), ?_, ?_,
    rfl, rfl, rfl⟩
  · rw [BSmallPending.free, check_bind (h.pending_eq hp), ho, ok_bind]
    rfl
  refine ⟨hlinked, fun a ha => ?_, fun a ha hin => ?_, fun a ha => ?_⟩
  · obtain ⟨hap, hal⟩ := (hmem a).mp ha
    exact (Function.update_of_ne hap _ _).trans (h.live a hal)
  · obtain ⟨hap, ha⟩ := hlive a ha
    have hal : a ∉ l := fun hal => hin ((hmem a).mpr ⟨hap, hal⟩)
    exact (hframe a hal).trans (h.removed a ha hal)
  · obtain ⟨hap, ha⟩ := hlive a ha
    rw [hmem]
    exact (h.pending a ha).trans (and_iff_right hap).symm

theorem Listed.executeJob (h : Listed g (p :: l)) :
    ∃ g', g.executeJob = .ok g' ∧ Listed g' l ∧ g'.log = g.log ++ [.executed p (g.handler p)] ∧
      g'.live = g.live ∧ g'.handler = g.handler := by
  have hfirst : g.jobs.first = some p := h.linked.first
  have hp : p ∉ l := (List.nodup_cons.mp h.linked.nodup).1
  have hmem : p ∈ p :: l := List.mem_cons_self
  have hrest : ∀ a, a ∈ l ↔ a ≠ p ∧ a ∈ p :: l := by
    intro a
    constructor
    · exact fun ha => ⟨fun he => hp (he ▸ ha), List.mem_cons_of_mem _ ha⟩
    · exact fun ⟨hap, ha⟩ => List.mem_of_ne_of_mem hap ha
  refine ⟨_, ?_, h.drop hrest h.linked.tail (fun _ _ => rfl) (g.log ++ [.executed p (g.handler p)]),
    rfl, rfl, rfl⟩
  have hne : g.jobs.isEmpty = false := by rw [SLinkedList.isEmpty, hfirst]; rfl
  have hpending : g.pending p = true := (h.pending p (h.live p hmem)).mpr hmem
  rw [BPendingGroup.executeJob, check_bind hne, hfirst, SLinkedList.deref, ok_bind,
    check_bind (h.linked.isRemoved_eq_false hmem), check_bind hpending, h.linked.removeFirst]
  rfl

/-- `BSmallPending_Init` は、list にある object に触れない。 -/
theorem Listed.init (h : Listed g l) (hp : g.live p = false) (handler : H) :
    Listed (BSmallPending.init g p handler) l := by
  have hnot : p ∉ l := fun hmem => by simp [h.live p hmem] at hp
  refine ⟨h.linked.setNext hnot _, fun a ha => ?_, fun a hlive ha => ?_, fun a hlive => ?_⟩
  · have hap : a ≠ p := fun he => hnot (he ▸ ha)
    exact (Function.update_of_ne hap _ _).trans (h.live a ha)
  · show ((g.jobs.setNext p (some p)).node a).next = some a
    rw [SLinkedList.next_setNext]
    split
    · next he => rw [he]
    · next hap => exact h.removed a ((Function.update_of_ne hap _ _).symm.trans hlive) ha
  · show Function.update g.pending p false a = true ↔ a ∈ l
    by_cases hap : a = p
    · subst hap
      simp [hnot]
    · rw [Function.update_of_ne hap]
      exact h.pending a ((Function.update_of_ne hap _ _).symm.trans hlive)

/-- 使っていない object の memory は、list に関わらない。 -/
theorem Listed.reuse (h : Listed g l) (hp : g.live p = false) (node : SLinkedListNode P)
    (pending : Bool) (handler : P → H) :
    Listed { g with
      jobs := { g.jobs with node := Function.update g.jobs.node p node }
      pending := Function.update g.pending p pending
      handler } l := by
  have hlive : ∀ a, g.live a = true → a ≠ p := by
    rintro a ha rfl
    simp [ha] at hp
  have hnode : ∀ a, g.live a = true → Function.update g.jobs.node p node a = g.jobs.node a :=
    fun a ha => Function.update_of_ne (hlive a ha) _ _
  refine ⟨h.linked.congr rfl (fun a ha => ?_) fun a ha => ?_, h.live, fun a ha hmem => ?_,
    fun a ha => ?_⟩
  · exact congrArg SLinkedListNode.next (hnode a (h.live a ha))
  · exact congrArg SLinkedListNode.prev (hnode a (h.live a (List.mem_of_mem_tail ha)))
  · exact (congrArg SLinkedListNode.next (hnode a ha)).trans (h.removed a ha hmem)
  · show Function.update g.pending p pending a = true ↔ a ∈ l
    rw [Function.update_of_ne (hlive a ha)]
    exact h.pending a ha

/-! ## 記録が stack と合うこと -/

variable {x : PendingEntry P H}

theorem Sound.append {log : List (PendingEntry P H)} (h : Sound log)
    (hx : ∀ p handler, x = .executed p handler → PendingEntry.Armed log p ∧
      PendingEntry.given log p = some handler) :
    Sound (log ++ [x]) := by
  intro before p handler after heq
  rcases List.eq_nil_or_concat' after with rfl | ⟨after, y, rfl⟩
  · obtain ⟨rfl, he⟩ := List.append_inj' heq rfl
    exact hx p handler (by simpa using he)
  · rw [← List.cons_append, ← List.append_assoc] at heq
    obtain ⟨rfl, -⟩ := List.append_inj' heq rfl
    exact h before p handler after rfl

/-- 走らせること以外の記録を一つ足す。 -/
theorem Logged.append (h : Logged g s) {stack : JobStack P} (hlog : g'.log = g.log ++ [x])
    (hx : x.executed? = none) (harmed : ∀ p, PendingEntry.Armed (g.log ++ [x]) p ↔ p ∈ stack)
    (hgiven : ∀ p, g'.live p = true → PendingEntry.given (g.log ++ [x]) p = some (g'.handler p)) :
    Logged g' { s with stack } := by
  refine ⟨?_, ?_, ?_, ?_⟩
  · rw [hlog, List.filterMap_append, h.executed]
    simp [hx]
  · rw [hlog]
    exact harmed
  · rw [hlog]
    exact hgiven
  · rw [hlog]
    refine h.sound.append fun p handler he => ?_
    subst he
    cases hx

theorem armed_set_iff (h : Logged g s) (q : P) :
    PendingEntry.Armed (g.log ++ [.set p]) q ↔ q ∈ s.stack.set p := by
  rw [JobStack.mem_set]
  by_cases hq : q = p
  · subst hq
    exact iff_of_true PendingEntry.armed_append_set (Or.inl rfl)
  · rw [PendingEntry.armed_append_iff (fun he => hq (PendingEntry.set.inj he).symm) (fun hd => hd),
      h.armed]
    exact (or_iff_right hq).symm

/-- `p` だけを取り消す記録は、stack から `p` を除くことに当たる。 -/
theorem armed_disarm_iff (h : Logged g s) (hx : ∀ q, x.Disarms q ↔ p = q) (q : P) :
    PendingEntry.Armed (g.log ++ [x]) q ↔ q ≠ p ∧ q ∈ s.stack := by
  by_cases hq : q = p
  · subst hq
    exact iff_of_false (PendingEntry.not_armed_of_disarms ((hx q).mpr rfl)) fun hmem => hmem.1 rfl
  · have hset : x ≠ .set q := by
      rintro rfl
      exact (hx p).mpr rfl
    rw [PendingEntry.armed_append_iff hset (fun hd => hq ((hx q).mp hd).symm), h.armed]
    exact (and_iff_right hq).symm

theorem given_of_none (h : Logged g s) (hx : ∀ q, x.gives? q = none) (q : P)
    (hq : g.live q = true) : PendingEntry.given (g.log ++ [x]) q = some (g.handler q) := by
  rw [PendingEntry.given_append_of_none (hx q), h.given q hq]

theorem given_of_gives (h : Logged g s) {handler : H}
    (hx : ∀ q, x.gives? q = if p = q then some handler else none) (q : P)
    (hq : q = p ∨ g.live q = true) :
    PendingEntry.given (g.log ++ [x]) q = some (Function.update g.handler p handler q) := by
  by_cases hqp : q = p
  · subst hqp
    rw [Function.update_self]
    exact PendingEntry.given_append_of_some ((hx q).trans (if_pos rfl))
  · rw [Function.update_of_ne hqp,
      PendingEntry.given_append_of_none ((hx q).trans (if_neg (Ne.symm hqp))),
      h.given q (hq.resolve_left hqp)]

theorem Logged.executed_top (h : Logged g s) {rest : JobStack P}
    (hpop : s.stack.pop = some (p, rest)) (hlive : g.live p = true)
    (hlog : g'.log = g.log ++ [.executed p (g.handler p)]) (hlive' : g'.live = g.live)
    (hhandler : g'.handler = g.handler) : Logged g' ⟨rest, s.executed ++ [p]⟩ := by
  have hmem : p ∈ s.stack := (JobStack.mem_of_pop hpop p).mpr (Or.inl rfl)
  refine ⟨?_, fun q => ?_, fun q hq => ?_, ?_⟩
  · rw [hlog, List.filterMap_append, h.executed]
    rfl
  · rw [hlog, armed_disarm_iff h (fun _ => Iff.rfl), JobStack.mem_of_pop hpop]
    constructor
    · exact fun ⟨hne, hq⟩ => hq.resolve_left hne
    · exact fun hq => ⟨fun he => JobStack.notMem_of_pop hpop (he ▸ hq), Or.inr hq⟩
  · rw [hlive'] at hq
    rw [hlog, hhandler]
    exact given_of_none h (fun _ => rfl) q hq
  · rw [hlog]
    refine h.sound.append fun q handler he => ?_
    obtain ⟨rfl, rfl⟩ := PendingEntry.executed.inj he
    exact ⟨(h.armed p).mpr hmem, h.given p hlive⟩

/-! ## 一歩と run -/

/-- list の model は stack の model に従う。 -/
structure Refines (g : BPendingGroup P H) (s : JobSpec P) : Prop where
  listed : Listed g s.stack.jobs
  logged : Logged g s

theorem refines_step {e : PendingEvent P H} {r : Except Fault (BPendingGroup P H)} (h : Refines g s)
    (hstep : g.step e = some r) : ∃ g', r = .ok g' ∧ Refines g' (s.step e) := by
  cases e with
  | init p handler =>
    obtain ⟨hlive, rfl⟩ := of_ite_eq_some hstep
    have hnot : p ∉ s.stack := fun hmem => by simp [h.listed.live p hmem] at hlive
    refine ⟨_, rfl, h.listed.init hlive handler, h.logged.append rfl rfl (fun q => ?_) fun q hq =>
      ?_⟩
    · rw [armed_disarm_iff h.logged (fun _ => Iff.rfl)]
      exact and_iff_right_of_imp fun hq he => hnot (he ▸ hq)
    · refine given_of_gives h.logged (fun _ => rfl) q ?_
      by_cases hqp : q = p
      · exact Or.inl hqp
      · exact Or.inr ((Function.update_of_ne hqp _ _).symm.trans hq)
  | setHandler p handler =>
    obtain ⟨-, rfl⟩ := of_ite_eq_some hstep
    refine ⟨_, rfl, ⟨h.listed.linked, h.listed.live, h.listed.removed, h.listed.pending⟩,
      h.logged.append rfl rfl (fun q => ?_) fun q hq => given_of_gives h.logged (fun _ => rfl) q
        (Or.inr hq)⟩
    rw [PendingEntry.armed_append_iff (x := .setHandler p handler) nofun (fun hd => hd),
      h.logged.armed]
  | set p =>
    obtain ⟨hlive, rfl⟩ := of_ite_eq_some hstep
    obtain ⟨g', hg, hlisted, hlog, hl, hh⟩ := h.listed.set hlive
    refine ⟨g', hg, hlisted, h.logged.append hlog rfl (armed_set_iff h.logged) fun q hq => ?_⟩
    rw [hh]
    exact given_of_none h.logged (fun _ => rfl) q (hl ▸ hq)
  | unset p =>
    obtain ⟨hlive, rfl⟩ := of_ite_eq_some hstep
    obtain ⟨g', hg, hlisted, hlog, hl, hh⟩ := h.listed.unset hlive
    refine ⟨g', hg, hlisted, h.logged.append hlog rfl (fun q => ?_) fun q hq => ?_⟩
    · rw [armed_disarm_iff h.logged (fun _ => Iff.rfl), JobStack.mem_unset]
    · rw [hh]
      exact given_of_none h.logged (fun _ => rfl) q (hl ▸ hq)
  | free p =>
    obtain ⟨hlive, rfl⟩ := of_ite_eq_some hstep
    obtain ⟨g', hg, hlisted, hlog, hl, hh⟩ := h.listed.free hlive
    refine ⟨g', hg, hlisted, h.logged.append hlog rfl (fun q => ?_) fun q hq => ?_⟩
    · rw [armed_disarm_iff h.logged (fun _ => Iff.rfl), JobStack.mem_unset]
    · have hqp : q ≠ p := by
        rintro rfl
        simp [hl] at hq
      rw [hl, Function.update_of_ne hqp] at hq
      rw [hh]
      exact given_of_none h.logged (fun _ => rfl) q hq
  | executeJob =>
    obtain ⟨hjobs, rfl⟩ := of_ite_eq_some hstep
    cases hpop : s.stack.pop with
    | none =>
      have hfirst : g.jobs.first = none := by
        rw [h.listed.linked.first, JobStack.pop_eq_none.mp hpop]; rfl
      simp [BPendingGroup.hasJobs, SLinkedList.isEmpty, hfirst] at hjobs
    | some top =>
      obtain ⟨p, rest⟩ := top
      have hlisted := h.listed
      rw [JobStack.jobs_of_pop hpop] at hlisted
      obtain ⟨g', hg, hrest, hlog, hl, hh⟩ := hlisted.executeJob
      have hlive : g.live p = true := hlisted.live p List.mem_cons_self
      refine ⟨g', hg, ?_⟩
      simp only [JobSpec.step, hpop]
      exact ⟨hrest, h.logged.executed_top hpop hlive hlog hl hh⟩
  | reuse p node pending handler =>
    obtain ⟨hlive, rfl⟩ := of_ite_eq_some hstep
    refine ⟨_, rfl, h.listed.reuse hlive node pending _, h.logged.executed, h.logged.armed,
      fun q hq => ?_, h.logged.sound⟩
    have hqp : q ≠ p := by
      rintro rfl
      exact absurd (hlive.symm.trans hq) (by simp)
    exact (h.logged.given q hq).trans (congrArg some (Function.update_of_ne hqp _ _).symm)

theorem refines_exec {es : List (PendingEvent P H)} {r : Except Fault (BPendingGroup P H)}
    (h : Refines g s) (hrun : exec (guarded BPendingGroup.step) (.ok g) es = some r) :
    ∃ g', r = .ok g' ∧ Refines g' (es.foldl JobSpec.step s) := by
  induction es generalizing g s with
  | nil =>
    rw [exec_nil, Option.some.injEq] at hrun
    exact ⟨g, hrun.symm, h⟩
  | cons e es ih =>
    obtain ⟨r₁, he, hrest⟩ := exec_cons_eq_some.mp hrun
    obtain ⟨g₁, rfl, h₁⟩ := refines_step h he
    exact ih h₁ hrest

theorem refines_init (node : P → SLinkedListNode P) (pending : P → Bool) (handler : P → H) :
    Refines (BPendingGroup.init node pending handler) JobSpec.init := by
  refine ⟨⟨⟨rfl, List.nodup_nil, List.isChain_nil, nofun⟩, nofun, nofun, nofun⟩, rfl, fun p => ?_,
    nofun, ?_⟩
  · refine iff_of_false ?_ List.not_mem_nil
    rintro ⟨before, after, heq, -⟩
    simp [BPendingGroup.init] at heq
  · intro before p handler after heq
    simp [BPendingGroup.init] at heq

/--
job の list は、重複の無い stack である。

どの列でも故障は起きず、`First` から `Next` でたどった列は、`Set` で一番上に移し、`Unset` と `Free` で除き、`ExecuteJob` で一番上を取り出した
stack に等しい。走った job も、stack から取り出したものである。`IsSet` は stack にあることを言う。どの実行も、それより前の `Set` から、
間に実行・`Unset`・`Free` を挟まずに起きる。だから一つの `Set` による実行は高々一度で、`Unset` や `Free` の後には起きない。
-/
theorem pending_list_refines_stack (node : P → SLinkedListNode P) (pending : P → Bool)
    (handler : P → H) (es : List (PendingEvent P H)) (r : Except Fault (BPendingGroup P H))
    (hrun : exec (guarded BPendingGroup.step) (.ok (BPendingGroup.init node pending handler)) es =
      some r) :
    ∃ g, r = .ok g ∧
      (∀ n, (JobSpec.run es).stack.jobs.length ≤ n →
        SLinkedList.walk g.jobs.node n g.jobs.first = (JobSpec.run es).stack.jobs) ∧
      g.log.filterMap PendingEntry.executed? = (JobSpec.run es).executed ∧
      (∀ p, g.live p = true → BSmallPending.isSet g p =
        .ok (decide (p ∈ (JobSpec.run es).stack.jobs))) ∧
      ∀ before p h after, g.log = before ++ .executed p h :: after →
        PendingEntry.Armed before p ∧ PendingEntry.given before p = some h := by
  obtain ⟨g, rfl, h⟩ := refines_exec (refines_init node pending handler) hrun
  refine ⟨g, rfl, fun n hn => h.listed.linked.walk_eq hn, h.logged.executed, fun p hp => ?_,
    h.logged.sound⟩
  rw [BSmallPending.isSet, check_bind (h.listed.pending_eq hp)]
  refine congrArg Except.ok ?_
  rw [← h.listed.pending_eq hp, Bool.eq_iff_iff, h.listed.pending p hp, decide_eq_true_iff]
  exact Iff.rfl

end Refinement

/-- 積み直した job 0 が先に走り、中ほどの job 2 は解放で外れる。memory には初めから無関係な pointer が入っている。 -/
theorem pending_list_refines_stack_moved :
    ∃ g : BPendingGroup Nat Nat,
      exec (guarded BPendingGroup.step)
        (.ok (BPendingGroup.init (fun _ => ⟨some 7, some 8⟩) (fun _ => true) fun _ => 0))
        [.init 0 10, .init 1 11, .init 2 12, .set 0, .set 1, .set 2, .set 0, .executeJob, .set 0,
          .free 2, .reuse 2 ⟨some 0, some 1⟩ true 5] = some (.ok g) ∧
      SLinkedList.walk g.jobs.node 5 g.jobs.first = [0, 1] ∧
      g.log.filterMap PendingEntry.executed? = [0] ∧
      BSmallPending.isSet g 1 = .ok true := by
  obtain ⟨g, hg, hlive⟩ := exec_ok_exists BPendingGroup.step
    (BPendingGroup.init (fun _ => ⟨some 7, some 8⟩) (fun _ => true) fun _ =>
      0 : BPendingGroup Nat Nat)
    [.init 0 10, .init 1 11, .init 2 12, .set 0, .set 1, .set 2, .set 0, .executeJob, .set 0,
      .free 2, .reuse 2 ⟨some 0, some 1⟩ true 5] (fun g => g.live 1 = true) (by decide +kernel)
  obtain ⟨g', he, hwalk, hexecuted, hset, -⟩ := pending_list_refines_stack _ _ _ _ _ hg
  obtain rfl : g = g' := Except.ok.inj he
  exact ⟨g, hg, hwalk 5 (by decide), hexecuted, hset 1 hlive⟩

end Base
