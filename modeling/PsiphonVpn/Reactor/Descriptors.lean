import Mathlib.Data.List.Nodup
import PsiphonVpn.Reactor.Connection

/-!
# reactor の file descriptor

`system/BReactor_badvpn.c` の epoll の部分。`epoll_wait` の結果は `epoll_results` に溜まり、
`BReactor_Exec` が一つずつ配る。配る間に handler は descriptor を外したり足したりする。外した descriptor の結果が残っていれば、
`epoll_returned_ptr` を通して消す。

## model

* **記憶** `BFileDescriptor` は番地で呼ぶ。reactor に足していない間、その記憶に何が書かれるかは分からない（`FdAction.reuse`）
* **`epoll_returned_ptr`** は `epoll_results` の中を指すので、添字で表す
* **kernel** `watched` は `epoll_ctl` で登録されたものである。同じ fd を二度登録することはできず、`epoll_wait` は登録されたものを一度の呼び出しで
  高々一度返す

`added` は、`BReactor_AddFileDescriptor` が成功してから `BReactor_RemoveFileDescriptor` が呼ばれるまでの間、その登録の番号を
持つ。呼び出しのたびに、program の関数の外で書く（`perform`）。番号は kernel の登録と結果にも付いて回る。`batch` と
`dispatched` は配ったものの記録である。
-/

namespace Reactor

open Infra Flow

structure BFileDescriptor where
  fd : Nat
  active : Bool
  waitEvents : Dir → Bool
  epollReturnedPtr : Option Nat

/-- `struct epoll_event` -/
structure EpollEvent where
  ptr : Option Nat
  events : FdEvents
  registration : Nat

/-- kernel に登録されたもの。 -/
structure Watched where
  fd : Nat
  ptr : Nat
  registration : Nat
  deriving DecidableEq

/-- handler を呼んだ記録。`registered` は、結果の登録がその時に生きていたか。`waitEvents` はその時に待っていたもの。 -/
structure Dispatch where
  batch : Nat
  index : Nat
  bfd : Nat
  events : FdEvents
  registered : Bool
  waitEvents : Dir → Bool

structure Descriptors where
  bfd : Nat → BFileDescriptor
  watched : List Watched
  /-- `epoll_results` の初めの `epoll_results_num` 個 -/
  results : List EpollEvent
  /-- `epoll_results_pos` -/
  pos : Nat
  -- 記録
  added : Nat → Option Nat
  registrations : Nat
  batch : Nat
  dispatched : List Dispatch

/-- handler のすること。 -/
inductive FdAction where
  /-- 足していない descriptor の記憶に書く。`BFileDescriptor_Init` はその一つである。 -/
  | reuse (b : Nat) (content : BFileDescriptor)
  /-- `BReactor_AddFileDescriptor`。`accepted` は `epoll_ctl` の結果。 -/
  | add (b : Nat) (accepted : Bool)
  /-- `BReactor_RemoveFileDescriptor` -/
  | remove (b : Nat)
  /-- `BReactor_SetFileDescriptorEvents` -/
  | setEvents (b : Nat) (events : Dir → Bool)

def FdEvents.IsEmpty (events : FdEvents) : Prop :=
  (∀ d, events.ready d = false) ∧ events.error = false ∧ events.hup = false

instance (events : FdEvents) : Decidable events.IsEmpty := inferInstanceAs (Decidable (_ ∧ _ ∧ _))

/-- `BFileDescriptor_Init` -/
def BFileDescriptor.init (b : BFileDescriptor) (fd : Nat) : BFileDescriptor :=
  { b with fd := fd, active := false }

/-- `BSYSTEM_MAX_RESULTS` -/
def maxResults : Nat := 64

namespace Descriptors

def init (bfd : Nat → BFileDescriptor) : Descriptors where
  bfd := bfd
  watched := []
  results := []
  pos := 0
  added := fun _ => none
  registrations := 0
  batch := 0
  dispatched := []

def setBfd (p : Descriptors) (b : Nat) (content : BFileDescriptor) : Descriptors :=
  { p with bfd := Function.update p.bfd b content }

/-- fd が kernel に登録されている。`epoll_ctl` の `EPOLL_CTL_MOD`・`EPOLL_CTL_DEL` はこの時に成功する。 -/
def Known (p : Descriptors) (fd : Nat) : Prop := ∃ w ∈ p.watched, w.fd = fd

instance (p : Descriptors) (fd : Nat) : Decidable (p.Known fd) :=
  inferInstanceAs (Decidable (∃ w ∈ _, _))

/-- `BReactor_AddFileDescriptor` -/
def addFileDescriptor (p : Descriptors) (b : Nat) (accepted : Bool) : Except Fault Descriptors := do
  ensure ((p.bfd b).active = false)
  if accepted = true then
    pure
      { p.setBfd b { p.bfd b with
          epollReturnedPtr := none, active := true, waitEvents := fun _ => false } with
        watched := p.watched ++ [⟨(p.bfd b).fd, b, p.registrations⟩] }
  else
    pure p

/-- `epoll_returned_ptr` を通して `NULL` を書く。 -/
def writeThrough (results : List EpollEvent) : Option Nat → List EpollEvent
  | none => results
  | some i => results.modify i fun e => { e with ptr := none }

/-- `BReactor_RemoveFileDescriptor` -/
def removeFileDescriptor (p : Descriptors) (b : Nat) : Except Fault Descriptors := do
  ensure ((p.bfd b).active = true)
  ensure (p.Known (p.bfd b).fd)
  pure { p.setBfd b { p.bfd b with active := false } with
    watched := p.watched.filter fun w => w.fd ≠ (p.bfd b).fd
    results := writeThrough p.results (p.bfd b).epollReturnedPtr }

/-- `BReactor_SetFileDescriptorEvents` -/
def setFileDescriptorEvents (p : Descriptors) (b : Nat) (events : Dir → Bool) :
    Except Fault Descriptors := do
  ensure ((p.bfd b).active = true)
  if ∀ d, (p.bfd b).waitEvents d = events d then
    pure p
  else
    ensure (p.Known (p.bfd b).fd)
    pure (p.setBfd b { p.bfd b with waitEvents := events })

/-- `wait_for_events` の初め。配り終えた結果を捨てる。 -/
def clear (p : Descriptors) : Descriptors :=
  { p with results := [], pos := 0, batch := p.batch + 1 }

/-- `set_epoll_fd_pointers` の loop -/
def setPointersFrom (i : Nat) : List EpollEvent → Descriptors → Except Fault Descriptors
  | [], p => pure p
  | event :: rest, p =>
    match event.ptr with
    | none => .error (.reject .failed)
    | some b => do
      ensure ((p.bfd b).active = true)
      ensure ((p.bfd b).epollReturnedPtr = none)
      setPointersFrom (i + 1) rest (p.setBfd b { p.bfd b with epollReturnedPtr := some i })

/-- `set_epoll_fd_pointers` -/
def setEpollFdPointers (p : Descriptors) : Except Fault Descriptors := setPointersFrom 0 p.results p

/-- `epoll_wait` の書くもの。 -/
def toEvent (r : Watched × FdEvents) : EpollEvent := ⟨some r.1.ptr, r.2, r.1.registration⟩

/-- `epoll_wait` が descriptor を返した。 -/
def deliver (p : Descriptors) (returned : List (Watched × FdEvents)) : Except Fault Descriptors :=
  setEpollFdPointers { p with results := returned.map toEvent }

/-- handler に知らせるもの。 -/
def toReport (bfd : BFileDescriptor) (events : FdEvents) : FdEvents :=
  ⟨fun d => bfd.waitEvents d && events.ready d, events.error, events.hup⟩

/-- handler を呼ぶ。 -/
def callHandler (p : Descriptors) (index b : Nat) (registration : Nat) (events : FdEvents) :
    Descriptors :=
  { p with dispatched := p.dispatched ++ [{
      batch := p.batch, index := index, bfd := b, events := events,
      registered := decide (p.added b = some registration), waitEvents := (p.bfd b).waitEvents }] }

/-- `BReactor_Exec` が結果を一つ配る。handler を呼んだかどうかを返す。 -/
def dispatch (p : Descriptors) (event : EpollEvent) : Except Fault (Descriptors × Bool) :=
  match event.ptr with
  | none => pure ({ p with pos := p.pos + 1 }, false)
  | some b => do
    ensure ((p.bfd b).active = true)
    ensure ((p.bfd b).epollReturnedPtr = some p.pos)
    let cleared : Descriptors :=
      { p.setBfd b { p.bfd b with epollReturnedPtr := none } with pos := p.pos + 1 }
    let events := toReport (p.bfd b) event.events
    if events.IsEmpty then
      pure (cleared, false)
    else
      pure (cleared.callHandler p.pos b event.registration events, true)

def noteAdded (p : Descriptors) (b : Nat) : Descriptors :=
  { p with
    added := Function.update p.added b (some p.registrations)
    registrations := p.registrations + 1 }

def noteRemoved (p : Descriptors) (b : Nat) : Descriptors :=
  { p with added := Function.update p.added b none }

/-- 呼び出しと、その記録。使う側は、足していないものを外さず、足したものの記憶に触れない。 -/
def perform (p : Descriptors) : FdAction → Option (Except Fault Descriptors)
  | .reuse b content => if p.added b = none then some (.ok (p.setBfd b content)) else none
  | .add b accepted =>
    if (p.bfd b).active = false ∧ (accepted = true → ¬ p.Known (p.bfd b).fd) then
      some (do
        let p ← p.addFileDescriptor b accepted
        pure (if accepted = true then p.noteAdded b else p))
    else none
  | .remove b =>
    if p.added b ≠ none then
      some (do
        let p ← p.removeFileDescriptor b
        pure (p.noteRemoved b))
    else none
  | .setEvents b events =>
    if p.added b ≠ none then some (p.setFileDescriptorEvents b events) else none

/-- `epoll_wait` が返しうるもの。 -/
def Returnable (p : Descriptors) (returned : List (Watched × FdEvents)) : Prop :=
  returned ≠ [] ∧ returned.length ≤ maxResults ∧ (∀ r ∈ returned, r.1 ∈ p.watched) ∧
    (returned.map (·.1.fd)).Nodup

instance (p : Descriptors) (returned : List (Watched × FdEvents)) :
    Decidable (p.Returnable returned) :=
  inferInstanceAs (Decidable (_ ∧ _ ∧ _ ∧ _))

/-! ## 不変量 -/

/-- kernel の登録と、足されている descriptor とは一致する。 -/
structure Registered (p : Descriptors) : Prop where
  fds : (p.watched.map (·.fd)).Nodup
  watched : ∀ w ∈ p.watched,
    p.added w.ptr = some w.registration ∧ (p.bfd w.ptr).active = true ∧ (p.bfd w.ptr).fd = w.fd
  added : ∀ b n, p.added b = some n → ∃ w ∈ p.watched, w.ptr = b ∧ w.registration = n

/-- 添字が `lo` 以上 `hi` 未満の結果と、足されている descriptor の `epoll_returned_ptr` とは、互いに指し合う。 -/
structure Linked (p : Descriptors) (lo hi : Nat) : Prop where
  le : lo ≤ hi
  points : ∀ i e b, lo ≤ i → i < hi → p.results[i]? = some e → e.ptr = some b →
    p.added b = some e.registration ∧ (p.bfd b).epollReturnedPtr = some i
  back : ∀ b i, p.added b ≠ none → (p.bfd b).epollReturnedPtr = some i →
    lo ≤ i ∧ i < hi ∧ ∃ e, p.results[i]? = some e ∧ e.ptr = some b

/-- 呼んだ handler は足されたもので、知らせたのは待っているものだけである。一つの結果で二度呼ぶことはない。 -/
structure Logged (p : Descriptors) : Prop where
  earlier : ∀ x ∈ p.dispatched, x.batch < p.batch ∨ x.batch = p.batch ∧ x.index < p.pos
  once : (p.dispatched.map fun x => (x.batch, x.index)).Nodup
  current : ∀ x ∈ p.dispatched, x.registered = true
  wanted : ∀ x ∈ p.dispatched, ∀ d, x.events.ready d = true → x.waitEvents d = true

structure Inv (p : Descriptors) : Prop where
  registered : Registered p
  linked : Linked p p.pos p.results.length
  logged : Logged p

variable {p : Descriptors} {b : Nat}

theorem inv_init (bfd : Nat → BFileDescriptor) : Inv (init bfd) where
  registered := ⟨List.nodup_nil, fun w hw => absurd hw List.not_mem_nil, fun b n h => by cases h⟩
  linked := ⟨Nat.le_refl 0, fun i e b _ hi => absurd hi (Nat.not_lt_zero i),
    fun b i h => absurd rfl h⟩
  logged := ⟨fun x hx => absurd hx List.not_mem_nil, List.nodup_nil,
    fun x hx => absurd hx List.not_mem_nil, fun x hx => absurd hx List.not_mem_nil⟩

theorem Registered.active (h : Registered p) (hb : p.added b ≠ none) : (p.bfd b).active = true := by
  obtain ⟨n, hn⟩ := Option.ne_none_iff_exists'.mp hb
  obtain ⟨w, hw, rfl, -⟩ := h.added b n hn
  exact (h.watched w hw).2.1

theorem Registered.known (h : Registered p) (hb : p.added b ≠ none) : p.Known (p.bfd b).fd := by
  obtain ⟨n, hn⟩ := Option.ne_none_iff_exists'.mp hb
  obtain ⟨w, hw, rfl, -⟩ := h.added b n hn
  exact ⟨w, hw, (h.watched w hw).2.2.symm⟩

theorem Registered.eq_of_fd (h : Registered p) {v w : Watched} (hv : v ∈ p.watched)
    (hw : w ∈ p.watched)
    (hfd : v.fd = w.fd) : v = w := List.inj_on_of_nodup_map h.fds hv hw hfd

/-- 足されている descriptor の、`active` と `fd` を変えない書き換え。 -/
theorem Registered.setBfd (h : Registered p) {content : BFileDescriptor}
    (hkeep : p.added b ≠ none → content.active = (p.bfd b).active ∧ content.fd = (p.bfd b).fd) :
    Registered (p.setBfd b content) where
  fds := h.fds
  added := h.added
  watched := by
    intro w hw
    obtain ⟨hadded, hactive, hfd⟩ := h.watched w hw
    refine ⟨hadded, ?_⟩
    show (Function.update p.bfd b content w.ptr).active = true ∧
      (Function.update p.bfd b content w.ptr).fd = w.fd
    by_cases hne : w.ptr = b
    · subst hne
      obtain ⟨hactive', hfd'⟩ := hkeep (by rw [hadded]; exact Option.some_ne_none _)
      rw [Function.update_self, hactive', hfd']
      exact ⟨hactive, hfd⟩
    · rw [Function.update_of_ne hne]
      exact ⟨hactive, hfd⟩

/-- 足されている descriptor の、`epoll_returned_ptr` を変えない書き換え。 -/
theorem Linked.setBfd {lo hi : Nat} (h : Linked p lo hi) {content : BFileDescriptor}
    (hkeep : p.added b ≠ none → content.epollReturnedPtr = (p.bfd b).epollReturnedPtr) :
    Linked (p.setBfd b content) lo hi := by
  have hptr : ∀ c, p.added c ≠ none →
      (Function.update p.bfd b content c).epollReturnedPtr = (p.bfd c).epollReturnedPtr := by
    intro c hc
    by_cases hne : c = b
    · subst hne
      rw [Function.update_self, hkeep hc]
    · rw [Function.update_of_ne hne]
  refine ⟨h.le, ?_, ?_⟩
  · intro i e c hlo hhi he hc
    obtain ⟨hadded, hback⟩ := h.points i e c hlo hhi he hc
    refine ⟨hadded, (hptr c ?_).trans hback⟩
    rw [hadded]
    exact Option.some_ne_none _
  · intro c i hc hi'
    exact h.back c i hc ((hptr c hc).symm.trans hi')

/-! ## 足すことと外すこと -/

theorem Inv.reuse (h : Inv p) (hb : p.added b = none) (content : BFileDescriptor) :
    Inv (p.setBfd b content) where
  registered := h.registered.setBfd fun hne => absurd hb hne
  linked := h.linked.setBfd fun hne => absurd hb hne
  logged := { h.logged with }

theorem Registered.not_added (h : Registered p) (hactive : (p.bfd b).active = false) :
    p.added b = none := by
  by_contra hne
  rw [h.active hne] at hactive
  cases hactive

theorem Inv.add (h : Inv p) {accepted : Bool} (hactive : (p.bfd b).active = false)
    (hnew : accepted = true → ¬ p.Known (p.bfd b).fd) :
    ∃ p', p.addFileDescriptor b accepted = .ok p' ∧
      Inv (if accepted = true then p'.noteAdded b else p') := by
  unfold addFileDescriptor
  rw [ensure_bind hactive]
  have hnone : p.added b = none := h.registered.not_added hactive
  split
  next hacc =>
    refine ⟨_, rfl, ?_, ?_, { h.logged with }⟩
    · refine ⟨?_, ?_, ?_⟩
      · show ((p.watched ++ [_]).map Watched.fd).Nodup
        rw [List.map_append]
        refine List.nodup_append.mpr ⟨h.registered.fds, List.nodup_singleton _, ?_⟩
        rintro _ hv _ hx rfl
        obtain ⟨w, hw, hfd⟩ := List.mem_map.mp hv
        rw [List.map_singleton, List.mem_singleton] at hx
        exact hnew hacc ⟨w, hw, hfd.trans hx⟩
      · intro w hw
        show Function.update p.added b _ w.ptr = _ ∧
          (Function.update p.bfd b _ w.ptr).active = true ∧
          (Function.update p.bfd b _ w.ptr).fd = w.fd
        rcases List.mem_append.mp hw with hw | hw
        · obtain ⟨hadded, hold⟩ := h.registered.watched w hw
          have hne : w.ptr ≠ b := by
            rintro rfl
            rw [hnone] at hadded
            cases hadded
          rw [Function.update_of_ne hne, Function.update_of_ne hne]
          exact ⟨hadded, hold⟩
        · rw [List.mem_singleton.mp hw, Function.update_self, Function.update_self]
          exact ⟨rfl, rfl, rfl⟩
      · intro c n (hc : Function.update p.added b _ c = some n)
        by_cases hne : c = b
        · subst hne
          rw [Function.update_self, Option.some.injEq] at hc
          exact ⟨_, List.mem_append_right _ (List.mem_singleton_self _), rfl, hc⟩
        · rw [Function.update_of_ne hne] at hc
          obtain ⟨w, hw, hw'⟩ := h.registered.added c n hc
          exact ⟨w, List.mem_append_left _ hw, hw'⟩
    · refine ⟨h.linked.le, ?_, ?_⟩
      · intro i e c hlo hhi he hc
        obtain ⟨hadded, hback⟩ := h.linked.points i e c hlo hhi he hc
        have hne : c ≠ b := by
          rintro rfl
          rw [hnone] at hadded
          cases hadded
        show Function.update p.added b _ c = _ ∧ (Function.update p.bfd b _ c).epollReturnedPtr = _
        rw [Function.update_of_ne hne, Function.update_of_ne hne]
        exact ⟨hadded, hback⟩
      · intro c i (hc : Function.update p.added b _ c ≠ none)
          (hi : (Function.update p.bfd b _ c).epollReturnedPtr = some i)
        by_cases hne : c = b
        · subst hne
          rw [Function.update_self] at hi
          cases hi
        · rw [Function.update_of_ne hne] at hc hi
          exact h.linked.back c i hc hi
  next => exact ⟨p, rfl, h⟩

theorem length_writeThrough (results : List EpollEvent) (ptr : Option Nat) :
    (writeThrough results ptr).length = results.length := by
  cases ptr with
  | none => rfl
  | some i => exact List.length_modify ..

/-- 書いた所の他は変わらず、書いた所はどの descriptor も指さない。 -/
theorem getElem?_writeThrough {results : List EpollEvent} {ptr : Option Nat} {i : Nat}
    {e : EpollEvent} {c : Nat} (hc : e.ptr = some c) :
    (writeThrough results ptr)[i]? = some e ↔ results[i]? = some e ∧ ptr ≠ some i := by
  cases ptr with
  | none => simp [writeThrough]
  | some j =>
    show (results.modify j _)[i]? = some e ↔ _
    rw [List.getElem?_modify]
    by_cases hij : j = i
    · subst hij
      refine iff_of_false ?_ fun hx => hx.2 rfl
      intro he
      obtain ⟨e', -, rfl⟩ := Option.map_eq_some_iff.mp he
      rw [if_pos rfl] at hc
      cases hc
    · simp [hij]

theorem Inv.remove (h : Inv p) (hb : p.added b ≠ none) :
    ∃ p', p.removeFileDescriptor b = .ok p' ∧ Inv (p'.noteRemoved b) := by
  unfold removeFileDescriptor
  rw [ensure_bind (h.registered.active hb), ensure_bind (h.registered.known hb)]
  refine ⟨_, rfl, ?_, ?_, { h.logged with }⟩
  · refine ⟨(List.filter_sublist.map _).nodup h.registered.fds, ?_, ?_⟩
    · intro w hw
      obtain ⟨hw, hfd⟩ := List.mem_filter.mp hw
      obtain ⟨hadded, hactive, hfd'⟩ := h.registered.watched w hw
      have hne : w.ptr ≠ b := by
        rintro rfl
        exact of_decide_eq_true hfd hfd'.symm
      show Function.update p.added b none w.ptr = _ ∧
        (Function.update p.bfd b _ w.ptr).active = true ∧
        (Function.update p.bfd b _ w.ptr).fd = w.fd
      rw [Function.update_of_ne hne, Function.update_of_ne hne]
      exact ⟨hadded, hactive, hfd'⟩
    · intro c n (hc : Function.update p.added b none c = some n)
      have hne : c ≠ b := by
        rintro rfl
        rw [Function.update_self] at hc
        cases hc
      rw [Function.update_of_ne hne] at hc
      obtain ⟨w, hw, rfl, hn⟩ := h.registered.added c n hc
      refine ⟨w, List.mem_filter.mpr ⟨hw, decide_eq_true ?_⟩, rfl, hn⟩
      -- 同じ fd なら、`b` の登録そのものになってしまう
      intro hfd
      obtain ⟨m, hm⟩ := Option.ne_none_iff_exists'.mp hb
      obtain ⟨v, hv, hptr, -⟩ := h.registered.added b m hm
      subst hptr
      rw [h.registered.eq_of_fd hw hv (hfd.trans (h.registered.watched v hv).2.2)] at hne
      exact hne rfl
  · show Linked _ p.pos (writeThrough p.results (p.bfd b).epollReturnedPtr).length
    rw [length_writeThrough]
    refine ⟨h.linked.le, ?_, ?_⟩
    · intro i e c hlo hhi (he : (writeThrough p.results _)[i]? = some e) hc
      obtain ⟨he, hnot⟩ := (getElem?_writeThrough hc).mp he
      obtain ⟨hadded, hback⟩ := h.linked.points i e c hlo hhi he hc
      have hne : c ≠ b := by
        rintro rfl
        exact hnot hback
      show Function.update p.added b none c = _ ∧ (Function.update p.bfd b _ c).epollReturnedPtr = _
      rw [Function.update_of_ne hne, Function.update_of_ne hne]
      exact ⟨hadded, hback⟩
    · intro c i (hc : Function.update p.added b none c ≠ none)
        (hi : (Function.update p.bfd b _ c).epollReturnedPtr = some i)
      have hne : c ≠ b := by
        rintro rfl
        exact hc (Function.update_self ..)
      rw [Function.update_of_ne hne] at hc hi
      obtain ⟨hlo, hhi, e, he, hptr⟩ := h.linked.back c i hc hi
      refine ⟨hlo, hhi, e, (getElem?_writeThrough hptr).mpr ⟨he, ?_⟩, hptr⟩
      -- 一つの結果は二つの descriptor を指さない
      intro hbi
      obtain ⟨-, -, e', he', hptr'⟩ := h.linked.back b i hb hbi
      rw [he, Option.some.injEq] at he'
      subst he'
      rw [hptr, Option.some.injEq] at hptr'
      exact hne hptr'

theorem Inv.setEvents (h : Inv p) (hb : p.added b ≠ none) (events : Dir → Bool) :
    ∃ p', p.setFileDescriptorEvents b events = .ok p' ∧ Inv p' := by
  unfold setFileDescriptorEvents
  rw [ensure_bind (h.registered.active hb)]
  split
  next => exact ⟨p, rfl, h⟩
  next =>
    rw [ensure_bind (h.registered.known hb)]
    exact ⟨_, rfl, h.registered.setBfd fun _ => ⟨rfl, rfl⟩, h.linked.setBfd fun _ => rfl,
      { h.logged with }⟩

theorem Inv.perform (h : Inv p) {a : FdAction} {r : Except Fault Descriptors}
    (hstep : p.perform a = some r) :
    ∃ p', r = .ok p' ∧ Inv p' := by
  cases a with
  | reuse b content =>
    obtain ⟨hb, hr⟩ := of_ite_eq_some hstep
    exact ⟨_, hr.symm, h.reuse hb content⟩
  | add b accepted =>
    obtain ⟨⟨hactive, hnew⟩, hr⟩ := of_ite_eq_some hstep
    obtain ⟨p', hp', hinv⟩ := h.add hactive hnew
    rw [hp', ok_bind] at hr
    exact ⟨_, hr.symm, hinv⟩
  | remove b =>
    obtain ⟨hb, hr⟩ := of_ite_eq_some hstep
    obtain ⟨p', hp', hinv⟩ := h.remove hb
    rw [hp', ok_bind] at hr
    exact ⟨_, hr.symm, hinv⟩
  | setEvents b events =>
    obtain ⟨hb, hr⟩ := of_ite_eq_some hstep
    obtain ⟨p', hp', hinv⟩ := h.setEvents hb events
    exact ⟨p', hr.symm.trans hp', hinv⟩

/-! ## 待つことと配ること -/

/-- 配り終えていれば、どの descriptor も結果を指していない。 -/
theorem Inv.clear (h : Inv p) (hpos : p.pos = p.results.length) : Inv p.clear where
  registered := { h.registered with }
  linked := by
    refine ⟨Nat.le_refl 0, ?_, ?_⟩
    · intro i e c _ hi
      exact absurd hi (Nat.not_lt_zero i)
    · intro c i hc hi
      obtain ⟨hlo, hhi, -⟩ := h.linked.back c i hc hi
      omega
  logged := by
    refine { h.logged with earlier := ?_ }
    intro x hx
    refine Or.inl (show x.batch < p.batch + 1 from ?_)
    have := h.logged.earlier x hx
    omega

/-- `set_epoll_fd_pointers` の loop は、`i` から先の結果を指させる。 -/
theorem setPointersFrom_ok {l : List EpollEvent} {i : Nat} (hreg : Registered p)
    (hlink : Linked p 0 i) (hrest : ∀ k, p.results[i + k]? = l[k]?)
    (hvalid : ∀ e ∈ l, ∃ c, e.ptr = some c ∧ p.added c = some e.registration)
    (hptrs : ∀ (k l : Nat) (e e' : EpollEvent), p.results[k]? = some e → p.results[l]? = some e' →
      e.ptr = e'.ptr → k = l) :
    ∃ p', setPointersFrom i l p = .ok p' ∧ Registered p' ∧ Linked p' 0 (i + l.length) ∧
      p'.results = p.results ∧ p'.pos = p.pos ∧ p'.batch = p.batch ∧
        p'.dispatched = p.dispatched := by
  induction l generalizing i p with
  | nil => exact ⟨p, rfl, hreg, hlink, rfl, rfl, rfl, rfl⟩
  | cons event rest ih =>
    obtain ⟨c, hc, hadded⟩ := hvalid event List.mem_cons_self
    have hevent : p.results[i]? = some event := hrest 0
    have hsome : p.added c ≠ none := by
      rw [hadded]
      exact Option.some_ne_none _
    have hfree : (p.bfd c).epollReturnedPtr = none := by
      rw [Option.eq_none_iff_forall_ne_some]
      intro k hk
      obtain ⟨-, hki, e, he, hptr⟩ := hlink.back c k hsome hk
      have := hptrs k i e event he hevent (hptr.trans hc.symm)
      omega
    have hlink' : Linked (p.setBfd c { p.bfd c with epollReturnedPtr := some i }) 0 (i + 1) := by
      refine ⟨Nat.zero_le _, ?_, ?_⟩
      · intro k e a hlo hk he ha
        show p.added a = _ ∧ (Function.update p.bfd c _ a).epollReturnedPtr = _
        by_cases hki : k = i
        · subst hki
          have hee : event = e := Option.some.inj (hevent.symm.trans he)
          subst hee
          rw [hc, Option.some.injEq] at ha
          subst ha
          rw [Function.update_self]
          exact ⟨hadded, rfl⟩
        · obtain ⟨hadd, hback⟩ := hlink.points k e a hlo (by omega) he ha
          have hne : a ≠ c := by
            rintro rfl
            exact hki (hptrs k i e event he hevent (ha.trans hc.symm))
          rw [Function.update_of_ne hne]
          exact ⟨hadd, hback⟩
      · intro a k ha (hk : (Function.update p.bfd c _ a).epollReturnedPtr = some k)
        by_cases hne : a = c
        · subst hne
          rw [Function.update_self] at hk
          obtain rfl : i = k := Option.some.inj hk
          exact ⟨Nat.zero_le _, Nat.lt_succ_self _, event, hevent, hc⟩
        · rw [Function.update_of_ne hne] at hk
          obtain ⟨hlo, hhi, he⟩ := hlink.back a k ha hk
          exact ⟨hlo, by omega, he⟩
    have hreg' : Registered (p.setBfd c { p.bfd c with epollReturnedPtr := some i }) :=
      hreg.setBfd fun _ => ⟨rfl, rfl⟩
    have hrest' : ∀ k, p.results[i + 1 + k]? = rest[k]? := by
      intro k
      rw [Nat.add_assoc, Nat.add_comm 1 k, hrest (k + 1), List.getElem?_cons_succ]
    obtain ⟨p', hp', hreg'', hlink'', hfields⟩ :=
      ih hreg' hlink' hrest' (fun e he => hvalid e (List.mem_cons_of_mem _ he)) hptrs
    refine ⟨p', ?_, hreg'', ?_, hfields⟩
    · unfold setPointersFrom
      simp only [hc]
      rw [ensure_bind (hreg.active hsome), ensure_bind hfree]
      exact hp'
    · rw [List.length_cons, Nat.add_comm rest.length 1, ← Nat.add_assoc]
      exact hlink''

/-- `epoll_wait` は同じ descriptor を二度返さない。 -/
theorem Returnable.ptr_inj (hreg : Registered p) {returned : List (Watched × FdEvents)}
    (h : p.Returnable returned) {k l : Nat} {e e' : EpollEvent}
    (he : (returned.map toEvent)[k]? = some e) (he' : (returned.map toEvent)[l]? = some e')
    (hptr : e.ptr = e'.ptr) : k = l := by
  rw [List.getElem?_map] at he he'
  obtain ⟨x, hx, rfl⟩ := Option.map_eq_some_iff.mp he
  obtain ⟨y, hy, rfl⟩ := Option.map_eq_some_iff.mp he'
  obtain ⟨-, -, hmem, hnodup⟩ := h
  have hptr' : x.1.ptr = y.1.ptr := Option.some.inj hptr
  have hfd : x.1.fd = y.1.fd := by
    rw [← (hreg.watched x.1 (hmem x (List.mem_of_getElem? hx))).2.2,
      ← (hreg.watched y.1 (hmem y (List.mem_of_getElem? hy))).2.2, hptr']
  have hk : (returned.map (·.1.fd))[k]? = some x.1.fd := by rw [List.getElem?_map, hx]; rfl
  have hl : (returned.map (·.1.fd))[l]? = some x.1.fd := by rw [List.getElem?_map, hy, hfd]; rfl
  obtain ⟨hlen, -⟩ := List.getElem?_eq_some_iff.mp hk
  exact (List.getElem?_inj hlen hnodup).mp (hk.trans hl.symm)

theorem Inv.deliver (h : Inv p) (hresults : p.results = []) (hpos : p.pos = 0)
    {returned : List (Watched × FdEvents)} (hret : p.Returnable returned) :
    ∃ p', p.deliver returned = .ok p' ∧ Inv p' := by
  have hlink : Linked { p with results := returned.map toEvent } 0 0 := by
    refine ⟨Nat.le_refl 0, ?_, ?_⟩
    · intro i e c _ hi
      exact absurd hi (Nat.not_lt_zero i)
    · intro c i hc hi
      obtain ⟨-, hhi, -⟩ := h.linked.back c i hc hi
      rw [hresults] at hhi
      exact absurd hhi (Nat.not_lt_zero i)
  obtain ⟨p', hp', hreg, hlinked, hres, hpos', hbatch, hlog⟩ :=
    setPointersFrom_ok (p := { p with results := returned.map toEvent }) (l := returned.map toEvent)
      { h.registered with } hlink (fun k => by rw [Nat.zero_add])
      (fun e he => by
        obtain ⟨x, hx, rfl⟩ := List.mem_map.mp he
        exact ⟨x.1.ptr, rfl, (h.registered.watched x.1 (hret.2.2.1 x hx)).1⟩)
      (fun k l e e' he he' => hret.ptr_inj h.registered he he')
  refine ⟨p', hp', hreg, ?_, ?_⟩
  · rw [hpos', hres, show p.pos = 0 from hpos, ← Nat.zero_add (List.length _)]
    exact hlinked
  · refine ⟨?_, ?_, ?_, ?_⟩
    · rw [hlog, hbatch, hpos']
      exact h.logged.earlier
    · rw [hlog]
      exact h.logged.once
    · rw [hlog]
      exact h.logged.current
    · rw [hlog]
      exact h.logged.wanted

theorem Logged.advance (h : Logged p) : Logged { p with pos := p.pos + 1 } := by
  refine { h with earlier := fun x hx => ?_ }
  rcases h.earlier x hx with hlt | ⟨heq, hlt⟩
  · exact Or.inl hlt
  · exact Or.inr ⟨heq, Nat.lt_succ_of_lt hlt⟩

theorem Logged.call (h : Logged p) {events : FdEvents} {registration : Nat}
    (hadded : p.added b = some registration) :
    Logged
      ({ p.setBfd b { p.bfd b with epollReturnedPtr := none } with pos := p.pos + 1 }.callHandler
        p.pos b
      registration (toReport (p.bfd b) events)) := by
  constructor
  · intro x hx
    rcases List.mem_append.mp hx with hx | hx
    · exact h.advance.earlier x hx
    · rw [List.mem_singleton.mp hx]
      exact Or.inr ⟨rfl, Nat.lt_succ_self _⟩
  · show ((p.dispatched ++ [_]).map fun x : Dispatch => (x.batch, x.index)).Nodup
    rw [List.map_append]
    refine List.nodup_append.mpr ⟨h.once, List.nodup_singleton _, ?_⟩
    rintro _ hx _ hy rfl
    obtain ⟨x, hx, heq⟩ := List.mem_map.mp hx
    rw [List.map_singleton, List.mem_singleton, ← heq, Prod.mk.injEq] at hy
    have hbatch : x.batch = p.batch := hy.1
    have hindex : x.index = p.pos := hy.2
    have := h.earlier x hx
    omega
  · intro x hx
    rcases List.mem_append.mp hx with hx | hx
    · exact h.current x hx
    · rw [List.mem_singleton.mp hx]
      exact decide_eq_true hadded
  · intro x hx d hd
    rcases List.mem_append.mp hx with hx | hx
    · exact h.wanted x hx d hd
    · rw [List.mem_singleton.mp hx] at hd ⊢
      show (Function.update p.bfd b _ b).waitEvents d = true
      rw [Function.update_self]
      exact (Bool.and_eq_true_iff.mp hd).1

theorem Inv.dispatch (h : Inv p) {event : EpollEvent} (hevent : p.results[p.pos]? = some event) :
    ∃ p' called, p.dispatch event = .ok (p', called) ∧ Inv p' := by
  have hlt : p.pos < p.results.length := (List.getElem?_eq_some_iff.mp hevent).1
  unfold Descriptors.dispatch
  split
  next hptr =>
    -- 外された descriptor の結果
    refine ⟨_, _, rfl, { h.registered with }, ⟨hlt, ?_, ?_⟩, h.logged.advance⟩
    · intro i e c hlo hhi he hc
      exact h.linked.points i e c (Nat.le_of_succ_le hlo) hhi he hc
    · intro c i hc hi
      obtain ⟨hlo, hhi, e, he, hc'⟩ := h.linked.back c i hc hi
      refine ⟨Nat.lt_of_le_of_ne hlo ?_, hhi, e, he, hc'⟩
      rintro rfl
      rw [hevent, Option.some.injEq] at he
      subst he
      rw [hptr] at hc'
      cases hc'
  next b hptr =>
    obtain ⟨hadded, hback⟩ := h.linked.points p.pos event b le_rfl hlt hevent hptr
    have hsome : p.added b ≠ none := by
      rw [hadded]
      exact Option.some_ne_none _
    rw [ensure_bind (h.registered.active hsome), ensure_bind hback]
    have hreg : Registered (p.setBfd b { p.bfd b with epollReturnedPtr := none }) :=
      h.registered.setBfd fun _ => ⟨rfl, rfl⟩
    have hlink : Linked (p.setBfd b { p.bfd b with epollReturnedPtr := none }) (p.pos + 1)
        p.results.length := by
      refine ⟨hlt, ?_, ?_⟩
      · intro i e c hlo hhi he hc
        obtain ⟨hadd, hi⟩ := h.linked.points i e c (Nat.le_of_succ_le hlo) hhi he hc
        have hne : c ≠ b := by
          rintro rfl
          rw [hback, Option.some.injEq] at hi
          omega
        show p.added c = _ ∧ (Function.update p.bfd b _ c).epollReturnedPtr = _
        rw [Function.update_of_ne hne]
        exact ⟨hadd, hi⟩
      · intro c i hc (hi : (Function.update p.bfd b _ c).epollReturnedPtr = some i)
        by_cases hne : c = b
        · subst hne
          rw [Function.update_self] at hi
          cases hi
        · rw [Function.update_of_ne hne] at hi
          obtain ⟨hlo, hhi, e, he, hc'⟩ := h.linked.back c i hc hi
          refine ⟨Nat.lt_of_le_of_ne hlo ?_, hhi, e, he, hc'⟩
          rintro rfl
          rw [hevent, Option.some.injEq] at he
          subst he
          rw [hptr, Option.some.injEq] at hc'
          exact hne hc'.symm
    dsimp only
    split
    next => exact ⟨_, _, rfl, { hreg with }, { hlink with }, { h.logged.advance with }⟩
    next => exact ⟨_, _, rfl, { hreg with }, { hlink with }, h.logged.call hadded⟩

/-- 古い結果を配らない。 -/
structure NeverStale (p : Descriptors) : Prop where
  /-- handler を呼んだのは、結果の登録が生きている時だけである。外してから足し直すまでの間は呼ばない。 -/
  registered : ∀ x ∈ p.dispatched, x.registered = true
  /-- 一つの結果は高々一度配る。 -/
  once : (p.dispatched.map fun x => (x.batch, x.index)).Nodup
  /-- まだ配っていない結果の指す descriptor は、その結果を指している。 -/
  pointed : ∀ i e b, p.pos ≤ i → p.results[i]? = some e → e.ptr = some b →
    p.added b = some e.registration ∧ (p.bfd b).epollReturnedPtr = some i
  unique : ∀ i j e e' b, p.pos ≤ i → p.pos ≤ j → p.results[i]? = some e → p.results[j]? = some e' →
    e.ptr = some b →
    e'.ptr = some b → i = j
  back : ∀ b i, p.added b ≠ none → (p.bfd b).epollReturnedPtr = some i →
    p.pos ≤ i ∧ ∃ e, p.results[i]? = some e ∧ e.ptr = some b
  /-- 知らせたのは、待っているものと `ERROR`・`HUP` だけである。 -/
  wanted : ∀ x ∈ p.dispatched, ∀ d, x.events.ready d = true → x.waitEvents d = true

theorem Inv.neverStale (h : Inv p) : NeverStale p where
  registered := h.logged.current
  once := h.logged.once
  pointed := fun i e b hi he hb => h.linked.points i e b hi (List.getElem?_eq_some_iff.mp he).1 he
    hb
  unique := by
    intro i j e e' b hi hj he he' hb hb'
    have hpi := (h.linked.points i e b hi (List.getElem?_eq_some_iff.mp he).1 he hb).2
    have hpj := (h.linked.points j e' b hj (List.getElem?_eq_some_iff.mp he').1 he' hb').2
    exact Option.some.inj (hpi.symm.trans hpj)
  back := by
    intro b i hb hi
    obtain ⟨hlo, -, he⟩ := h.linked.back b i hb hi
    exact ⟨hlo, he⟩
  wanted := h.logged.wanted

end Descriptors

end Reactor
