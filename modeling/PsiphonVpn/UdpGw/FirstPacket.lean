import PsiphonVpn.Flow.PacketProtoFlow
import PsiphonVpn.Infra.JobStack
import PsiphonVpn.UdpGw.Table

/-!
# 新しい connection の最初の packet

`device_read_handler_send` は、まず device に packet を受け取り終えたと告げ（その job が積まれる）、それから packet を
`UdpGwClient` に渡す。知らない組への packet なら `connection_init` が connection を作り、`first_job` を積んでから
`PacketProtoFlow_Init` を呼ぶ。packet の中身は写されず、`first_data` は device の読み込み先を指したままである。

reactor は後に積まれた job から走らせる（`BPending.c`）。書き込み先を渡す job は `first_job` の上に、`first_job` は
device への job の上に積まれるので、最初の packet は、書き込み先がある時に、読み込み先が上書きされる前に送信 buffer に入る。

下に積まれている job と、fair queue から先の job は任意とする。それらの handler は、別の job を積み、外し、この connection
を別の組に付け替え、後の packet を送り、出力を終え、読み込み先を上書きしてよい。

* `first_packet_written` — どの run でも、最初の packet は三つ目の job で書かれる
-/

namespace UdpGw

open Infra Flow Net

/-- `other` は、この connection と device の読み込みのほかの job。 -/
inductive Job (β : Type) where
  | deviceDone
  | firstJob
  | path (job : PathJob)
  | other (job : β)
  deriving DecidableEq, Repr

theorem Job.other_injective {β : Type} : Function.Injective (Job.other : β → Job β) :=
  fun _ _ h => Job.other.inj h

/-- `connection_send` が送信 buffer に書いた message。`first` は、`first_job` の書いたものであること。 -/
structure Placement where
  first : Bool
  message : Message
  deriving DecidableEq, Repr

/-- reactor の job と、新しい connection。`memory` は `first_data` の指す読み込み先の中身である。 -/
structure Reactor (β : Type) where
  jobs : JobStack (Job β)
  con : Connection
  path : SendPath Message
  memory : List UInt8
  -- 記録
  /-- device への job が走った。 -/
  accepted : Bool
  placed : List Placement

/-- ほかの job の handler のすること。 -/
inductive Act (β : Type) where
  | push (job : β)
  | unset (job : β)
  /-- 次の packet を読んで、受け取り終えたと告げる。 -/
  | deviceDone
  /-- device の次の読み込み。 -/
  | overwrite (memory : List UInt8)
  /-- `reuse_connection` -/
  | rebind (conaddr : ConAddr)
  /-- この connection に後の packet を送る。 -/
  | send (flags : UInt8) (data : List UInt8)
  /-- 送信 buffer の出力を受ける側が、渡された packet を終える。 -/
  | finish
  deriving DecidableEq, Repr

inductive ReactorEvent (β : Type) where
  /-- `BPendingGroup_ExecuteJob` -/
  | run (acts : List (Act β)) (space : Bool)
  /-- job が無い時に、timer や file descriptor の handler を走らせる。 -/
  | dispatch (acts : List (Act β))
  deriving DecidableEq, Repr

namespace Reactor

variable {β : Type} [DecidableEq β]

/-- 部品の操作の結果を、job を積んで反映する。 -/
def moved (w : Reactor β) (r : SendPath Message × List PathJob) : Reactor β :=
  { w with path := r.1, jobs := w.jobs.setAll (r.2.map .path) }

/-- `connection_send` -/
def connectionSend (cfg : Config) (w : Reactor β) (first : Bool) (flags : UInt8)
    (data : List UInt8) :
    Except Flow.Fault (Reactor β) := do
  ensure (data.length ≤ cfg.udpMtu)
  match ← w.path.write (w.con.message flags data) with
  | none => pure w
  | some r => pure { w.moved r with placed := w.placed ++ [⟨first, w.con.message flags data⟩] }

/-- `connection_first_job_handler` -/
def connectionFirstJobHandler (cfg : Config) (w : Reactor β) : Except Flow.Fault (Reactor β) :=
  w.connectionSend cfg true (flagRebind ||| w.con.firstFlags) w.memory

def act (cfg : Config) (w : Reactor β) : Act β → Except Flow.Fault (Reactor β)
  | .push job => .ok { w with jobs := w.jobs.set (.other job) }
  | .unset job => .ok { w with jobs := w.jobs.unset (.other job) }
  | .deviceDone => .ok { w with jobs := w.jobs.set .deviceDone }
  | .overwrite memory => .ok { w with memory := memory }
  | .rebind conaddr => .ok { w with con := w.con.rebind conaddr }
  -- `UdpGwClient_SubmitPacket` は、長すぎる packet では呼ばれない
  | .send flags data =>
    if data.length ≤ cfg.udpMtu then w.connectionSend cfg false flags data else .ok w
  | .finish =>
    match w.path.output with
    | .busy _ => do
      let r ← w.path.finish
      pure (w.moved r)
    | _ => .ok w

def acts (cfg : Config) (w : Reactor β) : List (Act β) → Except Flow.Fault (Reactor β)
  | [] => .ok w
  | a :: as => do
    let w ← w.act cfg a
    acts cfg w as

/-- 一番上の job の handler。 -/
def handle (cfg : Config) (w : Reactor β) (as : List (Act β)) (space : Bool) : Job β →
    Except Flow.Fault (Reactor β)
  | .deviceDone => acts cfg { w with accepted := true } as
  | .firstJob => w.connectionFirstJobHandler cfg
  | .path job => do
    let r ← w.path.run space job
    -- 出力の handler は部品の外にある
    if job = .outputOperation then (w.moved r).acts cfg as else pure (w.moved r)
  | .other _ => w.acts cfg as

/-- `BReactor_Exec` の loop の一回。job があれば、ほかの handler より先に走らせる。 -/
def step (cfg : Config) (w : Reactor β) : ReactorEvent β → Option (Except Flow.Fault (Reactor β))
  | .run as space =>
    match w.jobs.pop with
    | none => none
    | some (job, rest) => some (handle cfg { w with jobs := rest } as space job)
  | .dispatch as =>
    match w.jobs.pop with
    | none => some (w.acts cfg as)
    | some _ => none

/-- `device_read_handler_send` の積んだ job。 -/
def device (below : JobStack β) : JobStack (Job β) :=
  (below.map .other Job.other_injective).set .deviceDone

/--
`device_read_handler_send` が packet を受け取り、`connection_init` が `con` を作った後。`below` は、その前に積まれていた job
である。
-/
def submit (below : JobStack β) (con : Connection) : Except Flow.Fault (Reactor β) := do
  let r ← SendPath.init
  pure (moved ⟨(device below).set .firstJob, con, r.1, con.firstData, false, []⟩ r)

/-! ## 最初の packet が書かれるまで -/

section Before

variable (cfg : Config) (below : JobStack β) (con : Connection)

/-- `PacketProtoFlow_Init` の後。 -/
def requested : Reactor β where
  jobs := ((device below).set .firstJob).set (.path .encoderOperation)
  con := con
  path := ⟨.none, false, .operationPending (), false, [], true, .none⟩
  memory := con.firstData
  accepted := false
  placed := []

/-- encoder が `BufferWriter` に求めた後。 -/
def asked : Reactor β :=
  { requested below con with
    jobs := ((device below).set .firstJob).set (.path .writerOperation)
    path := ⟨.operationPending (), false, .busy (), true, [], true, .none⟩ }

/-- `BufferWriter` が書き込み先を持った後。 -/
def offered : Reactor β :=
  { requested below con with
    jobs := (device below).set .firstJob
    path := ⟨.busy (), true, .busy (), true, [], true, .none⟩ }

/-- `first_job` の後。 -/
def first : Reactor β :=
  { requested below con with
    jobs := (device below).set (.path .writerDone)
    path := ⟨.donePending (con.message (flagRebind ||| con.firstFlags) con.firstData), false,
    .busy (), true, [], true, .none⟩
    placed := [⟨true, con.message (flagRebind ||| con.firstFlags) con.firstData⟩] }

variable {below} in
theorem path_notMem_device {j : PathJob} : .path j ∉ device below := by
  simp [device]

variable {below} in
theorem firstJob_notMem_device : .firstJob ∉ device below := by
  simp [device]

theorem submit_eq : submit below con = .ok (requested below con) := rfl

variable {below con}

theorem step_requested (as : List (Act β)) (space : Bool) :
    (requested below con).step cfg (.run as space) = some (.ok (asked below con)) := by
  have hpop : (requested below con).jobs.pop =
      some (.path .encoderOperation, (device below).set .firstJob) :=
    JobStack.pop_set (by simp [path_notMem_device])
  rw [step, hpop]
  rfl

theorem step_asked (as : List (Act β)) (space : Bool) :
    (asked below con).step cfg (.run as space) = some (.ok (offered below con)) := by
  have hpop : (asked below con).jobs.pop =
      some (.path .writerOperation, (device below).set .firstJob) :=
    JobStack.pop_set (by simp [path_notMem_device])
  rw [step, hpop]
  rfl

theorem step_offered (hlen : con.firstData.length ≤ cfg.udpMtu) (as : List (Act β)) (space : Bool) :
    (offered below con).step cfg (.run as space) = some (.ok (first below con)) := by
  have hpop : (offered below con).jobs.pop = some (.firstJob, device below) :=
    JobStack.pop_set firstJob_notMem_device
  rw [step, hpop]
  dsimp only [handle]
  rw [connectionFirstJobHandler, connectionSend, ensure_bind (by exact hlen)]
  rfl

/-- job がある間は、job が走る。 -/
theorem exec_of_pop {w w' : Reactor β} {j : Job β} {rest : JobStack (Job β)}
    (hpop : w.jobs.pop = some (j, rest))
    (hstep : ∀ as space, w.step cfg (.run as space) = some (.ok w')) {es : List (ReactorEvent β)}
    {r : Except Flow.Fault (Reactor β)} (hrun : exec (guarded (step cfg)) (.ok w) es = some r) :
    (es = [] ∧ r = .ok w) ∨ ∃ e es', es = e :: es' ∧
      exec (guarded (step cfg)) (.ok w') es' = some r := by
  cases es with
  | nil => exact .inl ⟨rfl, (Option.some.inj hrun).symm⟩
  | cons e es =>
    obtain ⟨r₁, he, hrest⟩ := exec_cons_eq_some.mp hrun
    refine .inr ⟨e, es, rfl, ?_⟩
    cases e with
    | run as space =>
      obtain rfl := Option.some.inj ((hstep as space).symm.trans he)
      exact hrest
    | dispatch as =>
      simp only [guarded, step, hpop] at he
      cases he

end Before

/-! ## 最初の packet が書かれた後 -/

/-- 積まれている job は部品の state と合い、`first_job` は積まれていない。 -/
structure Written (m : Message) (w : Reactor β) : Prop where
  inv : w.path.Inv
  pending : ∀ k, .path k ∈ w.jobs ↔ w.path.Pending k
  notMem : .firstJob ∉ w.jobs
  placed : ∃ later, w.placed = ⟨true, m⟩ :: later ∧ ∀ p ∈ later, p.first = false

section After

variable {cfg : Config} {m : Message} {w : Reactor β}

theorem written_first (below : JobStack β) (con : Connection) :
    Written (con.message (flagRebind ||| con.firstFlags) con.firstData) (first below con) where
  inv := ⟨.written _ rfl rfl rfl rfl rfl, .empty rfl rfl⟩
  pending k := by
    have hjobs : (first below con).jobs = (device below).set (.path .writerDone) := rfl
    rw [hjobs, JobStack.mem_set, or_iff_left path_notMem_device]
    cases k <;> simp [first, SendPath.Pending]
  notMem := by
    have hjobs : (first below con).jobs = (device below).set (.path .writerDone) := rfl
    rw [hjobs, JobStack.mem_set, or_iff_right (by simp)]
    exact firstJob_notMem_device
  placed := ⟨[], rfl, by simp⟩

theorem pending_moved {ran : PathJob → Prop} {r : SendPath Message × List PathJob}
    (hm : SendPath.Moves w.path ran r) {jobs : JobStack (Job β)}
    (hp : ∀ k, .path k ∈ jobs ↔ w.path.Pending k ∧ ¬ ran k) (k : PathJob) :
    .path k ∈ jobs.setAll (r.2.map .path) ↔ r.1.Pending k := by
  rw [hm.pending, JobStack.mem_setAll, hp, or_comm]
  simp

theorem firstJob_notMem_setAll {jobs : JobStack (Job β)} (h : .firstJob ∉ jobs)
    (js : List PathJob) :
    .firstJob ∉ jobs.setAll (js.map .path) := by
  simp [h]

namespace Written

theorem moved (hw : Written m w) {r : SendPath Message × List PathJob}
    (hm : SendPath.Moves w.path (fun _ => False) r) : Written m (w.moved r) where
  inv := hm.inv
  pending := pending_moved hm fun k => by rw [hw.pending, and_iff_left not_false]
  notMem := firstJob_notMem_setAll hw.notMem _
  placed := hw.placed

/-- 後の packet は、書き込み先があれば最初の packet の後に書かれ、無ければ捨てられる。 -/
theorem connectionSend (hw : Written m w) (flags : UInt8) {data : List UInt8}
    (hlen : data.length ≤ cfg.udpMtu) :
    ∃ w', w.connectionSend cfg false flags data = .ok w' ∧ Written m w' := by
  rw [Reactor.connectionSend, ensure_bind hlen]
  cases hhave : w.path.outHave with
  | true =>
    obtain ⟨r, hwrite, hm⟩ := SendPath.write_offered hw.inv hhave (w.con.message flags data)
    obtain ⟨later, hplaced, hlater⟩ := hw.placed
    rw [hwrite]
    refine ⟨_, rfl, { hw.moved hm with
      placed := ⟨later ++ [⟨false, w.con.message flags data⟩], ?_, ?_⟩ }⟩
    · rw [hplaced, List.cons_append]
    · intro p hp
      rcases List.mem_append.mp hp with hp | hp
      · exact hlater p hp
      · rw [List.mem_singleton.mp hp]
  | false =>
    have hwrite : w.path.write (w.con.message flags data) = .ok none := by
      rw [SendPath.write, hhave]
      rfl
    rw [hwrite]
    exact ⟨w, rfl, hw⟩

theorem act (cfg : Config) (hw : Written m w) (a : Act β) :
    ∃ w', w.act cfg a = .ok w' ∧ Written m w' := by
  cases a with
  | push job =>
    exact ⟨_, rfl, { hw with
      pending := fun k => by rw [JobStack.mem_set, or_iff_right (by simp)]; exact hw.pending k
      notMem := by rw [JobStack.mem_set, or_iff_right (by simp)]; exact hw.notMem }⟩
  | unset job =>
    exact ⟨_, rfl, { hw with
      pending := fun k => by rw [JobStack.mem_unset, and_iff_right (by simp)]; exact hw.pending k
      notMem := by rw [JobStack.mem_unset, and_iff_right (by simp)]; exact hw.notMem }⟩
  | deviceDone =>
    exact ⟨_, rfl, { hw with
      pending := fun k => by rw [JobStack.mem_set, or_iff_right (by simp)]; exact hw.pending k
      notMem := by rw [JobStack.mem_set, or_iff_right (by simp)]; exact hw.notMem }⟩
  | overwrite memory => exact ⟨_, rfl, { hw with }⟩
  | rebind conaddr => exact ⟨_, rfl, { hw with }⟩
  | send flags data =>
    rw [Reactor.act]
    split
    next hlen => exact hw.connectionSend flags hlen
    next => exact ⟨w, rfl, hw⟩
  | finish =>
    rw [Reactor.act]
    split
    next request hbusy =>
      obtain ⟨r, hfinish, hm⟩ := SendPath.finish_busy hw.inv hbusy
      rw [hfinish]
      exact ⟨_, rfl, hw.moved hm⟩
    next => exact ⟨w, rfl, hw⟩

theorem acts (cfg : Config) (hw : Written m w) (as : List (Act β)) :
    ∃ w', w.acts cfg as = .ok w' ∧ Written m w' := by
  induction as generalizing w with
  | nil => exact ⟨w, rfl, hw⟩
  | cons a as ih =>
    obtain ⟨w₁, hact, hw₁⟩ := hw.act cfg a
    rw [Reactor.acts, hact]
    exact ih hw₁

omit [DecidableEq β] in
theorem pending_pop (hw : Written m w) {j : Job β} {rest : JobStack (Job β)}
    (hpop : w.jobs.pop = some (j, rest)) (k : PathJob) :
    .path k ∈ rest ↔ w.path.Pending k ∧ ¬ Job.path k = j := by
  rw [← hw.pending, JobStack.mem_of_pop hpop]
  constructor
  · intro hk
    exact ⟨.inr hk, fun heq => JobStack.notMem_of_pop hpop (heq ▸ hk)⟩
  · rintro ⟨heq | hk, hne⟩
    · exact absurd heq hne
    · exact hk

omit [DecidableEq β] in
theorem notMem_pop (hw : Written m w) {j : Job β} {rest : JobStack (Job β)}
    (hpop : w.jobs.pop = some (j, rest)) :
    .firstJob ∉ rest := fun h => hw.notMem ((JobStack.mem_of_pop hpop _).mpr (.inr h))

omit [DecidableEq β] in
theorem pop (hw : Written m w) {j : Job β} {rest : JobStack (Job β)}
    (hpop : w.jobs.pop = some (j, rest))
    (hj : ∀ k, ¬ Job.path k = j) : Written m { w with jobs := rest } where
  inv := hw.inv
  pending k := by rw [hw.pending_pop hpop, and_iff_left (hj k)]
  notMem := hw.notMem_pop hpop
  placed := hw.placed

theorem handle (cfg : Config) (hw : Written m w) {j : Job β} {rest : JobStack (Job β)}
    (hpop : w.jobs.pop = some (j, rest)) (as : List (Act β)) (space : Bool) :
    ∃ w', Reactor.handle cfg { w with jobs := rest } as space j = .ok w' ∧ Written m w' := by
  have hmem : j ∈ w.jobs := (JobStack.mem_of_pop hpop j).mpr (.inl rfl)
  cases j with
  | firstJob => exact absurd hmem hw.notMem
  | deviceDone =>
    have hw' : Written m { w with jobs := rest, accepted := true } := { hw.pop hpop (by simp) with }
    exact hw'.acts cfg as
  | other job => exact (hw.pop hpop (by simp)).acts cfg as
  | path job =>
    obtain ⟨r, hrun, hm⟩ := hw.inv.run ((hw.pending job).mp hmem) space
    have hw' : Written m (Reactor.moved { w with jobs := rest } r) := {
      inv := hm.inv
      pending := pending_moved hm fun k => by rw [hw.pending_pop hpop, Job.path.injEq]
      notMem := firstJob_notMem_setAll (hw.notMem_pop hpop) _
      placed := hw.placed }
    rw [Reactor.handle]
    dsimp only
    rw [hrun, ok_bind]
    split
    · exact hw'.acts cfg as
    · exact ⟨_, rfl, hw'⟩

theorem step (hw : Written m w) {e : ReactorEvent β} {r : Except Flow.Fault (Reactor β)}
    (hstep : w.step cfg e = some r) : ∃ w', r = .ok w' ∧ Written m w' := by
  cases e with
  | run as space =>
    rw [Reactor.step] at hstep
    split at hstep
    next => cases hstep
    next j rest hpop =>
      obtain ⟨w', hw', hwritten⟩ := hw.handle cfg hpop as space
      exact ⟨w', (Option.some.inj hstep).symm.trans hw', hwritten⟩
  | dispatch as =>
    rw [Reactor.step] at hstep
    split at hstep
    next =>
      obtain ⟨w', hw', hwritten⟩ := hw.acts cfg as
      exact ⟨w', (Option.some.inj hstep).symm.trans hw', hwritten⟩
    next => cases hstep

end Written

/-- まだ書かれていないなら、次の job は走り、device への job はまだ走っていない。 -/
structure Waiting (cfg : Config) (w : Reactor β) : Prop where
  placed : w.placed = []
  notAccepted : w.accepted = false
  runs : ∀ as space, ∃ w', w.step cfg (.run as space) = some (.ok w')

/-- 作られたばかりの connection は、三つ目の job で書かれる。 -/
theorem exec_submit {below : JobStack β} (con : Connection)
    (hlen : con.firstData.length ≤ cfg.udpMtu) {es : List (ReactorEvent β)}
    {r : Except Flow.Fault (Reactor β)}
    (hrun : exec (guarded (step cfg)) (submit below con) es = some r) :
    ∃ w, r = .ok w ∧ ((es.length < 3 ∧ Waiting cfg w) ∨
      Written (con.message (flagRebind ||| con.firstFlags) con.firstData) w) := by
  rw [submit_eq] at hrun
  rcases exec_of_pop cfg rfl (step_requested cfg) hrun with ⟨rfl, rfl⟩ | ⟨e₁, es, rfl, hrun₁⟩
  · exact ⟨_, rfl, .inl ⟨by simp, rfl, rfl, fun as space => ⟨_, step_requested cfg as space⟩⟩⟩
  rcases exec_of_pop cfg rfl (step_asked cfg) hrun₁ with ⟨rfl, rfl⟩ | ⟨e₂, es, rfl, hrun₂⟩
  · exact ⟨_, rfl, .inl ⟨by simp, rfl, rfl, fun as space => ⟨_, step_asked cfg as space⟩⟩⟩
  rcases exec_of_pop cfg rfl (step_offered cfg hlen) hrun₂ with ⟨rfl, rfl⟩ | ⟨e₃, es, rfl, hrun₃⟩
  · exact ⟨_, rfl, .inl ⟨by simp, rfl, rfl, fun as space => ⟨_, step_offered cfg hlen as space⟩⟩⟩
  obtain ⟨w, rfl, hw⟩ := exec_safe_all (fun _ _ _ hw hstep => hw.step hstep)
    (written_first below con) hrun₃
  exact ⟨w, rfl, .inr hw⟩

end After

end Reactor

/-- 知らない組の packet で connection が増えたなら、それは packet と DNS の flag を `first_job` のために覚えている。 -/
theorem Step.created {cfg : Config} {o o' : UdpGwClient} {l r : BAddr} {isDns : Bool}
    {data : List UInt8} {alloc : Alloc} (hs : Step cfg o (.submit l r isDns data alloc) o')
    (hnew : Unknown o ⟨l, r⟩) (hnum : o'.numConnections = o.numConnections + 1) :
    ∃ id, o'.con o.allocated = .fresh ⟨l, r⟩ id (dnsFlags isDns) data ∧
      data.length ≤ cfg.udpMtu := by
  cases hs with
  | hit hmem hpair => exact absurd hpair (hnew _ hmem)
  | create _ _ hlen => exact ⟨_, Function.update_self .., hlen⟩
  | createFails => exact absurd hnum (Nat.ne_of_lt (Nat.lt_succ_self _))
  | rebind => exact absurd hnum (Nat.ne_of_lt (Nat.lt_succ_self _))

/--
device から読んだ知らない組の packet で connection が作られた時、どの job が積まれていても、最初の packet は続く三つ目の job で、
REBIND と DNS の flag を付けて、ちょうど一度書かれる。それより前に書かれる packet は無く、device への job も走らない。
-/
theorem first_packet_written {β : Type} [DecidableEq β] (cfg : Config) (before : List Event)
    (o o' : UdpGwClient) (l r : BAddr) (isDns : Bool) (data : List UInt8) (alloc : Alloc)
    (hreach : exec (guarded (step cfg)) (.ok .init) before = some (.ok o))
    (hsubmit : step cfg o (.submit l r isDns data alloc) = some (.ok o'))
    (hnew : findConnectionByConaddr o ⟨l, r⟩ = none)
    (hcreated : o'.numConnections = o.numConnections + 1) (below : JobStack β)
    (es : List (ReactorEvent β)) (res : Except Flow.Fault (Reactor β))
    (hrun : exec (guarded (Reactor.step cfg)) (Reactor.submit below (o'.con o.allocated)) es =
      some res) :
    ∃ w, res = .ok w ∧
      ((es.length < 3 ∧ w.placed = [] ∧ w.accepted = false ∧
        ∀ as space, ∃ w', w.step cfg (.run as space) = some (.ok w')) ∨
        ∃ later, w.placed =
            ⟨true, (o'.con o.allocated).message (flagRebind ||| dnsFlags isDns) data⟩ :: later ∧
          ∀ p ∈ later, p.first = false) ∧
      (o'.con o.allocated).conaddr = ⟨l, r⟩ := by
  obtain ⟨_, ⟨⟩, hi⟩ := exec_safe_all (fun _ _ _ => tableInv_step_ok) (tableInv_init cfg) hreach
  obtain ⟨_, ⟨⟩, hs⟩ := step_ok hi hsubmit
  obtain ⟨id, hcon, hlen⟩ := hs.created (hi.find_conaddr_none.mp hnew) hcreated
  rw [hcon] at hrun ⊢
  obtain ⟨w, rfl, hw⟩ := Reactor.exec_submit (.fresh ⟨l, r⟩ id (dnsFlags isDns) data) hlen hrun
  refine ⟨w, rfl, ?_, rfl⟩
  rcases hw with ⟨hshort, hwait⟩ | hw
  · exact .inl ⟨hshort, hwait.placed, hwait.notAccepted, hwait.runs⟩
  · exact .inr hw.placed

/-- 出力が進んで device への job が走り、読み込み先が上書きされて、次の packet が送られるまで。 -/
def overwritingRun : List (ReactorEvent Nat) :=
  [.run [] true, .run [] true, .run [] true, .run [] true, .run [] true,
    .run [.push 1, .finish] true, .run [] true, .run [.unset 2] true, .run [] true, .run [] true,
    .run [.overwrite [8], .deviceDone, .send 0 [8]] true]

theorem first_packet_written_overwritten :
    ∃ o' w, step twoConnections .init (.submit (host 1) (host 2) true [7] .ok) = some (.ok o') ∧
      exec (guarded (Reactor.step twoConnections)) (Reactor.submit ⟨[2, 3], by decide⟩ (o'.con 0))
        overwritingRun =
        some (.ok w) ∧
      (w.accepted = true ∧ w.memory = [8] ∧ w.placed.length = 2) ∧
      ∃ later, w.placed = ⟨true, (o'.con 0).message (flagRebind ||| dnsFlags true) [7]⟩ :: later ∧
        ∀ p ∈ later, p.first = false := by
  obtain ⟨o', hrun', hnum, hcon⟩ := exec_ok_exists (step twoConnections) .init
    [.submit (host 1) (host 2) true [7] .ok]
    (fun o' => o'.numConnections = 1 ∧ o'.con 0 = .fresh ⟨host 1, host 2⟩ 0 flagDns [7])
      (by decide +kernel)
  obtain ⟨r, hsubmit, hr⟩ := exec_cons_eq_some.mp hrun'
  obtain rfl := Option.some.inj hr
  obtain ⟨w, hrun, hw⟩ := exec_ok_exists (Reactor.step twoConnections)
    (Reactor.requested ⟨[2, 3], by decide⟩ (.fresh ⟨host 1, host 2⟩ 0 flagDns [7])) overwritingRun
    (fun w => w.accepted = true ∧ w.memory = [8] ∧ w.placed.length = 2) (by decide +kernel)
  rw [← hcon, ← Reactor.submit_eq] at hrun
  obtain ⟨w', heq, hwritten, -⟩ :=
    first_packet_written twoConnections [] .init o' (host 1) (host 2) true [7] .ok rfl
    hsubmit (by decide +kernel) hnum ⟨[2, 3], by decide⟩ overwritingRun (.ok w) hrun
  obtain rfl := Except.ok.inj heq
  refine ⟨o', w, hsubmit, hrun, hw, ?_⟩
  rcases hwritten with ⟨hshort, -⟩ | hlater
  · exact absurd hshort (by decide)
  · exact hlater

end UdpGw
