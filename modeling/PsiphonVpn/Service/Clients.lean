import Mathlib.Data.Finset.Card
import Mathlib.Data.Fintype.Basic
import PsiphonVpn.Service.Bundle
import PsiphonVpn.Service.Updates

/-!
# client への配信

`clients` は `ConcurrentHashMap` で、binder の thread が登録と解除を行う。状態が変わると main thread が
`clients` の写しを取り、一つずつ `onStateUpdated` を呼ぶ。登録する thread も、登録した client に
その時の状態を自分で送る。

登録は `containsKey`・挿入・状態の読み出し・送信という別々の access で、main thread の
`set`・写し・送信と互いに排除されない。読み出しと送信の間に main thread が新しい状態を
送り終えると、client には古い状態が後から届く（`stale_snapshot_last`）。

写しの `toList()` も一つの access ではない。`size` を読み、0 なら空の list、1 なら `iterator().next()`
だけの list、そのほかなら全体の写しを作る。`size` が 1 のとき、後から挿入された client が先に返されると、
元からいた client は飛ばされる。

## model

* client は binder を表す番号である。`alive` はその process が生きていること
* `IPsiphonClientCallback` は `oneway` でないので、送信は届いてから戻る
* binder の thread は `n` 個で、`n` は任意である
* map の node の更新と count の更新は別の access で、`size` は count だけを読む。count の更新はいくら遅れても
  よいとする。`size` が counter を一つずつ足す間の更新は、入ることも入らないこともある
* iterator は weakly consistent である。構築のときからある client はちょうど一度返し、構築の後に挿入されたか
  削除された client は、返しても返さなくてもよい
* 更新はいつ post されてもよい。`PsiphonVpnService` の run はすべてこの形になる（`service_run`）
-/

namespace Service.Clients

open Infra

/-- main thread が更新の message を処理しているときの、次の access。 -/
inductive Broadcast where
  | idle
  | sizing (newState : PsiphonState)
  /-- 次は iterator の構築。`single` は、読んだ `size` が 1 だったこと。 -/
  | sized (newState : PsiphonState) (single : Bool)
  /--
  次は iterator の一歩。`waiting` は構築のときからあって必ず返される client、`maybe` は構築の後に挿入されたか
  削除されて、返されるかもしれない client である。
  -/
  | copying (newState : PsiphonState) (single : Bool) (copied : List Nat)
      (waiting maybe : Finset Nat)
  | sending (newState : PsiphonState) (rest : List Nat)
  /-- `NoSuchElementException` で looper が止まった。 -/
  | crashed
  deriving DecidableEq

/-- `registerClient` の次の access。 -/
inductive RegisterPc where
  | idle
  | insert (client : Nat)
  | getState (client : Nat)
  | notify (client : Nat) (state : PsiphonState)
  deriving DecidableEq, Repr

structure State (n : Nat) where
  currentPsiphonState : PsiphonState
  looper : List Update
  main : Broadcast
  clients : Finset Nat
  /-- count に入っていない挿入の数。 -/
  adding : Nat
  /-- count に入っていない削除の数。 -/
  removing : Nat
  thread : Fin n → RegisterPc
  -- 環境
  alive : Nat → Bool
  /-- client に最後に届いた bundle。 -/
  delivered : Nat → Option Bundle

variable {n : Nat}

/-- `onCreate` の後。`currentPsiphonState` は保存された egress region を含みうる。 -/
def init (n : Nat) (state : PsiphonState) : State n where
  currentPsiphonState := state
  looper := []
  main := .idle
  clients := ∅
  adding := 0
  removing := 0
  thread := fun _ => .idle
  alive := fun _ => true
  delivered := fun _ => none

/-! ## `clients` -/

/-- `sumCount`。負の和は 0 とされる。 -/
def State.size (s : State n) : Nat :=
  s.clients.card + s.removing - s.adding

/-- 進んでいる iterator にとっての挿入。 -/
def Broadcast.put (client : Nat) : Broadcast → Broadcast
  | .copying newState single copied waiting maybe =>
    .copying newState single copied waiting (insert client maybe)
  | b => b

/-- 進んでいる iterator にとっての削除。 -/
def Broadcast.remove (client : Nat) : Broadcast → Broadcast
  | .copying newState single copied waiting maybe =>
    .copying newState single copied (waiting.erase client)
      (if client ∈ waiting then insert client maybe else maybe)
  | b => b

/-- `clients[clientBinder] = it`。すでにある key なら値を置き換えるだけで、count は変わらない。 -/
def State.put (s : State n) (client : Nat) : State n :=
  if client ∈ s.clients then s
  else { s with
    clients := insert client s.clients
    adding := s.adding + 1
    main := s.main.put client }

def State.remove (s : State n) (client : Nat) : State n :=
  if client ∈ s.clients then
    { s with
      clients := s.clients.erase client
      removing := s.removing + 1
      main := s.main.remove client }
  else s

/-- `onStateUpdated` の結果。死んだ process への送信はつねに `DeadObjectException` になる。 -/
inductive Delivery where
  | ok
  | remoteException
  deriving DecidableEq, Repr

def notifyClient (s : State n) (client : Nat) (state : PsiphonState) (o : Delivery) : State n :=
  if s.alive client then
    match o with
    | .ok => { s with delivered := Function.update s.delivered client (some state.toBundle) }
    | .remoteException => s
  else s.remove client

/-! ## 一歩 -/

inductive Event (n : Nat) where
  | post (u : Update)
  | looper (now : Int)
  | size
  | iterate
  /-- iterator が `client` を返す。 -/
  | next (client : Nat)
  /-- iterator に次が無い。 -/
  | exhausted
  | send (o : Delivery)
  | register (t : Fin n) (client : Nat)
  | thread (t : Fin n) (o : Delivery)
  | unregister (client : Nat)
  | countPut
  | countRemove
  | die (client : Nat)
  deriving DecidableEq, Repr

/-- `toList()` の、`size` による分岐。 -/
def Broadcast.ofSize (newState : PsiphonState) : Nat → Broadcast
  | 0 => .sending newState []
  | 1 => .sized newState true
  | _ => .sized newState false

def step (s : State n) : Event n → Option (State n)
  | .post u => some { s with looper := s.looper ++ [u] }
  | .looper now =>
    match s.main, s.looper with
    | .idle, u :: us =>
      let newState := u.apply now s.currentPsiphonState
      some { s with currentPsiphonState := newState, looper := us, main := .sizing newState }
    | _, _ => none
  | .size =>
    match s.main with
    | .sizing newState => some { s with main := .ofSize newState s.size }
    | _ => none
  | .iterate =>
    match s.main with
    | .sized newState single => some { s with main := .copying newState single [] s.clients ∅ }
    | _ => none
  | .next client =>
    match s.main with
    | .copying newState single copied waiting maybe =>
      if client ∈ waiting ∪ maybe then
        some { s with
          main :=
            if single then .sending newState [client]
            else .copying newState false (copied ++ [client]) (waiting.erase client)
              (maybe.erase client) }
      else none
    | _ => none
  | .exhausted =>
    match s.main with
    | .copying newState single copied waiting _ =>
      if waiting = ∅ then
        some { s with main := if single then .crashed else .sending newState copied }
      else none
    | _ => none
  | .send o =>
    match s.main with
    | .sending newState (client :: rest) =>
      -- main thread が自分で行う削除は、次に `size` を読む前に count に入る
      some { notifyClient s client newState o with
        main := .sending newState rest
        removing := s.removing }
    | .sending _ [] => some { s with main := .idle }
    | _ => none
  | .register t client =>
    if s.thread t = .idle then
      some { s with
        thread := Function.update s.thread t
          (if client ∈ s.clients then .idle else .insert client) }
    else none
  | .thread t o =>
    match s.thread t with
    | .idle => none
    | .insert client =>
      some { s.put client with thread := Function.update s.thread t (.getState client) }
    | .getState client =>
      some { s with thread := Function.update s.thread t (.notify client s.currentPsiphonState) }
    | .notify client state =>
      some { notifyClient s client state o with thread := Function.update s.thread t .idle }
  | .unregister client => some (s.remove client)
  | .countPut => if 0 < s.adding then some { s with adding := s.adding - 1 } else none
  | .countRemove => if 0 < s.removing then some { s with removing := s.removing - 1 } else none
  | .die client => some { s with alive := Function.update s.alive client false }

/-! ## 条件と性質 -/

variable {s s' : State n} {client c : Nat} {t : Fin n} {newState : PsiphonState}
  {copied rest : List Nat} {waiting maybe : Finset Nat}

/--
main thread はこれから client に送る。

`size` が 1 だったときは、どの client が返されるか決まるまで、どの client についてもそうだとする。
落ちた looper は静止しないので、そこでも同じとする。
-/
def Broadcast.willSend (client : Nat) : Broadcast → Prop
  | .idle => False
  | .sizing _ | .sized _ _ | .crashed => True
  | .copying _ single copied waiting _ => single = true ∨ client ∈ copied ∨ client ∈ waiting
  | .sending _ rest => client ∈ rest

instance (client : Nat) (b : Broadcast) : Decidable (b.willSend client) :=
  match b with
  | .idle => inferInstanceAs (Decidable False)
  | .sizing _ | .sized _ _ | .crashed => inferInstanceAs (Decidable True)
  | .copying _ single copied waiting _ =>
    inferInstanceAs (Decidable (single = true ∨ client ∈ copied ∨ client ∈ waiting))
  | .sending _ rest => inferInstanceAs (Decidable (client ∈ rest))

/-- thread が登録を終えていない、挿入済みの client。 -/
def RegisterPc.inserted : RegisterPc → Option Nat
  | .idle | .insert _ => none
  | .getState client | .notify client _ => some client

/-- 写しに入らない client にも、次の更新か、登録している thread がこれから送る。 -/
def State.Excused (s : State n) (client : Nat) : Prop :=
  s.looper ≠ [] ∨ ∃ t, (s.thread t).inserted = some client

instance (s : State n) (client : Nat) : Decidable (s.Excused client) :=
  inferInstanceAs (Decidable (_ ∨ _))

/--
一歩の条件。生きている client への送信について、次のどちらかである。

* 送信は成功し、届いたのはその時の `currentPsiphonState` である
* main thread が後からもう一度その client に送る

写しについては、登録されていて生きている client を飛ばさないか、飛ばした client に後から誰かが送る。
飛ばすのは、`size` を 0 と読んだときと、1 と読んでほかの client が返されたときだけである。
-/
def DeliversFresh (s : State n) : Event n → Prop
  | .size =>
    match s.main with
    | .sizing _ => s.size = 0 → ∀ c ∈ s.clients, s.alive c = true → s.Excused c
    | _ => True
  | .next client =>
    match s.main with
    | .copying _ true _ _ _ => ∀ c ∈ s.clients, s.alive c = true → c = client ∨ s.Excused c
    | _ => True
  | .send o =>
    match s.main with
    | .sending _ (client :: _) =>
      s.alive client = true → o = .ok ∨ s.looper ≠ []
    | _ => True
  | .thread t o =>
    match s.thread t with
    | .notify client state =>
      s.alive client = true →
        (o = .ok ∧ state = s.currentPsiphonState) ∨ s.looper ≠ [] ∨ s.main.willSend client
    | _ => True
  | _ => True

instance (s : State n) (e : Event n) : Decidable (DeliversFresh s e) := by
  unfold DeliversFresh
  split
  · split <;> infer_instance
  · split <;> infer_instance
  · split <;> infer_instance
  · split <;> infer_instance
  · infer_instance

/-- 登録の途中の thread も、待っている更新も、配信中の更新も無い。 -/
def Quiescent (s : State n) : Prop :=
  s.looper = [] ∧ s.main = .idle ∧ ∀ t, s.thread t = .idle

/-- 登録されていて生きている client に最後に届いた bundle は、`currentPsiphonState` のものである。 -/
def Converged (s : State n) : Prop :=
  ∀ client ∈ s.clients, s.alive client = true →
    s.delivered client = some s.currentPsiphonState.toBundle

/-- そのとき client が `fromBundle` で読む状態も `currentPsiphonState` である。 -/
theorem Converged.read (h : Converged s) (hmem : client ∈ s.clients)
    (halive : s.alive client = true) :
    (s.delivered client).bind PsiphonState.fromBundle = some s.currentPsiphonState := by
  rw [h client hmem halive]
  exact PsiphonState.fromBundle_toBundle _

/-! ## 不変量 -/

def Broadcast.newState? : Broadcast → Option PsiphonState
  | .idle | .crashed => none
  | .sizing newState | .sized newState _ | .copying newState _ _ _ _ | .sending newState _ =>
    some newState

/-- client は最新の状態を受け取ったか、これから受け取る。 -/
inductive Served (s : State n) (client : Nat) : Prop where
  | pending (h : s.looper ≠ [])
  | broadcast (h : s.main.willSend client)
  | registering (t : Fin n) (h : (s.thread t).inserted = some client)
  | delivered (h : s.delivered client = some s.currentPsiphonState.toBundle)

structure ClientInv (s : State n) : Prop where
  newest : ∀ st, s.main.newState? = some st → st = s.currentPsiphonState
  served : ∀ client ∈ s.clients, s.alive client = true → Served s client

theorem clientInv_init (state : PsiphonState) : ClientInv (init n state) where
  newest := by simp [init, Broadcast.newState?]
  served := by simp [init]

theorem State.Excused.served (h : s.Excused c) (b : Broadcast) : Served { s with main := b } c := by
  rcases h with hq | ⟨t, ht⟩
  · exact .pending hq
  · exact .registering t ht

/-- 状態が変わっても、client にこれから送る者と、届いた bundle が残っていればよい。 -/
theorem Served.transport (h : Served s c) (hq : s'.looper = s.looper)
    (hcur : s'.currentPsiphonState = s.currentPsiphonState)
    (hw : s.main.willSend c → s'.main.willSend c)
    (ht : ∀ t, (s.thread t).inserted = some c → (s'.thread t).inserted = some c)
    (hd : s'.delivered c = s.delivered c) : Served s' c := by
  cases h with
  | pending h => exact .pending (by rw [hq]; exact h)
  | broadcast h => exact .broadcast (hw h)
  | registering t h => exact .registering t (ht t h)
  | delivered h => exact .delivered (by rw [hd, hcur]; exact h)

/-- 登録の途中の thread が進んでも、挿入した client を忘れなければよい。 -/
theorem inserted_update {f : Fin n → RegisterPc} {p : RegisterPc}
    (hp : (f t).inserted = some c → p.inserted = some c) (t' : Fin n)
    (ht' : (f t').inserted = some c) : (Function.update f t p t').inserted = some c := by
  by_cases htt : t' = t
  · subst htt
    rw [Function.update_self]
    exact hp ht'
  · rw [Function.update_of_ne htt]
    exact ht'

/-- client の削除も送信も、ほかの client の配信に触れない。 -/
structure Untouched (s s' : State n) (client : Nat) : Prop where
  currentPsiphonState : s'.currentPsiphonState = s.currentPsiphonState
  looper : s'.looper = s.looper
  thread : s'.thread = s.thread
  alive : s'.alive = s.alive
  adding : s'.adding = s.adding
  clients : s'.clients ⊆ s.clients
  newState : s'.main.newState? = s.main.newState?
  willSend : ∀ c, c ≠ client → s.main.willSend c → s'.main.willSend c
  delivered : ∀ c, c ≠ client → s'.delivered c = s.delivered c

theorem Untouched.refl (s : State n) (client : Nat) : Untouched s s client :=
  ⟨rfl, rfl, rfl, rfl, rfl, subset_rfl, rfl, fun _ _ h => h, fun _ _ => rfl⟩

theorem Untouched.served (h : Untouched s s' client) (hcc : c ≠ client) (hs : Served s c) :
    Served s' c :=
  hs.transport h.looper h.currentPsiphonState (h.willSend c hcc)
    (fun t ht => by rw [h.thread]; exact ht) (h.delivered c hcc)

theorem newState?_remove (b : Broadcast) (client : Nat) :
    (b.remove client).newState? = b.newState? := by
  cases b <;> rfl

theorem willSend_remove {b : Broadcast} (hcc : c ≠ client) (h : b.willSend c) :
    (b.remove client).willSend c := by
  cases b with
  | copying newState single copied waiting maybe =>
    exact h.imp_right (Or.imp_right fun hw => Finset.mem_erase.mpr ⟨hcc, hw⟩)
  | _ => exact h

theorem remove_untouched (s : State n) (client : Nat) : Untouched s (s.remove client) client := by
  unfold State.remove
  split
  · exact ⟨rfl, rfl, rfl, rfl, rfl, Finset.erase_subset _ _, newState?_remove _ _,
      fun _ => willSend_remove, fun _ _ => rfl⟩
  · exact .refl s client

theorem notMem_remove (s : State n) (client : Nat) : client ∉ (s.remove client).clients := by
  unfold State.remove
  split
  · exact Finset.notMem_erase client s.clients
  next h => exact h

theorem notifyClient_untouched (s : State n) (client : Nat) (state : PsiphonState) (o : Delivery) :
    Untouched s (notifyClient s client state o) client := by
  unfold notifyClient
  split
  · cases o with
    | ok =>
      exact { Untouched.refl s client with
        delivered := fun c hc => Function.update_of_ne hc _ _ }
    | remoteException => exact .refl s client
  · exact remove_untouched s client

theorem notifyClient_main (halive : s.alive client = true) (state : PsiphonState) (o : Delivery) :
    (notifyClient s client state o).main = s.main := by
  unfold notifyClient
  rw [if_pos halive]
  cases o <;> rfl

/-- 最新の状態の送信が成功すれば、client は最新になる。 -/
theorem notifyClient_newest {state : PsiphonState} (halive : s.alive client = true)
    (hstate : state = s.currentPsiphonState) :
    (notifyClient s client state .ok).delivered client =
      some (notifyClient s client state .ok).currentPsiphonState.toBundle := by
  rw [(notifyClient_untouched s client state .ok).currentPsiphonState, ← hstate]
  simp [notifyClient, halive]

/-! ## 一歩ごとの保存 -/

/-- main thread だけが進む一歩。これから送る client を減らさなければよい。 -/
theorem ClientInv.setMain {b : Broadcast} (h : ClientInv s)
    (hnew : ∀ st, b.newState? = some st → s.main.newState? = some st)
    (hw : ∀ c, s.main.willSend c → b.willSend c) : ClientInv { s with main := b } :=
  ⟨fun st hst => h.newest st (hnew st hst), fun c hc hlive =>
    (h.served c hc hlive).transport rfl rfl (hw c) (fun _ ht => ht) rfl⟩

/-- `size` の読み出し。0 と読むと、どの client も写しに入らない。 -/
theorem clientInv_size (h : ClientInv s) (hmain : s.main = .sizing newState)
    (hok : s.size = 0 → ∀ c ∈ s.clients, s.alive c = true → s.Excused c) :
    ClientInv { s with main := .ofSize newState s.size } := by
  have hnew : newState = s.currentPsiphonState := h.newest newState (by rw [hmain]; rfl)
  unfold Broadcast.ofSize
  split
  next hzero =>
    exact ⟨fun st hst => (Option.some.inj hst).symm.trans hnew,
      fun c hc hlive => (hok hzero c hc hlive).served _⟩
  · exact ⟨fun st hst => (Option.some.inj hst).symm.trans hnew, fun _ _ _ => .broadcast trivial⟩
  · exact ⟨fun st hst => (Option.some.inj hst).symm.trans hnew, fun _ _ _ => .broadcast trivial⟩

/-- main thread の送信。送り先の client は送信で最新になり、ほかの client は変わらない。 -/
theorem clientInv_send {o : Delivery} (h : ClientInv s)
    (hmain : s.main = .sending newState (client :: rest))
    (hok : s.alive client = true → o = .ok ∨ s.looper ≠ []) :
    ClientInv { notifyClient s client newState o with
      main := .sending newState rest
      removing := s.removing } := by
  have hf := notifyClient_untouched s client newState o
  have hnew : newState = s.currentPsiphonState := h.newest newState (by rw [hmain]; rfl)
  refine ⟨fun st hst => ?_, fun c hc hlive => ?_⟩
  · rw [← Option.some.inj hst]
    exact hnew.trans hf.currentPsiphonState.symm
  · have halive : s.alive c = true := by rw [← hf.alive]; exact hlive
    by_cases hcc : c = client
    · subst hcc
      rcases hok halive with rfl | hq
      · exact .delivered (notifyClient_newest halive hnew)
      · exact .pending (by rw [← hf.looper] at hq; exact hq)
    · refine (h.served c (hf.clients hc) halive).transport hf.looper hf.currentPsiphonState
        (fun hw => ?_) (fun t ht => by rw [← hf.thread] at ht; exact ht) (hf.delivered c hcc)
      rw [hmain] at hw
      exact (List.mem_cons.mp hw).resolve_left hcc

/-- 登録の挿入。写しに入らなくても、登録する thread がこれから状態を読んで送る。 -/
theorem clientInv_insert (h : ClientInv s) (ht : s.thread t = .insert client) :
    ClientInv { s.put client with thread := Function.update s.thread t (.getState client) } := by
  have hthread (c : Nat) : ∀ t', (s.thread t').inserted = some c →
      (Function.update s.thread t (.getState client) t').inserted = some c :=
    inserted_update (by simp [ht, RegisterPc.inserted])
  unfold State.put
  split
  · exact ⟨h.newest, fun c hc hlive => (h.served c hc hlive).transport rfl rfl id (hthread c) rfl⟩
  · refine ⟨fun st hst => h.newest st ?_, fun c hc hlive => ?_⟩
    · rw [← hst]
      cases s.main <;> rfl
    · rcases Finset.mem_insert.mp hc with rfl | hc
      · exact .registering t (by simp [RegisterPc.inserted])
      · refine (h.served c hc hlive).transport rfl rfl (fun hw => ?_) (hthread c) rfl
        cases hmain : s.main <;> rw [hmain] at hw <;> exact hw

/-- 登録の最後の送信。古い状態を送っても、main thread が後から送るならよい。 -/
theorem clientInv_notify {state : PsiphonState} {o : Delivery} (h : ClientInv s)
    (ht : s.thread t = .notify client state) (hok : s.alive client = true →
      (o = .ok ∧ state = s.currentPsiphonState) ∨ s.looper ≠ [] ∨ s.main.willSend client) :
    ClientInv { notifyClient s client state o with
      thread := Function.update s.thread t .idle } := by
  have hf := notifyClient_untouched s client state o
  refine ⟨fun st hst => ?_, fun c hc hlive => ?_⟩
  · exact (h.newest st (by rw [← hf.newState]; exact hst)).trans hf.currentPsiphonState.symm
  · have halive : s.alive c = true := by rw [← hf.alive]; exact hlive
    by_cases hcc : c = client
    · subst hcc
      rcases hok halive with ⟨rfl, hstate⟩ | hq | hw
      · exact .delivered (notifyClient_newest halive hstate)
      · exact .pending (by rw [← hf.looper] at hq; exact hq)
      · exact .broadcast (by rw [← notifyClient_main halive state o] at hw; exact hw)
    · -- 登録を終えた thread が登録していたのは client であって c ではない
      refine (h.served c (hf.clients hc) halive).transport hf.looper hf.currentPsiphonState
        (hf.willSend c hcc) (inserted_update fun hi => ?_) (hf.delivered c hcc)
      rw [ht] at hi
      exact absurd (Option.some.inj hi).symm hcc

/-- iterator が返した client は `waiting` から `copied` に移り、ほかの client はそのままである。 -/
theorem clientInv_next (h : ClientInv s)
    (hmain : s.main = .copying newState false copied waiting maybe) :
    ClientInv { s with
      main := .copying newState false (copied ++ [client]) (waiting.erase client)
        (maybe.erase client) } := by
  refine h.setMain (fun st hst => by rw [hmain]; exact hst) fun c hw => ?_
  rw [hmain] at hw
  by_cases hcc : c = client
  · exact Or.inr (Or.inl (by simp [hcc]))
  · rcases hw with hs | hw | hw
    · exact absurd hs (by simp)
    · exact Or.inr (Or.inl (List.mem_append_left _ hw))
    · exact Or.inr (Or.inr (Finset.mem_erase.mpr ⟨hcc, hw⟩))

/-- `size` が 1 のときの `iterator().next()`。返された client のほかは写しに入らない。 -/
theorem clientInv_single (h : ClientInv s)
    (hmain : s.main = .copying newState true copied waiting maybe)
    (hok : ∀ c ∈ s.clients, s.alive c = true → c = client ∨ s.Excused c) :
    ClientInv { s with main := .sending newState [client] } := by
  refine ⟨fun st hst => h.newest st (by rw [hmain]; exact hst), fun c hc hlive => ?_⟩
  rcases hok c hc hlive with rfl | hex
  · exact .broadcast (List.mem_singleton_self c)
  · exact hex.served _

/-- iterator の終わり。`size` が 1 だったのに何も返さなければ、looper は落ちる。 -/
theorem clientInv_exhausted {single : Bool} (h : ClientInv s)
    (hmain : s.main = .copying newState single copied ∅ maybe) :
    ClientInv { s with main := if single then .crashed else .sending newState copied } := by
  cases single with
  | true => exact ⟨by simp [Broadcast.newState?], fun _ _ _ => .broadcast trivial⟩
  | false =>
    refine h.setMain (fun st hst => by rw [hmain]; exact hst) fun c hw => ?_
    rw [hmain] at hw
    simpa [Broadcast.willSend] using hw

theorem clientInv_remove (h : ClientInv s) (client : Nat) : ClientInv (s.remove client) := by
  have hf := remove_untouched s client
  refine ⟨fun st hst => ?_, fun c hc hlive => ?_⟩
  · exact (h.newest st (hf.newState ▸ hst)).trans hf.currentPsiphonState.symm
  · have hcc : c ≠ client := by
      rintro rfl
      exact notMem_remove s c hc
    exact hf.served hcc (h.served c (hf.clients hc) (by rw [← hf.alive]; exact hlive))

theorem clientInv_step {e : Event n} (h : ClientInv s) (hok : DeliversFresh s e)
    (he : step s e = some s') : ClientInv s' := by
  cases e with
  | post u =>
    obtain rfl := Option.some.inj he
    exact ⟨h.newest, fun c _ _ => .pending (by simp)⟩
  | looper now =>
    simp only [step] at he
    split at he
    · obtain rfl := Option.some.inj he
      exact ⟨fun st hst => (Option.some.inj hst).symm, fun c _ _ => .broadcast trivial⟩
    · simp at he
  | size =>
    simp only [step] at he
    split at he
    next newState hmain =>
      obtain rfl := Option.some.inj he
      simp only [DeliversFresh, hmain] at hok
      exact clientInv_size h hmain hok
    · simp at he
  | iterate =>
    simp only [step] at he
    split at he
    next newState single hmain =>
      obtain rfl := Option.some.inj he
      exact ⟨fun st hst => h.newest st (by rw [hmain]; exact hst),
        fun c hc _ => .broadcast (Or.inr (Or.inr hc))⟩
    · simp at he
  | next client =>
    simp only [step] at he
    split at he
    next newState single copied waiting maybe hmain =>
      obtain ⟨-, rfl⟩ := of_ite_eq_some he
      cases single with
      | true =>
        simp only [DeliversFresh, hmain] at hok
        exact clientInv_single h hmain hok
      | false => exact clientInv_next h hmain
    · simp at he
  | exhausted =>
    simp only [step] at he
    split at he
    next newState single copied waiting maybe hmain =>
      obtain ⟨rfl, rfl⟩ := of_ite_eq_some he
      exact clientInv_exhausted h hmain
    · simp at he
  | send o =>
    simp only [step] at he
    split at he
    next newState client rest hmain =>
      obtain rfl := Option.some.inj he
      simp only [DeliversFresh, hmain] at hok
      exact clientInv_send h hmain hok
    next newState hmain =>
      obtain rfl := Option.some.inj he
      refine h.setMain (by simp [Broadcast.newState?]) fun c hw => ?_
      simp [hmain, Broadcast.willSend] at hw
    · simp at he
  | register t client =>
    obtain ⟨ht, rfl⟩ := of_ite_eq_some he
    refine ⟨h.newest, fun c hc hlive => ?_⟩
    refine (h.served c hc hlive).transport rfl rfl id (inserted_update fun hi => ?_) rfl
    simp [ht, RegisterPc.inserted] at hi
  | thread t o =>
    simp only [step] at he
    split at he
    · simp at he
    next client ht =>
      obtain rfl := Option.some.inj he
      exact clientInv_insert h ht
    next client ht =>
      obtain rfl := Option.some.inj he
      refine ⟨h.newest, fun c hc hlive => ?_⟩
      refine (h.served c hc hlive).transport rfl rfl id (inserted_update ?_) rfl
      simp [ht, RegisterPc.inserted]
    next client state ht =>
      obtain rfl := Option.some.inj he
      simp only [DeliversFresh, ht] at hok
      exact clientInv_notify h ht hok
  | unregister client =>
    obtain rfl := Option.some.inj he
    exact clientInv_remove h client
  | countPut | countRemove =>
    obtain ⟨-, rfl⟩ := of_ite_eq_some he
    exact ⟨h.newest, fun c hc hlive =>
      (h.served c hc hlive).transport rfl rfl id (fun _ ht => ht) rfl⟩
  | die client =>
    obtain rfl := Option.some.inj he
    refine ⟨h.newest, fun c hc hlive => ?_⟩
    have halive : s.alive c = true := by
      by_cases hcc : c = client
      · simp [hcc] at hlive
      · rw [← hlive]
        exact (Function.update_of_ne hcc _ _).symm
    exact (h.served c hc halive).transport rfl rfl id (fun _ ht => ht) rfl

/-! ## 定理 -/

/--
どの一歩も `DeliversFresh` を満たす run では、登録も更新も途中でない状態で、登録されていて生きている
client に最後に届いた bundle は `currentPsiphonState` のものである。
-/
theorem clients_converge {state : PsiphonState} {es : List (Event n)} {s : State n}
    (hrun : exec step (init n state) es = some s)
    (hc : Meets step DeliversFresh (init n state) es) (hquiet : Quiescent s) : Converged s := by
  have hinv : ClientInv s :=
    exec_induct (fun _ _ _ hi hok he => clientInv_step hi hok he) es _ s (clientInv_init state) hc
      hrun
  obtain ⟨hq, hmain, hthread⟩ := hquiet
  intro c hmem halive
  cases hinv.served c hmem halive with
  | pending h => exact absurd hq h
  | broadcast h => simp [hmain, Broadcast.willSend] at h
  | registering t h => simp [hthread t, RegisterPc.inserted] at h
  | delivered h => exact h

instance (s : State n) : Decidable (Quiescent s) :=
  inferInstanceAs (Decidable (_ ∧ _ ∧ _))

/-- 登録の送信が済んでから、更新が配信される run。 -/
def updateAfterRegister : List (Event 1) :=
  [.register 0 7, .thread 0 .ok, .countPut, .thread 0 .ok, .thread 0 .ok, .post .started, .looper 0,
    .size, .iterate, .next 7, .send .ok, .send .ok]

/-- 登録する thread が状態を読んでから送るまでの間に、main thread が次の状態を送り終える run。 -/
def updateDuringRegister : List (Event 1) :=
  [.register 0 7, .thread 0 .ok, .countPut, .thread 0 .ok, .post .started, .looper 0, .size,
    .iterate, .next 7, .send .ok, .send .ok, .thread 0 .ok]

theorem clients_converge_updateAfterRegister :
    ∃ s, exec step (init 1 {}) updateAfterRegister = some s ∧ Quiescent s ∧ 7 ∈ s.clients ∧
      Converged s := by
  obtain ⟨s, hs, hquiet, hmem⟩ := exec_exists step (init 1 {}) updateAfterRegister
    (fun s => Quiescent s ∧ 7 ∈ s.clients) (by decide)
  exact ⟨s, hs, hquiet, hmem, clients_converge hs (by decide) hquiet⟩

/--
登録した client に最後に届いたのは登録のときの古い状態で、`tunnelEvent` は `STOPPED` のままである。
service は `CONNECTING` で、もう何も送らない。
-/
theorem stale_snapshot_last :
    ∃ s, exec step (init 1 {}) updateDuringRegister = some s ∧ Quiescent s ∧ 7 ∈ s.clients ∧
      s.alive 7 = true ∧ s.currentPsiphonState.tunnelEvent = some .CONNECTING ∧
      ((s.delivered 7).bind PsiphonState.fromBundle).map PsiphonState.tunnelEvent =
        some (some .STOPPED) ∧
      ¬ Converged s := by
  obtain ⟨s, hs, hquiet, hmem, halive, hcur, hold⟩ :=
    exec_exists step (init 1 {}) updateDuringRegister
      (fun s => Quiescent s ∧ 7 ∈ s.clients ∧
        s.alive 7 = true ∧ s.currentPsiphonState.tunnelEvent = some .CONNECTING ∧
        ((s.delivered 7).bind PsiphonState.fromBundle).map PsiphonState.tunnelEvent =
          some (some .STOPPED)) (by decide)
  refine ⟨s, hs, hquiet, hmem, halive, hcur, hold, fun h => ?_⟩
  rw [h.read hmem halive, Option.map_some, hcur] at hold
  simp at hold

-- `size` を 1 と読んだ後に挿入された client 3 だけが返され、client 7 は `STOPPED` のままになる
example : (exec step (init 1 {})
    [.register 0 7, .thread 0 .ok, .countPut, .thread 0 .ok, .thread 0 .ok, .post .started,
      .looper 0, .size, .register 0 3, .thread 0 .ok, .countPut, .iterate, .next 3, .send .ok,
      .send .ok, .thread 0 .ok, .thread 0 .ok]).map
    (fun s => (decide (Quiescent s), decide (7 ∈ s.clients),
      ((s.delivered 7).bind PsiphonState.fromBundle).map PsiphonState.tunnelEvent)) =
      some (true, true, some (some .STOPPED)) := by
  decide

/-! ## `PsiphonVpnService` の run との関係 -/

/--
service の状態 `v` と、配信の合間の状態 `s` が、同じ `currentPsiphonState` と queue を持つ。登録はいつでも
起こりうるので、client のいない run で比べる。
-/
def Matches (v : Service.State) (s : State n) : Prop :=
  s.main = .idle ∧ s.currentPsiphonState = v.currentPsiphonState ∧ s.looper = v.pending ∧
    s.size = 0

/-- 先頭の更新は、適用してから配信を終えるところまで進められる。 -/
theorem looper_finishes {u : Update} {us : List Update} (hmain : s.main = .idle)
    (hq : s.looper = u :: us) (hsize : s.size = 0) (now : Int) :
    exec step s [.looper now, .size, .send .ok] = some { s with
      currentPsiphonState := u.apply now s.currentPsiphonState
      looper := us } := by
  have hlooper : step s (.looper now) = some { s with
      currentPsiphonState := u.apply now s.currentPsiphonState
      looper := us
      main := .sizing (u.apply now s.currentPsiphonState) } := by
    simp only [step, hmain, hq]
  rw [exec_cons hlooper, exec_cons rfl]
  show exec step { s with
      currentPsiphonState := u.apply now s.currentPsiphonState
      looper := us
      main := .ofSize (u.apply now s.currentPsiphonState) s.size } [.send .ok] = _
  rw [hsize, hmain]
  rfl

/-- service の一歩は、配信の何歩かで真似られる。 -/
theorem matches_step {v v' : Service.State} {e : Service.Event} (hc : UpdateChange v e v')
    (h : Matches v s) :
    ∃ es s', exec step s es = some s' ∧ Matches v' s' := by
  obtain ⟨hmain, hcur, hq, hsize⟩ := h
  cases hc with
  | none _ hc hq' _ => exact ⟨[], s, rfl, hmain, hcur.trans hc.symm, hq.trans hq'.symm, hsize⟩
  | posts u _ hc hq' _ =>
    exact ⟨[.post u], { s with looper := s.looper ++ [u] }, rfl, hmain, hcur.trans hc.symm,
      by rw [hq', hq], hsize⟩
  | applies now u _ hc hq' _ =>
    refine ⟨_, _, looper_finishes hmain (hq.trans hq') hsize now, hmain, ?_, rfl, hsize⟩
    rw [hc, hcur]
  | session _ hs =>
    obtain ⟨-, -, rfl⟩ := hs
    exact ⟨[], s, rfl, hmain, hcur, hq, hsize⟩

/--
service のどの run にも、同じ更新を post し適用する配信の run がある。

`step` は更新をいつ post してもよいとするので、`clients_converge` は service の run のすべてに及ぶ。
-/
theorem service_run (n : Nat) {es : List Service.Event} {v : Service.State}
    (hrun : exec Service.step Service.init es = some v) :
    ∃ fs s, exec step (init n {}) fs = some s ∧ Matches v s := by
  have hstep : ∀ (v : Service.State) e v',
      (LifecycleInv v ∧ ∃ fs s, exec step (init n {}) fs = some s ∧ Matches v s) →
      Service.step v e = some v' →
      (LifecycleInv v' ∧ ∃ fs s, exec step (init n {}) fs = some s ∧ Matches v' s) := by
    rintro v e v' ⟨hinv, fs, s, hfs, hm⟩ he
    obtain ⟨gs, s', hgs, hm'⟩ := matches_step (step_updates hinv he) hm
    refine ⟨lifecycleInv_step hinv he, fs ++ gs, s', ?_, hm'⟩
    rw [exec_append, hfs, Option.bind_some, hgs]
  exact (exec_induct_all hstep
    ⟨lifecycleInv_init, [], init n {}, rfl, rfl, rfl, rfl, rfl⟩ hrun).2

end Service.Clients
