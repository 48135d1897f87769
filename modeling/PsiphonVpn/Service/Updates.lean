import PsiphonVpn.Service.Lifecycle

/-!
# 更新の queue

`updatePsiphonState` の lambda は main looper を通って、post された順に適用される。
looper がどれだけ遅れても、待っている更新がすべて適用された後の値は変わらない。
field ごとのその値が `settled…` で、一歩ごとに動くのは post と session の始まりだけである。
-/

namespace Service

open Infra

/-- 更新の message なら、その更新。 -/
def Message.update? : Message → Option Update
  | .update u => some u
  | .cancelJob => none

/-- looper で適用を待っている更新。 -/
def State.pending (s : State) : List Update := s.looper.filterMap Message.update?

/-! ## 誰が post するか -/

def Act.posts : Act → Option Update
  | .post (.update u) => some u
  | _ => none

def MainPc.posts : MainPc → Option Update
  | .acts (a :: _) => a.posts
  | .restartConnecting => some .connecting
  | _ => none

/-- 一歩 `e` が post する更新。 -/
def postedBy (s : State) : Event → Option Update
  | .main _ => s.main.posts
  | .thread t => (s.thread t).head?.bind Act.posts
  | .job j _ => (s.job j).bind (·.phase.posts.head?)
  | _ => none

/-- 一歩が更新の queue にすることのすべて。 -/
inductive UpdateChange (s : State) (e : Event) (s' : State) : Prop where
  | none (hu : postedBy s e = none) (hc : s'.currentPsiphonState = s.currentPsiphonState)
      (hq : s'.pending = s.pending) (hp : s'.posted = s.posted)
  | posts (u : Update) (hu : postedBy s e = some u)
      (hc : s'.currentPsiphonState = s.currentPsiphonState)
      (hq : s'.pending = s.pending ++ [u]) (hp : s'.posted = s.posted ++ [u])
  | applies (now : Int) (u : Update) (hu : postedBy s e = none)
      (hc : s'.currentPsiphonState = u.apply now s.currentPsiphonState)
      (hq : s.pending = u :: s'.pending) (hp : s'.posted = s.posted)
  | session (hu : postedBy s e = none) (h : Starts s s')

theorem pending_post (s : State) (u : Update) :
    (s.post (.update u)).pending = s.pending ++ [u] := by
  simp [State.pending, State.post, Message.update?]

theorem runAct_updates (s : State) (a : Act) :
    (∃ u, a.posts = some u ∧ (runAct s a).1.pending = s.pending ++ [u] ∧
      (runAct s a).1.posted = s.posted ++ [u]) ∨
    (a.posts = none ∧ (runAct s a).1.pending = s.pending ∧ (runAct s a).1.posted = s.posted) := by
  cases a with
  | post m =>
    cases m with
    | update u => exact Or.inl ⟨u, rfl, pending_post s u, rfl⟩
    | cancelJob =>
      refine Or.inr ⟨rfl, ?_, rfl⟩
      simp [State.pending, runAct, State.post, Message.update?]
  | _ => exact Or.inr ⟨rfl, rfl, rfl⟩

variable {s s' : State} {e : Event}

theorem mainStep_updates {o : Outcome} (h : LifecycleInv s) (he : mainStep s o s.main = some s') :
    UpdateChange s (.main o) s' := by
  cases hpc : s.main with
  | idle => simp [hpc, mainStep] at he
  | casStoppedStarting =>
    have hst : s.tunnelTaskState = .STOPPED := h.toStart (by rw [hpc]; rfl)
    rw [hpc] at he
    simp only [mainStep, hst, if_true, Option.some.injEq] at he
    exact .session (by simp [postedBy, hpc, MainPc.posts]) ⟨hpc, hst, he.symm⟩
  | restartConnecting =>
    rw [hpc] at he
    obtain rfl := Option.some.inj he
    exact .posts .connecting (by simp [postedBy, hpc, MainPc.posts]) rfl (pending_post s _) rfl
  | acts as =>
    rw [hpc] at he
    cases as with
    | nil =>
      obtain rfl := Option.some.inj he
      exact .none (by simp [postedBy, hpc, MainPc.posts]) rfl rfl rfl
    | cons a as =>
      obtain rfl := Option.some.inj he
      have hpost : postedBy s (.main o) = a.posts := by simp [postedBy, hpc, MainPc.posts]
      have hf := runAct_frame s a
      rcases runAct_updates s a with ⟨u, hu, hq, hp⟩ | ⟨hu, hq, hp⟩
      · exact .posts u (hpost.trans hu) hf.currentPsiphonState hq hp
      · exact .none (hpost.trans hu) hf.currentPsiphonState hq hp
  | handle c =>
    rw [hpc] at he
    obtain rfl := Option.some.inj he
    refine .none (by simp [postedBy, hpc, MainPc.posts]) ?_ ?_ ?_ <;> cases c <;> rfl
  | restartConfig =>
    rw [hpc] at he
    cases o with
    | exception m => simp [mainStep] at he
    | _ =>
      obtain rfl := Option.some.inj he
      exact .none (by simp [postedBy, hpc, MainPc.posts]) rfl rfl rfl
  | restartPsiphon =>
    rw [hpc] at he
    cases o with
    | exception m => simp [mainStep] at he
    | _ =>
      obtain rfl := Option.some.inj he
      exact .none (by simp [postedBy, hpc, MainPc.posts]) rfl rfl rfl
  | _ =>
    rw [hpc] at he
    obtain rfl := Option.some.inj he
    exact .none (by simp [postedBy, hpc, MainPc.posts]) rfl rfl rfl

theorem jobMoves_updates {j : Nat} {jb : Job} {p : JobPhase} (hm : JobMoves s s' j jb p)
    (hpost : postedBy s e = jb.phase.posts.head?) :
    UpdateChange s e s' := by
  have hq : s'.pending = s.pending ++ jb.phase.posts := by
    have hid : (jb.phase.posts.map Message.update).filterMap Message.update? = jb.phase.posts := by
      rw [List.filterMap_map]
      exact List.filterMap_some
    rw [State.pending, hm.looper, List.filterMap_append, hid]
    rfl
  cases hl : jb.phase.posts with
  | nil =>
    rw [hl] at hpost
    exact .none hpost hm.currentPsiphonState (by rw [hq, hl, List.append_nil])
      (by rw [hm.posted, hl, List.append_nil])
  | cons u us =>
    have hus : us = [] := by
      cases hp : jb.phase <;> simp_all [JobPhase.posts]
    subst hus
    rw [hl] at hpost
    exact .posts u hpost hm.currentPsiphonState (by rw [hq, hl]) (by rw [hm.posted, hl])

theorem step_updates (h : LifecycleInv s) (he : step s e = some s') : UpdateChange s e s' := by
  refine step_elim (P := UpdateChange s e) he ?_ ?_ ?_ ?_ ?_ ?_ ?_
  · rintro c rfl _
    exact .none rfl rfl rfl rfl
  · rintro now m ms rfl _ hq
    cases m with
    | update u =>
      refine .applies now u rfl rfl ?_ rfl
      simp [State.pending, hq, Message.update?, handleMessage]
    | cancelJob =>
      have hf := cancelJob_frame { s with looper := ms }
      refine .none rfl hf.currentPsiphonState ?_ hf.posted
      show (cancelJob { s with looper := ms }).pending = s.pending
      rw [State.pending, hf.looper, State.pending, hq]
      rfl
  · rintro o rfl hm
    exact mainStep_updates h hm
  · rintro t k rfl _
    exact .none rfl rfl rfl rfl
  · rintro t a as rfl ht
    have hpost : postedBy s (.thread t) = a.posts := by simp [postedBy, ht]
    have hf := runAct_frame s a
    rcases runAct_updates s a with ⟨u, hu, hq, hp⟩ | ⟨hu, hq, hp⟩
    · exact .posts u (hpost.trans hu) hf.currentPsiphonState hq hp
    · exact .none (hpost.trans hu) hf.currentPsiphonState hq hp
  · rintro j jb rfl hj hp
    exact jobMoves_updates (dispatch_moves hp) (by simp [postedBy, hp, JobPhase.posts])
  · rintro j jb o rfl hj hs
    obtain ⟨p, hm⟩ := jobStep_moves hs
    exact jobMoves_updates hm (by simp [postedBy, hj])

/-! ## 待っている更新がすべて適用された後の値 -/

section Settled

variable {α : Type} {get : PsiphonState → α} {w : Update → Option α}

/-- field `get` の、待っている更新がすべて適用された後の値。 -/
def State.settled (s : State) (get : PsiphonState → α) (w : Update → Option α) : α :=
  lastWrite w (get s.currentPsiphonState) s.pending

/-- 更新を適用しても `settled` は変わらない。動くのは post のときだけである。 -/
theorem settled_step (hget : ∀ u now st, get (Update.apply now st u) = (w u).getD (get st))
    (hc : UpdateChange s e s') :
    s'.settled get w = ((postedBy s e).bind w).getD (s.settled get w) := by
  unfold State.settled
  cases hc with
  | none hu hc hq _ => rw [hu, hc, hq]; rfl
  | posts u hu hc hq _ => rw [hu, hc, hq, lastWrite_snoc]; rfl
  | applies now u hu hc hq _ => rw [hu, hc, hq, hget, lastWrite_cons]; rfl
  | session hu hs =>
    obtain ⟨-, -, rfl⟩ := hs
    rw [hu]
    rfl

/-- `settled` は、ある値から始めて、session の間に post された更新を順に適用した値である。 -/
def SettlesAsPosted (get : PsiphonState → α) (w : Update → Option α) (s : State) : Prop :=
  ∃ a, s.settled get w = lastWrite w a s.posted

theorem settlesAsPosted_step
    (hget : ∀ u now st, get (Update.apply now st u) = (w u).getD (get st))
    (h : SettlesAsPosted get w s) (hc : UpdateChange s e s') :
    SettlesAsPosted get w s' := by
  obtain ⟨a, ha⟩ := h
  have hset := settled_step hget hc
  cases hc with
  | none hu _ _ hp => exact ⟨a, by rw [hset, hu, hp]; exact ha⟩
  | posts u hu _ _ hp => exact ⟨a, by rw [hset, hu, hp, lastWrite_snoc, ← ha]; rfl⟩
  | applies now u hu _ _ hp => exact ⟨a, by rw [hset, hu, hp]; exact ha⟩
  | session hu hs =>
    obtain ⟨-, -, rfl⟩ := hs
    exact ⟨_, rfl⟩

/-- looper がどれだけ遅れても、行き着く値は post した順だけで決まる。 -/
theorem settlesAsPosted_exec
    (hget : ∀ u now st, get (Update.apply now st u) = (w u).getD (get st)) {es : List Event}
    (hrun : exec step init es = some s) :
    SettlesAsPosted get w s := by
  have hstep : ∀ s e s', LifecycleInv s ∧ SettlesAsPosted get w s → step s e = some s' →
      LifecycleInv s' ∧ SettlesAsPosted get w s' := fun s e s' hi he =>
    ⟨lifecycleInv_step hi.1 he, settlesAsPosted_step hget hi.2 (step_updates hi.1 he)⟩
  exact (exec_induct_all hstep ⟨lifecycleInv_init, _, rfl⟩ hrun).2

theorem settled_of_idle (h : s.looper = []) : s.settled get w = get s.currentPsiphonState := by
  simp [State.settled, State.pending, h]

end Settled

end Service
