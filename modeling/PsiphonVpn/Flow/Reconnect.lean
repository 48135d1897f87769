import PsiphonVpn.Flow.Connector

/-!
# 接続し直しても packet の並びは保たれる

どの接続にも、渡された packet がある番号から順に完全な形で書かれ、その後に高々一つの packet の途中までが続く（`Wrote`）。
次の接続は、その時に connector が終えていた数の番号から始まる（`Accounts`）。

不変量は、connector がどこまで進んだか（`Stage`）と、sender がその packet をどこまで書いたか（`Serving`）を結ぶ。どちらも
同じ一つの packet についてのもので、待っている job は高々一つである。
-/

namespace Flow

open Infra

/-! ## 接続ごとの記録 -/

/--
接続 `c` に書かれたのは、`c.first` 番からの完全な packet `ps` と、高々一つの packet の真の頭 `rest` である。

次の接続は `next` 番から始まる。`next` は書きかけの packet か、書き終えたがまだ終わっていなかった最後の packet の番号である。
-/
def Wrote (handed : List (List UInt8)) (c : Conn) (next : Nat) : Prop :=
  ∃ ps rest, c.first ≤ handed.length ∧ ps <+: handed.drop c.first ∧ c.bytes = ps.flatten ++ rest ∧
    ((next = c.first + ps.length ∧
        (rest = [] ∨ ∃ p, ps ++ [p] <+: handed.drop c.first ∧ rest <+: p ∧ rest ≠ p)) ∨
      (next + 1 = c.first + ps.length ∧ rest = []))

/-- 新しい順に並べた接続は、packet を飛ばさずに引き継いでいる。 -/
def Accounts (handed : List (List UInt8)) : List Conn → Nat → Prop
  | [], next => next = 0
  | c :: older, next => Wrote handed c next ∧ Accounts handed older c.first

section Accounts

variable {handed : List (List UInt8)} {c : Conn} {conns : List Conn} {next : Nat}

/-- packet がさらに渡されても、書かれたものについての記録は変わらない。 -/
theorem Wrote.hand (h : Wrote handed c next) (p : List UInt8) : Wrote (handed ++ [p]) c next := by
  obtain ⟨ps, rest, hfirst, hps, hbytes, hnext⟩ := h
  have hdrop : (handed ++ [p]).drop c.first = handed.drop c.first ++ [p] :=
    List.drop_append_of_le_length hfirst
  refine ⟨ps, rest, by rw [List.length_append]; omega, ?_, hbytes, ?_⟩
  · rw [hdrop]
    exact hps.trans (List.prefix_append _ _)
  · rcases hnext with ⟨hn, hrest⟩ | hlast
    · refine .inl ⟨hn, hrest.imp_right ?_⟩
      rintro ⟨q, hq, hsub⟩
      rw [hdrop]
      exact ⟨q, hq.trans (List.prefix_append _ _), hsub⟩
    · exact .inr hlast

theorem Accounts.hand (h : Accounts handed conns next) (p : List UInt8) :
    Accounts (handed ++ [p]) conns next := by
  induction conns generalizing next with
  | nil => exact h
  | cons c older ih => exact ⟨h.1.hand p, ih h.2⟩

end Accounts

/-! ## 一つの packet の進み方 -/

/-- connector の state と、渡されてまだ終わっていない packet。 -/
inductive Stage (l : Link) : List (List UInt8) → Prop where
  | idle (input : l.connector.input = .none) (held : l.connector.inPacket = none)
      (told : l.told = l.passed) : Stage l []
  | pending (p : List UInt8) (input : l.connector.input = .operationPending p)
      (held : l.connector.inPacket = none)
      (told : l.told = l.passed) (fits : p.length ≤ l.connector.inputMtu) : Stage l [p]
  | holding (p : List UInt8) (input : l.connector.input = .busy p)
      (held : l.connector.inPacket = some p)
      (told : l.told = l.passed) (fits : p.length ≤ l.connector.inputMtu) : Stage l [p]
  | done (input : l.connector.input = .donePending ()) (held : l.connector.inPacket = none)
      (told : l.told + 1 = l.passed) : Stage l []

/-- sender の state と、持っている packet のうち stream に書かれた部分。 -/
inductive Serving (v : Server) : Option (List UInt8) → List UInt8 → Prop where
  | idle (input : v.sender.input = .none) (held : v.sender.inPacket = none)
      (output : v.output = .none) :
      Serving v none []
  | queued (p : List UInt8) (input : v.sender.input = .operationPending p)
      (held : v.sender.inPacket = none) (output : v.output = .none) : Serving v (some p) []
  | sending (p : List UInt8) (input : v.sender.input = .busy p) (held : v.sender.inPacket = some p)
      (more : v.sender.inUsed < p.length)
      (output : v.output = .operationPending (p.drop v.sender.inUsed) ∨
        v.output = .busy (p.drop v.sender.inUsed)) :
      Serving v (some p) (p.take v.sender.inUsed)
  | wrote (p : List UInt8) (n : Nat) (input : v.sender.input = .busy p)
      (held : v.sender.inPacket = some p)
      (output : v.output = .donePending n) (pos : 0 < n) (le : v.sender.inUsed + n ≤ p.length) :
      Serving v (some p) (p.take (v.sender.inUsed + n))
  | finished (p : List UInt8) (input : v.sender.input = .donePending ())
      (held : v.sender.inPacket = none) (output : v.output = .none) : Serving v (some p) p

/-- 今の接続 `c` には、終えた packet のうち `c.first` 番からのものと、今の packet の書かれた部分とがある。 -/
structure Current (l : Link) (v : Server) (past : List (List UInt8)) : Prop where
  mtu : v.sender.mtu = l.connector.inputMtu
  written : ∃ c older before ps tail, l.conns = c :: older ∧ past = before ++ ps ∧
    c.first = before.length ∧
    c.bytes = ps.flatten ++ tail ∧ Serving v l.connector.inPacket tail ∧
      Accounts l.handed older c.first

/-- server との接続の有無に応じた記録。 -/
def Recorded (l : Link) (past : List (List UInt8)) : Prop :=
  match l.server with
  | none => Accounts l.handed l.conns l.passed
  | some v => Current l v past

namespace Link

/-- 不変量。`past` は connector が終えた packet。 -/
def Inv (l : Link) : Prop :=
  ∃ past inflight, l.handed = past ++ inflight ∧ l.passed = past.length ∧ Stage l inflight ∧
    Recorded l past

end Link

/-! ## 切れた時の記録 -/

section Close

variable {l : Link} {v : Server} {past : List (List UInt8)}

/-- 今切れたとしても、書かれたものは記録に合う。 -/
theorem Current.accounts {inflight : List (List UInt8)} (h : Current l v past)
    (hhanded : l.handed = past ++ inflight) (hpassed : l.passed = past.length)
    (hheld : ∀ p, l.connector.inPacket = some p → inflight = [p]) :
    Accounts l.handed l.conns l.passed := by
  obtain ⟨-, c, older, before, ps, tail, hconns, rfl, hfirst, hbytes, hserving, holder⟩ := h
  rw [hconns]
  refine ⟨?_, holder⟩
  have hle : c.first ≤ l.handed.length := by
    rw [hhanded, hfirst, List.length_append, List.length_append]
    omega
  have hdrop : l.handed.drop c.first = ps ++ inflight := by
    rw [hhanded, hfirst, List.append_assoc, List.drop_left' rfl]
  have hnext : l.passed = c.first + ps.length := by rw [hpassed, hfirst, List.length_append]
  -- 書かれた部分が空でも packet の全体でもなければ、真の頭である
  have hpart : ∀ p k, inflight = [p] → k ≤ p.length → tail = p.take k →
      Wrote l.handed c l.passed := by
    intro p k hp hk htail
    rw [hp] at hdrop
    by_cases hfull : k = p.length
    · rw [hfull, List.take_length] at htail
      refine ⟨ps ++ [p], [], hle, hdrop ▸ List.prefix_rfl, ?_, .inr ⟨?_, rfl⟩⟩
      · rw [hbytes, htail]
        simp
      · rw [hnext, List.length_append]
        rfl
    · refine ⟨ps, tail, hle, by rw [hdrop]; exact List.prefix_append _ _, hbytes,
        .inl ⟨hnext, .inr ⟨p, ?_, ?_, ?_⟩⟩⟩
      · exact hdrop ▸ List.prefix_rfl
      · rw [htail]
        exact List.take_prefix _ _
      · intro heq
        have hlen := congrArg List.length heq
        rw [htail, List.length_take] at hlen
        omega
  have hnone : tail = [] → Wrote l.handed c l.passed := by
    rintro rfl
    exact ⟨ps, [], hle, by rw [hdrop]; exact List.prefix_append _ _, hbytes, .inl ⟨hnext, .inl rfl⟩⟩
  generalize hpkt : l.connector.inPacket = held at hserving
  cases hserving with
  | idle => exact hnone rfl
  | queued p => exact hnone rfl
  | sending p hi hh hmore => exact hpart p _ (hheld p hpkt) (by omega) rfl
  | wrote p n hi hh ho hpos hle' => exact hpart p _ (hheld p hpkt) hle' rfl
  | finished => exact hpart tail tail.length (hheld tail hpkt) (Nat.le_refl _) List.take_length.symm

end Close

/-! ## sender の操作 -/

section Sender

variable {v : Server} {p : List UInt8}

theorem senderSend_eq (hinput : v.sender.input = .none) (hle : p.length ≤ v.sender.mtu) :
    v.senderSend p = .ok { v with sender.input := .operationPending p } := by
  rw [Server.senderSend, ensure_bind hle, hinput]
  rfl

/-- `send_data` は、残りがあれば stream に頼み、無ければ packet を終える。 -/
theorem sendData_eq (hinput : v.sender.input = .busy p) (hheld : v.sender.inPacket = some p)
    (houtput : v.output = .none) (hle : v.sender.inUsed ≤ p.length) :
    ∃ v', v.sendData = .ok v' ∧ v'.sender.mtu = v.sender.mtu ∧
      Serving v' (some p) (p.take v.sender.inUsed) ∧
      ((v'.sender.input = .busy p ∧ v'.output = .operationPending (p.drop v.sender.inUsed)) ∨
        (v'.sender.input = .donePending () ∧ p.length ≤ v.sender.inUsed)) := by
  rw [Server.sendData, hheld]
  by_cases hmore : v.sender.inUsed < p.length
  · refine ⟨{ v with output := .operationPending (p.drop v.sender.inUsed) }, ?_, rfl, ?_,
      .inl ⟨hinput, rfl⟩⟩
    · dsimp only
      rw [if_pos hmore, houtput]
      rfl
    · exact .sending p hinput hheld hmore (.inl rfl)
  · refine ⟨{ v with sender.inPacket := none, sender.input := .donePending () }, ?_, rfl, ?_,
      .inr ⟨rfl, by omega⟩⟩
    · dsimp only
      rw [if_neg hmore, hinput]
      rfl
    · rw [List.take_of_length_le (by omega)]
      exact .finished p rfl rfl houtput

end Sender

/-! ## 今の packet -/

section Inversion

variable {l : Link} {v : Server} {p data tail : List UInt8} {held : Option (List UInt8)}
  {inflight : List (List UInt8)}

theorem Stage.congr {l' : Link} (h : Stage l inflight) (hc : l'.connector = l.connector)
    (ht : l'.told = l.told) (hp : l'.passed = l.passed) : Stage l' inflight := by
  cases h with
  | idle hi hh hn => exact .idle (hc ▸ hi) (hc ▸ hh) (by omega)
  | pending p hi hh hn hf => exact .pending p (hc ▸ hi) (hc ▸ hh) (by omega) (hc ▸ hf)
  | holding p hi hh hn hf => exact .holding p (hc ▸ hi) (hc ▸ hh) (by omega) (hc ▸ hf)
  | done hi hh hn => exact .done (hc ▸ hi) (hc ▸ hh) (by omega)

theorem Stage.of_held (h : Stage l inflight) (hheld : l.connector.inPacket = some p) :
    inflight = [p] ∧ l.connector.input = .busy p ∧ l.told = l.passed ∧
      p.length ≤ l.connector.inputMtu := by
  cases h with
  | holding q hi hh ht hf =>
    rw [hh, Option.some.injEq] at hheld
    subst hheld
    exact ⟨rfl, hi, ht, hf⟩
  | idle hi hh => rw [hh] at hheld; cases hheld
  | pending q hi hh => rw [hh] at hheld; cases hheld
  | done hi hh => rw [hh] at hheld; cases hheld

theorem Serving.of_idle (h : Serving v none tail) :
    tail = [] ∧ v.sender.input = .none ∧ v.sender.inPacket = none ∧ v.output = .none := by
  cases h with
  | idle hi hh ho => exact ⟨rfl, hi, hh, ho⟩

theorem Serving.of_queued (h : Serving v held tail)
    (hinput : v.sender.input = .operationPending p) :
    held = some p ∧ tail = [] ∧ v.sender.inPacket = none ∧ v.output = .none := by
  cases h with
  | queued q hi hh ho =>
    rw [hi, Phase.operationPending.injEq] at hinput
    exact ⟨congrArg some hinput, rfl, hh, ho⟩
  | idle hi => rw [hi] at hinput; cases hinput
  | sending q hi => rw [hi] at hinput; cases hinput
  | wrote q n hi => rw [hi] at hinput; cases hinput
  | finished q hi => rw [hi] at hinput; cases hinput

theorem Serving.of_finished (h : Serving v held tail) (hinput : v.sender.input = .donePending ()) :
    held = some tail ∧ v.sender.inPacket = none ∧ v.output = .none := by
  cases h with
  | finished q hi hh ho => exact ⟨rfl, hh, ho⟩
  | idle hi => rw [hi] at hinput; cases hinput
  | queued q hi => rw [hi] at hinput; cases hinput
  | sending q hi => rw [hi] at hinput; cases hinput
  | wrote q n hi => rw [hi] at hinput; cases hinput

theorem Serving.of_sending (h : Serving v held tail)
    (houtput : v.output = .operationPending data ∨ v.output = .busy data) :
    ∃ p, held = some p ∧ tail = p.take v.sender.inUsed ∧ data = p.drop v.sender.inUsed ∧
      v.sender.input = .busy p ∧
      v.sender.inPacket = some p ∧ v.sender.inUsed < p.length := by
  cases h with
  | sending q hi hh hmore ho =>
    have hdata : data = q.drop v.sender.inUsed := by
      rcases houtput with h | h <;> rcases ho with h' | h' <;> rw [h] at h' <;> cases h' <;> rfl
    exact ⟨q, rfl, rfl, hdata, hi, hh, hmore⟩
  | idle hi hh ho => rw [ho] at houtput; simp at houtput
  | queued q hi hh ho => rw [ho] at houtput; simp at houtput
  | wrote q n hi hh ho => rw [ho] at houtput; simp at houtput
  | finished q hi hh ho => rw [ho] at houtput; simp at houtput

theorem Serving.of_wrote {n : Nat} (h : Serving v held tail) (houtput : v.output = .donePending n) :
    ∃ p, held = some p ∧ tail = p.take (v.sender.inUsed + n) ∧ v.sender.input = .busy p ∧
      v.sender.inPacket = some p ∧
      0 < n ∧ v.sender.inUsed + n ≤ p.length := by
  cases h with
  | wrote q m hi hh ho hpos hle =>
    rw [ho, Phase.donePending.injEq] at houtput
    subst houtput
    exact ⟨q, rfl, rfl, hi, hh, hpos, hle⟩
  | idle hi hh ho => rw [ho] at houtput; cases houtput
  | queued q hi hh ho => rw [ho] at houtput; cases houtput
  | sending q hi hh hmore ho => rw [houtput] at ho; simp at ho
  | finished q hi hh ho => rw [ho] at houtput; cases houtput

variable {past : List (List UInt8)}

theorem recorded_none (h : l.server = none) :
    Recorded l past ↔ Accounts l.handed l.conns l.passed := by rw [Recorded, h]

theorem recorded_some (h : l.server = some v) : Recorded l past ↔ Current l v past := by
  rw [Recorded, h]

/-- connector の持つ packet と接続が同じなら、記録も同じである。 -/
theorem Recorded.congr {l' : Link} (h : Recorded l past) (hserver : l'.server = l.server)
    (hheld : l'.connector.inPacket = l.connector.inPacket)
    (hmtu : l'.connector.inputMtu = l.connector.inputMtu) (hconns : l'.conns = l.conns)
    (hpassed : l'.passed = l.passed)
    (hacc : ∀ {conns next}, Accounts l.handed conns next → Accounts l'.handed conns next) :
    Recorded l' past := by
  rcases Option.eq_none_or_eq_some l.server with hs | ⟨v, hs⟩
  · rw [recorded_none (hserver.trans hs), hconns, hpassed]
    exact hacc ((recorded_none hs).mp h)
  · obtain ⟨hm, c, older, before, ps, tail, hc, hpast, hfirst, hbytes, hserving, holder⟩ :=
      (recorded_some hs).mp h
    refine (recorded_some (hserver.trans hs)).mpr
      ⟨hm.trans hmtu.symm, c, older, before, ps, tail, hconns.trans hc, hpast,
      hfirst, hbytes, ?_, hacc holder⟩
    rw [hheld]
    exact hserving

end Inversion

/-! ## 終えるまでの手数 -/

/-- sender が今の packet を終えるまでの手数の上限。 -/
def Server.work (v : Server) : Nat :=
  match v.sender.input with
  | .none => 0
  | .donePending _ => 2
  | .operationPending p => 3 * p.length + 3
  | .busy p =>
    match v.output with
    | .none => 0
    | .operationPending data => 3 * data.length + 2
    | .busy data => 3 * data.length + 1
    | .donePending n => 3 * (p.length - (v.sender.inUsed + n)) + 3

namespace Link

/-- 今の packet を終えるまでの手数の上限。 -/
def work (l : Link) : Nat :=
  match l.connector.input with
  | .none => 0
  | .donePending _ => 1
  | .operationPending p => 3 * p.length + 4
  | .busy _ => (l.server.map Server.work).getD 0

variable {l : Link} {v : Server} {p : List UInt8}

theorem work_of_busy (hinput : l.connector.input = .busy p) (hserver : l.server = some v) :
    l.work = v.work := by
  rw [work, hinput, hserver]
  rfl

/-! ## 一つの事象 -/

/-- 送り手だけが進む一歩。書かれた部分は変わらない。 -/
theorem Inv.serve {v' : Server} (h : Inv l) (hserver : l.server = some v)
    (hmtu : v'.sender.mtu = v.sender.mtu)
    (hserving : ∀ tail, Serving v l.connector.inPacket tail →
      Serving v' l.connector.inPacket tail) :
    Inv { l with server := some v' } := by
  obtain ⟨past, inflight, hhanded, hpassed, hstage, hrec⟩ := h
  obtain ⟨hm, c, older, before, ps, tail, hconns, hpast, hfirst, hbytes, hs, holder⟩ :=
    (recorded_some hserver).mp hrec
  exact ⟨past, inflight, hhanded, hpassed, hstage.congr rfl rfl rfl, hmtu.trans hm, c, older,
    before, ps, tail, hconns, hpast, hfirst, hbytes, hserving tail hs, holder⟩

theorem Inv.serving (h : Inv l) (hserver : l.server = some v) :
    ∃ tail, Serving v l.connector.inPacket tail := by
  obtain ⟨past, inflight, -, -, -, hrec⟩ := h
  obtain ⟨-, c, older, before, ps, tail, -, -, -, -, hs, -⟩ := (recorded_some hserver).mp hrec
  exact ⟨tail, hs⟩

theorem Inv.busy_of_held (h : Inv l) (hheld : l.connector.inPacket = some p) :
    l.connector.input = .busy p := by
  obtain ⟨past, inflight, -, -, hstage, -⟩ := h
  exact (hstage.of_held hheld).2.1

theorem Inv.senderOperation (h : Inv l) (hserver : l.server = some v)
    (hinput : v.sender.input = .operationPending p) :
    ∃ v', { v with sender.input := .busy p }.inputHandlerSend p = .ok v' ∧
      Inv { l with server := some v' } ∧
      work { l with server := some v' } < l.work := by
  obtain ⟨tail, hs⟩ := h.serving hserver
  obtain ⟨hheld, -, hnone, hout⟩ := hs.of_queued hinput
  obtain ⟨v', hv', hmtu, hserving, hnext⟩ :=
    sendData_eq
      (v := { v with sender.input := .busy p, sender.inPacket := some p, sender.inUsed := 0 }) rfl
      rfl hout
      (Nat.zero_le _)
  refine ⟨v', ?_, h.serve hserver hmtu fun tail' hs' => ?_, ?_⟩
  · rw [Server.inputHandlerSend, ensure_bind hnone]
    exact hv'
  · obtain ⟨hheld', rfl, -⟩ := hs'.of_queued hinput
    rw [hheld']
    exact hserving
  · have hbusy := h.busy_of_held hheld
    rw [work_of_busy hbusy hserver, work_of_busy (l := { l with server := some v' }) hbusy rfl]
    rcases hnext with ⟨hi, ho⟩ | ⟨hi, -⟩
    · simp only [Server.work, hi, ho, hinput, List.length_drop]
      omega
    · simp only [Server.work, hi, hinput]
      omega

theorem Inv.outputOperation {data : List UInt8} (h : Inv l) (hserver : l.server = some v)
    (houtput : v.output = .operationPending data) :
    Inv { l with server := some { v with output := .busy data } } ∧
      work { l with server := some { v with output := .busy data } } < l.work := by
  obtain ⟨tail, hs⟩ := h.serving hserver
  obtain ⟨p, hheld, -, rfl, hi, -⟩ := hs.of_sending (.inl houtput)
  refine ⟨h.serve hserver rfl fun tail' hs' => ?_, ?_⟩
  · obtain ⟨q, hheld', rfl, hdata, hi', hh', hmore'⟩ := hs'.of_sending (.inl houtput)
    rw [hheld']
    exact .sending q hi' hh' hmore' (.inr (congrArg Phase.busy hdata))
  · have hbusy := h.busy_of_held hheld
    rw [work_of_busy hbusy hserver,
      work_of_busy
        (l := { l with server := some { v with output := .busy (p.drop v.sender.inUsed) } }) hbusy
        rfl]
    simp only [Server.work, hi, houtput]
    omega

theorem Inv.outputDone {n : Nat} (h : Inv l) (hserver : l.server = some v)
    (houtput : v.output = .donePending n) :
    ∃ v', { v with output := .none }.outputHandlerDone n = .ok v' ∧
      Inv { l with server := some v' } ∧
      work { l with server := some v' } < l.work := by
  obtain ⟨tail, hs⟩ := h.serving hserver
  obtain ⟨p, hheld, -, hi, hh, hpos, hle⟩ := hs.of_wrote houtput
  obtain ⟨v', hv', hmtu, hserving, hnext⟩ :=
    sendData_eq (v := { v with output := .none, sender.inUsed := v.sender.inUsed + n }) hi hh rfl
      hle
  refine ⟨v', ?_, h.serve hserver hmtu fun tail' hs' => ?_, ?_⟩
  · rw [Server.outputHandlerDone]
    dsimp only
    rw [hh]
    dsimp only
    rw [ensure_bind hpos, ensure_bind (by omega), ← hh]
    exact hv'
  · obtain ⟨q, hheld', rfl, hi', -⟩ := hs'.of_wrote houtput
    rw [hi, Phase.busy.injEq] at hi'
    subst hi'
    rw [hheld']
    exact hserving
  · have hbusy := h.busy_of_held hheld
    rw [work_of_busy hbusy hserver, work_of_busy (l := { l with server := some v' }) hbusy rfl]
    rcases hnext with ⟨hi', ho⟩ | ⟨hi', -⟩
    · simp only [Server.work, hi, hi', ho, houtput, List.length_drop]
      omega
    · simp only [Server.work, hi, hi', houtput]
      omega

theorem Inv.write {data : List UInt8} {n : Nat} (h : Inv l) (hserver : l.server = some v)
    (houtput : v.output = .busy data) (hpos : 0 < n) (hle : n ≤ data.length) :
    Inv { l with
      server := some { v with output := .donePending n }, conns := l.wrote (data.take n) } ∧
      work { l with
        server := some { v with output := .donePending n }, conns := l.wrote (data.take n) } <
          l.work := by
  obtain ⟨past, inflight, hhanded, hpassed, hstage, hrec⟩ := h
  obtain ⟨hm, c, older, before, ps, tail, hconns, hpast, hfirst, hbytes, hs, holder⟩ :=
    (recorded_some hserver).mp hrec
  obtain ⟨p, hheld, rfl, rfl, hi, hh, hmore⟩ := hs.of_sending (.inr houtput)
  obtain ⟨rfl, hbusy, htold, hfits⟩ := hstage.of_held hheld
  rw [List.length_drop] at hle
  constructor
  · refine ⟨past, [p], hhanded, hpassed, .holding p hbusy hheld htold hfits, hm,
      { c with bytes := c.bytes ++ (p.drop v.sender.inUsed).take n }, older, before, ps,
      p.take (v.sender.inUsed + n), ?_, hpast, hfirst, ?_, ?_, holder⟩
    · rw [wrote, hconns]
    · rw [hbytes, List.append_assoc, List.take_add]
    · rw [hheld]
      exact .wrote p n hi hh rfl hpos (by show v.sender.inUsed + n ≤ _; omega)
  · rw [work_of_busy hbusy hserver, work_of_busy
      (l := { l with
        server := some { v with output := .donePending n },
        conns := l.wrote ((p.drop v.sender.inUsed).take n) })
      hbusy rfl]
    simp only [Server.work, hi, houtput, List.length_drop]
    omega

theorem Inv.senderDone (h : Inv l) (hserver : l.server = some v)
    (hinput : v.sender.input = .donePending ()) :
    ∃ l', { l with server := some { v with sender.input := .none } }.outputHandlerDone = .ok l' ∧
      Inv l' ∧
      l'.handed = l.handed ∧ l'.work < l.work := by
  obtain ⟨past, inflight, hhanded, hpassed, hstage, hrec⟩ := h
  obtain ⟨hm, c, older, before, ps, tail, hconns, rfl, hfirst, hbytes, hs, holder⟩ :=
    (recorded_some hserver).mp hrec
  obtain ⟨hheld, hnone, hout⟩ := hs.of_finished hinput
  obtain ⟨rfl, hbusy, htold, hfits⟩ := hstage.of_held hheld
  refine ⟨{ l with
    server := some { v with sender.input := .none }
    connector.inPacket := none
    connector.input := .donePending ()
    passed := l.passed + 1 }, ?_, ?_, rfl, ?_⟩
  · rw [Link.outputHandlerDone, ensure_bind (by rw [hheld]; exact Option.some_ne_none _),
      ensure_bind (Option.some_ne_none _)]
    dsimp only
    rw [hbusy]
    rfl
  · refine ⟨before ++ ps ++ [tail], [], ?_, ?_,
      .done rfl rfl (by show l.told + 1 = l.passed + 1; omega), hm, c, older, before, ps ++ [tail],
      [], hconns, List.append_assoc _ _ _, hfirst, ?_, .idle rfl hnone hout, holder⟩
    · rw [List.append_nil]
      exact hhanded
    · rw [hpassed]
      simp only [List.length_append, List.length_singleton]
    · rw [hbytes]
      simp
  · rw [work_of_busy hbusy hserver]
    simp only [work, Server.work, hinput]
    omega

theorem Inv.hand (h : Inv l) (hinput : l.connector.input = .none)
    (hfits : p.length ≤ l.connector.inputMtu) :
    Inv { l with connector.input := .operationPending p, handed := l.handed ++ [p] } := by
  obtain ⟨past, inflight, hhanded, hpassed, hstage, hrec⟩ := h
  cases hstage with
  | idle hi hh ht =>
    refine ⟨past, [p], ?_, hpassed, .pending p rfl hh ht hfits, ?_⟩
    · rw [hhanded, List.append_nil]
    · exact hrec.congr rfl rfl rfl rfl rfl fun h => h.hand p
  | pending q hi => rw [hi] at hinput; cases hinput
  | holding q hi => rw [hi] at hinput; cases hinput
  | done hi => rw [hi] at hinput; cases hinput

theorem Inv.inputOperation (h : Inv l) (hinput : l.connector.input = .operationPending p) :
    ∃ l', { l with connector.input := .busy p }.inputHandlerSend p = .ok l' ∧ Inv l' ∧
      l'.handed = l.handed ∧
      l'.work < l.work := by
  obtain ⟨past, inflight, hhanded, hpassed, hstage, hrec⟩ := h
  cases hstage with
  | pending q hi hh ht hf =>
    rw [hi, Phase.operationPending.injEq] at hinput
    subst hinput
    have hwork : l.work = 3 * q.length + 4 := by rw [work, hi]
    rw [Link.inputHandlerSend, ensure_bind (by exact hf), ensure_bind (by exact hh)]
    rcases Option.eq_none_or_eq_some l.server with hserver | ⟨v, hserver⟩
    · have hforward : forward { l with connector.input := .busy q } q =
        .ok none := by rw [forward, hserver]
      rw [hforward, ok_bind]
      refine ⟨_, rfl, ⟨past, [q], hhanded, hpassed, .holding q rfl rfl ht hf,
        (recorded_none hserver).mp hrec⟩, rfl, ?_⟩
      rw [hwork]
      exact Nat.succ_pos _
    · obtain ⟨hm, c, older, before, ps, tail, hconns, hpast, hfirst, hbytes, hs, holder⟩ :=
        (recorded_some hserver).mp hrec
      rw [hh] at hs
      obtain ⟨rfl, hnone, hsnone, hout⟩ := hs.of_idle
      have hforward : forward { l with connector.input := .busy q } q =
          .ok (some { v with sender.input := .operationPending q }) := by
        rw [forward, hserver]
        dsimp only
        rw [senderSend_eq hnone (by omega)]
        rfl
      rw [hforward, ok_bind]
      refine ⟨_, rfl, ?_, rfl, ?_⟩
      · exact ⟨past, [q], hhanded, hpassed, .holding q rfl rfl ht hf, hm, c, older, before, ps, [],
          hconns, hpast, hfirst, hbytes, .queued q rfl hsnone hout, holder⟩
      · rw [hwork]
        show 3 * q.length + 3 < _
        omega
  | idle hi => rw [hi] at hinput; cases hinput
  | holding q hi => rw [hi] at hinput; cases hinput
  | done hi => rw [hi] at hinput; cases hinput

theorem Inv.inputDone (h : Inv l) (hinput : l.connector.input = .donePending ()) :
    Inv { l with connector.input := .none, told := l.told + 1 } ∧
      work { l with connector.input := .none, told := l.told + 1 } < l.work := by
  obtain ⟨past, inflight, hhanded, hpassed, hstage, hrec⟩ := h
  cases hstage with
  | done hi hh ht =>
    refine ⟨⟨past, [], hhanded, hpassed, .idle rfl hh ht, hrec.congr rfl rfl rfl rfl rfl id⟩, ?_⟩
    simp only [work, hi]
    omega
  | idle hi => rw [hi] at hinput; cases hinput
  | pending q hi => rw [hi] at hinput; cases hinput
  | holding q hi => rw [hi] at hinput; cases hinput

theorem Inv.connectServer (h : Inv l) (hserver : l.server = none) :
    ∃ l', l.connectServer = .ok l' ∧ Inv l' ∧ l'.handed = l.handed := by
  obtain ⟨past, inflight, hhanded, hpassed, hstage, hrec⟩ := h
  have hacc := (recorded_none hserver).mp hrec
  -- 持っている packet があれば、新しい sender に最初から渡す
  have hnew : ∃ v, l.connectOutput (Server.init l.connector.inputMtu) = .ok v ∧
      v.sender.mtu = l.connector.inputMtu ∧ Serving v l.connector.inPacket [] := by
    rw [connectOutput, ensure_bind hserver, ensure_bind (by exact Nat.le_refl _)]
    cases hheld : l.connector.inPacket with
    | none => exact ⟨_, rfl, rfl, .idle rfl rfl rfl⟩
    | some p =>
      obtain ⟨-, -, -, hfits⟩ := hstage.of_held hheld
      exact ⟨_, senderSend_eq rfl hfits, rfl, .queued p rfl rfl rfl⟩
  obtain ⟨v, hv, hmtu, hs⟩ := hnew
  refine ⟨{ l with server := some v, conns := ⟨l.passed, []⟩ :: l.conns }, ?_,
    ⟨past, inflight, hhanded, hpassed, hstage.congr rfl rfl rfl, hmtu, ⟨l.passed, []⟩, l.conns,
    past, [], [], rfl, (List.append_nil _).symm, hpassed, rfl, hs, hacc⟩, rfl⟩
  rw [Link.connectServer, hv]
  rfl

theorem Inv.accounts (h : Inv l) : Accounts l.handed l.conns l.passed := by
  obtain ⟨past, inflight, hhanded, hpassed, hstage, hrec⟩ := h
  cases hserver : l.server with
  | none => exact (recorded_none hserver).mp hrec
  | some v =>
    exact ((recorded_some hserver).mp hrec).accounts hhanded hpassed fun p hheld =>
      (hstage.of_held hheld).1

theorem Inv.disconnectServer (h : Inv l) : Inv { l with server := none } := by
  have hacc := h.accounts
  obtain ⟨past, inflight, hhanded, hpassed, hstage, -⟩ := h
  exact ⟨past, inflight, hhanded, hpassed, hstage.congr rfl rfl rfl, hacc⟩

/-- job を走らせることと、stream に書くこと。 -/
def internal : LinkEvent → Bool
  | .hand _ | .connectServer | .disconnectServer => false
  | _ => true

/-- 事象が渡す packet。 -/
def handedBy : LinkEvent → List (List UInt8)
  | .hand p => [p]
  | _ => []

/-- sender と stream の事象。 -/
theorem inv_runSender {ev : LinkEvent} {r : Except Fault Link} (h : Inv l)
    (hserver : l.server = some v) (hstep : l.runSender v ev = some r) :
    ∃ l', r = .ok l' ∧ Inv l' ∧ l'.handed = l.handed ∧ l'.work < l.work := by
  unfold runSender at hstep
  split at hstep
  next =>
    split at hstep
    next p hinput =>
      obtain ⟨v', hv', hinv, hlt⟩ := h.senderOperation hserver hinput
      rw [hv', ok_bind] at hstep
      exact ⟨_, (Option.some.inj hstep).symm, hinv, rfl, hlt⟩
    next => cases hstep
  next =>
    split at hstep
    next hinput =>
      obtain ⟨l', hl', hinv, hhanded, hlt⟩ := h.senderDone hserver hinput
      rw [hl'] at hstep
      exact ⟨l', (Option.some.inj hstep).symm, hinv, hhanded, hlt⟩
    next => cases hstep
  next =>
    split at hstep
    next data houtput =>
      obtain ⟨hinv, hlt⟩ := h.outputOperation hserver houtput
      exact ⟨_, (Option.some.inj hstep).symm, hinv, rfl, hlt⟩
    next => cases hstep
  next n =>
    split at hstep
    next data houtput =>
      split at hstep
      next hn =>
        obtain ⟨hinv, hlt⟩ := h.write hserver houtput hn.1 hn.2
        rw [houtput] at hstep
        exact ⟨_, (Option.some.inj hstep).symm, hinv, rfl, hlt⟩
      next => cases hstep
    next => cases hstep
  next =>
    split at hstep
    next n houtput =>
      obtain ⟨v', hv', hinv, hlt⟩ := h.outputDone hserver houtput
      rw [hv', ok_bind] at hstep
      exact ⟨_, (Option.some.inj hstep).symm, hinv, rfl, hlt⟩
    next => cases hstep
  next => cases hstep

/-- どの事象でも故障せず、不変量が保たれ、渡した packet が記録に足される。job と書き込みは残りの手数を減らす。 -/
theorem inv_step (l : Link) (ev : LinkEvent) (r : Except Fault Link) (h : Inv l)
    (hstep : l.step ev = some r) :
    ∃ l', r = .ok l' ∧ Inv l' ∧ l'.handed = l.handed ++ handedBy ev ∧
      (internal ev = true → l'.work < l.work) := by
  unfold step at hstep
  split at hstep
  next p =>
    split at hstep
    next hinput =>
      split at hstep
      next hfits =>
        rw [hinput] at hstep
        exact ⟨_, (Option.some.inj hstep).symm, h.hand hinput hfits, rfl, fun hi => by cases hi⟩
      next => cases hstep
    next => cases hstep
  next =>
    split at hstep
    next p hinput =>
      obtain ⟨l', hl', hinv, hhanded, hlt⟩ := h.inputOperation hinput
      rw [hl'] at hstep
      exact ⟨l', (Option.some.inj hstep).symm, hinv, hhanded.trans (List.append_nil _).symm,
        fun _ => hlt⟩
    next => cases hstep
  next =>
    split at hstep
    next hinput =>
      obtain ⟨hinv, hlt⟩ := h.inputDone hinput
      exact ⟨_, (Option.some.inj hstep).symm, hinv, (List.append_nil _).symm, fun _ => hlt⟩
    next => cases hstep
  next =>
    split at hstep
    next hserver =>
      obtain ⟨l', hl', hinv, hhanded⟩ := h.connectServer hserver
      rw [hl'] at hstep
      exact ⟨l', (Option.some.inj hstep).symm, hinv, hhanded.trans (List.append_nil _).symm,
        fun hi => by cases hi⟩
    next => cases hstep
  next =>
    split at hstep
    next => cases hstep
    next =>
      exact ⟨_, (Option.some.inj hstep).symm, h.disconnectServer, (List.append_nil _).symm,
        fun hi => by cases hi⟩
  next _ hnot _ _ _ _ =>
    split at hstep
    next => cases hstep
    next v hserver =>
      obtain ⟨l', hl', hinv, hhanded, hlt⟩ := inv_runSender h hserver hstep
      have hnone : handedBy ev = [] := by
        cases ev with
        | hand p => exact absurd rfl (hnot p)
        | _ => rfl
      refine ⟨l', hl', hinv, ?_, fun _ => hlt⟩
      rw [hnone, List.append_nil, hhanded]

/-- 接続していて packet が残っていれば、走る job か、書けるものがある。 -/
theorem Inv.enabled (h : Inv l) (hserver : l.server = some v) (hinput : l.connector.input ≠ .none) :
    ∃ ev, internal ev = true ∧ (l.step ev).isSome = true := by
  obtain ⟨tail, hs⟩ := h.serving hserver
  obtain ⟨past, inflight, -, -, hstage, -⟩ := h
  cases hstage with
  | idle hi => exact absurd hi hinput
  | pending p hi => exact ⟨.inputOperation, rfl, by simp [step, hi]⟩
  | done hi => exact ⟨.inputDone, rfl, by simp [step, hi]⟩
  | holding p hi hh =>
    rw [hh] at hs
    cases hs with
    | queued _ hsi => exact ⟨.senderOperation, rfl, by simp [step, hserver, runSender, hsi]⟩
    | sending _ hsi _ hmore ho =>
      rcases ho with ho | ho
      · exact ⟨.outputOperation, rfl, by simp [step, hserver, runSender, ho]⟩
      · have hle : 1 ≤ p.length - v.sender.inUsed := by omega
        exact ⟨.write 1, rfl, by simp [step, hserver, runSender, ho, hle]⟩
    | wrote _ n hsi _ ho => exact ⟨.outputDone, rfl, by simp [step, hserver, runSender, ho]⟩
    | finished _ hsi => exact ⟨.senderDone, rfl, by simp [step, hserver, runSender, hsi]⟩

/-! ## run -/

/-- 渡された packet、接続に書かれた byte、告げた数の関係。 -/
structure Ordered (l : Link) : Prop where
  /-- どの接続にも、渡された順に完全な packet と高々一つの途中までの packet があり、飛ばされた packet は無い。 -/
  accounts : Accounts l.handed l.conns l.passed
  /-- 次の packet が渡されるのは、前の packet について告げられた後である。 -/
  told : l.handed.length = l.told + if l.connector.input = .none then 0 else 1
  /-- connector が終えた packet は、一度だけ告げられる。 -/
  passed : l.passed = l.told + if l.connector.input = .donePending () then 1 else 0

theorem Inv.ordered (h : Inv l) : Ordered l := by
  have hacc := h.accounts
  obtain ⟨past, inflight, hhanded, hpassed, hstage, -⟩ := h
  have hlen := congrArg List.length hhanded
  rw [List.length_append] at hlen
  cases hstage with
  | idle hi hh ht =>
    refine ⟨hacc, ?_, ?_⟩ <;> rw [hi] <;>
      simp only [reduceCtorEq, if_false, if_true, List.length_nil] at * <;> omega
  | pending p hi hh ht =>
    refine ⟨hacc, ?_, ?_⟩ <;> rw [hi] <;> simp only [reduceCtorEq, if_false, List.length_singleton]
      at * <;> omega
  | holding p hi hh ht =>
    refine ⟨hacc, ?_, ?_⟩ <;> rw [hi] <;> simp only [reduceCtorEq, if_false, List.length_singleton]
      at * <;> omega
  | done hi hh ht =>
    refine ⟨hacc, ?_, ?_⟩ <;> rw [hi] <;>
      simp only [reduceCtorEq, if_false, if_true, List.length_nil] at * <;> omega

theorem inv_init (mtu : Nat) : Inv (init mtu) := ⟨[], [], rfl, rfl, .idle rfl rfl rfl, rfl⟩

end Link

/--
**接続し直しても、packet は飛ばされず、順序も変わらない。**

fair queue が渡す packet の列、stream への部分的な書き込み、job の合間の切断と接続をどう並べても、故障せず、どの接続にも完全な
packet の並びと高々一つの途中までの packet が書かれる。次の接続は、切れた時の packet から始まり、それより前の packet を
書き直すことはない。渡した側は、packet ごとに一度だけ終わったと告げられる。

接続していて packet が残っている間は必ず何かが走り、接続が切れなければ、それは `work` 手以内に尽きる。
-/
theorem packets_survive_reconnects {mtu : Nat} {events : List LinkEvent} {r : Except Fault Link}
    (hrun : exec (guarded Link.step) (.ok (Link.init mtu)) events = some r) :
    ∃ l, r = .ok l ∧ l.handed = events.flatMap Link.handedBy ∧ l.Ordered ∧
      (l.server ≠ none → l.connector.input ≠ .none → ∃ ev, Link.internal ev = true ∧
        (l.step ev).isSome = true) ∧
      ∀ es r', (∀ ev ∈ es, Link.internal ev = true) →
        exec (guarded Link.step) (.ok l) es = some r' →
        es.length ≤ l.work := by
  have hinv : ∀ (l : Link) ev r, l.Inv → l.step ev = some r →
      ∃ l', r = .ok l' ∧ l'.Inv ∧ l'.handed = l.handed ++ Link.handedBy ev := by
    intro l ev r h hstep
    obtain ⟨l', hr, hl', hhanded, -⟩ := Link.inv_step l ev r h hstep
    exact ⟨l', hr, hl', hhanded⟩
  obtain ⟨l, rfl, hl, hhanded⟩ := exec_safe_log hinv (Link.inv_init mtu) hrun
  refine ⟨l, rfl, hhanded, hl.ordered, fun hserver hinput => ?_, fun es r' hes hrun' => ?_⟩
  · obtain ⟨v, hv⟩ := Option.ne_none_iff_exists'.mp hserver
    exact hl.enabled hv hinput
  · have hmeets : Meets (guarded Link.step) (OkThen fun _ ev => Link.internal ev = true)
        (.ok l) es :=
      Meets.of_mem (fun ev hev r => by cases r <;> [trivial; exact hes ev hev]) _
    refine exec_safe_length_le (fun l ev r h hok hstep => ?_) hl hmeets hrun'
    obtain ⟨l', hr, hl', -, hlt⟩ := Link.inv_step l ev r h hstep
    exact ⟨l', hr, hl', hlt hok⟩

/-- 三 byte の packet を一 byte 書いた所で切れ、次の接続で最初から書かれる。 -/
def rewrittenRun : List LinkEvent :=
  [.hand [1, 2, 3], .inputOperation, .connectServer, .senderOperation, .outputOperation, .write 1,
    .disconnectServer, .connectServer, .senderOperation, .outputOperation, .write 3, .outputDone,
    .senderDone, .inputDone, .hand [4]]

theorem packets_survive_reconnects_rewritten :
    ∃ l, exec (guarded Link.step) (.ok (Link.init 3)) rewrittenRun = some (.ok l) ∧
      (l.conns = [⟨0, [1, 2, 3]⟩, ⟨0, [1]⟩] ∧ l.told = 1) ∧ l.handed = [[1, 2, 3], [4]] ∧
        l.Ordered := by
  obtain ⟨l, hrun, hp⟩ := exec_ok_exists Link.step (Link.init 3) rewrittenRun
    (fun l => l.conns = [⟨0, [1, 2, 3]⟩, ⟨0, [1]⟩] ∧ l.told = 1) (by decide +kernel)
  obtain ⟨l', hl', hhanded, hordered, -⟩ := packets_survive_reconnects hrun
  obtain rfl := Except.ok.inj hl'
  exact ⟨l, hrun, hp, hhanded, hordered⟩

end Flow
