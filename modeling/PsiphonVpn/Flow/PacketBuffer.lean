import PsiphonVpn.Flow.Capacity

/-!
# `PacketBuffer`

`flow/PacketBuffer.c`。`PacketRecvInterface` から受け取った packet を `ChunkBuffer2` に入れ、古いものから
`PacketPassInterface` に渡す。

どちらの側も、頼んでから終わったと告げられるまで次を頼めない。頼むかどうかは、操作の前後の空きと中身を比べて決める。決め方を誤れば、
空きがあるのに受け取らず、packet があるのに渡さないまま止まる。

* `packetBuffer_no_lost_wakeup` — どの順に終わっても `Flowing` が成り立つ
-/

namespace Flow

open Infra

/-- `input` に頼むのは書き込み先、返るのは長さである。`output` に頼むのは packet の位置と長さである。 -/
structure PacketBuffer where
  ring : Ring
  inputMtu : Nat
  outputMtu : Nat
  input : Phase (Option Nat) Nat
  output : Phase (Option Nat × Int) Unit
  -- 記録
  /-- 入力が終えた packet。 -/
  arrived : List (List UInt8)
  /-- 出力が終えた packet。 -/
  left : List (List UInt8)
  deriving DecidableEq, Repr

inductive BufferEvent where
  /-- 入力が頼まれた受信を始める。 -/
  | inputOperation
  /-- 入力が、書き込み先の `off` byte 目から `data` を書く。 -/
  | fill (off : Nat) (data : List UInt8)
  /-- `PacketRecvInterface_Done` -/
  | inputDone (len : Nat)
  /-- `_PacketRecvInterface_job_done` -/
  | inputHandler
  | outputOperation
  /-- `PacketPassInterface_Done` -/
  | outputDone
  /-- `_PacketPassInterface_job_done` -/
  | outputHandler
  deriving DecidableEq, Repr

namespace PacketBuffer

/-- `PacketRecvInterface_Receiver_Recv` -/
def receiverRecv (p : PacketBuffer) (data : Option Nat) : Except Fault PacketBuffer := do
  ensure (p.inputMtu = 0 ∨ data ≠ none)
  let input ← p.input.send data
  pure { p with input := input }

/-- `PacketPassInterface_Sender_Send` -/
def senderSend (p : PacketBuffer) (data : Option Nat) (dataLen : Int) : Except Fault PacketBuffer :=
  do
  ensure (0 ≤ dataLen)
  ensure (dataLen ≤ p.outputMtu)
  ensure (dataLen ≤ 0 ∨ data ≠ none)
  let output ← p.output.send (data, dataLen)
  pure { p with output := output }

/-- 位置 `data` からの `len` byte。 -/
def bytesAt (p : PacketBuffer) (data : Option Nat) (len : Nat) : List UInt8 :=
  match data with
  | some dest => p.ring.written dest len
  | none => []

/-- `ChunkBuffer2_SubmitPacket` -/
def submitPacket (p : PacketBuffer) (len : Nat) : Except Fault PacketBuffer := do
  let b ← p.ring.buf.submitPacket len
  pure
    { p with
      ring := ⟨b, p.ring.queue ++ [⟨p.ring.buf.endBlock, p.bytesAt p.ring.buf.inputDest len⟩]⟩ }

/-- `ChunkBuffer2_ConsumePacket` -/
def consumePacket (p : PacketBuffer) : Except Fault PacketBuffer := do
  let b ← p.ring.buf.consumePacket
  pure { p with ring := ⟨b, p.ring.queue.tail⟩ }

/-- 条件 `c` の下で、入力の所への受信を頼む。 -/
def recvIf (p : PacketBuffer) (c : Prop) [Decidable c] : Except Fault PacketBuffer :=
  if c then p.receiverRecv p.ring.buf.inputDest else pure p

/-- 条件 `c` の下で、出力の所の packet の送信を頼む。 -/
def sendIf (p : PacketBuffer) (c : Prop) [Decidable c] : Except Fault PacketBuffer :=
  if c then p.senderSend p.ring.buf.outputDest p.ring.buf.outputAvail else pure p

/-- `input_handler_done` -/
def inputHandlerDone (p : PacketBuffer) (inLen : Nat) : Except Fault PacketBuffer := do
  ensure (inLen ≤ p.inputMtu)
  let wasEmpty := decide (p.ring.buf.outputAvail < 0)
  let p ← p.submitPacket inLen
  let p ← p.recvIf (p.inputMtu ≤ p.ring.buf.inputAvail)
  p.sendIf (wasEmpty = true)

/-- `output_handler_done` -/
def outputHandlerDone (p : PacketBuffer) : Except Fault PacketBuffer := do
  let wasFull := decide (p.ring.buf.inputAvail < p.inputMtu)
  let p ← p.consumePacket
  let p ← p.recvIf (wasFull = true ∧ p.inputMtu ≤ p.ring.buf.inputAvail)
  p.sendIf (0 ≤ p.ring.buf.outputAvail)

/-- `PacketBuffer_Init`。`alloc` は `BAllocArray` で、`none` は記憶が足りないこと。 -/
def init (inputMtu outputMtu numPackets : Nat) (alloc : (n : Nat) → Option (Vector UInt8 n)) :
    Except Fault (Option PacketBuffer) := do
  ensure (inputMtu ≤ outputMtu)
  ensure (0 < numPackets)
  let numBlocks := ChunkBuffer2.calcBlocks inputMtu numPackets
  if numBlocks < 0 then pure none
  else
    match alloc (4 * numBlocks.toNat) with
    | none => pure none
    | some bufData => do
      let b ← ChunkBuffer2.init bufData.toList numBlocks.toNat inputMtu
      let p ← receiverRecv ⟨⟨b, []⟩, inputMtu, outputMtu, .none, .none, [], []⟩ b.inputDest
      pure (some p)

/-- 両側の interface の事象。入力は、書き込み先に MTU までを書いてよい。 -/
def step (p : PacketBuffer) : BufferEvent → Option (Except Fault PacketBuffer)
  | .inputOperation =>
    match p.input with
    | .operationPending data => some (.ok { p with input := .busy data })
    | _ => none
  | .fill off data =>
    match p.input with
    | .busy (some dest) =>
      if off + data.length ≤ p.inputMtu then
        some (do
          let ring ← p.ring.write (dest + off) data
          pure { p with ring := ring })
      else none
    | _ => none
  | .inputDone len =>
    match p.input with
    | .busy data =>
      if len ≤ p.inputMtu then
        some
          (.ok { p with input := .donePending len, arrived := p.arrived ++ [p.bytesAt data len] })
      else none
    | _ => none
  | .inputHandler =>
    match p.input with
    | .donePending len => some ({ p with input := .none }.inputHandlerDone len)
    | _ => none
  | .outputOperation =>
    match p.output with
    | .operationPending request => some (.ok { p with output := .busy request })
    | _ => none
  | .outputDone =>
    match p.output with
    | .busy request =>
      some
        (.ok { p with output := .donePending (), left := p.left ++
          [p.bytesAt request.1 request.2.toNat] })
    | _ => none
  | .outputHandler =>
    match p.output with
    | .donePending _ => some { p with output := .none }.outputHandlerDone
    | _ => none

/-! ## 不変量 -/

/-- 入力の側。`incoming` は、終えたがまだ buffer に入れていない packet。 -/
inductive Receiving (p : PacketBuffer) : List (List UInt8) → Prop where
  | idle (phase : p.input = .none) (full : p.ring.buf.inputAvail < p.inputMtu) : Receiving p []
  | waiting (dest : Nat) (phase : p.input = .operationPending (some dest) ∨
    p.input = .busy (some dest))
      (into : p.ring.buf.inputDest = some dest) (room : p.inputMtu ≤ p.ring.buf.inputAvail) :
      Receiving p []
  | done (dest len : Nat) (phase : p.input = .donePending len)
      (into : p.ring.buf.inputDest = some dest)
      (room : p.inputMtu ≤ p.ring.buf.inputAvail) (fits : len ≤ p.inputMtu) : Receiving p
      [p.ring.written dest len]

/-- 出力の側。`stored` は、入っている packet のうち、まだ出力が終えていないもの。 -/
inductive Sending (p : PacketBuffer) : List Entry → Prop where
  | idle (phase : p.output = .none) (empty : p.ring.queue = []) : Sending p []
  | waiting (e : Entry) (rest : List Entry) (stored : p.ring.queue = e :: rest)
      (phase : p.output = .operationPending (some (4 * (p.ring.buf.start + 1)), e.data.length) ∨
        p.output = .busy (some (4 * (p.ring.buf.start + 1)), e.data.length)) : Sending p (e :: rest)
  | done (e : Entry) (rest : List Entry) (stored : p.ring.queue = e :: rest)
      (phase : p.output = .donePending ()) :
      Sending p rest

structure Inv (num : Nat) (p : PacketBuffer) : Prop where
  num_pos : 0 < num
  mtu_le : p.inputMtu ≤ p.outputMtu
  sized : Ring.Sized p.inputMtu num p.ring
  fits : ∀ e ∈ p.ring.queue, e.data.length ≤ p.inputMtu
  sides : ∃ incoming stored, Receiving p incoming ∧ Sending p stored ∧
    p.arrived = p.left ++ stored.map Entry.data ++ incoming

/-! ## buffer の示すもの -/

section Shown

variable {mtu num : Nat} {s : Ring}

/-- 空きがあれば、書き込み先がある。 -/
theorem inputDest_of_avail (h : Ring.Sized mtu num s) (hpos : 0 ≤ s.buf.inputAvail) :
    ∃ dest, s.buf.inputDest = some dest := by
  obtain ⟨front, back, -, -, hin, -⟩ := h.inv
  have havail := hin.2
  rw [hin.1]
  unfold ChunkBuffer2.inputOf at havail ⊢
  split at havail
  next hmtu =>
    dsimp only at havail
    omega
  next hmtu =>
    rw [if_neg hmtu]
    split at havail
    next hfree => exact ⟨_, by rw [if_pos hfree]⟩
    next =>
      dsimp only at havail
      omega

theorem output_of_nil (h : Ring.Sized mtu num s) (hq : s.queue = []) :
    s.buf.outputDest = none ∧ s.buf.outputAvail = -1 := by
  obtain ⟨front, back, -, -, -, hout⟩ := h.inv
  rw [hq] at hout
  exact hout

/-- 入っている packet があれば、最も古いものが示されている。 -/
theorem output_of_cons {e : Entry} {rest : List Entry} (h : Ring.Sized mtu num s)
    (hq : s.queue = e :: rest) :
    s.buf.outputDest = some (4 * (s.buf.start + 1)) ∧ s.buf.outputAvail = e.data.length ∧
      At s.buf.buffer (4 * (s.buf.start + 1)) e.data := by
  have hrefines := h.inv.refines.output
  obtain ⟨front, back, -, -, -, hout⟩ := h.inv
  rw [hq] at hrefines hout
  obtain ⟨dest, hdest, -, hat⟩ := hrefines
  rw [hout.1, Option.some.injEq] at hdest
  exact ⟨hout.1, hout.2, hdest ▸ hat⟩

end Shown

variable {c : Prop} {p' : PacketBuffer} {data : Option Nat} {request : Option Nat × Int}

section Steps

variable {num : Nat} {p : PacketBuffer}

/-! ## 頼むこと -/

/-- 空きがあれば受信を頼み、無ければ頼まない。 -/
theorem recvIf_ok (hsized : Ring.Sized p.inputMtu num p.ring) (hidle : p.input = .none)
    [Decidable c] (hc : c ↔ p.inputMtu ≤ p.ring.buf.inputAvail) :
    ∃ input, p.recvIf c = .ok { p with input := input } ∧
      Receiving { p with input := input } [] := by
  by_cases hroom : p.inputMtu ≤ p.ring.buf.inputAvail
  · obtain ⟨dest, hdest⟩ := inputDest_of_avail hsized (by omega)
    refine ⟨.operationPending (some dest), ?_, .waiting dest (.inl rfl) hdest hroom⟩
    rw [recvIf, if_pos (hc.mpr hroom), hdest, receiverRecv,
      ensure_bind (.inr (Option.some_ne_none _)), hidle]
    rfl
  · refine ⟨p.input, ?_, .idle hidle (Int.not_le.mp hroom)⟩
    rw [recvIf, if_neg (mt hc.mp hroom)]
    rfl

/-- 入っている packet があれば、最も古いものの送信を頼む。 -/
theorem sendIf_ok (hsized : Ring.Sized p.inputMtu num p.ring) (hidle : p.output = .none)
    (hmtu : p.inputMtu ≤ p.outputMtu) (hfits : ∀ e ∈ p.ring.queue, e.data.length ≤ p.inputMtu)
    [Decidable c] (hc : c ↔ p.ring.queue ≠ []) :
    ∃ output, p.sendIf c = .ok { p with output := output } ∧
      Sending { p with output := output } p.ring.queue := by
  cases hq : p.ring.queue with
  | nil =>
    refine ⟨p.output, ?_, .idle hidle hq⟩
    rw [sendIf, if_neg (fun h => hc.mp h hq)]
    rfl
  | cons e rest =>
    have hlen : e.data.length ≤ p.inputMtu := hfits e (by rw [hq]; exact List.mem_cons_self)
    obtain ⟨hdest, havail, -⟩ := output_of_cons hsized hq
    refine ⟨.operationPending (some (4 * (p.ring.buf.start + 1)), e.data.length), ?_,
      .waiting e rest hq (.inl rfl)⟩
    rw [sendIf, if_pos (hc.mpr (by rw [hq]; exact List.cons_ne_nil e rest)), senderSend, hdest,
      havail, ensure_bind (by omega), ensure_bind (by omega),
      ensure_bind (.inr (Option.some_ne_none _)), hidle]
    rfl

theorem sendIf_of_not [Decidable c] (hc : ¬ c) : p.sendIf c = .ok p := if_neg hc

theorem recvIf_of_not [Decidable c] (hc : ¬ c) : p.recvIf c = .ok p := if_neg hc

theorem Receiving.congr {incoming : List (List UInt8)} (h : Receiving p incoming)
    (hinput : p'.input = p.input) (hring : p'.ring = p.ring) (hmtu : p'.inputMtu = p.inputMtu) :
    Receiving p' incoming := by
  cases h with
  | idle phase full =>
    refine .idle (hinput.trans phase) ?_
    rw [hring, hmtu]
    exact full
  | waiting dest phase into room =>
    refine .waiting dest (hinput ▸ phase) (hring ▸ into) ?_
    rw [hring, hmtu]
    exact room
  | done dest len phase into room fits =>
    rw [← hring] at into ⊢
    rw [← hring, ← hmtu] at room
    exact .done dest len (hinput.trans phase) into room (hmtu ▸ fits)

theorem Sending.congr {stored : List Entry} (h : Sending p stored)
    (houtput : p'.output = p.output) (hring : p'.ring = p.ring) : Sending p' stored := by
  cases h with
  | idle phase empty => exact .idle (houtput.trans phase) (hring ▸ empty)
  | waiting e rest hq phase =>
    refine .waiting e rest (hring ▸ hq) ?_
    rw [houtput, hring]
    exact phase
  | done e _ hq phase => exact .done e stored (hring ▸ hq) (houtput.trans phase)

/-! ## 二つの handler -/

/-- packet を足しても、出力の側が見ている packet は変わらない。空だったときだけ、送信を頼む。 -/
theorem Sending.append {stored : List Entry} (h : Sending p stored) {e : Entry}
    (hqueue : p'.ring.queue = p.ring.queue ++ [e]) (hstart : p'.ring.buf.start = p.ring.buf.start)
    (houtput : p'.output = p.output) (hne : p.ring.queue ≠ []) : Sending p' (stored ++ [e]) := by
  cases h with
  | idle phase empty => exact absurd empty hne
  | waiting e' rest hq phase =>
    rw [hq] at hqueue
    refine .waiting e' (rest ++ [e]) hqueue ?_
    rw [houtput, hstart]
    exact phase
  | done e' _ hq phase =>
    rw [hq] at hqueue
    exact .done e' (stored ++ [e]) hqueue (houtput.trans phase)

theorem Inv.inputHandler {len : Nat} (h : Inv num p) (hdone : p.input = .donePending len) :
    ∃ p', { p with input := .none }.inputHandlerDone len = .ok p' ∧ Inv num p' := by
  obtain ⟨incoming, stored, hrecv, hsend, hlog⟩ := h.sides
  cases hrecv with
  | idle hphase => rw [hphase] at hdone; cases hdone
  | waiting dest hphase =>
    rcases hphase with hphase | hphase <;> rw [hphase] at hdone <;> cases hdone
  | done dest len' hphase hinto hroom hfits =>
    rw [hphase, Phase.donePending.injEq] at hdone
    subst hdone
    obtain ⟨b, hb, hsized⟩ := h.sized.submit hinto (by omega) hfits
    have hstart : b.start = p.ring.buf.start := by
      obtain ⟨_, _, _, _, rfl⟩ := submitPacket_sameBlocks hb
      rfl
    obtain ⟨e, he⟩ : ∃ e : Entry, e = ⟨p.ring.buf.endBlock, p.ring.written dest len'⟩ := ⟨_, rfl⟩
    rw [← he] at hsized
    have hlog' : p.arrived = p.left ++ (stored ++ [e]).map Entry.data ++ [] := by
      rw [hlog, he, List.map_append, List.append_nil, List.append_assoc]
      rfl
    have hfits' : ∀ x ∈ p.ring.queue ++ [e], x.data.length ≤ p.inputMtu := by
      intro x hx
      rcases List.mem_append.mp hx with hx | hx
      · exact h.fits x hx
      · rw [List.mem_singleton.mp hx, he]
        exact (List.length_take_le _ _).trans hfits
    have hsubmit : submitPacket { p with input := .none } len' =
        .ok { p with input := .none, ring := ⟨b, p.ring.queue ++ [e]⟩ } := by
      rw [submitPacket]
      dsimp only
      rw [hb, ok_bind, hinto, he]
      rfl
    obtain ⟨input, hinput, hrecv'⟩ :=
      recvIf_ok (p := { p with input := .none, ring := ⟨b, p.ring.queue ++ [e]⟩ }) hsized rfl
        Iff.rfl
    rw [inputHandlerDone, ensure_bind (by exact hfits), hsubmit, ok_bind, hinput, ok_bind]
    by_cases hempty : p.ring.queue = []
    · obtain ⟨-, havail⟩ := output_of_nil h.sized hempty
      cases hsend with
      | idle hphase' _ =>
        obtain ⟨output, houtput, hsend'⟩ :=
          sendIf_ok (p := { p with input := input, ring := ⟨b, p.ring.queue ++ [e]⟩ }) hsized
            hphase' h.mtu_le hfits'
            (c := decide (p.ring.buf.outputAvail < 0) = true) (by simp [havail])
        refine ⟨_, houtput, h.num_pos, h.mtu_le, hsized, hfits', [], p.ring.queue ++ [e],
          hrecv'.congr rfl rfl rfl, hsend', ?_⟩
        rw [hempty]
        exact hlog'
      | waiting e' rest hq => rw [hq] at hempty; cases hempty
      | done e' _ hq => rw [hq] at hempty; cases hempty
    · obtain ⟨e', rest, hq⟩ := List.exists_cons_of_ne_nil hempty
      obtain ⟨-, havail, -⟩ := output_of_cons h.sized hq
      refine ⟨_, sendIf_of_not ?_, h.num_pos, h.mtu_le, hsized, hfits', [], stored ++ [e], hrecv',
        ?_, hlog'⟩
      · rw [decide_eq_true_eq, havail]
        omega
      · exact hsend.append rfl hstart rfl hempty

/--
最も古い packet を除いた後の入力の側。

空きが足りなかったときだけ受信を頼む。足りていれば受信は頼んであり、その書き込み先は動いていない。
-/
theorem Receiving.consume {incoming : List (List UInt8)} {b : ChunkBuffer2} {rest : List Entry}
    (h : Receiving p incoming) (hb : p.ring.buf.consumePacket = .ok b)
    (hkeep : ∀ d, p.ring.buf.inputDest = some d → b.inputDest = some d ∧
      p.ring.buf.inputAvail ≤ b.inputAvail)
    (hsized : Ring.Sized p.inputMtu num ⟨b, rest⟩) :
    ∃ input, recvIf { p with output := .none, ring := ⟨b, rest⟩ }
        (decide (p.ring.buf.inputAvail < p.inputMtu) = true ∧ p.inputMtu ≤ b.inputAvail) =
          .ok { p with output := .none, ring := ⟨b, rest⟩, input := input } ∧
      Receiving { p with output := .none, ring := ⟨b, rest⟩, input := input } incoming := by
  have hbuffer : b.buffer = p.ring.buf.buffer := by
    obtain ⟨datalen, -, _, _, _, _, rfl⟩ := consumePacket_sameBlocks hb
    unfold ChunkBuffer2.pop
    split <;> rfl
  cases h with
  | idle phase full =>
    refine recvIf_ok (p := { p with output := .none, ring := ⟨b, rest⟩ }) hsized phase ?_
    rw [decide_eq_true_eq]
    exact and_iff_right full
  | waiting dest phase into room =>
    obtain ⟨hdest, hle⟩ := hkeep dest into
    refine ⟨p.input, recvIf_of_not (by simp; omega),
      .waiting dest phase hdest (Int.le_trans room hle)⟩
  | done dest len phase into room fits =>
    obtain ⟨hdest, hle⟩ := hkeep dest into
    refine ⟨p.input, recvIf_of_not (by simp; omega), ?_⟩
    have hwritten : p.ring.written dest len = Ring.written ⟨b, rest⟩ dest len := by
      rw [Ring.written, Ring.written, hbuffer]
    rw [hwritten]
    exact .done dest len phase hdest (Int.le_trans room hle) fits

theorem Inv.outputHandler (h : Inv num p) (hdone : p.output = .donePending ()) :
    ∃ p', { p with output := .none }.outputHandlerDone = .ok p' ∧ Inv num p' := by
  obtain ⟨incoming, stored, hrecv, hsend, hlog⟩ := h.sides
  cases hsend with
  | idle hphase => rw [hphase] at hdone; cases hdone
  | waiting e rest hq hphase =>
    rcases hphase with hphase | hphase <;> rw [hphase] at hdone <;> cases hdone
  | done e _ hq hphase =>
    obtain ⟨hdest, -, -⟩ := output_of_cons h.sized hq
    obtain ⟨b, hb, hsized, hkeep⟩ := h.sized.consume hdest
    rw [hq, List.tail_cons] at hsized
    have hconsume : consumePacket { p with output := .none } =
        .ok { p with output := .none, ring := ⟨b, stored⟩ } := by
      rw [consumePacket]
      dsimp only
      rw [hb, ok_bind, hq]
      rfl
    have hfits : ∀ x ∈ stored, x.data.length ≤ p.inputMtu :=
      fun x hx => h.fits x (hq ▸ List.mem_cons_of_mem e hx)
    obtain ⟨input, hinput, hrecv'⟩ := hrecv.consume hb hkeep hsized
    have havail : 0 ≤ b.outputAvail ↔ stored ≠ [] := by
      cases hs : stored with
      | nil =>
        have hnone : b.outputAvail = -1 := (output_of_nil hsized hs).2
        simp [hnone]
      | cons e' rest =>
        have hsome : b.outputAvail = e'.data.length := (output_of_cons hsized hs).2.1
        simp [hsome]
    obtain ⟨output, houtput, hsend'⟩ :=
      sendIf_ok (p := { p with output := .none, ring := ⟨b, stored⟩, input := input }) hsized rfl
        h.mtu_le hfits havail
    refine ⟨{ p with output := output, ring := ⟨b, stored⟩, input := input }, ?_, h.num_pos,
      h.mtu_le, hsized, hfits, incoming, stored, hrecv'.congr rfl rfl rfl, hsend', hlog⟩
    rw [outputHandlerDone, hconsume, ok_bind, hinput, ok_bind]
    exact houtput

/-! ## 一つの事象 -/

theorem Inv.inputOperation (h : Inv num p) (hphase : p.input = .operationPending data) :
    Inv num { p with input := .busy data } := by
  obtain ⟨incoming, stored, hrecv, hsend, hlog⟩ := h.sides
  cases hrecv with
  | idle phase => rw [phase] at hphase; cases hphase
  | waiting dest phase into room =>
    rcases phase with phase | phase
    · rw [phase, Phase.operationPending.injEq] at hphase
      subst hphase
      exact ⟨h.num_pos, h.mtu_le, h.sized, h.fits, [], stored, .waiting dest (.inr rfl) into room,
        hsend.congr rfl rfl, hlog⟩
    · rw [phase] at hphase
      cases hphase
  | done dest len phase => rw [phase] at hphase; cases hphase

/-- 受信が始まっていれば、その書き込み先は今の入力の所で、MTU の packet が入る。 -/
theorem Inv.of_busy (h : Inv num p) (hphase : p.input = .busy data) :
    ∃ dest stored, data = some dest ∧ p.ring.buf.inputDest = some dest ∧
      p.inputMtu ≤ p.ring.buf.inputAvail ∧
      Sending p stored ∧ p.arrived = p.left ++ stored.map Entry.data := by
  obtain ⟨incoming, stored, hrecv, hsend, hlog⟩ := h.sides
  cases hrecv with
  | idle phase => rw [phase] at hphase; cases hphase
  | waiting dest phase into room =>
    rcases phase with phase | phase
    · rw [phase] at hphase
      cases hphase
    · rw [phase, Phase.busy.injEq] at hphase
      rw [List.append_nil] at hlog
      exact ⟨dest, stored, hphase.symm, into, room, hsend, hlog⟩
  | done dest len phase => rw [phase] at hphase; cases hphase

theorem Inv.fill {dest off : Nat} {data : List UInt8} (h : Inv num p)
    (hphase : p.input = .busy (some dest)) (hle : off + data.length ≤ p.inputMtu) :
    ∃ ring, p.ring.write (dest + off) data = .ok ring ∧ Inv num { p with ring := ring } := by
  obtain ⟨dest', stored, hdest, hinto, hroom, hsend, hlog⟩ := h.of_busy hphase
  obtain rfl := Option.some.inj hdest
  have hinside : ((off + data.length : Nat) : Int) ≤ p.ring.buf.inputAvail := by omega
  obtain ⟨ring, hring, hsized⟩ := h.sized.write hinto hinside
  obtain ⟨-, -, hrest⟩ := bind_eq_ok.mp hring
  obtain rfl := Except.ok.inj hrest
  refine ⟨_, hring, h.num_pos, h.mtu_le, hsized, h.fits, [], stored,
    .waiting dest (.inr hphase) hinto hroom, ?_, ?_⟩
  · cases hsend with
    | idle phase empty => exact .idle phase empty
    | waiting e rest hq phase => exact .waiting e rest hq phase
    | done e _ hq phase => exact .done e stored hq phase
  · rw [List.append_nil]
    exact hlog

theorem Inv.inputDone {len : Nat} (h : Inv num p) (hphase : p.input = .busy data)
    (hle : len ≤ p.inputMtu) :
    Inv num { p with input := .donePending len, arrived := p.arrived ++ [p.bytesAt data len] } := by
  obtain ⟨dest, stored, rfl, hinto, hroom, hsend, hlog⟩ := h.of_busy hphase
  refine ⟨h.num_pos, h.mtu_le, h.sized, h.fits, [p.ring.written dest len], stored,
    .done dest len rfl hinto hroom hle, hsend.congr rfl rfl, ?_⟩
  show p.arrived ++ [p.ring.written dest len] = _
  rw [hlog]

theorem Inv.outputOperation (h : Inv num p) (hphase : p.output = .operationPending request) :
    Inv num { p with output := .busy request } := by
  obtain ⟨incoming, stored, hrecv, hsend, hlog⟩ := h.sides
  cases hsend with
  | idle phase => rw [phase] at hphase; cases hphase
  | waiting e rest hq phase =>
    rcases phase with phase | phase
    · rw [phase, Phase.operationPending.injEq] at hphase
      subst hphase
      exact ⟨h.num_pos, h.mtu_le, h.sized, h.fits, incoming, e :: rest, hrecv.congr rfl rfl rfl,
        .waiting e rest hq (.inr rfl), hlog⟩
    · rw [phase] at hphase
      cases hphase
  | done e _ hq phase => rw [phase] at hphase; cases hphase

/-- 出力が終えるのは、最も古い packet である。 -/
theorem Inv.outputDone (h : Inv num p) (hphase : p.output = .busy request) :
    Inv num { p with output := .donePending (), left := p.left ++
      [p.bytesAt request.1 request.2.toNat] } := by
  obtain ⟨incoming, stored, hrecv, hsend, hlog⟩ := h.sides
  cases hsend with
  | idle phase => rw [phase] at hphase; cases hphase
  | waiting e rest hq phase =>
    rcases phase with phase | phase
    · rw [phase] at hphase
      cases hphase
    · rw [phase, Phase.busy.injEq] at hphase
      subst hphase
      obtain ⟨-, -, hat⟩ := output_of_cons h.sized hq
      have hbytes : p.bytesAt (some (4 * (p.ring.buf.start + 1))) (e.data.length : Int).toNat =
          e.data := by
        rw [Int.toNat_natCast]
        exact hat.eq_take.symm
      refine ⟨h.num_pos, h.mtu_le, h.sized, h.fits, incoming, rest, hrecv.congr rfl rfl rfl,
        .done e rest hq rfl, ?_⟩
      dsimp only
      rw [hbytes, hlog, List.map_cons, List.append_assoc p.left [e.data]]
      rfl
  | done e _ hq phase => rw [phase] at hphase; cases hphase

end Steps

/-- どの事象でも故障せず、不変量が保たれる。 -/
theorem inv_step (num : Nat) (p : PacketBuffer) (ev : BufferEvent) (r : Except Fault PacketBuffer)
    (h : Inv num p) (hstep : p.step ev = some r) : ∃ p', r = .ok p' ∧ Inv num p' := by
  unfold step at hstep
  split at hstep
  next =>
    split at hstep
    next data hphase => exact ⟨_, (Option.some.inj hstep).symm, h.inputOperation hphase⟩
    next => cases hstep
  next off data =>
    split at hstep
    next dest hphase =>
      split at hstep
      next hle =>
        obtain ⟨ring, hring, hinv⟩ := h.fill hphase hle
        rw [hring, ok_bind] at hstep
        exact ⟨_, (Option.some.inj hstep).symm, hinv⟩
      next => cases hstep
    next => cases hstep
  next len =>
    split at hstep
    next data hphase =>
      split at hstep
      next hle => exact ⟨_, (Option.some.inj hstep).symm, h.inputDone hphase hle⟩
      next => cases hstep
    next => cases hstep
  next =>
    split at hstep
    next len hphase =>
      obtain ⟨p', hp', hinv⟩ := h.inputHandler hphase
      rw [hp'] at hstep
      exact ⟨p', (Option.some.inj hstep).symm, hinv⟩
    next => cases hstep
  next =>
    split at hstep
    next request hphase => exact ⟨_, (Option.some.inj hstep).symm, h.outputOperation hphase⟩
    next => cases hstep
  next =>
    split at hstep
    next request hphase => exact ⟨_, (Option.some.inj hstep).symm, h.outputDone hphase⟩
    next => cases hstep
  next =>
    split at hstep
    next hphase =>
      obtain ⟨p', hp', hinv⟩ := h.outputHandler hphase
      rw [hp'] at hstep
      exact ⟨p', (Option.some.inj hstep).symm, hinv⟩
    next => cases hstep

/-! ## run -/

/-- 終えたがまだ buffer に入れていない packet。 -/
def incoming (p : PacketBuffer) : List (List UInt8) :=
  match p.input with
  | .donePending len => [p.bytesAt p.ring.buf.inputDest len]
  | _ => []

/-- 入っている packet のうち、まだ出力が終えていないもの。 -/
def unsent (p : PacketBuffer) : List (List UInt8) :=
  match p.output with
  | .donePending _ => p.ring.queue.tail.map Entry.data
  | _ => p.ring.queue.map Entry.data

/-- 頼むべきことは頼んであり、packet は順に、一度ずつ通る。 -/
structure Flowing (p : PacketBuffer) : Prop where
  refines : p.ring.Refines
  receiving : p.input ≠ .none ↔ p.inputMtu ≤ p.ring.buf.inputAvail
  /-- 受信の書き込み先は、今の入力の所である。 -/
  into : ∀ data, p.input = .operationPending data ∨ p.input = .busy data →
    data = p.ring.buf.inputDest ∧ data ≠ none
  sending : p.output ≠ .none ↔ p.ring.queue ≠ []
  /-- 送信しているのは、最も古い packet である。 -/
  oldest : ∀ request, p.output = .operationPending request ∨ p.output = .busy request →
    request = (p.ring.buf.outputDest, p.ring.buf.outputAvail) ∧
      ∃ dest e rest, p.ring.queue = e :: rest ∧ request = (some dest, (e.data.length : Int)) ∧
        At p.ring.buf.buffer dest e.data
  /-- 渡し終えた packet に、中にある packet を続けると、受け取った packet になる。 -/
  order : p.arrived = p.left ++ p.unsent ++ p.incoming
  /-- 両側がともに休むことはない。 -/
  awake : p.input ≠ .none ∨ p.output ≠ .none

section Sides

variable {num : Nat} {p : PacketBuffer} {packets : List (List UInt8)} {stored : List Entry}

theorem Receiving.outstanding_iff (h : Receiving p packets) :
    p.input ≠ .none ↔ p.inputMtu ≤ p.ring.buf.inputAvail := by
  cases h with
  | idle phase full => exact iff_of_false (fun hne => hne phase) (Int.not_le.mpr full)
  | waiting dest phase into room =>
    refine iff_of_true ?_ room
    rcases phase with phase | phase <;> rw [phase] <;> nofun
  | done dest len phase into room fits =>
    refine iff_of_true ?_ room
    rw [phase]
    nofun

theorem Receiving.into_eq (h : Receiving p packets)
    (hphase : p.input = .operationPending data ∨ p.input = .busy data) :
    data = p.ring.buf.inputDest ∧ data ≠ none := by
  cases h with
  | idle phase => rcases hphase with hphase | hphase <;> rw [phase] at hphase <;> cases hphase
  | waiting dest phase into room =>
    have hdata : data = some dest := by
      rcases phase with phase | phase <;> rcases hphase with hphase | hphase <;> rw [phase]
        at hphase <;> cases hphase <;> rfl
    exact ⟨hdata.trans into.symm, hdata ▸ Option.some_ne_none dest⟩
  | done dest len phase =>
    rcases hphase with hphase | hphase <;> rw [phase] at hphase <;> cases hphase

theorem Receiving.incoming_eq (h : Receiving p packets) : p.incoming = packets := by
  cases h with
  | idle phase => rw [incoming, phase]
  | waiting dest phase => rcases phase with phase | phase <;> rw [incoming, phase]
  | done dest len phase into =>
    rw [incoming, phase, into]
    rfl

theorem Sending.outstanding_iff (h : Sending p stored) : p.output ≠ .none ↔ p.ring.queue ≠ [] := by
  cases h with
  | idle phase empty => exact iff_of_false (fun hne => hne phase) (fun hne => hne empty)
  | waiting e rest hq phase =>
    refine iff_of_true ?_ (hq ▸ List.cons_ne_nil e rest)
    rcases phase with phase | phase <;> rw [phase] <;> nofun
  | done e _ hq phase =>
    refine iff_of_true ?_ (hq ▸ List.cons_ne_nil e stored)
    rw [phase]
    nofun

theorem Sending.oldest (h : Sending p stored) (hsized : Ring.Sized p.inputMtu num p.ring)
    (hphase : p.output = .operationPending request ∨ p.output = .busy request) :
    request = (p.ring.buf.outputDest, p.ring.buf.outputAvail) ∧
      ∃ dest e rest, p.ring.queue = e :: rest ∧ request = (some dest, (e.data.length : Int)) ∧
        At p.ring.buf.buffer dest e.data := by
  cases h with
  | idle phase => rcases hphase with hphase | hphase <;> rw [phase] at hphase <;> cases hphase
  | waiting e rest hq phase =>
    obtain ⟨hdest, havail, hat⟩ := output_of_cons hsized hq
    have hrequest : request = (some (4 * (p.ring.buf.start + 1)), (e.data.length : Int)) := by
      rcases phase with phase | phase <;> rcases hphase with hphase | hphase <;> rw [phase]
        at hphase <;> cases hphase <;> rfl
    exact ⟨by rw [hrequest, hdest, havail], _, e, rest, hq, hrequest, hat⟩
  | done e _ hq phase =>
    rcases hphase with hphase | hphase <;> rw [phase] at hphase <;> cases hphase

theorem Sending.unsent_eq (h : Sending p stored) : p.unsent = stored.map Entry.data := by
  cases h with
  | idle phase empty => rw [unsent, phase, empty]
  | waiting e rest hq phase => rcases phase with phase | phase <;> rw [unsent, phase, hq]
  | done e _ hq phase =>
    rw [unsent, phase, hq]
    rfl

end Sides

theorem Inv.flowing {num : Nat} {p : PacketBuffer} (h : Inv num p) : Flowing p := by
  obtain ⟨packets, stored, hrecv, hsend, hlog⟩ := h.sides
  refine ⟨h.sized.inv.refines, hrecv.outstanding_iff, fun data hphase => hrecv.into_eq hphase,
    hsend.outstanding_iff, fun request hphase => hsend.oldest h.sized hphase, ?_, ?_⟩
  · rw [hrecv.incoming_eq, hsend.unsent_eq]
    exact hlog
  · -- 空なら、packet 一つ分の空きがある
    by_cases hq : p.ring.queue = []
    · left
      rw [hrecv.outstanding_iff]
      refine (h.sized.input_avail ?_).2
      rw [hq]
      exact h.num_pos
    · exact .inr (hsend.outstanding_iff.mpr hq)

/-! ## 始め -/

/-- `int` に入れて `size_t` に戻した値が変わらなければ、`int` に収まっている。 -/
theorem lt_of_toInt_emod {n : Nat} (hlt : n < 2 ^ 63) (h : toInt n % 2 ^ 64 = n) : n < 2 ^ 31 := by
  unfold toInt at h
  split at h <;> omega

/-- `ChunkBuffer2_Init` の検査が通るなら、buffer の大きさは `int` で表せる。 -/
theorem size_of_init {mtu num blocks : Nat} {buffer : List UInt8} {b : ChunkBuffer2}
    (hcalc : ChunkBuffer2.calcBlocks mtu num = blocks)
    (hinit : ChunkBuffer2.init buffer blocks mtu = .ok b) :
    4 * blocks ≤ 2 ^ 31 := by
  obtain ⟨-, hone, hint⟩ := Ring.calcBlocks_eq hcalc
  obtain ⟨-, -, hinit⟩ := bind_eq_ok.mp hinit
  obtain ⟨-, -, hinit⟩ := bind_eq_ok.mp hinit
  obtain ⟨b₁, hb₁, hinit⟩ := bind_eq_ok.mp hinit
  obtain ⟨_, hassert, -⟩ := bind_eq_ok.mp hinit
  obtain ⟨_, hassert, -⟩ := bind_eq_ok.mp hassert
  obtain ⟨-, -, hassert⟩ := bind_eq_ok.mp hassert
  obtain rfl := Except.ok.inj hb₁
  -- 空の buffer では、block 0 からのすべてが空いている
  have hopen : ¬ (ChunkBuffer2.fresh buffer blocks mtu).Wrapped :=
    Nat.not_le.mpr (by show 0 + 0 < blocks; omega)
  have hend : (ChunkBuffer2.fresh buffer blocks mtu).endBlock = 0 :=
    ChunkBuffer2.endBlock_of_not_wrapped hopen
  have hfree : (ChunkBuffer2.fresh buffer blocks mtu).free = blocks := by
    rw [ChunkBuffer2.free_of_not_wrapped hopen, hend]
    rfl
  have hroom : ¬ (ChunkBuffer2.fresh buffer blocks mtu).size <
      (ChunkBuffer2.fresh buffer blocks mtu).endBlock + 1 +
        (ChunkBuffer2.fresh buffer blocks mtu).mtu := by
    rw [hend]
    show ¬ blocks < 0 + 1 + blocksFor mtu
    omega
  have hpos : 0 < (ChunkBuffer2.fresh buffer blocks mtu).free := by omega
  have havail : (ChunkBuffer2.fresh buffer blocks mtu).inputOf.2 = toInt ((blocks - 1) * 4) := by
    rw [ChunkBuffer2.inputOf, if_neg hroom, if_pos hpos, hfree]
  rw [if_neg (by exact hroom), if_pos (by exact hpos)] at hassert
  have hmod : (ChunkBuffer2.fresh buffer blocks mtu).inputOf.2 % 2 ^ 64 =
      (((ChunkBuffer2.fresh buffer blocks mtu).free - 1) * 4 : Nat) := of_ensure_eq_ok hassert
  rw [havail, hfree] at hmod
  have hlt := lt_of_toInt_emod (by omega) hmod
  omega

theorem inv_init {inputMtu outputMtu num : Nat} {alloc : (n : Nat) → Option (Vector UInt8 n)}
    {p : PacketBuffer} (hinit : init inputMtu outputMtu num alloc = .ok (some p)) : Inv num p := by
  obtain ⟨_, hmtu, hinit⟩ := bind_eq_ok.mp hinit
  obtain ⟨_, hnum, hinit⟩ := bind_eq_ok.mp hinit
  dsimp only at hinit
  split at hinit
  next => cases hinit
  next hblocks =>
    split at hinit
    next => cases hinit
    next bufData halloc =>
      obtain ⟨b, hb, hinit⟩ := bind_eq_ok.mp hinit
      obtain ⟨p', hp', hinit⟩ := bind_eq_ok.mp hinit
      obtain rfl := Option.some.inj (Except.ok.inj hinit)
      have hcalc : ChunkBuffer2.calcBlocks inputMtu num =
        (ChunkBuffer2.calcBlocks inputMtu num).toNat := by omega
      obtain ⟨b', hb', hsized⟩ := Ring.sized_init hcalc (size_of_init hcalc hb)
        bufData.length_toList
      obtain rfl := Except.ok.inj (hb.symm.trans hb')
      have hpos : 0 < num := of_ensure_eq_ok hnum
      -- 空の buffer には packet 一つ分の空きがあるので、受信はそのまま頼める
      obtain ⟨⟨dest, hdest⟩, hroom⟩ := hsized.input_avail hpos
      rw [receiverRecv, hdest, ensure_bind (.inr (Option.some_ne_none _))] at hp'
      obtain rfl := Except.ok.inj hp'
      exact ⟨hpos, of_ensure_eq_ok hmtu, hsized, nofun, [], [],
        .waiting dest (.inl rfl) hdest hroom, .idle rfl rfl, rfl⟩

end PacketBuffer

/--
**`PacketBuffer` は、頼むべきことを頼み忘れない。**

どの大きさで作っても、両側の操作がどの順に始まりどの順に終わっても、故障しない。受信は空きが MTU あるときにちょうど頼んであり、
その書き込み先は今の入力の所である。送信は packet が入っているときにちょうど頼んであり、それは最も古い packet である。packet は
受け取った順に一度ずつ出て行き、両側がともに休むことはない。
-/
theorem packetBuffer_no_lost_wakeup {inputMtu outputMtu num : Nat}
    {alloc : (n : Nat) → Option (Vector UInt8 n)} {p : PacketBuffer}
    (hinit : PacketBuffer.init inputMtu outputMtu num alloc = .ok (some p))
    (events : List BufferEvent) (r : Except Fault PacketBuffer)
    (hrun : exec (guarded PacketBuffer.step) (.ok p) events = some r) :
    ∃ p', r = .ok p' ∧ p'.Flowing := by
  obtain ⟨p', rfl, hinv⟩ := exec_safe_all (PacketBuffer.inv_step num) (PacketBuffer.inv_init hinit)
    hrun
  exact ⟨p', rfl, hinv.flowing⟩

/-- 四 byte までの packet を一つ入れられる、作られたばかりの `PacketBuffer`。 -/
def singleBuffer : PacketBuffer where
  ring := ⟨(ChunkBuffer2.fresh (List.replicate 16 0) 4 4).updateInput, []⟩
  inputMtu := 4
  outputMtu := 4
  input := .operationPending (some 4)
  output := .none
  arrived := []
  left := []

/-- 一つ目が出て行く前に二つ目が届き、空きが無くなって、一つ目が出て行くと受信が頼まれる。 -/
def refilledRun : List BufferEvent :=
  [.inputOperation, .fill 0 [1, 2, 3, 4], .inputDone 4, .inputHandler, .inputOperation,
    .outputOperation, .fill 0 [5, 6, 7, 8], .inputDone 4, .inputHandler, .outputDone,
    .outputHandler, .inputOperation]

theorem packetBuffer_no_lost_wakeup_refilled :
    ∃ p, PacketBuffer.init 4 4 1 (fun n => some (Vector.replicate n 0)) = .ok (some singleBuffer) ∧
      exec (guarded PacketBuffer.step) (.ok singleBuffer) refilledRun = some (.ok p) ∧
      (p.arrived = [[1, 2, 3, 4], [5, 6, 7, 8]] ∧ p.left = [[1, 2, 3, 4]] ∧
        p.input = .busy (some 4)) ∧ p.Flowing := by
  have hinit : PacketBuffer.init 4 4 1 (fun n => some (Vector.replicate n 0)) =
      .ok (some singleBuffer) := by
    decide +kernel
  obtain ⟨p, hrun, hp⟩ := exec_ok_exists PacketBuffer.step singleBuffer refilledRun
    (fun p => p.arrived = [[1, 2, 3, 4], [5, 6, 7, 8]] ∧ p.left = [[1, 2, 3, 4]] ∧
      p.input = .busy (some 4))
    (by decide +kernel)
  obtain ⟨p', hp', hflowing⟩ := packetBuffer_no_lost_wakeup hinit refilledRun (.ok p) hrun
  obtain rfl := Except.ok.inj hp'
  exact ⟨p, hinit, hrun, hp, hflowing⟩

end Flow
