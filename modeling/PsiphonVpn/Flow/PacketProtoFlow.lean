import PsiphonVpn.Flow.Interface

/-!
# `PacketProtoFlow`

connection ごとの送信 buffer。`flow/PacketProtoFlow.c` は三つの部品をつなぐ。

```
BufferWriter ← PacketProtoEncoder ← PacketBuffer → 出力
```

`PacketBuffer` は、空きがあれば encoder に書き込み先を渡して packet を求め、encoder はそれを `BufferWriter` に求める。
`BufferWriter` は、書き込み先を持っている間だけ packet を一つ受け取る。受け取った packet は encoder を経て `PacketBuffer` に
入り、出力に順に渡される。

どの受け渡しも job として番を待つ。部品の操作は、新しい state と、積む job を積む順に返す。書き込み先の記憶は、そこに
書かれている packet で表す。buffer に次の packet の空きがあるかどうかは引数 `space` とする。
-/

namespace Flow

open Infra

/-- 三つの interface の job。 -/
inductive PathJob where
  | encoderOperation
  | encoderDone
  | writerOperation
  | writerDone
  | outputOperation
  | outputDone
  deriving DecidableEq, Repr

/--
`writer` は `BufferWriter` の、`encoder` は `PacketProtoEncoder` の `PacketRecvInterface`、
`output` は `PacketBuffer` の出力の `PacketPassInterface` である。`room` は `input_avail >= input_mtu`。
-/
structure SendPath (μ : Type) where
  writer : Phase Unit μ
  outHave : Bool
  encoder : Phase Unit μ
  outputPacket : Bool
  queue : List μ
  room : Bool
  output : Phase μ Unit
  deriving DecidableEq, Repr

namespace SendPath

variable {μ : Type}

/-- `PacketBuffer` が、書き込み先を渡して packet を求める。 -/
def receive (p : SendPath μ) : Except Fault (SendPath μ × List PathJob) := do
  let encoder ← p.encoder.send ()
  pure ({ p with encoder := encoder }, [.encoderOperation])

/-- `PacketBuffer` が、最も古い packet を出力に渡す。 -/
def forward (p : SendPath μ) : Except Fault (SendPath μ × List PathJob) :=
  match p.queue with
  | [] => .error (.reject .failed)
  | m :: _ => do
    let output ← p.output.send m
    pure ({ p with output := output }, [.outputOperation])

/-- 条件を満たす時だけ、続けて行う。 -/
def andWhen (c : Bool) (f : SendPath μ → Except Fault (SendPath μ × List PathJob))
    (r : SendPath μ × List PathJob) :
    Except Fault (SendPath μ × List PathJob) :=
  if c then do
    let r' ← f r.1
    pure (r'.1, r.2 ++ r'.2)
  else .ok r

/-- `PacketProtoFlow_Init`。`PacketBuffer_Init` は、空の buffer の書き込み先を渡す。 -/
def init : Except Fault (SendPath μ × List PathJob) :=
  receive ⟨.none, false, .none, false, [], true, .none⟩

/-- `PacketProtoEncoder` の `output_handler_recv` -/
def encoderHandlerRecv (p : SendPath μ) : Except Fault (SendPath μ × List PathJob) := do
  ensure (p.outputPacket = false)
  let writer ← p.writer.send ()
  pure ({ p with outputPacket := true, writer := writer }, [.writerOperation])

/-- `BufferWriter` の `output_handler_recv` -/
def writerHandlerRecv (p : SendPath μ) : Except Fault (SendPath μ × List PathJob) := do
  ensure (p.outHave = false)
  pure ({ p with outHave := true }, [])

/-- `BufferWriter_StartPacket` と `BufferWriter_EndPacket` の間に packet を書く。`none` は書き込み先が無いこと。 -/
def write (p : SendPath μ) (m : μ) : Except Fault (Option (SendPath μ × List PathJob)) :=
  if p.outHave then do
    let writer ← p.writer.done m
    pure (some ({ p with outHave := false, writer := writer }, [.writerDone]))
  else .ok none

/-- `PacketProtoEncoder` の `input_handler_done` -/
def encoderHandlerDone (p : SendPath μ) (m : μ) : Except Fault (SendPath μ × List PathJob) := do
  ensure (p.outputPacket = true)
  let encoder ← p.encoder.done m
  pure ({ p with outputPacket := false, encoder := encoder }, [.encoderDone])

/-- `PacketBuffer` の `input_handler_done` -/
def bufferInputHandlerDone (p : SendPath μ) (space : Bool) (m : μ) :
    Except Fault (SendPath μ × List PathJob) := do
  let r ← andWhen space receive ({ p with queue := p.queue ++ [m], room := space }, [])
  andWhen p.queue.isEmpty forward r

/-- `PacketBuffer` の `output_handler_done`。packet を除いても空きは減らない。 -/
def bufferOutputHandlerDone (p : SendPath μ) (space : Bool) :
    Except Fault (SendPath μ × List PathJob) := do
  ensure (p.queue ≠ [])
  let r ← andWhen (!p.room && space) receive
    ({ p with queue := p.queue.tail, room := p.room || space }, [])
  andWhen (!p.queue.tail.isEmpty) forward r

/-- 出力を受ける側が packet を終える。 -/
def finish (p : SendPath μ) : Except Fault (SendPath μ × List PathJob) := do
  let output ← p.output.done ()
  pure ({ p with output := output }, [.outputDone])

/-- job を走らせる。`state` を変えてから handler を呼ぶ。出力の handler は `PacketBuffer` の外にある。 -/
def run (p : SendPath μ) (space : Bool) : PathJob → Except Fault (SendPath μ × List PathJob)
  | .encoderOperation =>
    match p.encoder with
    | .operationPending _ => { p with encoder := .busy () }.encoderHandlerRecv
    | _ => .error (.reject .failed)
  | .writerOperation =>
    match p.writer with
    | .operationPending _ => { p with writer := .busy () }.writerHandlerRecv
    | _ => .error (.reject .failed)
  | .writerDone =>
    match p.writer with
    | .donePending m => { p with writer := .none }.encoderHandlerDone m
    | _ => .error (.reject .failed)
  | .encoderDone =>
    match p.encoder with
    | .donePending m => { p with encoder := .none }.bufferInputHandlerDone space m
    | _ => .error (.reject .failed)
  | .outputOperation =>
    match p.output with
    | .operationPending m => .ok ({ p with output := .busy m }, [])
    | _ => .error (.reject .failed)
  | .outputDone =>
    match p.output with
    | .donePending _ => { p with output := .none }.bufferOutputHandlerDone space
    | _ => .error (.reject .failed)

/-! ## 不変量 -/

/-- 書き込み先がどこにあるか。 -/
inductive Location (p : SendPath μ) : Prop where
  | full (encoder : p.encoder = .none) (packet : p.outputPacket = false) (writer : p.writer = .none)
      (have' : p.outHave = false) (room : p.room = false)
  | requested (encoder : p.encoder = .operationPending ()) (packet : p.outputPacket = false)
      (writer : p.writer = .none) (have' : p.outHave = false) (room : p.room = true)
  | asked (encoder : p.encoder = .busy ()) (packet : p.outputPacket = true)
      (writer : p.writer = .operationPending ()) (have' : p.outHave = false) (room : p.room = true)
  | offered (encoder : p.encoder = .busy ()) (packet : p.outputPacket = true)
      (writer : p.writer = .busy ()) (have' : p.outHave = true) (room : p.room = true)
  | written (m : μ) (encoder : p.encoder = .busy ()) (packet : p.outputPacket = true)
      (writer : p.writer = .donePending m) (have' : p.outHave = false) (room : p.room = true)
  | encoded (m : μ) (encoder : p.encoder = .donePending m) (packet : p.outputPacket = false)
      (writer : p.writer = .none) (have' : p.outHave = false) (room : p.room = true)

/-- 最も古い packet がどこまで進んだか。 -/
inductive Front (p : SendPath μ) : Prop where
  | empty (output : p.output = .none) (queue : p.queue = [])
  | requested (m : μ) (output : p.output = .operationPending m) (queue : p.queue ≠ [])
  | busy (m : μ) (output : p.output = .busy m) (queue : p.queue ≠ [])
  | finished (output : p.output = .donePending ()) (queue : p.queue ≠ [])

structure Inv (p : SendPath μ) : Prop where
  location : Location p
  front : Front p

/-- 番を待っているはずの job。 -/
def Pending (p : SendPath μ) : PathJob → Prop
  | .encoderOperation => p.encoder = .operationPending ()
  | .encoderDone => ∃ m, p.encoder = .donePending m
  | .writerOperation => p.writer = .operationPending ()
  | .writerDone => ∃ m, p.writer = .donePending m
  | .outputOperation => ∃ m, p.output = .operationPending m
  | .outputDone => p.output = .donePending ()

section Step

variable {p p' : SendPath μ}

theorem Front.congr (h : Front p) (houtput : p'.output = p.output) (hqueue : p'.queue = p.queue) :
    Front p' := by
  cases h with
  | empty ho hq => exact .empty (houtput.trans ho) (hqueue.trans hq)
  | requested m ho hq => exact .requested m (houtput.trans ho) (hqueue ▸ hq)
  | busy m ho hq => exact .busy m (houtput.trans ho) (hqueue ▸ hq)
  | finished ho hq => exact .finished (houtput.trans ho) (hqueue ▸ hq)

theorem Location.congr (h : Location p) (hencoder : p'.encoder = p.encoder)
    (hpacket : p'.outputPacket = p.outputPacket) (hwriter : p'.writer = p.writer)
    (hhave : p'.outHave = p.outHave) (hroom : p'.room = p.room) : Location p' := by
  cases h with
  | full he hp hw hh hr =>
    exact .full (hencoder.trans he) (hpacket.trans hp) (hwriter.trans hw) (hhave.trans hh)
      (hroom.trans hr)
  | requested he hp hw hh hr =>
    exact .requested (hencoder.trans he) (hpacket.trans hp) (hwriter.trans hw) (hhave.trans hh)
      (hroom.trans hr)
  | asked he hp hw hh hr =>
    exact .asked (hencoder.trans he) (hpacket.trans hp) (hwriter.trans hw) (hhave.trans hh)
      (hroom.trans hr)
  | offered he hp hw hh hr =>
    exact .offered (hencoder.trans he) (hpacket.trans hp) (hwriter.trans hw) (hhave.trans hh)
      (hroom.trans hr)
  | written m he hp hw hh hr =>
    exact .written m (hencoder.trans he) (hpacket.trans hp) (hwriter.trans hw) (hhave.trans hh)
      (hroom.trans hr)
  | encoded m he hp hw hh hr =>
    exact .encoded m (hencoder.trans he) (hpacket.trans hp) (hwriter.trans hw) (hhave.trans hh)
      (hroom.trans hr)

/-- 一歩の結果。走った job は待たなくなり、積まれた job が待つようになる。 -/
structure Moves (p : SendPath μ) (ran : PathJob → Prop) (r : SendPath μ × List PathJob) : Prop where
  inv : Inv r.1
  pending : ∀ k, Pending r.1 k ↔ (Pending p k ∧ ¬ ran k) ∨ k ∈ r.2

/-- 書き込み先を求められた encoder は、`BufferWriter` に求める。 -/
theorem run_encoderOperation (h : Inv p) (hj : p.encoder = .operationPending ()) (space : Bool) :
    ∃ r, p.run space .encoderOperation = .ok r ∧ Moves p (· = .encoderOperation) r := by
  obtain ⟨hloc, hfront⟩ := h
  cases hloc with
  | requested he hp hw hh hr =>
    refine ⟨({ p with encoder := .busy (), outputPacket := true, writer := .operationPending () },
      [.writerOperation]), ?_, ⟨.asked rfl rfl rfl hh hr, hfront.congr rfl rfl⟩, ?_⟩
    · rw [run, he]
      dsimp only
      rw [encoderHandlerRecv, ensure_bind hp]
      dsimp only
      rw [hw]
      rfl
    · intro k
      cases k <;> simp [Pending, he, hw]
  | full he => rw [he] at hj; cases hj
  | asked he => rw [he] at hj; cases hj
  | offered he => rw [he] at hj; cases hj
  | written m he => rw [he] at hj; cases hj
  | encoded m he => rw [he] at hj; cases hj

/-- 求められた `BufferWriter` は、書き込み先を持つ。 -/
theorem run_writerOperation (h : Inv p) (hj : p.writer = .operationPending ()) (space : Bool) :
    ∃ r, p.run space .writerOperation = .ok r ∧ Moves p (· = .writerOperation) r := by
  obtain ⟨hloc, hfront⟩ := h
  cases hloc with
  | asked he hp hw hh hr =>
    refine ⟨({ p with writer := .busy (), outHave := true }, []), ?_,
      ⟨.offered he hp rfl rfl hr, hfront.congr rfl rfl⟩, ?_⟩
    · rw [run, hw]
      dsimp only
      rw [writerHandlerRecv, ensure_bind hh]
      rfl
    · intro k
      cases k <;> simp [Pending, hw]
  | full he hp hw => rw [hw] at hj; cases hj
  | requested he hp hw => rw [hw] at hj; cases hj
  | offered he hp hw => rw [hw] at hj; cases hj
  | written m he hp hw => rw [hw] at hj; cases hj
  | encoded m he hp hw => rw [hw] at hj; cases hj

theorem run_writerDone {m : μ} (h : Inv p) (hj : p.writer = .donePending m) (space : Bool) :
    ∃ r, p.run space .writerDone = .ok r ∧ Moves p (· = .writerDone) r := by
  obtain ⟨hloc, hfront⟩ := h
  cases hloc with
  | written m' he hp hw hh hr =>
    refine ⟨({ p with writer := .none, outputPacket := false, encoder := .donePending m' },
      [.encoderDone]), ?_, ⟨.encoded m' rfl rfl rfl hh hr, hfront.congr rfl rfl⟩, ?_⟩
    · rw [run, hw]
      dsimp only
      rw [encoderHandlerDone, ensure_bind hp]
      dsimp only
      rw [he]
      rfl
    · intro k
      cases k <;> simp [Pending, he, hw]
  | full he hp hw => rw [hw] at hj; cases hj
  | requested he hp hw => rw [hw] at hj; cases hj
  | asked he hp hw => rw [hw] at hj; cases hj
  | offered he hp hw => rw [hw] at hj; cases hj
  | encoded m he hp hw => rw [hw] at hj; cases hj

/-- 書き込み先を持つ間に書かれた packet。 -/
theorem write_offered (h : Inv p) (hhave : p.outHave = true) (m : μ) :
    ∃ r, p.write m = .ok (some r) ∧ Moves p (fun _ => False) r := by
  obtain ⟨hloc, hfront⟩ := h
  cases hloc with
  | offered he hp hw hh hr =>
    refine ⟨({ p with outHave := false, writer := .donePending m }, [.writerDone]), ?_,
      ⟨.written m he hp rfl rfl hr, hfront.congr rfl rfl⟩, ?_⟩
    · rw [write, if_pos hh, hw]
      rfl
    · intro k
      cases k <;> simp [Pending, hw]
  | full he hp hw hh => rw [hh] at hhave; cases hhave
  | requested he hp hw hh => rw [hh] at hhave; cases hhave
  | asked he hp hw hh => rw [hh] at hhave; cases hhave
  | written m he hp hw hh => rw [hh] at hhave; cases hhave
  | encoded m he hp hw hh => rw [hh] at hhave; cases hhave

theorem run_outputOperation {m : μ} (h : Inv p) (hj : p.output = .operationPending m)
    (space : Bool) :
    ∃ r, p.run space .outputOperation = .ok r ∧ Moves p (· = .outputOperation) r := by
  obtain ⟨hloc, hfront⟩ := h
  cases hfront with
  | requested m' ho hq =>
    refine ⟨({ p with output := .busy m' }, []), ?_,
      ⟨hloc.congr rfl rfl rfl rfl rfl, .busy m' rfl hq⟩, ?_⟩
    · rw [run, ho]
    · intro k
      cases k <;> simp [Pending, ho]
  | empty ho => rw [ho] at hj; cases hj
  | busy m' ho => rw [ho] at hj; cases hj
  | finished ho => rw [ho] at hj; cases hj

theorem finish_busy {m : μ} (h : Inv p) (hbusy : p.output = .busy m) :
    ∃ r, p.finish = .ok r ∧ Moves p (fun _ => False) r := by
  obtain ⟨hloc, hfront⟩ := h
  cases hfront with
  | busy m' ho hq =>
    refine ⟨({ p with output := .donePending () }, [.outputDone]), ?_,
      ⟨hloc.congr rfl rfl rfl rfl rfl, .finished rfl hq⟩, ?_⟩
    · rw [finish, ho]
      rfl
    · intro k
      cases k <;> simp [Pending, ho]
  | empty ho => rw [ho] at hbusy; cases hbusy
  | requested m' ho => rw [ho] at hbusy; cases hbusy
  | finished ho => rw [ho] at hbusy; cases hbusy

/-- 空きがあれば書き込み先を渡す。 -/
theorem receiveWhen_ok {c : Bool} (js : List PathJob)
    (h : (c = true ∧ p.encoder = .none ∧ p.outputPacket = false ∧ p.writer = .none ∧
      p.outHave = false ∧ p.room = true) ∨
      (c = false ∧ Location p)) :
    ∃ p' js', andWhen c receive (p, js) = .ok (p', js ++ js') ∧ Location p' ∧ p'.output = p.output ∧
      p'.queue = p.queue ∧
      ∀ k, Pending p' k ↔ Pending p k ∨ k ∈ js' := by
  rcases h with ⟨rfl, he, hp, hw, hh, hr⟩ | ⟨rfl, hloc⟩
  · refine ⟨{ p with encoder := .operationPending () }, [.encoderOperation], ?_,
      .requested rfl hp hw hh hr, rfl, rfl, ?_⟩
    · rw [andWhen, if_pos rfl, receive, he]
      rfl
    · intro k
      cases k <;> simp [Pending, he]
  · exact ⟨p, [], by rw [andWhen, if_neg (by decide), List.append_nil], hloc, rfl, rfl,
      fun k => by simp⟩

/-- 渡していない packet があれば出力に渡す。 -/
theorem forwardWhen_ok {c : Bool} (js : List PathJob) (hloc : Location p)
    (h : (c = true ∧ p.output = .none ∧ p.queue ≠ []) ∨ (c = false ∧ Front p)) :
    ∃ p' js', andWhen c forward (p, js) = .ok (p', js ++ js') ∧ Inv p' ∧ ∀ k, Pending p' k ↔
      Pending p k ∨ k ∈ js' := by
  rcases h with ⟨rfl, ho, hq⟩ | ⟨rfl, hfront⟩
  · obtain ⟨m, rest, hq'⟩ := List.exists_cons_of_ne_nil hq
    refine ⟨{ p with output := .operationPending m }, [.outputOperation], ?_,
      ⟨hloc.congr rfl rfl rfl rfl rfl, .requested m rfl hq⟩, ?_⟩
    · rw [andWhen, if_pos rfl, forward]
      dsimp only
      rw [hq']
      dsimp only
      rw [ho]
      simp only [Phase.send, ok_bind]
      rfl
    · intro k
      cases k <;> simp [Pending, ho]
  · exact ⟨p, [], by rw [andWhen, if_neg (by decide), List.append_nil], ⟨hloc, hfront⟩,
      fun k => by simp⟩

/-- encoder の終えた packet は buffer に入る。 -/
theorem run_encoderDone {m : μ} (h : Inv p) (hj : p.encoder = .donePending m) (space : Bool) :
    ∃ r, p.run space .encoderDone = .ok r ∧ Moves p (· = .encoderDone) r := by
  obtain ⟨hloc, hfront⟩ := h
  cases hloc with
  | encoded m' he hp hw hh hr =>
    have hrecv : (space = true ∧ (Phase.none : Phase Unit μ) = .none ∧ p.outputPacket = false ∧
        p.writer = .none ∧
        p.outHave = false ∧ space = true) ∨
        (space = false ∧
          Location { p with encoder := .none, queue := p.queue ++ [m'], room := space }) := by
      cases space with
      | true => exact .inl ⟨rfl, rfl, hp, hw, hh, rfl⟩
      | false => exact .inr ⟨rfl, .full rfl hp hw hh rfl⟩
    obtain ⟨p₁, js₁, hrun₁, hloc₁, hout₁, hq₁, hpend₁⟩ :=
      receiveWhen_ok (p := { p with encoder := .none, queue := p.queue ++ [m'], room := space }) []
        hrecv
    have hfwd : (p.queue.isEmpty = true ∧ p₁.output = .none ∧ p₁.queue ≠ []) ∨
        (p.queue.isEmpty = false ∧ Front p₁) := by
      have hne : p₁.queue ≠ [] := by rw [hq₁]; simp
      cases hfront with
      | empty ho hq => exact .inl ⟨by rw [hq]; rfl, hout₁.trans ho, hne⟩
      | requested m ho hq => exact .inr ⟨by simpa using hq, .requested m (hout₁.trans ho) hne⟩
      | busy m ho hq => exact .inr ⟨by simpa using hq, .busy m (hout₁.trans ho) hne⟩
      | finished ho hq => exact .inr ⟨by simpa using hq, .finished (hout₁.trans ho) hne⟩
    obtain ⟨p₂, js₂, hrun₂, hinv, hpend₂⟩ := forwardWhen_ok ([] ++ js₁) hloc₁ hfwd
    refine ⟨(p₂, [] ++ js₁ ++ js₂), ?_, hinv, fun k => ?_⟩
    · rw [run, he]
      dsimp only
      rw [bufferInputHandlerDone]
      dsimp only
      rw [hrun₁, ok_bind]
      exact hrun₂
    · rw [hpend₂, hpend₁, List.nil_append, List.mem_append, or_assoc]
      apply or_congr_left
      cases k <;> simp [Pending, he]
  | full he => rw [he] at hj; cases hj
  | requested he => rw [he] at hj; cases hj
  | asked he => rw [he] at hj; cases hj
  | offered he => rw [he] at hj; cases hj
  | written m he => rw [he] at hj; cases hj

/-- 出力の終えた packet は除かれ、次が渡される。 -/
theorem run_outputDone (h : Inv p) (hj : p.output = .donePending ()) (space : Bool) :
    ∃ r, p.run space .outputDone = .ok r ∧ Moves p (· = .outputDone) r := by
  obtain ⟨hloc, hfront⟩ := h
  cases hfront with
  | finished ho hq =>
    have hrecv : ((!p.room && space) = true ∧ p.encoder = .none ∧ p.outputPacket = false ∧
        p.writer = .none ∧
        p.outHave = false ∧ (p.room || space) = true) ∨
        ((!p.room && space) = false ∧
          Location { p with output := .none, queue := p.queue.tail, room := p.room || space }) := by
      cases hloc with
      | full he hp hw hh hr =>
        cases space with
        | true => exact .inl ⟨by simp [hr], he, hp, hw, hh, by simp⟩
        | false => exact .inr ⟨by simp, .full he hp hw hh (by simp [hr])⟩
      | requested he hp hw hh hr => exact .inr ⟨by simp [hr], .requested he hp hw hh (by simp [hr])⟩
      | asked he hp hw hh hr => exact .inr ⟨by simp [hr], .asked he hp hw hh (by simp [hr])⟩
      | offered he hp hw hh hr => exact .inr ⟨by simp [hr], .offered he hp hw hh (by simp [hr])⟩
      | written m he hp hw hh hr => exact .inr ⟨by simp [hr], .written m he hp hw hh (by simp [hr])⟩
      | encoded m he hp hw hh hr => exact .inr ⟨by simp [hr], .encoded m he hp hw hh (by simp [hr])⟩
    obtain ⟨p₁, js₁, hrun₁, hloc₁, hout₁, hq₁, hpend₁⟩ :=
      receiveWhen_ok
        (p := { p with output := .none, queue := p.queue.tail, room := p.room || space }) [] hrecv
    have hfwd : ((!p.queue.tail.isEmpty) = true ∧ p₁.output = .none ∧ p₁.queue ≠ []) ∨
        ((!p.queue.tail.isEmpty) = false ∧ Front p₁) := by
      by_cases htail : p.queue.tail = []
      · exact .inr ⟨by simp [htail], .empty hout₁ (hq₁.trans htail)⟩
      · exact .inl ⟨by simp [htail], hout₁, by rw [hq₁]; exact htail⟩
    obtain ⟨p₂, js₂, hrun₂, hinv, hpend₂⟩ := forwardWhen_ok ([] ++ js₁) hloc₁ hfwd
    refine ⟨(p₂, [] ++ js₁ ++ js₂), ?_, hinv, fun k => ?_⟩
    · rw [run, ho]
      dsimp only
      rw [bufferOutputHandlerDone, ensure_bind hq]
      dsimp only
      rw [hrun₁, ok_bind]
      exact hrun₂
    · rw [hpend₂, hpend₁, List.nil_append, List.mem_append, or_assoc]
      apply or_congr_left
      cases k <;> simp [Pending, ho]
  | empty ho => rw [ho] at hj; cases hj
  | requested m ho => rw [ho] at hj; cases hj
  | busy m ho => rw [ho] at hj; cases hj

/-- 待っている job はどれも故障せずに走る。 -/
theorem Inv.run {j : PathJob} (h : Inv p) (hj : Pending p j) (space : Bool) :
    ∃ r, p.run space j = .ok r ∧ Moves p (· = j) r := by
  cases j with
  | encoderOperation => exact run_encoderOperation h hj space
  | encoderDone =>
    obtain ⟨m, hm⟩ := hj
    exact run_encoderDone h hm space
  | writerOperation => exact run_writerOperation h hj space
  | writerDone =>
    obtain ⟨m, hm⟩ := hj
    exact run_writerDone h hm space
  | outputOperation =>
    obtain ⟨m, hm⟩ := hj
    exact run_outputOperation h hm space
  | outputDone => exact run_outputDone h hj space

end Step

end SendPath

end Flow
