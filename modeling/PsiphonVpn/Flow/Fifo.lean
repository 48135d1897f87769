import PsiphonVpn.Flow.ChunkBuffer2

/-!
# `ChunkBuffer2` は FIFO queue である

表現の不変量 `Layout b front back`：古いほうの記録 `front` が block `start` から、残りの `back` が block 0 から隙間なく
並ぶ。`back` があるのは `front` がちょうど `wrap` で終わるときだけで、そうでなければ `wrap` は `size` のままである。

入力の所はいつも記録の並びの外にあるので、使う側が書いても、長さの block を書いても、並びは残る。
-/

namespace Flow

open Infra

/-! ## 記録 -/

variable {len n dest : Nat} {data : List UInt8} {e : Entry} {rest : List Entry} {s : Ring}

theorem blocksFor_le_iff : blocksFor len ≤ n ↔ len ≤ 4 * n := by
  unfold blocksFor
  split <;> omega

theorem le_blocksFor (len : Nat) : len ≤ 4 * blocksFor len := blocksFor_le_iff.mp (Nat.le_refl _)

theorem intOf_intBytes (h : n < 2 ^ 31) : intOf (intBytes n) = n := by
  have hword : wordOf (intBytes n) = n := by
    show (UInt8.ofNat n).toNat + (UInt8.ofNat (n / 2 ^ 8)).toNat * 2 ^ 8 + (UInt8.ofNat
      (n / 2 ^ 16)).toNat * 2 ^ 16 +
      (UInt8.ofNat (n / 2 ^ 24)).toNat * 2 ^ 24 = n
    simp only [UInt8.toNat_ofNat']
    omega
  rw [intOf, hword, if_pos h]

theorem toInt_of_lt (h : n < 2 ^ 31) : toInt n = n := by
  have hmod : n % 2 ^ 32 = n := Nat.mod_eq_of_lt (by omega)
  rw [toInt, hmod, if_pos h]

namespace Entry

/-- 記録の block の数。 -/
def width (e : Entry) : Nat := 1 + blocksFor e.data.length

/-- 記録の頭。残りの block の余りには何が入っていてもよい。 -/
def bytes (e : Entry) : List UInt8 := (intBytes e.data.length).toList ++ e.data

theorem length_bytes (e : Entry) : e.bytes.length = 4 + e.data.length := by simp [bytes]

theorem length_bytes_le (e : Entry) : e.bytes.length ≤ 4 * e.width := by
  have := le_blocksFor e.data.length
  rw [length_bytes, width]
  omega

end Entry

/-- block `o` に記録 `e` がある。 -/
def recAt (m : List UInt8) (o : Nat) (e : Entry) : Prop := e.pos = o ∧ At m (4 * o) e.bytes

theorem recAt.writeAt {m : List UInt8} {o i : Nat} (h : recAt m o e)
    (hi : i + data.length ≤ m.length) (hd : 4 * (o + e.width) ≤ i ∨ i + data.length ≤ 4 * o) :
    recAt (writeAt m i data) o e := by
  have hle := e.length_bytes_le
  exact ⟨h.1, h.2.writeAt hi (by omega)⟩

/-! ## 記録の終わりと空き -/

namespace ChunkBuffer2

variable {b : ChunkBuffer2}

theorem endBlock_of_wrapped (h : b.Wrapped) : b.endBlock = b.start + b.used - b.wrap := if_pos h

theorem endBlock_of_not_wrapped (h : ¬ b.Wrapped) : b.endBlock = b.start + b.used := if_neg h

theorem free_of_wrapped (h : b.Wrapped) : b.free = b.start - b.endBlock := if_pos h

theorem free_of_not_wrapped (h : ¬ b.Wrapped) : b.free = b.size - b.endBlock := if_neg h

theorem pop_of_last (h : b.start + (1 + n) = b.wrap) :
    b.pop n = { b with start := 0, wrap := b.size, used := b.used - (1 + n) } := if_pos h

theorem pop_of_not_last (h : b.start + (1 + n) ≠ b.wrap) :
    b.pop n = { b with start := b.start + (1 + n), used := b.used - (1 + n) } := if_neg h

end ChunkBuffer2

/-! ## 表現の不変量 -/

structure Layout (b : ChunkBuffer2) (front back : List Entry) : Prop where
  length : b.buffer.length = 4 * b.size
  int : 4 * b.size ≤ 2 ^ 31
  start_lt : b.start < b.wrap
  wrap_le : b.wrap ≤ b.size
  frontTiles : Tiles recAt Entry.width b.buffer b.start front
  backTiles : Tiles recAt Entry.width b.buffer 0 back
  shape : (b.start + span Entry.width front = b.wrap ∧ span Entry.width back ≤ b.start ∧
      b.used = span Entry.width front + span Entry.width back) ∨
    (back = [] ∧ b.wrap = b.size ∧ b.used = span Entry.width front ∧
      b.start + span Entry.width front < b.wrap)

section Layout

variable {b : ChunkBuffer2} {front back : List Entry}

/-- 折り返している時と、いない時の、記録の終わりと空き。 -/
theorem Layout.cases (h : Layout b front back) :
    (b.Wrapped ∧ b.endBlock = span Entry.width back ∧ b.free = b.start - span Entry.width back ∧
      b.start + span Entry.width front = b.wrap ∧ span Entry.width back ≤ b.start ∧
      b.used = span Entry.width front + span Entry.width back) ∨
    (¬ b.Wrapped ∧ b.endBlock = b.start + span Entry.width front ∧
      b.free = b.size - (b.start + span Entry.width front) ∧ back = [] ∧ b.wrap = b.size ∧
      b.used = span Entry.width front ∧ b.start + span Entry.width front < b.wrap) := by
  rcases h.shape with ⟨hf, hb, hu⟩ | ⟨hb, hw, hu, hlt⟩
  · have hwrapped : b.Wrapped := by
      rw [ChunkBuffer2.Wrapped]
      omega
    have hend : b.endBlock = span Entry.width back := by
      rw [ChunkBuffer2.endBlock_of_wrapped hwrapped]
      omega
    exact .inl ⟨hwrapped, hend, by rw [ChunkBuffer2.free_of_wrapped hwrapped, hend], hf, hb, hu⟩
  · have hwrapped : ¬ b.Wrapped := by
      rw [ChunkBuffer2.Wrapped]
      omega
    have hend : b.endBlock = b.start + span Entry.width front := by
      rw [ChunkBuffer2.endBlock_of_not_wrapped hwrapped, hu]
    exact .inr ⟨hwrapped, hend, by rw [ChunkBuffer2.free_of_not_wrapped hwrapped, hend], hb, hw, hu,
      hlt⟩

theorem Layout.assertBuffer (h : Layout b front back) : b.AssertBuffer := by
  have hlt := h.start_lt
  have hle := h.wrap_le
  rcases h.cases with ⟨hw, -, -, hf, hb, hu⟩ | ⟨-, -, -, -, hw, hu, hend⟩
  · exact ⟨by omega, by omega, hle, hlt, by omega, .inr hw⟩
  · exact ⟨by omega, by omega, hle, hlt, by omega, .inl hw⟩

theorem Layout.free_le (h : Layout b front back) : b.free ≤ b.size := by
  have hlt := h.start_lt
  have hle := h.wrap_le
  rcases h.cases with ⟨-, -, hf, -⟩ | ⟨-, -, hf, -⟩ <;> omega

/-- 空いた block への書き込みは、記録を変えない。 -/
theorem Layout.write (h : Layout b front back) (i : Nat) (data : List UInt8)
    (hlo : 4 * b.endBlock ≤ i) (hhi : i + data.length ≤ 4 * (b.endBlock + b.free)) :
    Layout { b with buffer := writeAt b.buffer i data } front back := by
  have hlen := h.length
  have hlt := h.start_lt
  have hle := h.wrap_le
  have hi : i + data.length ≤ b.buffer.length := by
    rcases h.cases with ⟨-, he, hf, -, hback, -⟩ | ⟨-, he, hf, -, -, -, hend⟩ <;> rw [he, hf]
      at hhi <;> omega
  refine ⟨(length_writeAt hi).trans hlen, h.int, hlt, hle, ?_, ?_, h.shape⟩
  · refine h.frontTiles.mono fun o e ho hspan hrec => hrec.writeAt hi ?_
    rcases h.cases with ⟨-, he, hf, hfront, hback, -⟩ | ⟨-, he, -⟩
    · rw [he, hf] at hhi
      omega
    · rw [he] at hlo
      omega
  · refine h.backTiles.mono fun o e ho hspan hrec => hrec.writeAt hi ?_
    rcases h.cases with ⟨-, he, -⟩ | ⟨-, -, -, hnil, -⟩
    · rw [he] at hlo
      omega
    · rw [hnil, span_nil] at hspan
      have hpos : 0 < e.width := by rw [Entry.width]; omega
      omega

/-- 最も古い記録は block `start` にあり、`wrap` を越えない。 -/
theorem Layout.head (h : Layout b (e :: rest) back) :
    recAt b.buffer b.start e ∧ b.start + e.width ≤ b.wrap ∧ e.width ≤ b.used := by
  have hspan : span Entry.width (e :: rest) = e.width + span Entry.width rest := span_cons e
  rcases h.shape with ⟨hf, -, hu⟩ | ⟨-, -, hu, hlt⟩
  · exact ⟨h.frontTiles.1, by omega, by omega⟩
  · exact ⟨h.frontTiles.1, by omega, by omega⟩

/-- 記録が無ければ `used` は 0 で、あれば `front` は空でない。 -/
theorem Layout.used_pos_iff (h : Layout b front back) : 0 < b.used ↔ front ≠ [] := by
  have hlt := h.start_lt
  constructor
  · rintro hu rfl
    rcases h.shape with ⟨hf, -, -⟩ | ⟨rfl, -, hused, -⟩
    · simp at hf
      omega
    · simp at hused
      omega
  · intro hne
    obtain ⟨e, rest, rfl⟩ := List.exists_cons_of_ne_nil hne
    have hpos : 0 < e.width := by rw [Entry.width]; omega
    have := h.head.2.2
    omega

theorem Layout.back_eq_nil (h : Layout b [] back) : back = [] := by
  have hlt := h.start_lt
  rcases h.shape with ⟨hf, -, -⟩ | ⟨hnil, -⟩
  · rw [span_nil] at hf
    omega
  · exact hnil

theorem Layout.updateInput (h : Layout b front back) : Layout b.updateInput front back :=
  ⟨h.length, h.int, h.start_lt, h.wrap_le, h.frontTiles, h.backTiles, h.shape⟩

end Layout

/-! ## 入力と出力 -/

/-- 入力の所は、求め直しても変わらない。 -/
def Offers (b : ChunkBuffer2) : Prop := b.inputDest = b.inputOf.1 ∧ b.inputAvail = b.inputOf.2

/-- 出力の所は、最も古い packet を示す。 -/
def Shows (b : ChunkBuffer2) : List Entry → Prop
  | [] => b.outputDest = none ∧ b.outputAvail = -1
  | e :: _ => b.outputDest = some (4 * (b.start + 1)) ∧ b.outputAvail = e.data.length

section Output

variable {b : ChunkBuffer2} {front back : List Entry}

theorem offers_updateInput (b : ChunkBuffer2) : Offers b.updateInput := ⟨rfl, rfl⟩

theorem Layout.lenAt_start (h : Layout b (e :: rest) back) :
    b.lenAt b.start = .ok (e.data.length : Int) := by
  have hat := h.head.1.2
  have hle := hat.le_length
  have hint := h.int
  rw [e.length_bytes, h.length] at hle
  have hread : readVec (ρ := Assertion) b.buffer (4 * b.start) 4 = .ok (intBytes e.data.length) :=
    readVec_of_at (at_append_iff.mp hat).1
  rw [ChunkBuffer2.lenAt, hread, ok_bind, intOf_intBytes (by omega)]
  rfl

theorem Layout.firstLen (h : Layout b (e :: rest) back) :
    b.firstLen = .ok (e.data.length : Int) := by
  obtain ⟨-, hwrap, hused⟩ := h.head
  rw [Entry.width] at hwrap hused
  rw [ChunkBuffer2.firstLen, h.lenAt_start, ok_bind, ensure_bind (by omega), Int.toNat_natCast,
    ensure_bind (by omega), ensure_bind (by omega)]
  rfl

/-- `_ChunkBuffer2_update_output` は、最も古い packet を示す。 -/
theorem Layout.updateOutput (h : Layout b front back) :
    ∃ b', b.updateOutput = .ok b' ∧ Layout b' front back ∧ Shows b' (front ++ back) ∧
      b'.inputDest = b.inputDest ∧ b'.inputAvail = b.inputAvail ∧ b'.inputOf = b.inputOf := by
  cases hfront : front with
  | nil =>
    subst hfront
    obtain rfl := h.back_eq_nil
    have hused : ¬ 0 < b.used := fun hu => h.used_pos_iff.mp hu rfl
    refine ⟨{ b with outputDest := none, outputAvail := -1 }, if_neg hused, ?_, ⟨rfl, rfl⟩, rfl,
      rfl, rfl⟩
    exact ⟨h.length, h.int, h.start_lt, h.wrap_le, h.frontTiles, h.backTiles, h.shape⟩
  | cons e rest =>
    subst hfront
    have hused : 0 < b.used := h.used_pos_iff.mpr (List.cons_ne_nil e rest)
    refine ⟨{ b with outputDest := some (4 * (b.start + 1)), outputAvail := e.data.length }, ?_, ?_,
      ⟨rfl, rfl⟩, rfl, rfl, rfl⟩
    · rw [ChunkBuffer2.updateOutput, if_pos hused, h.firstLen]
      rfl
    · exact ⟨h.length, h.int, h.start_lt, h.wrap_le, h.frontTiles, h.backTiles, h.shape⟩

theorem Layout.assertInput (h : Layout b front back) (hin : Offers b) : b.assertInput = .ok () := by
  have hint := h.int
  have hfree := h.free_le
  have havail := hin.2
  rw [ChunkBuffer2.assertInput, ensure_bind hin.1]
  unfold ChunkBuffer2.inputOf at havail
  split
  next hmtu =>
    rw [if_pos hmtu] at havail
    rw [ensure, require, if_pos havail]
  next hmtu =>
    rw [if_neg hmtu] at havail
    split
    next hpos =>
      rw [if_pos hpos] at havail
      dsimp only at havail
      rw [toInt_of_lt (by omega)] at havail
      rw [havail, ensure, require, if_pos (by omega)]
    next hpos =>
      rw [if_neg hpos] at havail
      rw [ensure, require, if_pos havail]

/-- `_ChunkBuffer2_assert_io` は失敗しない。 -/
theorem Layout.assertIo (h : Layout b front back) (hin : Offers b)
    (hout : Shows b (front ++ back)) :
    b.assertIo = .ok () := by
  rw [ChunkBuffer2.assertIo, h.assertInput hin, ok_bind]
  cases hfront : front with
  | nil =>
    subst hfront
    obtain rfl := h.back_eq_nil
    have hused : ¬ 0 < b.used := fun hu => h.used_pos_iff.mp hu rfl
    rw [if_neg hused, ensure_bind hout.1, ensure, require, if_pos hout.2]
  | cons e rest =>
    subst hfront
    have hused : 0 < b.used := h.used_pos_iff.mpr (List.cons_ne_nil e rest)
    rw [if_pos hused, h.firstLen, ok_bind, ensure_bind hout.1, ensure, require, if_pos hout.2]

theorem Layout.checked (h : Layout b front back) (hin : Offers b) (hout : Shows b (front ++ back)) :
    (b.assertIo >>= fun _ => pure b) = .ok b := by
  rw [h.assertIo hin hout, ok_bind]
  rfl

/-- 出力の所を求め直してから検査する、操作の終わり。入力の所は変わらない。 -/
theorem Layout.refreshed (h : Layout b front back) (hin : Offers b) :
    ∃ b', (b.updateOutput >>= fun b' => b'.assertIo >>= fun _ => pure b') = .ok b' ∧
      Layout b' front back ∧
      Offers b' ∧ Shows b' (front ++ back) ∧ b'.inputDest = b.inputDest ∧
        b'.inputAvail = b.inputAvail := by
  obtain ⟨b', hb', hlay, hshow, hdest, havail, hof⟩ := h.updateOutput
  have hoff : Offers b' := by
    rw [Offers, hdest, havail, hof]
    exact hin
  refine ⟨b', ?_, hlay, hoff, hshow, hdest, havail⟩
  rw [hb', ok_bind]
  exact hlay.checked hoff hshow

end Output

/-! ## 記録を足す -/

section Push

variable {b : ChunkBuffer2} {front back : List Entry}

theorem push_recAt (hlen : data.length = len) (hat : At b.buffer (4 * (b.endBlock + 1)) data) :
    recAt (b.push len).buffer b.endBlock ⟨b.endBlock, data⟩ := by
  have hle := hat.le_length
  refine ⟨rfl, ?_⟩
  show At (writeAt b.buffer (4 * b.endBlock) (intBytes len).toList) (4 * b.endBlock)
    ((intBytes data.length).toList ++ data)
  rw [at_append_iff, hlen, Vector.length_toList]
  exact ⟨at_writeAt (by omega), hat.writeAt (by rw [Vector.length_toList]; omega)
    (by rw [Vector.length_toList]; omega)⟩

/-- 折り返した後。`back` の後ろに足し、`wrap` は動かない。 -/
theorem Layout.push_back (h : Layout b front back) (hwrapped : b.Wrapped)
    (hlen : data.length = len) (hat : At b.buffer (4 * (b.endBlock + 1)) data)
    (hfree : 0 < b.free) (hroom : blocksFor len ≤ b.free - 1) :
    Layout (b.push len) front (back ++ [⟨b.endBlock, data⟩]) := by
  have hrec := push_recAt hlen hat
  have hw := h.write (4 * b.endBlock) (intBytes len).toList (Nat.le_refl _)
    (by rw [Vector.length_toList]; omega)
  have hwidth : Entry.width ⟨b.endBlock, data⟩ = 1 + blocksFor len := by rw [Entry.width, hlen]
  generalize (⟨b.endBlock, data⟩ : Entry) = e at *
  have hspan : span Entry.width (back ++ [e]) = span Entry.width back + (1 + blocksFor len) := by
    rw [span_append, span_cons, span_nil, hwidth, Nat.add_zero]
  rcases h.cases with ⟨-, hend, hf, hfront, hback, hu⟩ | ⟨hnot, -⟩
  · have hlt := h.start_lt
    have hwrapEq : (b.push len).wrap = b.wrap := if_neg (by omega)
    have htiles : Tiles recAt Entry.width (b.push len).buffer 0 (back ++ [e]) := by
      refine tiles_append_iff.mpr ⟨hw.backTiles, ?_, trivial⟩
      rw [Nat.zero_add, ← hend]
      exact hrec
    refine ⟨hw.length, hw.int, ?_, ?_, hw.frontTiles, htiles, .inl ⟨?_, ?_, ?_⟩⟩
    · rw [hwrapEq]
      exact hlt
    · rw [hwrapEq]
      exact h.wrap_le
    · rw [hwrapEq]
      exact hfront
    · rw [hspan]
      show _ ≤ b.start
      omega
    · rw [hspan]
      show b.used + (1 + blocksFor len) = _
      omega
  · exact absurd hwrapped hnot

/-- 折り返す前。`front` の後ろに足す。後ろに MTU の packet が入らなければ、そこを `wrap` とする。 -/
theorem Layout.push_front (h : Layout b front back) (hwrapped : ¬ b.Wrapped)
    (hlen : data.length = len) (hat : At b.buffer (4 * (b.endBlock + 1)) data)
    (hfree : 0 < b.free) (hroom : blocksFor len ≤ b.free - 1) :
    Layout (b.push len) (front ++ [⟨b.endBlock, data⟩]) [] := by
  have hrec := push_recAt hlen hat
  have hw := h.write (4 * b.endBlock) (intBytes len).toList (Nat.le_refl _)
    (by rw [Vector.length_toList]; omega)
  have hwidth : Entry.width ⟨b.endBlock, data⟩ = 1 + blocksFor len := by rw [Entry.width, hlen]
  generalize (⟨b.endBlock, data⟩ : Entry) = e at *
  have hspan : span Entry.width (front ++ [e]) = span Entry.width front + (1 + blocksFor len) := by
    rw [span_append, span_cons, span_nil, hwidth, Nat.add_zero]
  rcases h.cases with ⟨hyes, -⟩ | ⟨-, hend, hf, -, hwrap, hu, hlast⟩
  · exact absurd hyes hwrapped
  have htiles : Tiles recAt Entry.width (b.push len).buffer (b.push len).start (front ++ [e]) := by
    refine tiles_append_iff.mpr ⟨hw.frontTiles, ?_, trivial⟩
    show recAt _ (b.start + span Entry.width front) e
    rw [← hend]
    exact hrec
  by_cases hmtu : b.size < b.endBlock + 1 + blocksFor len + 1 + b.mtu
  · have hwrapEq : (b.push len).wrap = b.endBlock + 1 + blocksFor len := if_pos ⟨by omega, hmtu⟩
    refine ⟨hw.length, hw.int, ?_, ?_, htiles, trivial, .inl ⟨?_, Nat.zero_le _, ?_⟩⟩
    · rw [hwrapEq]
      show b.start < _
      omega
    · rw [hwrapEq]
      show _ ≤ b.size
      omega
    · rw [hwrapEq, hspan]
      show b.start + _ = _
      omega
    · rw [hspan, span_nil]
      show b.used + (1 + blocksFor len) = _
      omega
  · have hwrapEq : (b.push len).wrap = b.wrap := if_neg (fun hc => hmtu hc.2)
    refine ⟨hw.length, hw.int, ?_, ?_, htiles, trivial, .inr ⟨rfl, ?_, ?_, ?_⟩⟩
    · rw [hwrapEq]
      exact h.start_lt
    · rw [hwrapEq]
      exact h.wrap_le
    · rw [hwrapEq]
      exact hwrap
    · rw [hspan]
      show b.used + (1 + blocksFor len) = _
      omega
    · rw [hwrapEq, hspan]
      show b.start + _ < _
      omega

theorem Layout.push (h : Layout b front back) (hlen : data.length = len)
    (hat : At b.buffer (4 * (b.endBlock + 1)) data) (hfree : 0 < b.free)
    (hroom : blocksFor len ≤ b.free - 1) :
    ∃ front' back', front' ++ back' = front ++ back ++ [⟨b.endBlock, data⟩] ∧
      Layout (b.push len) front' back' := by
  rcases h.cases with ⟨hw, -⟩ | ⟨hw, -, -, rfl, -⟩
  · exact ⟨_, _, (List.append_assoc _ _ _).symm, h.push_back hw hlen hat hfree hroom⟩
  · refine ⟨_, _, ?_, h.push_front hw hlen hat hfree hroom⟩
    rw [List.append_nil, List.append_nil]

end Push

/-! ## 記録を除く -/

section Pop

variable {b : ChunkBuffer2} {front back : List Entry}

theorem eq_nil_of_span_eq_zero {l : List Entry} (h : span Entry.width l = 0) : l = [] := by
  cases l with
  | nil => rfl
  | cons e l =>
    rw [span_cons, Entry.width] at h
    omega

/-- 最も古い packet を除いても、残りの記録は隙間なく並ぶ。 -/
theorem Layout.pop (h : Layout b (e :: rest) back) :
    ∃ front' back', front' ++ back' = rest ++ back ∧
      Layout (b.pop (blocksFor e.data.length)) front' back' := by
  have hlt := h.start_lt
  have hwl := h.wrap_le
  have hspan : span Entry.width (e :: rest) = e.width + span Entry.width rest := span_cons e
  have hwidth : e.width = 1 + blocksFor e.data.length := rfl
  by_cases hlast : b.start + (1 + blocksFor e.data.length) = b.wrap
  · -- `wrap` までの記録が尽きた。`back` が block 0 からの `front` になる
    have hpop := ChunkBuffer2.pop_of_last hlast
    rcases h.shape with ⟨hf, hback, hu⟩ | ⟨-, -, -, hend⟩
    · obtain rfl : rest = [] := eq_nil_of_span_eq_zero (by omega)
      rw [hpop]
      refine ⟨back, [], List.append_nil back, h.length, h.int, ?_, Nat.le_refl _, h.backTiles,
        trivial, .inr ⟨rfl, rfl, ?_, ?_⟩⟩
      · show 0 < b.size
        omega
      · show b.used - _ = _
        omega
      · show 0 + _ < b.size
        omega
    · omega
  · have hpop := ChunkBuffer2.pop_of_not_last hlast
    obtain ⟨-, hwrap, -⟩ := h.head
    rw [hpop]
    refine ⟨rest, back, rfl, h.length, h.int, ?_, hwl, h.frontTiles.2, h.backTiles, ?_⟩
    · show b.start + (1 + blocksFor e.data.length) < b.wrap
      omega
    · show (b.start + (1 + blocksFor e.data.length) + _ = b.wrap ∧
        _ ≤ b.start + (1 + blocksFor e.data.length) ∧
          b.used - (1 + blocksFor e.data.length) = _) ∨
        (_ ∧ _ ∧ b.used - (1 + blocksFor e.data.length) = _ ∧
          b.start + (1 + blocksFor e.data.length) + _ < b.wrap)
      rcases h.shape with ⟨hf, hback, hu⟩ | ⟨hnil, hsize, hu, hend⟩
      · exact .inl ⟨by omega, by omega, by omega⟩
      · exact .inr ⟨hnil, hsize, by omega, by omega⟩

/-- `start` と `used` の和が変わらなければ、折り返していることも、記録の終わりも変わらない。 -/
theorem ChunkBuffer2.pop_next_free (hne : b.start + (1 + n) ≠ b.wrap) (hle : 1 + n ≤ b.used) :
    ((b.pop n).Wrapped ↔ b.Wrapped) ∧ (b.pop n).endBlock = b.endBlock ∧ b.free ≤ (b.pop n).free ∧
      (¬ b.Wrapped → (b.pop n).free = b.free) := by
  rw [ChunkBuffer2.pop_of_not_last hne]
  generalize hp : ({ b with start := b.start + (1 + n), used := b.used - (1 + n) } : ChunkBuffer2) =
    p
  have hsum : p.start + p.used = b.start + b.used := by
    rw [← hp]
    show b.start + (1 + n) + (b.used - (1 + n)) = _
    omega
  have hstart : b.start ≤ p.start := by
    rw [← hp]
    exact Nat.le_add_right _ _
  have hwrap : p.wrap = b.wrap := by rw [← hp]
  have hsize : p.size = b.size := by rw [← hp]
  have hiff : p.Wrapped ↔ b.Wrapped := by rw [Wrapped, Wrapped, hsum, hwrap]
  refine ⟨hiff, ?_⟩
  by_cases hw : b.Wrapped
  · have hw' := hiff.mpr hw
    have hend : p.endBlock = b.endBlock := by
      rw [endBlock_of_wrapped hw', endBlock_of_wrapped hw, hsum, hwrap]
    refine ⟨hend, ?_, fun hno => absurd hw hno⟩
    rw [free_of_wrapped hw', free_of_wrapped hw, hend]
    omega
  · have hw' := mt hiff.mp hw
    have hend : p.endBlock = b.endBlock := by
      rw [endBlock_of_not_wrapped hw', endBlock_of_not_wrapped hw, hsum]
    have hfree : p.free = b.free := by
      rw [free_of_not_wrapped hw', free_of_not_wrapped hw, hend, hsize]
    exact ⟨hend, hfree.ge, fun _ => hfree⟩

/-- `wrap` までの最後の記録を除くと、`back` だけが残り、空きは buffer の終わりまで広がる。 -/
theorem Layout.pop_last_free (h : Layout b (e :: rest) back) (hlast : b.start + e.width = b.wrap) :
    b.Wrapped ∧ ¬ (b.pop (blocksFor e.data.length)).Wrapped ∧
      (b.pop (blocksFor e.data.length)).endBlock = b.endBlock ∧
        b.free ≤ (b.pop (blocksFor e.data.length)).free := by
  have hlt := h.start_lt
  have hwl := h.wrap_le
  have hspan : span Entry.width (e :: rest) = e.width + span Entry.width rest := span_cons e
  rcases h.cases with ⟨hw, hend, hfree, hf, hback, hu⟩ | ⟨-, -, -, -, -, -, hlt'⟩
  · have hused : b.used - e.width = span Entry.width back := by omega
    rw [ChunkBuffer2.pop_of_last hlast]
    generalize hp :
      ({ b with start := 0, wrap := b.size, used := b.used - (1 + blocksFor e.data.length) } :
      ChunkBuffer2) = p
    have hend₀ : p.start + p.used = span Entry.width back := by
      rw [← hp, ← hused]
      exact Nat.zero_add _
    have hwrap : p.wrap = b.size := by rw [← hp]
    have hsize : p.size = b.size := by rw [← hp]
    have hnot : ¬ p.Wrapped := by
      rw [ChunkBuffer2.Wrapped, hend₀, hwrap]
      omega
    have hend' : p.endBlock = b.endBlock := by
      rw [ChunkBuffer2.endBlock_of_not_wrapped hnot, hend₀, hend]
    refine ⟨hw, hnot, hend', ?_⟩
    rw [ChunkBuffer2.free_of_not_wrapped hnot, hend', hfree, hend, hsize]
    omega
  · omega

/-- 除いても記録の終わりは動かず、空きは減らない。折り返していなければ空きも変わらない。 -/
theorem Layout.pop_free (h : Layout b (e :: rest) back) :
    (b.pop (blocksFor e.data.length)).endBlock = b.endBlock ∧
      b.free ≤ (b.pop (blocksFor e.data.length)).free ∧
      (¬ b.Wrapped → (b.pop (blocksFor e.data.length)).free = b.free) := by
  by_cases hlast : b.start + e.width = b.wrap
  · obtain ⟨hw, -, hend, hfree⟩ := h.pop_last_free hlast
    exact ⟨hend, hfree, fun hno => absurd hw hno⟩
  · exact (ChunkBuffer2.pop_next_free hlast h.head.2.2).2

end Pop

/-! ## 入力の所 -/

section Input

variable {b b' : ChunkBuffer2} {front back : List Entry}

/-- 入力の所があれば、それは空きの二つ目の block から空きの終わりまでである。 -/
theorem Layout.inputOf_eq_some (hlay : Layout b front back) (h : b.inputOf.1 = some dest) :
    dest = 4 * (b.endBlock + 1) ∧ 0 < b.free ∧ b.inputOf.2 = ((b.free : Int) - 1) * 4 ∧
      b.endBlock + 1 + b.mtu ≤ b.size := by
  have hint := hlay.int
  have hle := hlay.free_le
  unfold ChunkBuffer2.inputOf at h ⊢
  split at h
  next => cases h
  next hmtu =>
    split at h
    next hfree =>
      rw [if_neg hmtu, if_pos hfree]
      dsimp only
      rw [toInt_of_lt (by omega)]
      exact ⟨(Option.some.inj h).symm, hfree, by omega, Nat.le_of_not_lt hmtu⟩
    next => cases h

theorem inputOf_congr (hsize : b'.size = b.size) (hmtu : b'.mtu = b.mtu)
    (hend : b'.endBlock = b.endBlock) (hfree : b'.free = b.free) : b'.inputOf = b.inputOf := by
  rw [ChunkBuffer2.inputOf, ChunkBuffer2.inputOf, hsize, hmtu, hend, hfree]

/-- 記録の終わりが動かず空きが減らなければ、入力の所は動かず、縮まない。 -/
theorem Layout.inputOf_mono {front' back' : List Entry} (hlay : Layout b front back)
    (hlay' : Layout b' front' back') (hsize : b'.size = b.size) (hmtu : b'.mtu = b.mtu)
    (hend : b'.endBlock = b.endBlock) (hfree : b.free ≤ b'.free) (h : b.inputOf.1 = some dest) :
    b'.inputOf.1 = some dest ∧ b.inputOf.2 ≤ b'.inputOf.2 := by
  obtain ⟨rfl, hpos, havail, hroom⟩ := hlay.inputOf_eq_some h
  have hsome : b'.inputOf.1 = some (4 * (b.endBlock + 1)) := by
    rw [ChunkBuffer2.inputOf, hsize, hmtu, hend, if_neg (by omega), if_pos (by omega)]
  obtain ⟨-, -, havail', -⟩ := hlay'.inputOf_eq_some hsome
  rw [havail, havail']
  exact ⟨hsome, by omega⟩

/-- 入力の所は buffer の中にあり、どの記録とも重ならない。 -/
theorem Layout.input_free (h : Layout b front back) (hin : Offers b)
    (hdest : b.inputDest = some dest) :
    dest + b.inputAvail ≤ b.buffer.length ∧
      ∀ e ∈ front ++ back, 4 * (e.pos + e.width) ≤ dest ∨
        dest + b.inputAvail ≤ 4 * (e.pos : Int) := by
  have hlt := h.start_lt
  have hle := h.wrap_le
  obtain ⟨rfl, hpos, havail, -⟩ := h.inputOf_eq_some (hin.1.symm.trans hdest)
  rw [hin.2, havail, h.length]
  rcases h.cases with ⟨-, hend, hfree, hfront, hback, -⟩ | ⟨-, hend, hfree, hnil, hwrap, -, hlast⟩
  · refine ⟨by omega, fun e he => ?_⟩
    rcases List.mem_append.mp he with he | he
    · obtain ⟨o, ho, -, rfl, -⟩ := h.frontTiles.exists_recAt he
      right
      omega
    · obtain ⟨o, -, ho, rfl, -⟩ := h.backTiles.exists_recAt he
      left
      omega
  · refine ⟨by omega, fun e he => ?_⟩
    rw [hnil, List.append_nil] at he
    obtain ⟨o, -, ho, rfl, -⟩ := h.frontTiles.exists_recAt he
    left
    omega

/-- 入っている packet は、どれも書かれた時のままである。 -/
theorem Layout.mem_at (h : Layout b front back) (he : e ∈ front ++ back) :
    At b.buffer (4 * e.pos) e.bytes := by
  rcases List.mem_append.mp he with he | he
  · obtain ⟨o, -, -, rfl, hat⟩ := h.frontTiles.exists_recAt he
    exact hat
  · obtain ⟨o, -, -, rfl, hat⟩ := h.backTiles.exists_recAt he
    exact hat

theorem Layout.head_at (h : Layout b (e :: rest) back) :
    At b.buffer (4 * (b.start + 1)) e.data := by
  have hat := (at_append_iff.mp h.head.1.2).2
  rwa [Vector.length_toList, ← Nat.mul_succ] at hat

end Input

/-! ## 一つの操作 -/

section Operations

variable {b : ChunkBuffer2} {front back : List Entry}

/-- `ChunkBuffer2_SubmitPacket` は失敗せず、書かれた packet を最も新しい記録にする。 -/
theorem Layout.submitPacket (h : Layout b front back) (hin : Offers b)
    (hout : Shows b (front ++ back)) (hdest : b.inputDest = some dest)
    (hle : (len : Int) ≤ b.inputAvail) (hlen : data.length = len) (hat : At b.buffer dest data) :
    ∃ b' front' back', b.submitPacket len = .ok b' ∧
      front' ++ back' = front ++ back ++ [⟨b.endBlock, data⟩] ∧
      Layout b' front' back' ∧ Offers b' ∧ Shows b' (front' ++ back') := by
  obtain ⟨rfl, hpos, havail, -⟩ := h.inputOf_eq_some (hin.1.symm.trans hdest)
  rw [hin.2, havail] at hle
  have hroom : blocksFor len ≤ b.free - 1 := blocksFor_le_iff.mpr (by omega)
  obtain ⟨front', back', hqueue, hpush⟩ := h.push hlen hat hpos hroom
  have hlt := h.start_lt
  have hwl := h.wrap_le
  have hbuf := h.length
  have hspace : b.endBlock + 1 + blocksFor len ≤ b.size ∧
      (¬ b.Wrapped ∨ b.endBlock + 1 + blocksFor len ≤ b.start) := by
    rcases h.cases with ⟨-, hend, hfree, -⟩ | ⟨hw, hend, hfree, -⟩
    · exact ⟨by omega, .inr (by omega)⟩
    · exact ⟨by omega, .inl hw⟩
  obtain ⟨v, hv⟩ : ∃ v, readVec (ρ := Assertion) b.buffer (4 * b.endBlock) 4 = .ok v :=
    ⟨_, dif_pos (by omega)⟩
  have hstart : b.submitPacket len = (do
      let b' ← if (b.push len).used = 1 + blocksFor len then (b.push len).updateInput.updateOutput
        else pure (b.push len).updateInput
      b'.assertIo
      pure b') := by
    rw [ChunkBuffer2.submitPacket, ensure_bind (by rw [hdest]; exact Option.some_ne_none _),
      ensure_bind (by rw [hin.2, havail]; omega), ensure_bind h.assertBuffer, h.assertIo hin hout,
      ok_bind, ensure_bind hspace.1, ensure_bind hspace.2, hv, ok_bind,
      ensure_bind hpush.assertBuffer]
  rw [hstart]
  have hpushIn := hpush.updateInput
  by_cases hfirst : (b.push len).used = 1 + blocksFor len
  · obtain ⟨b', hb', hlay, hoff, hshow, -, -⟩ := hpushIn.refreshed (offers_updateInput _)
    refine ⟨b', front', back', ?_, hqueue, hlay, hoff, hshow⟩
    rw [if_pos hfirst]
    exact hb'
  · have hused : 0 < b.used := by
      have : (b.push len).used = b.used + (1 + blocksFor len) := rfl
      omega
    -- 最も古い packet は変わらない
    have hs : Shows (b.push len).updateInput (front' ++ back') := by
      obtain ⟨e, rest, rfl⟩ := List.exists_cons_of_ne_nil (h.used_pos_iff.mp hused)
      rw [hqueue]
      exact hout
    refine ⟨(b.push len).updateInput, front', back', ?_, hqueue, hpushIn, offers_updateInput _, hs⟩
    rw [if_neg hfirst, pure_bind]
    exact hpushIn.checked (offers_updateInput _) hs

theorem pop_frame (b : ChunkBuffer2) (n : Nat) :
    (b.pop n).size = b.size ∧ (b.pop n).mtu = b.mtu ∧ (b.pop n).inputDest = b.inputDest ∧
      (b.pop n).inputAvail = b.inputAvail := by
  unfold ChunkBuffer2.pop
  split <;> exact ⟨rfl, rfl, rfl, rfl⟩

/-- `ChunkBuffer2_ConsumePacket` は失敗せず、最も古い packet を除き、入力の所を動かさない。 -/
theorem Layout.consumePacket (h : Layout b (e :: rest) back) (hin : Offers b)
    (hout : Shows b (e :: rest ++ back)) :
    ∃ b' front' back', b.consumePacket = .ok b' ∧ front' ++ back' = rest ++ back ∧
      Layout b' front' back' ∧ Offers b' ∧ Shows b' (front' ++ back') ∧
      ∀ dest, b.inputDest = some dest → b'.inputDest = some dest ∧
        b.inputAvail ≤ b'.inputAvail := by
  obtain ⟨front', back', hqueue, hpop⟩ := h.pop
  obtain ⟨hend, hfree, hsame⟩ := h.pop_free
  obtain ⟨hsize, hmtu, hdest, havail⟩ := pop_frame b (blocksFor e.data.length)
  obtain ⟨-, hwrap, hused⟩ := h.head
  rw [Entry.width] at hwrap hused
  have hlt := h.start_lt
  have hstart : b.consumePacket = (do
      let b' ← (if b.Wrapped then (b.pop (blocksFor e.data.length)).updateInput
        else b.pop (blocksFor e.data.length)).updateOutput
      b'.assertIo
      pure b') := by
    rw [ChunkBuffer2.consumePacket, ensure_bind (by rw [hout.1]; exact Option.some_ne_none _),
      ensure_bind h.assertBuffer, h.assertIo hin hout, ok_bind, ensure_bind (by omega),
      ensure_bind (by omega), h.lenAt_start, ok_bind, Int.toNat_natCast]
    dsimp only
    rw [ensure_bind (by omega), ensure_bind (by omega), ensure_bind hpop.assertBuffer]
  rw [hstart]
  generalize b.pop (blocksFor e.data.length) = p at *
  -- 折り返していなければ入力の所は求め直されないが、求め直しても同じである
  have hinput : ∃ q, (if b.Wrapped then p.updateInput else p) = q ∧ Layout q front' back' ∧
      Offers q ∧
      q.inputOf = p.inputOf := by
    by_cases hw : b.Wrapped
    · exact ⟨p.updateInput, if_pos hw, hpop.updateInput, offers_updateInput p, rfl⟩
    · refine ⟨p, if_neg hw, hpop, ?_, rfl⟩
      rw [Offers, hdest, havail, inputOf_congr hsize hmtu hend (hsame hw)]
      exact hin
  obtain ⟨q, hq, hlay, hoff, hof⟩ := hinput
  obtain ⟨b', hb', hlay', hoff', hshow, hdest', havail'⟩ := hlay.refreshed hoff
  refine ⟨b', front', back', ?_, hqueue, hlay', hoff', hshow, fun dest hsome => ?_⟩
  · rw [hq]
    exact hb'
  · rw [hdest', havail', hoff.1, hoff.2, hof, hin.2]
    exact h.inputOf_mono hpop hsize hmtu hend hfree (hin.1.symm.trans hsome)

end Operations

/-! ## run -/

namespace Ring

/-- 不変量。 -/
def Inv (s : Ring) : Prop :=
  ∃ front back, front ++ back = s.queue ∧ Layout s.buf front back ∧ Offers s.buf ∧
    Shows s.buf s.queue

/-- 使う側から見た、FIFO queue としての正しさ。 -/
structure Refines (s : Ring) : Prop where
  /-- 出力の所は、最も古い packet そのものである。 -/
  output : match s.queue with
    | [] => s.buf.outputDest = none ∧ s.buf.outputAvail = -1
    | e :: _ =>
      ∃ dest, s.buf.outputDest = some dest ∧ s.buf.outputAvail = e.data.length ∧
        At s.buf.buffer dest e.data
  /-- 入っている packet は、長さの block と合わせて残っている。 -/
  stored : ∀ e ∈ s.queue, At s.buf.buffer (4 * e.pos) e.bytes
  /-- 入力の所は buffer の中にあり、どの packet の block とも重ならない。 -/
  input : ∀ dest, s.buf.inputDest = some dest → dest + s.buf.inputAvail ≤ s.buf.buffer.length ∧
    ∀ e ∈ s.queue, 4 * (e.pos + e.width) ≤ dest ∨ dest + s.buf.inputAvail ≤ 4 * (e.pos : Int)
  assertBuffer : s.buf.AssertBuffer
  assertIo : s.buf.assertIo = .ok ()

theorem Inv.refines (h : Inv s) : Refines s := by
  obtain ⟨front, back, hq, hlay, hin, hout⟩ := h
  rw [← hq] at hout
  refine ⟨?_, ?_, ?_, hlay.assertBuffer, hlay.assertIo hin hout⟩
  · rw [← hq]
    cases front with
    | nil =>
      obtain rfl := hlay.back_eq_nil
      exact hout
    | cons e rest => exact ⟨_, hout.1, hout.2, hlay.head_at⟩
  · rw [← hq]
    exact fun e he => hlay.mem_at he
  · rw [← hq]
    exact fun dest hdest => hlay.input_free hin hdest

theorem init_ok {buffer : List UInt8} {blocks mtu : Nat} (hpos : 0 < blocks)
    (hint : 4 * blocks ≤ 2 ^ 31) (hlen : buffer.length = 4 * blocks) :
    ∃ b, ChunkBuffer2.init buffer blocks mtu = .ok b ∧ Inv ⟨b, []⟩ := by
  have hlay : Layout (ChunkBuffer2.fresh buffer blocks mtu) [] [] :=
    ⟨hlen, hint, hpos, Nat.le_refl _, trivial, trivial, .inr ⟨rfl, rfl, rfl, hpos⟩⟩
  obtain ⟨b, hb, hl, hoff, hshow, -, -⟩ := hlay.updateInput.refreshed (offers_updateInput _)
  refine ⟨b, ?_, [], [], rfl, hl, hoff, hshow⟩
  rw [ChunkBuffer2.init, ensure_bind hpos, ensure_bind hlay.assertBuffer]
  exact hb

/-- 入力の所への書き込みは buffer の外に出ず、何も壊さない。 -/
theorem Inv.write {off : Nat} (h : Inv s) (hdest : s.buf.inputDest = some dest)
    (hle : ((off + data.length : Nat) : Int) ≤ s.buf.inputAvail) :
    ∃ s', s.write (dest + off) data = .ok s' ∧ Inv s' := by
  obtain ⟨front, back, hq, hlay, hin, hout⟩ := h
  have hinside := (hlay.input_free hin hdest).1
  obtain ⟨rfl, hpos, havail, -⟩ := hlay.inputOf_eq_some (hin.1.symm.trans hdest)
  have hlay' := hlay.write (4 * (s.buf.endBlock + 1) + off) data (by omega)
    (by rw [hin.2, havail] at hle; omega)
  obtain ⟨v, hv⟩ : ∃ v, readVec (ρ := Assertion) s.buf.buffer (4 * (s.buf.endBlock + 1) + off)
      data.length = .ok v :=
    ⟨_, dif_pos (by omega)⟩
  refine ⟨{ s with buf := { s.buf with
    buffer := writeAt s.buf.buffer (4 * (s.buf.endBlock + 1) + off) data } },
    by rw [Ring.write, hv, ok_bind]; rfl, front, back, hq, hlay', hin, ?_⟩
  rw [← hq] at hout ⊢
  exact hout

theorem written_at (s : Ring) (dest len : Nat) (h : dest + len ≤ s.buf.buffer.length) :
    (s.written dest len).length = len ∧ At s.buf.buffer dest (s.written dest len) := by
  obtain ⟨l, hl, hat⟩ := exists_at h
  have heq : s.written dest len = l := by
    rw [written, ← hl]
    exact hat.eq_take.symm
  rw [heq]
  exact ⟨hl, hat⟩

theorem Inv.submit (h : Inv s) (hdest : s.buf.inputDest = some dest)
    (hle : (len : Int) ≤ s.buf.inputAvail) :
    ∃ b, s.buf.submitPacket len = .ok b ∧
      Inv ⟨b, s.queue ++ [⟨s.buf.endBlock, s.written dest len⟩]⟩ := by
  obtain ⟨front, back, hq, hlay, hin, hout⟩ := h
  have hinside := (hlay.input_free hin hdest).1
  obtain ⟨hlen, hat⟩ := s.written_at dest len (by omega)
  rw [← hq] at hout
  obtain ⟨b, front', back', hb, hq', hlay', hin', hout'⟩ :=
    hlay.submitPacket hin hout hdest hle hlen hat
  rw [hq'] at hout'
  rw [← hq]
  exact ⟨b, hb, front', back', hq', hlay', hin', hout'⟩

theorem Inv.consume (h : Inv s) (hdest : s.buf.outputDest = some dest) :
    ∃ b, s.buf.consumePacket = .ok b ∧ Inv ⟨b, s.queue.tail⟩ ∧
      ∀ d, s.buf.inputDest = some d → b.inputDest = some d ∧ s.buf.inputAvail ≤ b.inputAvail := by
  obtain ⟨front, back, hq, hlay, hin, hout⟩ := h
  rw [← hq] at hout ⊢
  cases front with
  | nil =>
    obtain rfl := hlay.back_eq_nil
    rw [hout.1] at hdest
    cases hdest
  | cons e rest =>
    obtain ⟨b, front', back', hb, hq', hlay', hin', hout', hkeep⟩ := hlay.consumePacket hin hout
    rw [hq'] at hout'
    exact ⟨b, hb, ⟨front', back', hq', hlay', hin', hout'⟩, hkeep⟩

/-- どの操作も失敗せず、不変量を保つ。 -/
theorem inv_step (s : Ring) (ev : RingEvent) (r : Except Fault Ring) (h : Inv s)
    (hstep : s.step ev = some r) :
    ∃ s', r = .ok s' ∧ Inv s' := by
  cases ev with
  | write off data =>
    simp only [step] at hstep
    split at hstep
    next dest hdest =>
      split at hstep
      next hle =>
        obtain ⟨s', hs', hinv⟩ := h.write hdest hle
        exact ⟨s', by rw [← hs', ← Option.some.inj hstep], hinv⟩
      next => cases hstep
    next => cases hstep
  | submit len =>
    simp only [step] at hstep
    split at hstep
    next dest hdest =>
      split at hstep
      next hle =>
        obtain ⟨b, hb, hinv⟩ := h.submit hdest hle
        rw [hb, ok_bind] at hstep
        exact ⟨_, (Option.some.inj hstep).symm, hinv⟩
      next => cases hstep
    next => cases hstep
  | consume =>
    simp only [step] at hstep
    split at hstep
    next dest hdest =>
      obtain ⟨b, hb, hinv, -⟩ := h.consume hdest
      rw [hb, ok_bind] at hstep
      exact ⟨_, (Option.some.inj hstep).symm, hinv⟩
    next => cases hstep

end Ring

/--
`ChunkBuffer2` は packet の FIFO queue である。

どの block 数と MTU で作っても、入力の所に書き、入れ、取り出すどの列でも、`ASSERT` は失敗せず buffer の外にも触れない。
出力の所はいつも最も古い packet そのもので、入力の所はどの packet とも重ならず、取り出しても動かず縮まない。
-/
theorem chunkBuffer2_refines_fifo {buffer : List UInt8} {blocks mtu : Nat} (hpos : 0 < blocks)
    (hint : 4 * blocks < 2 ^ 31) (hlen : buffer.length = 4 * blocks) :
    ∃ b, ChunkBuffer2.init buffer blocks mtu = .ok b ∧
      ∀ events r, exec (guarded Ring.step) (.ok ⟨b, []⟩) events = some r →
        ∃ s, r = .ok s ∧ s.Refines ∧
          ∀ r', s.step .consume = some r' → ∃ s', r' = .ok s' ∧ s'.queue = s.queue.tail ∧
            ∀ dest, s.buf.inputDest = some dest →
              s'.buf.inputDest = some dest ∧ s.buf.inputAvail ≤ s'.buf.inputAvail := by
  obtain ⟨b, hb, hinit⟩ := Ring.init_ok hpos (Nat.le_of_lt hint) hlen
  refine ⟨b, hb, fun events r hrun => ?_⟩
  obtain ⟨s, rfl, hs⟩ := exec_safe_all Ring.inv_step hinit hrun
  refine ⟨s, rfl, hs.refines, fun r' hstep => ?_⟩
  simp only [Ring.step] at hstep
  split at hstep
  next dest hdest =>
    obtain ⟨b', hb', -, hkeep⟩ := hs.consume hdest
    rw [hb', ok_bind] at hstep
    exact ⟨_, (Option.some.inj hstep).symm, rfl, hkeep⟩
  next => cases hstep

/-- 六 block の buffer で折り返す例。 -/
theorem chunkBuffer2_refines_fifo_wrapped :
    ∃ s,
      exec (guarded Ring.step)
        (.ok ⟨(ChunkBuffer2.fresh (List.replicate 24 0) 6 4).updateInput, []⟩)
        [.write 0 [1, 2, 3, 4, 5], .submit 5, .write 0 [6], .submit 1, .consume, .write 0 [7, 8],
          .submit 2] =
          some (.ok s) ∧
      (s.queue = [⟨3, [6]⟩, ⟨0, [7, 8]⟩] ∧ s.buf.wrap = 5) ∧ s.Refines := by
  obtain ⟨b, hb, hall⟩ := @chunkBuffer2_refines_fifo (List.replicate 24 0) 6 4 (by decide)
    (by decide) (by decide)
  have hinit : ChunkBuffer2.init (List.replicate 24 0) 6 4 =
      .ok (ChunkBuffer2.fresh (List.replicate 24 0) 6 4).updateInput := by rfl
  obtain rfl := Except.ok.inj (hinit.symm.trans hb)
  obtain ⟨s, hrun, hp⟩ := exec_ok_exists Ring.step
    ⟨(ChunkBuffer2.fresh (List.replicate 24 0) 6 4).updateInput, []⟩
    [.write 0 [1, 2, 3, 4, 5], .submit 5, .write 0 [6], .submit 1, .consume, .write 0 [7, 8],
      .submit 2]
    (fun s => s.queue = [⟨3, [6]⟩, ⟨0, [7, 8]⟩] ∧ s.buf.wrap = 5) (by decide +kernel)
  obtain ⟨s', hs', href, -⟩ := hall _ _ hrun
  obtain rfl := Except.ok.inj hs'
  exact ⟨s, hrun, hp, href⟩

end Flow
