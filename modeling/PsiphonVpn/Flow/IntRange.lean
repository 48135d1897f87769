import PsiphonVpn.Flow.Capacity

/-!
# `ChunkBuffer2` の `int` の計算

`ChunkBuffer2` の field はどれも `int` で、block の数も byte の数も `int` で計算される。ここでは、`int` の計算の一つ一つで値が範囲に
収まるかどうかを調べながら同じ関数を計算し（名前の末尾が `Int` のもの）、収まる限り元の model と同じ結果になることを示す。

`ChunkBuffer2_calc_blocks` は block の数が `int` に収まることを確かめるが、byte の数 `(free - 1) * 4` が収まることは確かめない。

* `chunkBuffer2_int_range` — その後の計算が溢れないのは、block の数が `2 ^ 29` までの時と、-1 が返る時に限る
-/

namespace Flow

open Infra

/-- `int` の式の値。範囲を出たら `none`。 -/
def int (v : Int) : Option Int := if -2 ^ 31 ≤ v ∧ v < 2 ^ 31 then some v else none

variable {v : Int} {len : Nat} {s : Ring}

theorem int_eq (hlo : -2 ^ 31 ≤ v) (hhi : v < 2 ^ 31) : int v = some v := if_pos ⟨hlo, hhi⟩

theorem bind_of_eq_some {α β : Type} {x : Option α} {a : α} (h : x = some a) (f : α → Option β) :
    (x >>= f) = f a := by
  rw [h]
  rfl

theorem int_bind {α : Type} (hlo : -2 ^ 31 ≤ v) (hhi : v < 2 ^ 31) (f : Int → Option α) :
    (int v >>= f) = f v := bind_of_eq_some (int_eq hlo hhi) f

namespace ChunkBuffer2

/-- `ChunkBuffer2_calc_blocks` -/
def calcBlocksInt (chunkLen num : Nat) : Option Int := do
  let chunkDataBlocks ← int (blocksFor chunkLen)
  if 2 ^ 31 - 1 - 1 < chunkDataBlocks then pure (-1)
  else do
    let chunkBlocks ← int (1 + chunkDataBlocks)
    if (2 ^ 31 - 1 - 1 : Int) < num then pure (-1)
    else do
      let numChunks ← int (num + 1)
      if (2 ^ 31 - 1) / numChunks < chunkBlocks then pure (-1)
      else int (chunkBlocks * numChunks)

/-- `_ChunkBuffer2_end` -/
def endInt (b : ChunkBuffer2) : Option Int := do
  let toWrap ← int (b.wrap - b.start)
  if toWrap ≤ b.used then int (b.used - toWrap) else int (b.start + b.used)

/--
`_ChunkBuffer2_update_input` と `_ChunkBuffer2_assert_io` の、入力の所。`size_t` で求めた byte の数も `int` に入る。
-/
def inputInt (b : ChunkBuffer2) : Option (Option Nat × Int) := do
  let e ← b.endInt
  let room ← int (b.size - e)
  let room ← int (room - 1)
  if room < b.mtu then pure (none, -1)
  else do
    let toWrap ← int (b.wrap - b.start)
    let free ← int (if toWrap ≤ b.used then b.start - e else b.size - e)
    if 0 < free then do
      let i ← int (e + 1)
      let n ← int (free - 1)
      let avail ← int (n * 4)
      pure (some (4 * i.toNat), avail)
    else pure (none, -1)

/-- `_ChunkBuffer2_update_output` と `_ChunkBuffer2_assert_io` の、出力の所。 -/
def outputInt (b : ChunkBuffer2) : Option (Option Nat × Int) :=
  if 0 < b.used then do
    let datalen ← b.lenAt b.start |>.toOption
    let _ ← int (blocksFor datalen.toNat)
    let _ ← int (b.used - 1)
    let toWrap ← int (b.wrap - b.start)
    let _ ← int (toWrap - 1)
    let i ← int (b.start + 1)
    pure (some (4 * i.toNat), datalen)
  else pure (none, -1)

/-- `_ChunkBuffer2_update_input` -/
def updateInputInt (b : ChunkBuffer2) : Option ChunkBuffer2 := do
  let (dest, avail) ← b.inputInt
  pure { b with inputDest := dest, inputAvail := avail }

/-- `_ChunkBuffer2_update_output` -/
def updateOutputInt (b : ChunkBuffer2) : Option ChunkBuffer2 := do
  let (dest, avail) ← b.outputInt
  pure { b with outputDest := dest, outputAvail := avail }

/-- 条件の付いた更新。 -/
def updateIf (c : Prop) [Decidable c] (update : ChunkBuffer2 → Option ChunkBuffer2)
    (b : ChunkBuffer2) :
    Option ChunkBuffer2 :=
  if c then update b else some b

/-- `_ChunkBuffer2_assert_buffer` と `_ChunkBuffer2_assert_io` の計算。 -/
def assertInt (b : ChunkBuffer2) : Option Unit := do
  let _ ← int (b.wrap - b.start)
  let _ ← b.inputInt
  let _ ← b.outputInt
  pure ()

/-- `ChunkBuffer2_Init` -/
def initInt (buffer : List UInt8) (blocks mtu : Nat) : Option ChunkBuffer2 := do
  let size ← int blocks
  let mtuBlocks ← int (blocksFor mtu)
  let b₁ ← { fresh buffer size.toNat mtu with mtu := mtuBlocks.toNat }.updateInputInt
  let b₂ ← b₁.updateOutputInt
  b₂.assertInt
  pure b₂

/-- `ChunkBuffer2_SubmitPacket` の、`wrap` の決め直し。`&&` の右は、左が真の時にだけ計算される。 -/
def rewrapInt (b : ChunkBuffer2) (e blocklen used : Int) : Option Int := do
  let toWrap ← int (b.wrap - b.start)
  if used ≤ toWrap then do
    let next ← int (e + 1)
    let next ← int (next + blocklen)
    let room ← int (b.size - next)
    let room ← int (room - 1)
    pure (if room < b.mtu then next else b.wrap)
  else pure b.wrap

/-- `buffer[end].len = len; used += 1 + blocklen;` と、その後の `wrap` の決め直し。 -/
def pushInt (b : ChunkBuffer2) (len : Nat) : Option ChunkBuffer2 := do
  let e ← b.endInt
  let blocklen ← int (blocksFor len)
  let width ← int (1 + blocklen)
  let used ← int (b.used + width)
  let wrap ← b.rewrapInt e blocklen used
  pure { b with
    buffer := writeAt b.buffer (4 * e.toNat) (intBytes len).toList
    used := used.toNat
    wrap := wrap.toNat }

/-- `ChunkBuffer2_SubmitPacket` -/
def submitPacketInt (b : ChunkBuffer2) (len : Nat) : Option ChunkBuffer2 := do
  b.assertInt
  let e ← b.endInt
  let room ← int (b.size - e)
  let _ ← int (room - 1)
  let toWrap ← int (b.wrap - b.start)
  -- `||` の右は、左が偽の時にだけ計算される
  let behind ← int (if (b.used : Int) < toWrap then 0 else b.start - e)
  let _ ← int (if (b.used : Int) < toWrap then 0 else behind - 1)
  let b₁ ← b.pushInt len
  let b₂ ← b₁.updateInputInt
  let b₃ ← b₂.updateIf (b₂.used = 1 + blocksFor len) updateOutputInt
  b₃.assertInt
  pure b₃

/-- 最も古い記録を除く所。 -/
def popInt (b : ChunkBuffer2) (blocklen : Nat) : Option ChunkBuffer2 := do
  let width ← int (1 + blocklen)
  let start ← int (b.start + width)
  let used ← int (b.used - width)
  if start = b.wrap then pure { b with start := 0, wrap := b.size, used := used.toNat }
  else pure { b with start := start.toNat, used := used.toNat }

/-- `ChunkBuffer2_ConsumePacket` -/
def consumePacketInt (b : ChunkBuffer2) : Option ChunkBuffer2 := do
  b.assertInt
  let toWrap ← int (b.wrap - b.start)
  let datalen ← b.lenAt b.start |>.toOption
  let blocklen ← int (blocksFor datalen.toNat)
  let _ ← int (toWrap - 1)
  let _ ← int (b.used - 1)
  let b₁ ← b.popInt blocklen.toNat
  let b₂ ← b₁.updateIf (toWrap ≤ b.used) updateInputInt
  let b₃ ← b₂.updateOutputInt
  b₃.assertInt
  pure b₃

/-! ## block の数 -/

theorem blocksFor_eq (len : Nat) : blocksFor len = (len + 3) / 4 := by
  unfold blocksFor
  split <;> omega

theorem calcBlocks_eq_ite (chunkLen num : Nat) (h : chunkLen < 2 ^ 31) :
    calcBlocks chunkLen num =
      if (1 + (chunkLen + 3) / 4) * (num + 1) < 2 ^ 31 then
        (((1 + (chunkLen + 3) / 4) * (num + 1) : Nat) : Int) else -1 := by
  have hone : num + 1 ≤ (1 + (chunkLen + 3) / 4) * (num + 1) := Nat.le_mul_of_pos_left _ (by omega)
  have hdiv : (2 ^ 31 - 1) / (num + 1) < 1 + (chunkLen + 3) / 4 ↔
      2 ^ 31 - 1 < (1 + (chunkLen + 3) / 4) * (num + 1) :=
    Nat.div_lt_iff_lt_mul (Nat.succ_pos num)
  unfold calcBlocks
  rw [blocksFor_eq, if_neg (by omega)]
  split
  · rw [if_neg (by omega)]
  · split
    · next hlt => rw [if_neg (by rw [hdiv] at hlt; omega)]
    · next hge => rw [if_pos (by rw [hdiv] at hge; omega)]

/-- `ChunkBuffer2_calc_blocks` の計算は、どこでも溢れない。 -/
theorem calcBlocksInt_eq (chunkLen num : Nat) (h : chunkLen < 2 ^ 31) :
    calcBlocksInt chunkLen num = some (calcBlocks chunkLen num) := by
  have hblocks : blocksFor chunkLen ≤ 2 ^ 29 := by
    rw [blocksFor_eq]
    omega
  unfold calcBlocksInt calcBlocks
  rw [int_bind (by omega) (by omega), if_neg (by omega), if_neg (by omega),
    int_bind (by omega) (by omega)]
  by_cases hnum : 2 ^ 31 - 1 - 1 < num
  · rw [if_pos (by omega), if_pos hnum]
    rfl
  · rw [if_neg (by omega), if_neg hnum, int_bind (by omega) (by omega)]
    have hmax : ((2 ^ 31 - 1 : Nat) : Int) = 2 ^ 31 - 1 := by decide
    have hdiv : (2 ^ 31 - 1 : Int) / ((num : Int) + 1) = ((2 ^ 31 - 1) / (num + 1) : Nat) := by
      rw [Int.natCast_ediv, hmax, Int.natCast_add, Int.natCast_one]
    rw [hdiv]
    by_cases hlt : (2 ^ 31 - 1) / (num + 1) < 1 + blocksFor chunkLen
    · rw [if_pos (by omega), if_pos hlt]
      rfl
    · have hle : (1 + blocksFor chunkLen) * (num + 1) ≤ 2 ^ 31 - 1 :=
        (Nat.le_div_iff_mul_le (Nat.succ_pos num)).mp (Nat.not_lt.mp hlt)
      have hcast : (1 + (blocksFor chunkLen : Int)) * ((num : Int) + 1) =
          ((1 + blocksFor chunkLen) * (num + 1) : Nat) := by
        push_cast
        rfl
      rw [if_neg (by omega), if_neg hlt, hcast, int_eq (by omega) (by omega)]

/-! ## 収まる buffer での計算 -/

section Small

variable {b b' : ChunkBuffer2}

/-- 検査を通り、byte の数も `int` に収まる buffer。 -/
structure Small (b : ChunkBuffer2) : Prop where
  assertBuffer : b.AssertBuffer
  size_le : b.size ≤ 2 ^ 29

theorem Small.wrapped_iff (h : b.Small) : (b.wrap : Int) - b.start ≤ b.used ↔ b.Wrapped := by
  have hb := h.assertBuffer
  unfold Wrapped
  omega

theorem Small.endInt_eq (h : b.Small) : b.endInt = some (b.endBlock : Int) := by
  obtain ⟨-, -, hwrap, hstart, hused, -⟩ := h.assertBuffer
  have hsize := h.size_le
  unfold endInt
  rw [int_bind (by omega) (by omega)]
  by_cases hw : b.Wrapped
  · rw [if_pos (h.wrapped_iff.mpr hw), endBlock_of_wrapped hw]
    unfold Wrapped at hw
    rw [int_eq (by omega) (by omega)]
    congr 1
    omega
  · rw [if_neg (fun hle => hw (h.wrapped_iff.mp hle)), endBlock_of_not_wrapped hw,
      int_eq (by omega) (by omega)]
    rfl

/-- 終わりの block は、折り返していれば `start` まで、いなければ `wrap` の手前までにある。 -/
theorem Small.endBlock_le (h : b.Small) :
    (b.Wrapped → b.endBlock ≤ b.start) ∧ (¬b.Wrapped → b.endBlock < b.wrap) := by
  obtain ⟨-, -, hwrap, hstart, hused, -⟩ := h.assertBuffer
  constructor
  · intro hw
    rw [endBlock_of_wrapped hw]
    unfold Wrapped at hw
    omega
  · intro hw
    rw [endBlock_of_not_wrapped hw]
    exact Nat.not_le.mp hw

theorem Small.endBlock_lt (h : b.Small) : b.endBlock < b.size := by
  obtain ⟨-, -, hwrap, hstart, -, -⟩ := h.assertBuffer
  obtain ⟨hle, hlt⟩ := h.endBlock_le
  by_cases hw : b.Wrapped
  · have := hle hw
    omega
  · have := hlt hw
    omega

theorem Small.free_eq (h : b.Small) :
    (if (b.wrap : Int) - b.start ≤ b.used then (b.start : Int) - b.endBlock
      else b.size - b.endBlock) = b.free := by
  have hend := h.endBlock_lt
  by_cases hw : b.Wrapped
  · have hle := h.endBlock_le.1 hw
    rw [if_pos (h.wrapped_iff.mpr hw), free_of_wrapped hw]
    omega
  · rw [if_neg (fun hle => hw (h.wrapped_iff.mp hle)), free_of_not_wrapped hw]
    omega

theorem Small.free_le (h : b.Small) : b.free ≤ 2 ^ 29 := by
  obtain ⟨-, -, hwrap, hstart, -, -⟩ := h.assertBuffer
  have hsize := h.size_le
  unfold free
  split <;> omega

theorem Small.inputInt_eq (h : b.Small) : b.inputInt = some b.inputOf := by
  obtain ⟨-, -, hwrap, hstart, hused, -⟩ := h.assertBuffer
  have hsize := h.size_le
  have hend := h.endBlock_lt
  have hfree := h.free_le
  unfold inputInt inputOf
  rw [bind_of_eq_some h.endInt_eq, int_bind (by omega) (by omega), int_bind (by omega) (by omega)]
  by_cases hmtu : b.size < b.endBlock + 1 + b.mtu
  · rw [if_pos (by omega), if_pos hmtu]
    rfl
  · rw [if_neg (by omega), if_neg hmtu, int_bind (by omega) (by omega), h.free_eq,
      int_bind (by omega) (by omega)]
    by_cases hpos : 0 < b.free
    · rw [if_pos (by omega), if_pos hpos, int_bind (by omega) (by omega),
        int_bind (by omega) (by omega), int_bind (by omega) (by omega), toInt_of_lt (by omega)]
      refine congrArg some (Prod.ext (congrArg some ?_) ?_)
      · omega
      · omega
    · rw [if_neg (by omega), if_neg hpos]
      rfl

theorem Small.updateInputInt_eq (h : b.Small) : b.updateInputInt = some b.updateInput := by
  unfold updateInputInt
  rw [h.inputInt_eq]
  rfl

theorem firstLen_eq_ok {datalen : Int} (h : b.firstLen = .ok datalen) :
    b.lenAt b.start = .ok datalen ∧ blocksFor datalen.toNat + 1 ≤ b.used := by
  obtain ⟨d, hlen, h⟩ := bind_eq_ok.mp h
  obtain ⟨-, -, h⟩ := bind_eq_ok.mp h
  obtain ⟨u, hused, h⟩ := bind_eq_ok.mp h
  obtain ⟨-, -, h⟩ := bind_eq_ok.mp h
  obtain rfl := Except.ok.inj h
  exact ⟨hlen, of_ensure_eq_ok hused⟩

theorem Small.outputInt_of_firstLen (h : b.Small) (hpos : 0 < b.used) {datalen : Int}
    (hfirst : b.firstLen = .ok datalen) :
    b.outputInt = some (some (4 * (b.start + 1)), datalen) := by
  obtain ⟨-, -, hwrap, hstart, hused, -⟩ := h.assertBuffer
  have hsize := h.size_le
  obtain ⟨hlen, hblocks⟩ := firstLen_eq_ok hfirst
  have hread : (b.lenAt b.start).toOption = some datalen := by
    rw [hlen]
    rfl
  unfold outputInt
  rw [if_pos hpos, bind_of_eq_some hread, int_bind (by omega) (by omega),
    int_bind (by omega) (by omega), int_bind (by omega) (by omega), int_bind (by omega) (by omega),
    int_bind (by omega) (by omega)]
  refine congrArg some (Prod.ext (congrArg some ?_) rfl)
  omega

theorem Small.updateOutputInt_eq (h : b.Small) (hb : b.updateOutput = .ok b') :
    b.updateOutputInt = some b' := by
  unfold updateOutput at hb
  unfold updateOutputInt
  split at hb
  next hpos =>
    obtain ⟨datalen, hfirst, hb⟩ := bind_eq_ok.mp hb
    rw [h.outputInt_of_firstLen hpos hfirst]
    exact congrArg some (Except.ok.inj hb)
  next hzero =>
    rw [outputInt, if_neg hzero]
    exact congrArg some (Except.ok.inj hb)

theorem Small.assertInt_eq (h : b.Small) (hio : b.assertIo = .ok ()) : b.assertInt = some () := by
  obtain ⟨-, -, hwrap, hstart, hused, -⟩ := h.assertBuffer
  have hsize := h.size_le
  obtain ⟨-, -, hio⟩ := bind_eq_ok.mp hio
  have hout : ∃ o, b.outputInt = some o := by
    split at hio
    next hpos =>
      obtain ⟨datalen, hfirst, -⟩ := bind_eq_ok.mp hio
      exact ⟨_, h.outputInt_of_firstLen hpos hfirst⟩
    next hzero => exact ⟨_, if_neg hzero⟩
  obtain ⟨o, ho⟩ := hout
  unfold assertInt
  rw [int_bind (by omega) (by omega), bind_of_eq_some h.inputInt_eq, bind_of_eq_some ho]
  rfl

theorem Small.sameBlocks (h : b.Small) (hs : SameBlocks b' b) : b'.Small := by
  obtain ⟨_, _, _, _, rfl⟩ := hs
  exact ⟨h.assertBuffer, h.size_le⟩

theorem Small.rewrapInt_eq (h : b.Small) (hlen : b.endBlock + 1 + blocksFor len ≤ b.size) :
    b.rewrapInt b.endBlock (blocksFor len) (b.used + (1 + blocksFor len)) = some
      ((b.push len).wrap : Int) := by
  obtain ⟨-, -, hwrap, hstart, hused, -⟩ := h.assertBuffer
  have hsize := h.size_le
  unfold rewrapInt push
  rw [int_bind (by omega) (by omega)]
  by_cases hfits : b.start + (b.used + (1 + blocksFor len)) ≤ b.wrap
  · rw [if_pos (by omega), int_bind (by omega) (by omega), int_bind (by omega) (by omega),
      int_bind (by omega) (by omega), int_bind (by omega) (by omega)]
    refine congrArg some ?_
    dsimp only
    split
    · rw [if_pos ⟨hfits, by omega⟩]
      omega
    · rw [if_neg fun hand => by omega]
  · rw [if_neg (by omega)]
    refine congrArg some ?_
    dsimp only
    rw [if_neg fun hand => hfits hand.1]

theorem Small.pushInt_eq (h : b.Small) (hlen : b.endBlock + 1 + blocksFor len ≤ b.size) :
    b.pushInt len = some (b.push len) := by
  obtain ⟨-, -, hwrap, hstart, hused, -⟩ := h.assertBuffer
  have hsize := h.size_le
  unfold pushInt
  rw [bind_of_eq_some h.endInt_eq, int_bind (by omega) (by omega), int_bind (by omega) (by omega),
    int_bind (by omega) (by omega), bind_of_eq_some (h.rewrapInt_eq hlen)]
  refine congrArg some ?_
  have hused' : ((b.used : Int) + (1 + blocksFor len)).toNat = b.used + (1 + blocksFor len) := by
    omega
  rw [hused']
  rfl

theorem Small.popInt_eq (h : b.Small) {blocklen : Nat} (hle : blocklen + 1 ≤ b.used) :
    b.popInt blocklen = some (b.pop blocklen) := by
  obtain ⟨-, -, hwrap, hstart, hused, -⟩ := h.assertBuffer
  have hsize := h.size_le
  have hstart' : ((b.start : Int) + (1 + blocklen)).toNat = b.start + (1 + blocklen) := by omega
  have hused' : ((b.used : Int) - (1 + blocklen)).toNat = b.used - (1 + blocklen) := by omega
  unfold popInt pop
  rw [int_bind (by omega) (by omega), int_bind (by omega) (by omega),
    int_bind (by omega) (by omega), hstart', hused']
  by_cases hlast : b.start + (1 + blocklen) = b.wrap
  · rw [if_pos (by omega), if_pos hlast]
    rfl
  · rw [if_neg (by omega), if_neg hlast]
    rfl

/-- `ChunkBuffer2_SubmitPacket` の、記録を入れた後の計算。 -/
theorem Small.refreshInt {width : Nat} (h : b.Small) {b₁ : ChunkBuffer2}
    (hb : (if b.used = width then b.updateInput.updateOutput else .ok b.updateInput) = .ok b₁)
    (hio : b₁.assertIo = .ok ()) :
    b.updateInput.updateIf (b.updateInput.used = width) updateOutputInt = some b₁ ∧
      b₁.assertInt = some () := by
  have hsmall : b.updateInput.Small := h.sameBlocks (sameBlocks_updateInput b)
  unfold updateIf
  split at hb
  next hw =>
    exact ⟨(if_pos hw).trans (hsmall.updateOutputInt_eq hb),
      (hsmall.sameBlocks (sameBlocks_updateOutput hb)).assertInt_eq hio⟩
  next hw =>
    obtain rfl := Except.ok.inj hb
    exact ⟨if_neg hw, hsmall.assertInt_eq hio⟩

theorem Small.submitPacketInt_eq (h : b.Small) (hb : b.submitPacket len = .ok b') :
    b.submitPacketInt len = some b' := by
  obtain ⟨-, -, hwrap, hstart, hused, -⟩ := h.assertBuffer
  have hsize := h.size_le
  have hend := h.endBlock_lt
  obtain ⟨-, -, hb⟩ := bind_eq_ok.mp hb
  obtain ⟨-, -, hb⟩ := bind_eq_ok.mp hb
  obtain ⟨-, -, hb⟩ := bind_eq_ok.mp hb
  obtain ⟨_, hio, hb⟩ := bind_eq_ok.mp hb
  obtain ⟨_, hlen, hb⟩ := bind_eq_ok.mp hb
  obtain ⟨-, -, hb⟩ := bind_eq_ok.mp hb
  obtain ⟨-, -, hb⟩ := bind_eq_ok.mp hb
  obtain ⟨_, hpush, hb⟩ := bind_eq_ok.mp hb
  have hsmall : (b.push len).Small := ⟨of_ensure_eq_ok hpush, hsize⟩
  have hlast : ∃ b₁, (if (b.push len).used = 1 + blocksFor len then
    (b.push len).updateInput.updateOutput
      else .ok (b.push len).updateInput) = .ok b₁ ∧ b₁.assertIo = .ok () ∧ b₁ = b' := by
    dsimp only at hb
    split at hb
    next hw =>
      obtain ⟨b₁, hb₁, hb⟩ := bind_eq_ok.mp hb
      obtain ⟨_, hio₁, hb⟩ := bind_eq_ok.mp hb
      exact ⟨b₁, (if_pos hw).trans hb₁, hio₁, Except.ok.inj hb⟩
    next hw =>
      rw [pure_bind] at hb
      obtain ⟨_, hio₁, hb⟩ := bind_eq_ok.mp hb
      exact ⟨_, if_neg hw, hio₁, Except.ok.inj hb⟩
  obtain ⟨b₁, hb₁, hio₁, rfl⟩ := hlast
  obtain ⟨hupdate, hassert⟩ := hsmall.refreshInt hb₁ hio₁
  have hbehind : -2 ^ 31 < (if (b.used : Int) < b.wrap - b.start then 0
      else (b.start : Int) - b.endBlock) ∧
      (if (b.used : Int) < b.wrap - b.start then 0 else (b.start : Int) - b.endBlock) < 2 ^ 31 := by
    split <;> omega
  have hbehind' : -2 ^ 31 ≤ (if (b.used : Int) < b.wrap - b.start then 0 else
        (if (b.used : Int) < b.wrap - b.start then 0 else (b.start : Int) - b.endBlock) - 1) ∧
      (if (b.used : Int) < b.wrap - b.start then 0 else
        (if (b.used : Int) < b.wrap - b.start then 0
          else (b.start : Int) - b.endBlock) - 1) < 2 ^ 31 := by
    split <;> omega
  unfold submitPacketInt
  rw [bind_of_eq_some (h.assertInt_eq hio), bind_of_eq_some h.endInt_eq,
    int_bind (by omega) (by omega), int_bind (by omega) (by omega), int_bind (by omega) (by omega),
    int_bind (by omega) (by omega), int_bind hbehind'.1 hbehind'.2,
    bind_of_eq_some (h.pushInt_eq (of_ensure_eq_ok hlen)), bind_of_eq_some hsmall.updateInputInt_eq,
    bind_of_eq_some hupdate, bind_of_eq_some hassert]
  rfl

theorem Small.consumePacketInt_eq (h : b.Small) (hb : b.consumePacket = .ok b') :
    b.consumePacketInt = some b' := by
  obtain ⟨-, -, hwrap, hstart, hused, -⟩ := h.assertBuffer
  have hsize := h.size_le
  obtain ⟨-, -, hb⟩ := bind_eq_ok.mp hb
  obtain ⟨-, -, hb⟩ := bind_eq_ok.mp hb
  obtain ⟨_, hio, hb⟩ := bind_eq_ok.mp hb
  obtain ⟨-, -, hb⟩ := bind_eq_ok.mp hb
  obtain ⟨-, -, hb⟩ := bind_eq_ok.mp hb
  obtain ⟨datalen, hlen, hb⟩ := bind_eq_ok.mp hb
  obtain ⟨-, -, hb⟩ := bind_eq_ok.mp hb
  obtain ⟨_, hle, hb⟩ := bind_eq_ok.mp hb
  obtain ⟨_, hpop, hb⟩ := bind_eq_ok.mp hb
  obtain ⟨b₁, hb₁, hb⟩ := bind_eq_ok.mp hb
  obtain ⟨_, hio₁, hb⟩ := bind_eq_ok.mp hb
  obtain rfl := Except.ok.inj hb
  replace hle : blocksFor datalen.toNat + 1 ≤ b.used := of_ensure_eq_ok hle
  have hread : (b.lenAt b.start).toOption = some datalen := by
    rw [hlen]
    rfl
  have hsmall : (b.pop (blocksFor datalen.toNat)).Small := by
    refine ⟨of_ensure_eq_ok hpop, ?_⟩
    unfold pop
    split <;> exact hsize
  have hupdate : ∃ b₂ : ChunkBuffer2, b₂.Small ∧
      (b.pop (blocksFor datalen.toNat)).updateIf ((b.wrap : Int) - b.start ≤ b.used)
        updateInputInt = some b₂ ∧
      b₂.updateOutput = .ok b₁ := by
    unfold updateIf
    by_cases hw : b.Wrapped
    · rw [if_pos hw] at hb₁
      exact ⟨_, hsmall.sameBlocks (sameBlocks_updateInput _),
        (if_pos (h.wrapped_iff.mpr hw)).trans hsmall.updateInputInt_eq, hb₁⟩
    · rw [if_neg hw] at hb₁
      exact ⟨_, hsmall, if_neg (fun hle => hw (h.wrapped_iff.mp hle)), hb₁⟩
  obtain ⟨b₂, hsmall₂, hupdate, hout⟩ := hupdate
  have hassert := (hsmall₂.sameBlocks (sameBlocks_updateOutput hout)).assertInt_eq hio₁
  unfold consumePacketInt
  rw [bind_of_eq_some (h.assertInt_eq hio), int_bind (by omega) (by omega), bind_of_eq_some hread,
    int_bind (by omega) (by omega), int_bind (by omega) (by omega), int_bind (by omega) (by omega),
    Int.toNat_natCast, bind_of_eq_some (h.popInt_eq hle), bind_of_eq_some hupdate,
    bind_of_eq_some (hsmall₂.updateOutputInt_eq hout), bind_of_eq_some hassert]
  rfl

theorem initInt_eq {buffer : List UInt8} {blocks mtu : Nat} (hsize : blocks ≤ 2 ^ 29)
    (hmtu : mtu < 2 ^ 31) (hb : init buffer blocks mtu = .ok b) :
    initInt buffer blocks mtu = some b ∧ SameBlocks b (fresh buffer blocks mtu) := by
  have hblocks : blocksFor mtu ≤ 2 ^ 29 := by
    rw [blocksFor_eq]
    omega
  obtain ⟨-, -, hb⟩ := bind_eq_ok.mp hb
  obtain ⟨_, hassert, hb⟩ := bind_eq_ok.mp hb
  obtain ⟨b₁, hb₁, hb⟩ := bind_eq_ok.mp hb
  obtain ⟨_, hio, hb⟩ := bind_eq_ok.mp hb
  obtain rfl := Except.ok.inj hb
  have hfresh : (fresh buffer blocks mtu).Small := ⟨of_ensure_eq_ok hassert, hsize⟩
  have hin : (fresh buffer blocks mtu).updateInput.Small :=
    hfresh.sameBlocks (sameBlocks_updateInput _)
  have hsame := (sameBlocks_updateOutput hb₁).trans (sameBlocks_updateInput _)
  refine ⟨?_, hsame⟩
  unfold initInt
  rw [int_bind (by omega) (by omega), int_bind (by omega) (by omega), Int.toNat_natCast,
    Int.toNat_natCast]
  show ((fresh buffer blocks mtu).updateInputInt >>= _) = _
  rw [bind_of_eq_some hfresh.updateInputInt_eq, bind_of_eq_some (hin.updateOutputInt_eq hb₁),
    bind_of_eq_some ((hfresh.sameBlocks hsame).assertInt_eq hio)]
  rfl

end Small

theorem int_bind_eq_none {α : Type} (h : 2 ^ 31 ≤ v) (f : Int → Option α) :
    (int v >>= f) = none := by
  rw [int, if_neg (by omega)]
  rfl

/-- 空の buffer の `input_avail` は、block が `2 ^ 29` を超えると `int` に収まらない。 -/
theorem initInt_eq_none {buffer : List UInt8} {blocks mtu : Nat} (hlo : 2 ^ 29 < blocks)
    (hhi : blocks < 2 ^ 31) (hmtu : mtu < 2 ^ 31) : initInt buffer blocks mtu = none := by
  have hblocks : blocksFor mtu ≤ 2 ^ 29 := by
    rw [blocksFor_eq]
    omega
  have hsize : (fresh buffer blocks mtu).size = blocks := rfl
  have hwrap : (fresh buffer blocks mtu).wrap = blocks := rfl
  have hstart : (fresh buffer blocks mtu).start = 0 := rfl
  have hused : (fresh buffer blocks mtu).used = 0 := rfl
  have hroom : (fresh buffer blocks mtu).mtu = blocksFor mtu := rfl
  have hend : (fresh buffer blocks mtu).endInt = some 0 := by
    unfold endInt
    rw [int_bind (by omega) (by omega), if_neg (by omega), int_eq (by omega) (by omega), hstart,
      hused]
    rfl
  have hinput : (fresh buffer blocks mtu).inputInt = none := by
    unfold inputInt
    rw [bind_of_eq_some hend, int_bind (by omega) (by omega), int_bind (by omega) (by omega),
      if_neg (by omega), int_bind (by omega) (by omega), if_neg (by omega),
      int_bind (by omega) (by omega), if_pos (by omega), int_bind (by omega) (by omega),
      int_bind (by omega) (by omega), int_bind_eq_none (by omega)]
  unfold initInt
  rw [int_bind (by omega) (by omega), int_bind (by omega) (by omega), Int.toNat_natCast,
    Int.toNat_natCast]
  show ((fresh buffer blocks mtu).updateInputInt >>= _) = _
  rw [updateInputInt, hinput]
  rfl

end ChunkBuffer2

/-! ## run -/

namespace Ring

/-- 不変量。buffer の大きさは変わらない。 -/
def InvInt (s : Ring) : Prop := s.Inv ∧ s.buf.size ≤ 2 ^ 29

theorem InvInt.small (h : s.InvInt) : s.buf.Small := ⟨h.1.refines.assertBuffer, h.2⟩

theorem InvInt.submit {dest : Nat} (h : s.InvInt) (hdest : s.buf.inputDest = some dest)
    (hle : (len : Int) ≤ s.buf.inputAvail) :
    ∃ b, s.buf.submitPacket len = .ok b ∧ s.buf.submitPacketInt len = some b ∧
      InvInt ⟨b, s.queue ++ [⟨s.buf.endBlock, s.written dest len⟩]⟩ := by
  obtain ⟨b, hb, hinv⟩ := h.1.submit hdest hle
  refine ⟨b, hb, h.small.submitPacketInt_eq hb, hinv, ?_⟩
  obtain ⟨_, _, _, _, rfl⟩ := submitPacket_sameBlocks hb
  exact h.2

theorem InvInt.consume {dest : Nat} (h : s.InvInt) (hdest : s.buf.outputDest = some dest) :
    ∃ b, s.buf.consumePacket = .ok b ∧ s.buf.consumePacketInt = some b ∧
      InvInt ⟨b, s.queue.tail⟩ := by
  obtain ⟨b, hb, hinv, -⟩ := h.1.consume hdest
  refine ⟨b, hb, h.small.consumePacketInt_eq hb, hinv, ?_⟩
  obtain ⟨datalen, -, _, _, _, _, rfl⟩ := consumePacket_sameBlocks hb
  unfold ChunkBuffer2.pop
  split <;> exact h.2

theorem invInt_step (s : Ring) (ev : RingEvent) (r : Except Fault Ring) (h : s.InvInt)
    (hstep : s.step ev = some r) :
    ∃ s', r = .ok s' ∧ s'.InvInt := by
  cases ev with
  | write off data =>
    obtain ⟨s', rfl, hinv⟩ := inv_step s _ r h.1 hstep
    refine ⟨s', rfl, hinv, ?_⟩
    simp only [step] at hstep
    split at hstep
    next dest hdest =>
      split at hstep
      next hle =>
        obtain ⟨-, -, hs'⟩ := bind_eq_ok.mp (Option.some.inj hstep)
        obtain rfl := Except.ok.inj hs'
        exact h.2
      next => cases hstep
    next => cases hstep
  | submit len =>
    simp only [step] at hstep
    split at hstep
    next dest hdest =>
      split at hstep
      next hle =>
        obtain ⟨b, hb, -, hinv⟩ := h.submit hdest hle
        rw [hb, ok_bind] at hstep
        exact ⟨_, (Option.some.inj hstep).symm, hinv⟩
      next => cases hstep
    next => cases hstep
  | consume =>
    simp only [step] at hstep
    split at hstep
    next dest hdest =>
      obtain ⟨b, hb, -, hinv⟩ := h.consume hdest
      rw [hb, ok_bind] at hstep
      exact ⟨_, (Option.some.inj hstep).symm, hinv⟩
    next => cases hstep

end Ring

open ChunkBuffer2 in
/--
**`ChunkBuffer2` の `int` の計算は、block の数が `2 ^ 29` までなら溢れない。**

`ChunkBuffer2_calc_blocks` の計算はどこでも溢れず、結果は `(1 + ⌈chunk_len / 4⌉) * (num + 1)` か、
それが `int` に収まらない時の -1 である。その数の block の buffer で、どの MTU で作っても、入れ、取り出すどの列の後でも、
次に呼ばれる関数の `int` の計算がどれも範囲に収まり、値が model のものに等しいことは、その数が `2 ^ 29` までであるか、-1 が返ることと同じである。
-/
theorem chunkBuffer2_int_range {chunkLen num : Nat} (hchunk : chunkLen < 2 ^ 31) :
    calcBlocksInt chunkLen num = some (calcBlocks chunkLen num) ∧
    calcBlocks chunkLen num =
      (if (1 + (chunkLen + 3) / 4) * (num + 1) < 2 ^ 31 then
        (((1 + (chunkLen + 3) / 4) * (num + 1) : Nat) : Int) else -1) ∧
    ((∀ (blocks mtu : Nat) (buffer : List UInt8), calcBlocks chunkLen num = blocks → mtu < 2 ^ 31 →
        buffer.length = 4 * blocks →
        ∃ b, init buffer blocks mtu = .ok b ∧ initInt buffer blocks mtu = some b ∧
          ∀ events r, exec (guarded Ring.step) (.ok ⟨b, []⟩) events = some r →
            ∃ s, r = .ok s ∧
              (∀ (dest len : Nat), s.buf.inputDest = some dest → (len : Int) ≤ s.buf.inputAvail →
                ∃ b', s.buf.submitPacket len = .ok b' ∧ s.buf.submitPacketInt len = some b') ∧
              (∀ dest, s.buf.outputDest = some dest →
                ∃ b', s.buf.consumePacket = .ok b' ∧ s.buf.consumePacketInt = some b')) ↔
      (1 + (chunkLen + 3) / 4) * (num + 1) ≤ 2 ^ 29 ∨
        2 ^ 31 ≤ (1 + (chunkLen + 3) / 4) * (num + 1)) := by
  have hcalc := calcBlocks_eq_ite chunkLen num hchunk
  refine ⟨calcBlocksInt_eq chunkLen num hchunk, hcalc, ?_⟩
  have hpos : 0 < (1 + (chunkLen + 3) / 4) * (num + 1) := Nat.mul_pos (by omega) (Nat.succ_pos num)
  rw [hcalc]
  generalize (1 + (chunkLen + 3) / 4) * (num + 1) = product at hpos ⊢
  constructor
  · intro hrange
    by_contra hbetween
    rw [if_pos (by omega)] at hrange
    obtain ⟨b, -, hb, -⟩ := hrange product 0 (List.replicate (4 * product) 0) rfl (by decide)
      List.length_replicate
    rw [initInt_eq_none (by omega) (by omega) (by decide)] at hb
    cases hb
  intro hproduct blocks mtu buffer hblocks hmtu hlen
  split at hblocks
  next hlt =>
    obtain rfl := Int.ofNat_inj.mp hblocks
    have hsmall : product ≤ 2 ^ 29 := by omega
    obtain ⟨b, hb, hinv⟩ := @Ring.init_ok buffer _ mtu hpos (by omega) hlen
    obtain ⟨hint, hsame⟩ := initInt_eq hsmall hmtu hb
    have hinit : Ring.InvInt ⟨b, []⟩ := by
      refine ⟨hinv, ?_⟩
      obtain ⟨_, _, _, _, rfl⟩ := hsame
      exact hsmall
    refine ⟨b, hb, hint, fun events r hrun => ?_⟩
    obtain ⟨s, rfl, hs⟩ := exec_safe_all Ring.invInt_step hinit hrun
    refine ⟨s, rfl, fun dest len hdest hle => ?_, fun dest hdest => ?_⟩
    · obtain ⟨b', hb', hint', -⟩ := hs.submit hdest hle
      exact ⟨b', hb', hint'⟩
    · obtain ⟨b', hb', hint', -⟩ := hs.consume hdest
      exact ⟨b', hb', hint'⟩
  next => omega

open ChunkBuffer2 in
/-- 六 block の buffer。四 byte の packet が二つ入る。 -/
theorem chunkBuffer2_int_range_six :
    calcBlocksInt 4 2 = some 6 ∧
      ∃ b, initInt (List.replicate 24 0) 6 4 = some b ∧ ∃ b', b.submitPacketInt 5 = some b' ∧
        b'.used = 3 := by
  obtain ⟨hcalc, -, hrun⟩ := @chunkBuffer2_int_range 4 2 (by decide)
  obtain ⟨b, hb, hint, hall⟩ :=
    hrun.mpr (.inl (by decide)) 6 4 (List.replicate 24 0) (by decide) (by decide) (by decide)
  have hinit : ChunkBuffer2.init (List.replicate 24 0) 6 4 =
      .ok (ChunkBuffer2.fresh (List.replicate 24 0) 6 4).updateInput := by rfl
  obtain rfl := Except.ok.inj (hinit.symm.trans hb)
  obtain ⟨s, hs, hsubmit, -⟩ := hall [] _ rfl
  obtain rfl := Except.ok.inj hs
  obtain ⟨b', hb', hint'⟩ := hsubmit 4 5 rfl (by decide)
  refine ⟨hcalc, _, hint, b', hint', ?_⟩
  obtain ⟨_, _, _, _, rfl⟩ := submitPacket_sameBlocks hb'
  rfl

open ChunkBuffer2 in
/--
`ChunkBuffer2_calc_blocks(4, 2 ^ 28)` は `2 ^ 29 + 2` を返すが、その buffer の空きの byte の数 `2 ^ 31 + 4` は
`int` に収まらない。`ChunkBuffer2_Init` の `input_avail` は負になり、`_ChunkBuffer2_assert_io` の検査も失敗する。
-/
theorem inputAvail_overflows :
    calcBlocks 4 (2 ^ 28) = 2 ^ 29 + 2 ∧
    ((fresh (List.replicate (4 * (2 ^ 29 + 2)) 0) (2 ^ 29 + 2) 4).free - 1) * 4 = 2 ^ 31 + 4 ∧
    (fresh (List.replicate (4 * (2 ^ 29 + 2)) 0) (2 ^ 29 + 2) 4).updateInput.inputAvail =
      -2 ^ 31 + 4 ∧
    initInt (List.replicate (4 * (2 ^ 29 + 2)) 0) (2 ^ 29 + 2) 4 = none ∧
    init (List.replicate (4 * (2 ^ 29 + 2)) 0) (2 ^ 29 + 2) 4 = .error (.reject .failed) :=
  ⟨by decide, by decide +kernel, by decide +kernel, by decide +kernel, by decide +kernel⟩

end Flow
