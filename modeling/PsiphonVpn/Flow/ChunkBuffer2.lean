import Mathlib.Algebra.Group.Int.Defs
import Mathlib.Algebra.Group.Nat.Defs
import PsiphonVpn.Flow.Interface
import PsiphonVpn.Infra.Tiling

/-!
# `ChunkBuffer2`

`structure/ChunkBuffer2.h` の、長さの異なる packet を入れる環状の buffer。

buffer は `int` 一つの大きさの block からなり、packet は長さの block とそれに続く中身の block とで一つの記録になる。
記録は block `start` から並び、`wrap` に達したら block 0 に続く。後ろに MTU の packet が入らなくなった所で `wrap` を
早めに置くので、記録が末尾で分かれることはない。

使う側は `inputDest` から `inputAvail` byte までの所に中身を書いてから `submitPacket` を呼び、`outputDest` の
`outputAvail` byte を読んでから `consumePacket` を呼ぶ。

`ASSERT` に失敗することと buffer の外に触れることを故障とし、state には入れた packet の列を添えて持つ。
-/

namespace Flow

open Infra

/-- `bdivide_up(len, sizeof(struct ChunkBuffer2_block))` -/
def blocksFor (len : Nat) : Nat := if len % 4 > 0 then len / 4 + 1 else len / 4

/-- 記憶の上の `int`。 -/
def intBytes (n : Nat) : Vector UInt8 4 :=
  #v[UInt8.ofNat n, UInt8.ofNat (n / 2 ^ 8), UInt8.ofNat (n / 2 ^ 16), UInt8.ofNat (n / 2 ^ 24)]

/-- 符号の無い値として読んだ四 byte。 -/
def wordOf (v : Vector UInt8 4) : Nat :=
  v[0].toNat + v[1].toNat * 2 ^ 8 + v[2].toNat * 2 ^ 16 + v[3].toNat * 2 ^ 24

/-- `int` として読んだ四 byte。 -/
def intOf (v : Vector UInt8 4) : Int :=
  if wordOf v < 2 ^ 31 then wordOf v else (wordOf v : Int) - 2 ^ 32

/-- `size_t` の値を `int` に入れる。 -/
def toInt (n : Nat) : Int := if n % 2 ^ 32 < 2 ^ 31 then (n % 2 ^ 32 : Nat)
    else (n % 2 ^ 32 : Nat) - 2 ^ 32

/-- 位置は、`buffer` の byte の位置と block の番号である。 -/
structure ChunkBuffer2 where
  buffer : List UInt8
  size : Nat
  wrap : Nat
  start : Nat
  used : Nat
  mtu : Nat
  inputDest : Option Nat
  inputAvail : Int
  outputDest : Option Nat
  outputAvail : Int
  deriving DecidableEq, Repr

namespace ChunkBuffer2

/-- `used >= wrap - start`。記録が `wrap` に達して、block 0 に続いている。 -/
def Wrapped (b : ChunkBuffer2) : Prop := b.wrap ≤ b.start + b.used

instance (b : ChunkBuffer2) : Decidable b.Wrapped := inferInstanceAs (Decidable (_ ≤ _))

/-- `_ChunkBuffer2_end` -/
def endBlock (b : ChunkBuffer2) : Nat :=
  if b.Wrapped then b.start + b.used - b.wrap else b.start + b.used

/-- 次の記録に使える block の数。 -/
def free (b : ChunkBuffer2) : Nat := if b.Wrapped then b.start - b.endBlock else b.size - b.endBlock

/-- `_ChunkBuffer2_update_input` の求める `input_dest` と `input_avail`。 -/
def inputOf (b : ChunkBuffer2) : Option Nat × Int :=
  if b.size < b.endBlock + 1 + b.mtu then (none, -1)
  else if 0 < b.free then (some (4 * (b.endBlock + 1)), toInt ((b.free - 1) * 4))
  else (none, -1)

/-- `_ChunkBuffer2_update_input` -/
def updateInput (b : ChunkBuffer2) : ChunkBuffer2 :=
  { b with inputDest := b.inputOf.1, inputAvail := b.inputOf.2 }

/-- `buffer[i].len` -/
def lenAt (b : ChunkBuffer2) (i : Nat) : Except Fault Int := do
  let v ← readVec b.buffer (4 * i) 4
  pure (intOf v)

/-- 最も古い記録の長さと、その検査。`_ChunkBuffer2_update_output` と `_ChunkBuffer2_assert_io` に共通である。 -/
def firstLen (b : ChunkBuffer2) : Except Fault Int := do
  let datalen ← b.lenAt b.start
  ensure (0 ≤ datalen)
  ensure (blocksFor datalen.toNat + 1 ≤ b.used)
  ensure (b.start + 1 + blocksFor datalen.toNat ≤ b.wrap)
  pure datalen

/-- `_ChunkBuffer2_update_output` -/
def updateOutput (b : ChunkBuffer2) : Except Fault ChunkBuffer2 :=
  if 0 < b.used then do
    let datalen ← b.firstLen
    pure { b with outputDest := some (4 * (b.start + 1)), outputAvail := datalen }
  else pure { b with outputDest := none, outputAvail := -1 }

/-- `_ChunkBuffer2_assert_buffer`。負でないことの検査は型で済む。 -/
def AssertBuffer (b : ChunkBuffer2) : Prop :=
  0 < b.size ∧ 0 < b.wrap ∧ b.wrap ≤ b.size ∧ b.start < b.wrap ∧ b.used ≤ b.wrap ∧
    (b.wrap = b.size ∨ b.Wrapped)

instance (b : ChunkBuffer2) : Decidable b.AssertBuffer := inferInstanceAs (Decidable (_ ∧ _))

/-- `_ChunkBuffer2_assert_io` の、入力の側。空きがあれば、`input_avail` は `size_t` に直して比べられる。 -/
def assertInput (b : ChunkBuffer2) : Except Fault Unit := do
  ensure (b.inputDest = b.inputOf.1)
  if b.size < b.endBlock + 1 + b.mtu then ensure (b.inputAvail = -1)
  else if 0 < b.free then ensure (b.inputAvail % 2 ^ 64 = ((b.free - 1) * 4 : Nat))
  else ensure (b.inputAvail = -1)

/-- `_ChunkBuffer2_assert_io` -/
def assertIo (b : ChunkBuffer2) : Except Fault Unit := do
  b.assertInput
  if 0 < b.used then do
    let datalen ← b.firstLen
    ensure (b.outputDest = some (4 * (b.start + 1)))
    ensure (b.outputAvail = datalen)
  else do
    ensure (b.outputDest = none)
    ensure (b.outputAvail = -1)

/--
`ChunkBuffer2_calc_blocks`。長さ `chunkLen` までの packet が `num` 個入る block の数。`int` に収まらなければ -1 である。
-/
def calcBlocks (chunkLen num : Nat) : Int :=
  if 2 ^ 31 - 1 - 1 < blocksFor chunkLen then -1
  else if 2 ^ 31 - 1 - 1 < num then -1
  else if (2 ^ 31 - 1) / (num + 1) < 1 + blocksFor chunkLen then -1
  else ((1 + blocksFor chunkLen) * (num + 1) : Nat)

/-- `ChunkBuffer2_Init` の、`update` の前まで。 -/
def fresh (buffer : List UInt8) (blocks mtu : Nat) : ChunkBuffer2 where
  buffer := buffer
  size := blocks
  wrap := blocks
  start := 0
  used := 0
  mtu := blocksFor mtu
  inputDest := none
  inputAvail := -1
  outputDest := none
  outputAvail := -1

/-- `ChunkBuffer2_Init` -/
def init (buffer : List UInt8) (blocks mtu : Nat) : Except Fault ChunkBuffer2 := do
  ensure (0 < blocks)
  ensure (fresh buffer blocks mtu).AssertBuffer
  let b ← (fresh buffer blocks mtu).updateInput.updateOutput
  b.assertIo
  pure b

/-- `buffer[end].len = len; used += 1 + blocklen;` と、その後の `wrap` の決め直し。 -/
def push (b : ChunkBuffer2) (len : Nat) : ChunkBuffer2 :=
  { b with
    buffer := writeAt b.buffer (4 * b.endBlock) (intBytes len).toList
    used := b.used + (1 + blocksFor len)
    wrap :=
      if b.start + (b.used + (1 + blocksFor len)) ≤ b.wrap ∧
          b.size < b.endBlock + 1 + blocksFor len + 1 + b.mtu then
        b.endBlock + 1 + blocksFor len
      else b.wrap }

/-- `ChunkBuffer2_SubmitPacket` -/
def submitPacket (b : ChunkBuffer2) (len : Nat) : Except Fault ChunkBuffer2 := do
  ensure (b.inputDest ≠ none)
  ensure ((len : Int) ≤ b.inputAvail)
  ensure b.AssertBuffer
  b.assertIo
  ensure (b.endBlock + 1 + blocksFor len ≤ b.size)
  ensure (¬ b.Wrapped ∨ b.endBlock + 1 + blocksFor len ≤ b.start)
  -- 長さの block が buffer の中にあること
  let _ ← readVec b.buffer (4 * b.endBlock) 4
  ensure (b.push len).AssertBuffer
  let b' ← if (b.push len).used = 1 + blocksFor len then (b.push len).updateInput.updateOutput
    else pure (b.push len).updateInput
  b'.assertIo
  pure b'

/-- 最も古い記録を除く。`wrap` に達したら block 0 に戻る。 -/
def pop (b : ChunkBuffer2) (blocklen : Nat) : ChunkBuffer2 :=
  if b.start + (1 + blocklen) = b.wrap then
    { b with start := 0, wrap := b.size, used := b.used - (1 + blocklen) }
  else { b with start := b.start + (1 + blocklen), used := b.used - (1 + blocklen) }

/-- `ChunkBuffer2_ConsumePacket` -/
def consumePacket (b : ChunkBuffer2) : Except Fault ChunkBuffer2 := do
  ensure (b.outputDest ≠ none)
  ensure b.AssertBuffer
  b.assertIo
  ensure (b.start + 1 ≤ b.wrap)
  ensure (1 ≤ b.used)
  let datalen ← b.lenAt b.start
  let blocklen := blocksFor datalen.toNat
  ensure (b.start + 1 + blocklen ≤ b.wrap)
  ensure (blocklen + 1 ≤ b.used)
  ensure (b.pop blocklen).AssertBuffer
  let b' ← (if b.Wrapped then (b.pop blocklen).updateInput else b.pop blocklen).updateOutput
  b'.assertIo
  pure b'

end ChunkBuffer2

/-! ## 使われ方 -/

/-- 入れた packet と、その長さの block の位置。 -/
structure Entry where
  pos : Nat
  data : List UInt8
  deriving DecidableEq, Repr

/-- buffer と、入れられてまだ除かれていない packet を古い順に並べたもの。 -/
structure Ring where
  buf : ChunkBuffer2
  queue : List Entry
  deriving DecidableEq, Repr

inductive RingEvent where
  /-- 使う側が、入力の所の `off` byte 目から `data` を書く。 -/
  | write (off : Nat) (data : List UInt8)
  | submit (len : Nat)
  | consume
  deriving DecidableEq, Repr

namespace Ring

/-- 使う側の書き込み。buffer の外なら故障する。 -/
def write (s : Ring) (i : Nat) (data : List UInt8) : Except Fault Ring := do
  let _ ← readVec s.buf.buffer i data.length
  pure { s with buf := { s.buf with buffer := writeAt s.buf.buffer i data } }

/-- 入力の所に書かれている `len` byte。 -/
def written (s : Ring) (dest len : Nat) : List UInt8 := (s.buf.buffer.drop dest).take len

def step (s : Ring) : RingEvent → Option (Except Fault Ring)
  | .write off data =>
    match s.buf.inputDest with
    | some dest =>
      if ((off + data.length : Nat) : Int) ≤ s.buf.inputAvail then some (s.write (dest + off) data)
        else none
    | none => none
  | .submit len =>
    match s.buf.inputDest with
    | some dest =>
      if (len : Int) ≤ s.buf.inputAvail then
        some (do
          let b ← s.buf.submitPacket len
          pure ⟨b, s.queue ++ [⟨s.buf.endBlock, s.written dest len⟩]⟩)
      else none
    | none => none
  | .consume =>
    match s.buf.outputDest with
    | some _ =>
      some (do
        let b ← s.buf.consumePacket
        pure ⟨b, s.queue.tail⟩)
    | none => none

end Ring

end Flow
