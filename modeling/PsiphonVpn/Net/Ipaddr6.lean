import PsiphonVpn.Infra.Buffer
import PsiphonVpn.Infra.Numeral
import PsiphonVpn.Net.BAddr

/-!
# IPv6 address の text

`misc/ipaddr6.h` の `ipaddr6_parse_ipv6_addr_bin` と `ipaddr6_print_addr`、`misc/parse_number.h` の数字の読み
方。

parser は文字を一つずつ読み、`:` に当たるたびに二 byte を書く。`.` に当たったら直前の `:` まで戻り、そこからを十進の四つの数として読み直す。
`::` があれば、それより後の byte を末尾に移し、間を 0 で埋める。

文字列の外を読むこと、十六 byte の外に書くこと、loop が終わらないこと（`fuel` が尽きること）は、どれも故障とする。
-/

namespace Net.Ipaddr6

open Infra

inductive Stop where
  /-- `return 0` -/
  | reject
  /-- 文字列か buffer の外に触れた -/
  | outOfBounds
  /-- loop が終わらない -/
  | outOfFuel
  deriving DecidableEq, Repr

/-- `':'` -/
def colon : UInt8 := 58

/-- `'.'` -/
def dot : UInt8 := 46

/-- `decode_decimal_digit` -/
def decodeDecimalDigit (c : UInt8) : Option Nat :=
  if 48 ≤ c.toNat ∧ c.toNat ≤ 57 then some (c.toNat - 48) else none

/-- `decode_hex_digit` -/
def decodeHexDigit (c : UInt8) : Option Nat :=
  if 48 ≤ c.toNat ∧ c.toNat ≤ 57 then some (c.toNat - 48)
  else if 65 ≤ c.toNat ∧ c.toNat ≤ 70 then some (c.toNat - 65 + 10)
  else if 97 ≤ c.toNat ∧ c.toNat ≤ 102 then some (c.toNat - 97 + 10)
  else none

/-- `name[i]` -/
def readAt (name : List UInt8) (i : Nat) : Except Stop UInt8 :=
  match name[i]? with
  | some c => .ok c
  | none => .error .outOfBounds

/-- `memcpy(bytes + i, data, len)` -/
def put (bytes : List UInt8) (i : Nat) (data : List UInt8) : Except Stop (List UInt8) :=
  if i + data.length ≤ bytes.length then .ok (writeAt bytes i data) else .error .outOfBounds

/-- 十六 bit の数の二 byte。 -/
def blockBytes (block : Nat) : List UInt8 := [UInt8.ofNat (block / 256), UInt8.ofNat block]

/-! ## parser -/

structure ParseState where
  i : Nat
  numBlocks : Nat
  /-- -1 は `none` -/
  compressPos : Option Nat
  block : Nat
  empty : Bool
  bytes : List UInt8
  deriving DecidableEq, Repr

namespace ParseState

/-- `out_addr->bytes[2 * num_blocks ..] = block; num_blocks++;` -/
def putBlock (s : ParseState) : Except Stop ParseState := do
  let bytes ← put s.bytes (2 * s.numBlocks) (blockBytes s.block)
  pure { s with bytes, numBlocks := s.numBlocks + 1 }

/-- `is_double` -/
def isDouble (name : List UInt8) (s : ParseState) : Except Stop Bool :=
  if s.i + 1 < name.length then do
    let c ← readAt name (s.i + 1)
    pure (c == colon)
  else pure false

/-- `:` の前の group を終える。先頭の `:` は `::` でなければならない。 -/
def closeGroup (s : ParseState) (double : Bool) : Except Stop ParseState :=
  if 0 < s.i then
    if s.empty = true ∨ s.numBlocks = 7 then .error .reject
    else do
      let s' ← s.putBlock
      pure { s' with block := 0, empty := true }
  else if double = false then .error .reject
  else pure s

/-- `::` の位置を覚える。二つ目は退ける。 -/
def markCompress (s : ParseState) (double : Bool) : Except Stop ParseState :=
  if double = true then
    if s.compressPos ≠ none then .error .reject else pure { s with compressPos := some s.numBlocks }
  else pure s

def stepColon (name : List UInt8) (s : ParseState) : Except Stop ParseState := do
  let double ← s.isDouble name
  let s₁ ← s.closeGroup double
  let s₂ ← s₁.markCompress double
  pure { s₂ with i := s.i + 1 + double.toNat }

/-- `UINT16_MAX` を超える group は退ける。 -/
def stepDigit (s : ParseState) (c : UInt8) : Except Stop ParseState :=
  match (decodeHexDigit c).bind (accum 16 65535 s.block) with
  | none => .error .reject
  | some block => pure { s with block, empty := false, i := s.i + 1 }

/-- `.` 以外の文字 `c` を読む一周。 -/
def step (name : List UInt8) (s : ParseState) (c : UInt8) : Except Stop ParseState :=
  if c = colon then s.stepColon name else s.stepDigit c

/-- 最初の loop。`.` に当たって出たかどうかも返す。 -/
def blocks (name : List UInt8) : Nat → ParseState → Except Stop (ParseState × Bool)
  | 0, _ => .error .outOfFuel
  | fuel + 1, s =>
    if s.i < name.length then do
      let c ← readAt name s.i
      if c = dot then pure (s, true)
      else do
        let s' ← s.step name c
        blocks name fuel s'
    else pure (s, false)

/-- loop の後の、最後の group。 -/
def lastBlock (s : ParseState) : Except Stop ParseState :=
  if s.empty = false then s.putBlock
  else if s.compressPos ≠ some s.numBlocks then .error .reject
  else pure s

/-- `ipv4_done:` の所。`::` が無ければ、group は八つでなければならない。 -/
def frontBlocks (s : ParseState) : Except Stop Nat :=
  match s.compressPos with
  | none => if s.numBlocks ≠ 8 then .error .reject else pure 0
  | some pos => pure pos

/-- `ipv4_done:` 以降。`memmove` と `memset` で、`::` の所を 0 で埋める。 -/
def expand (s : ParseState) : Except Stop (List UInt8) := do
  let compressPos ← s.frontBlocks
  let numRear := s.numBlocks - compressPos
  -- 負の長さは `size_t` の大きな数になる
  if 8 < numRear + compressPos then .error .outOfBounds
  else do
    let moved ← put s.bytes (2 * (8 - numRear))
      ((s.bytes.drop (2 * compressPos)).take (2 * numRear))
    put moved (2 * compressPos) (List.replicate (2 * (8 - numRear - compressPos)) 0)

end ParseState

/-! ## 十進の終わり -/

/-- `while (name[i - 1] != ':') i--;` -/
def rewind (name : List UInt8) : Nat → Except Stop Nat
  | 0 => .error .outOfBounds
  | i + 1 => do
    let c ← readAt name i
    if c ≠ colon then rewind name i else pure (i + 1)

structure QuadState where
  i : Nat
  curByte : Nat
  byte : Nat
  empty : Bool
  bytes : List UInt8
  deriving DecidableEq, Repr

namespace QuadState

def stepDot (q : QuadState) : Except Stop QuadState :=
  if q.empty = true ∨ q.curByte = 3 then .error .reject
  else do
    let bytes ← put q.bytes q.curByte [UInt8.ofNat q.byte]
    pure ⟨q.i + 1, q.curByte + 1, 0, true, bytes⟩

/-- 余分な先頭の 0 と、`UINT8_MAX` を超える数は退ける。 -/
def stepDigit (q : QuadState) (c : UInt8) : Except Stop QuadState :=
  if q.empty = false ∧ q.byte = 0 then .error .reject
  else match (decodeDecimalDigit c).bind (accum 10 255 q.byte) with
    | none => .error .reject
    | some byte => pure { q with byte, empty := false, i := q.i + 1 }

def step (q : QuadState) (c : UInt8) : Except Stop QuadState :=
  if c = dot then q.stepDot else q.stepDigit c

def loop (name : List UInt8) : Nat → QuadState → Except Stop QuadState
  | 0, _ => .error .outOfFuel
  | fuel + 1, q =>
    if q.i < name.length then do
      let c ← readAt name q.i
      let q' ← q.step c
      loop name fuel q'
    else pure q

/-- loop の後の、最後の byte。 -/
def lastByte (q : QuadState) : Except Stop (List UInt8) :=
  if q.curByte ≠ 3 ∨ q.empty = true then .error .reject
  else put q.bytes q.curByte [UInt8.ofNat q.byte]

end QuadState

/-- `ipv4_ending:`。`quad` は `uint8_t bytes[4]` の、定まっていない初めの中身である。 -/
def ParseState.ipv4Ending (name quad : List UInt8) (s : ParseState) : Except Stop ParseState :=
  if s.empty = true ∨ (s.numBlocks = 0 ∧ s.compressPos = none) then .error .reject
  else do
    let i ← rewind name s.i
    let q ← QuadState.loop name (name.length + 1) ⟨i, 0, 0, true, quad⟩
    let last ← q.lastByte
    if 8 < s.numBlocks + 2 then .error .reject
    else do
      let bytes ← put s.bytes (2 * s.numBlocks) last
      pure { s with bytes, numBlocks := s.numBlocks + 2 }

/-- 最初の loop の後。 -/
def ParseState.ending (name quad : List UInt8) (s : ParseState) (atDot : Bool) :
    Except Stop ParseState :=
  if atDot = true then s.ipv4Ending name quad else s.lastBlock

/-- `ipaddr6_parse_ipv6_addr_bin`。`out` と `quad` は、書く前の `out_addr` と `bytes[4]` である。 -/
def parseAddr (name : List UInt8) (out : Vector UInt8 16) (quad : Vector UInt8 4) :
    Except Stop (List UInt8) := do
  let (s, atDot) ← ParseState.blocks name (name.length + 1) ⟨0, 0, none, 0, true, out.toList⟩
  let s' ← s.ending name quad.toList atDot
  s'.expand

/-! ## 印字 -/

/-- 0 の group の並びを探す loop の変数。 -/
structure RunSearch where
  largestStart : Nat
  largestLen : Nat
  currentStart : Nat
  currentLen : Nat
  deriving DecidableEq, Repr

/-- loop の一周。`i` 番目の group を見る。 -/
def RunSearch.step (r : RunSearch) (i block : Nat) : RunSearch :=
  if block = 0 then
    if r.largestLen < r.currentLen + 1 then
      ⟨r.currentStart, r.currentLen + 1, r.currentStart, r.currentLen + 1⟩
    else { r with currentLen := r.currentLen + 1 }
  else { r with currentStart := i + 1, currentLen := 0 }

/-- `i` 番目から後の group を見る。 -/
def RunSearch.loop (r : RunSearch) (i : Nat) : List Nat → RunSearch
  | [] => r
  | block :: rest => (r.step i block).loop (i + 1) rest

/-- `ipaddr6_print_addr` -/
def printAddr (addr : Vector UInt8 16) : List UInt8 :=
  let groups := BAddr.words addr.toList
  let run := RunSearch.loop ⟨0, 0, 0, 0⟩ 0 groups
  if 1 < run.largestLen then
    (groups.take run.largestStart).flatMap (fun block => BAddr.digits 16 block ++ [colon]) ++
      (if run.largestStart = 0 then [colon] else []) ++
      (groups.drop (run.largestStart + run.largestLen)).flatMap
        (fun block => colon :: BAddr.digits 16 block) ++
      (if run.largestStart + run.largestLen = 8 then [colon] else [])
  else [colon].intercalate (groups.map (BAddr.digits 16))

end Net.Ipaddr6
