import PsiphonVpn.Flow.Interface
import PsiphonVpn.Infra.Framing
import PsiphonVpn.Infra.Tiling

/-!
# `PacketProto`

packet を stream で運ぶための形式。`protocol/packetproto.h` の header は中身の長さを little endian の 16 bit で示す。

`flow/PacketProtoEncoder.c` は header の分を空けて packet を受け取り、後から長さを書く。
`flow/PacketProtoDecoder.c` は `buf` の `bufStart` から `bufUsed` byte にまだ渡していない data を持ち、packet が揃えば
`buf` の中の位置で出力に渡し、揃わなければ `buf` の残りに受信を頼む。`buf` の終わりに達した時だけ、残りを先頭に移す。

出力が終えるまで受信は頼まない。上限を超える長さの header に当たると、持っている data を捨てて誤りを報告し、最初の
状態に戻る。そこで、state には誤りの後に届いた byte と渡した packet を `epoch` として添え、誤りで終わったものを
`failed` に残す。
-/

namespace Flow

open Infra

/-- `ltoh16` -/
def ltoh16 (v : Vector UInt8 2) : Nat :=
  (getElem v 0 Nat.zero_lt_two).toNat + 256 * (getElem v 1 Nat.one_lt_two).toNat

/-- `htol16` -/
def htol16 (n : Nat) : Vector UInt8 2 := #v[UInt8.ofNat n, UInt8.ofNat (n / 256)]

/-- `PACKETPROTO_MAXPAYLOAD` -/
def maxPayload : Nat := 65535

/-! ## encoder -/

/-- `outputPacket` は、受け取っている packet の header の位置。 -/
structure PacketProtoEncoder where
  outputPacket : Option Nat
  deriving DecidableEq, Repr

namespace PacketProtoEncoder

/-- `output_handler_recv`。`data` に packet を求められ、入力には header の後ろに書かせる。 -/
def outputHandlerRecv (enc : PacketProtoEncoder) (data : Nat) :
    Except Fault (PacketProtoEncoder × Nat) := do
  ensure (enc.outputPacket = none)
  pure (⟨some data⟩, data + 2)

/-- `input_handler_done`。長さを書き、出来た packet の長さを返す。 -/
def inputHandlerDone (enc : PacketProtoEncoder) (mem : List UInt8) (inLen : Nat) :
    Except Fault (PacketProtoEncoder × List UInt8 × Nat) :=
  match enc.outputPacket with
  | none => .error (.reject .failed)
  | some p => do
    let _ ← readVec mem p 2
    pure (⟨none⟩, writeAt mem p (htol16 inLen).toList, 2 + inLen)

/-- packet 一つ分の動き。`data` に求められ、入力が `packet` を書き終えると、そこに出来た byte を返す。 -/
def encodePacket (enc : PacketProtoEncoder) (mem : List UInt8) (data : Nat) (packet : List UInt8) :
    Except Fault (PacketProtoEncoder × List UInt8) := do
  let (enc, dest) ← enc.outputHandlerRecv data
  let _ ← readVec mem dest packet.length
  let (enc, mem, outLen) ← enc.inputHandlerDone (writeAt mem dest packet) packet.length
  let out ← readVec mem data outLen
  pure (enc, out.toList)

end PacketProtoEncoder

/-! ## decoder -/

/-- `receiving` は頼んでいる受信、`sending` は出力に渡した packet の、`buf` の中の位置と長さ。 -/
structure PacketProtoDecoder where
  mtu : Nat
  outputMtu : Nat
  bufSize : Nat
  bufStart : Nat
  bufUsed : Nat
  buf : List UInt8
  receiving : Option (Nat × Nat)
  sending : Option (Nat × Nat)
  deriving DecidableEq, Repr

/-- 持っている data の頭。 -/
inductive Look where
  | incomplete
  | tooLarge
  | packet (dataLen : Nat)
  deriving DecidableEq, Repr

/-- `process_data` のしたこと。 -/
inductive Report where
  | waiting
  | error
  | sent (data dataLen : Nat)
  deriving DecidableEq, Repr

namespace PacketProtoDecoder

/-- `StreamRecvInterface_Receiver_Recv` -/
def receiverRecv (d : PacketProtoDecoder) : Except Fault PacketProtoDecoder := do
  ensure (0 < d.bufSize - (d.bufStart + d.bufUsed))
  ensure (d.receiving = none)
  pure { d with receiving := some (d.bufStart + d.bufUsed, d.bufSize - (d.bufStart + d.bufUsed)) }

/-- `PacketPassInterface_Sender_Send` -/
def senderSend (d : PacketProtoDecoder) (data dataLen : Nat) : Except Fault PacketProtoDecoder := do
  ensure (dataLen ≤ d.mtu)
  ensure (d.sending = none)
  pure { d with sending := some (data, dataLen) }

/-- `process_data` の、頭の packet を調べる所。 -/
def look (d : PacketProtoDecoder) : Except Fault Look :=
  if d.bufUsed < 2 then .ok .incomplete
  else do
    let header ← readVec d.buf d.bufStart 2
    if d.outputMtu < ltoh16 header then pure .tooLarge
    else if d.bufUsed - 2 < ltoh16 header then pure .incomplete
    else pure (.packet (ltoh16 header))

/-- 終わりに達していれば、残りを先頭に移す。 -/
def compact (d : PacketProtoDecoder) : Except Fault PacketProtoDecoder :=
  if d.bufStart + d.bufUsed = d.bufSize then do
    let rest ← readVec d.buf d.bufStart d.bufUsed
    pure { d with buf := writeAt d.buf 0 rest.toList, bufStart := 0 }
  else .ok d

/-- `process_data` -/
def processData (d : PacketProtoDecoder) : Except Fault (PacketProtoDecoder × Report) := do
  match ← d.look with
  | .packet dataLen =>
    let d' ← senderSend { d with
      bufStart := d.bufStart + (2 + dataLen), bufUsed := d.bufUsed - (2 + dataLen) }
      (d.bufStart + 2) dataLen
    pure (d', .sent (d.bufStart + 2) dataLen)
  | .tooLarge =>
    let d' ← receiverRecv { d with bufStart := 0, bufUsed := 0 }
    pure (d', .error)
  | .incomplete =>
    let d ← d.compact
    let d' ← d.receiverRecv
    pure (d', .waiting)

/-- `input_handler_done` -/
def inputHandlerDone (d : PacketProtoDecoder) (dataLen : Nat) :
    Except Fault (PacketProtoDecoder × Report) := do
  ensure (0 < dataLen)
  ensure (dataLen ≤ d.bufSize - (d.bufStart + d.bufUsed))
  processData { d with bufUsed := d.bufUsed + dataLen }

/-- `output_handler_done` -/
def outputHandlerDone (d : PacketProtoDecoder) : Except Fault (PacketProtoDecoder × Report) :=
  d.processData

/-- `PacketProtoDecoder_Init`。`mtu` は出力の MTU、`buf` は確保した記憶の初めの中身である。 -/
def init (mtu : Nat) (buf : List UInt8) : Except Fault PacketProtoDecoder :=
  receiverRecv {
    mtu := mtu
    outputMtu := min mtu maxPayload
    bufSize := 2 + min mtu maxPayload
    bufStart := 0
    bufUsed := 0
    buf := buf
    receiving := none
    sending := none }

end PacketProtoDecoder

/-! ## 使われ方 -/

/-- 誤りから誤りまでの間に、届いた byte と渡した packet。 -/
structure Epoch where
  stream : List UInt8
  packets : List (List UInt8)
  deriving DecidableEq, Repr

structure Decoding where
  dec : PacketProtoDecoder
  epoch : Epoch
  failed : List Epoch
  deriving DecidableEq, Repr

inductive DecodeEvent where
  /-- 頼まれた受信に `data` が届く。 -/
  | deliver (data : List UInt8)
  /-- 出力が、渡された packet を終える。 -/
  | done
  deriving DecidableEq, Repr

namespace Decoding

/-- `process_data` の結果を履歴に残す。 -/
def record (s : Decoding) (r : PacketProtoDecoder × Report) : Decoding :=
  match r.2 with
  | .waiting => { s with dec := r.1 }
  | .error => ⟨r.1, ⟨[], []⟩, s.failed ++ [s.epoch]⟩
  | .sent data dataLen =>
    { s with dec := r.1, epoch.packets := s.epoch.packets ++ [(r.1.buf.drop data).take dataLen] }

/-- `dest` に `data` が届き、受信が終わる。 -/
def received (s : Decoding) (dest : Nat) (data : List UInt8) : Decoding :=
  { s with
    dec := { s.dec with buf := writeAt s.dec.buf dest data, receiving := none }
    epoch.stream := s.epoch.stream ++ data }

def step (s : Decoding) : DecodeEvent → Option (Except Fault Decoding)
  | .deliver data =>
    match s.dec.receiving with
    | some (dest, len) =>
      if 0 < data.length ∧ data.length ≤ len then
        some (do
          let _ ← readVec s.dec.buf dest data.length
          let r ← (s.received dest data).dec.inputHandlerDone data.length
          pure ((s.received dest data).record r))
      else none
    | none => none
  | .done =>
    match s.dec.sending with
    | some _ =>
      some (do
        let r ← { s.dec with sending := none }.outputHandlerDone
        pure (s.record r))
    | none => none

/-- 届いた byte の全体。 -/
def delivered (s : Decoding) : List UInt8 := s.failed.flatMap Epoch.stream ++ s.epoch.stream

end Decoding

end Flow
