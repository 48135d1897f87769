import PsiphonVpn.Flow.PacketProto

/-!
# decoder は stream を frame に切り分ける

不変量：`epoch` に届いた byte は、渡し終えた frame の並びと、`buf` の `bufStart` から残っている data とに分かれる
（`Window`）。これに、受信を待っているか packet を渡しているかのどちらかであること（`Mode`）が加わる。

一歩ごとの結果は `headFrame` の三つの場合に対応し、届く byte の区切り方は現れない。
-/

namespace Flow

open Infra

theorem ltoh16_htol16 {n : Nat} (h : n ≤ maxPayload) : ltoh16 (htol16 n) = n := by
  have hlt : n < 65536 := Nat.lt_succ_of_le h
  show (UInt8.ofNat n).toNat + 256 * (UInt8.ofNat (n / 256)).toNat = n
  simp only [UInt8.toNat_ofNat']
  omega

/-! ## encoder の出力 -/

/-- 空いている encoder は、packet を header の付いた frame にする。 -/
theorem encodePacket_eq {mem packet : List UInt8} {data : Nat}
    (h : data + 2 + packet.length ≤ mem.length) :
    PacketProtoEncoder.encodePacket ⟨none⟩ mem data packet =
      .ok (⟨none⟩, (htol16 packet.length).toList ++ packet) := by
  have hlen : (writeAt mem (data + 2) packet).length = mem.length := length_writeAt h
  obtain ⟨v, hv⟩ : ∃ v, readVec (ρ := Assertion) mem (data + 2) packet.length = .ok v :=
    ⟨_, dif_pos h⟩
  obtain ⟨u, hu⟩ : ∃ u, readVec (ρ := Assertion) (writeAt mem (data + 2) packet) data 2 = .ok u :=
    ⟨_, dif_pos (by omega)⟩
  -- 中身と長さは重ならないので、合わせて frame になる
  have hat : At (writeAt (writeAt mem (data + 2) packet) data (htol16 packet.length).toList) data
      ((htol16 packet.length).toList ++ packet) := by
    rw [at_append_iff, Vector.length_toList]
    exact ⟨at_writeAt (by omega), (at_writeAt (by omega)).writeAt
      (by rw [Vector.length_toList]; omega)
      (by rw [Vector.length_toList]; omega)⟩
  have hout : readVec (ρ := Assertion)
    (writeAt (writeAt mem (data + 2) packet) data (htol16 packet.length).toList) data
      (2 + packet.length) = .ok ⟨((htol16 packet.length).toList ++ packet).toArray, by simp⟩ :=
        readVec_of_at hat
  rw [PacketProtoEncoder.encodePacket, PacketProtoEncoder.outputHandlerRecv, ensure_bind rfl,
    pure_bind]
  dsimp only
  rw [hv, ok_bind, PacketProtoEncoder.inputHandlerDone]
  dsimp only
  rw [hu, ok_bind, pure_bind]
  dsimp only
  rw [hout, ok_bind]
  rfl

theorem frames_encode {limit : Nat} {packet : List UInt8}
    (h : packet.length ≤ min limit maxPayload) :
    Frames ltoh16 (min limit maxPayload) ((htol16 packet.length).toList ++ packet) [packet] :=
  frames_singleton (ltoh16_htol16 (by omega)) h

/-- 受け入れられる packet を順に符号化したもの。 -/
theorem frames_encoded {limit : Nat} {ps outs : List (List UInt8)}
    (h : List.Forall₂ (fun p out => p.length ≤ min limit maxPayload ∧
      ∃ mem data, data + 2 + p.length ≤ mem.length ∧
      PacketProtoEncoder.encodePacket ⟨none⟩ mem data p = .ok (⟨none⟩, out)) ps outs) :
    Frames ltoh16 (min limit maxPayload) outs.flatten ps := by
  induction h with
  | nil => exact frames_nil
  | cons hp _ ih =>
    obtain ⟨hle, mem, data, hroom, henc⟩ := hp
    rw [encodePacket_eq hroom] at henc
    obtain ⟨-, rfl⟩ := Prod.mk.inj (Except.ok.inj henc)
    exact (frames_encode hle).append ih

/-! ## 残っている data -/

/-- `buf` の大きさと、残っている data `window` の位置。 -/
structure Window (d : PacketProtoDecoder) (window : List UInt8) : Prop where
  length : d.buf.length = d.bufSize
  size : d.bufSize = 2 + d.outputMtu
  outputMtu : d.outputMtu = min d.mtu maxPayload
  used : window.length = d.bufUsed
  stored : At d.buf d.bufStart window

section Window

variable {d : PacketProtoDecoder} {window : List UInt8}

theorem Window.le (h : Window d window) : d.bufStart + d.bufUsed ≤ d.bufSize := by
  have := h.stored.le_length
  rwa [h.used, h.length] at this

/-- `look` は、残っている data の頭の frame を調べる。 -/
theorem Window.look (h : Window d window) :
    d.look = .ok (match headFrame ltoh16 d.outputMtu window with
      | .incomplete => .incomplete
      | .tooLong => .tooLarge
      | .frame p _ => .packet p.length) := by
  have hused := h.used
  rcases exists_header 2 window with hshort | ⟨v, t, rfl⟩
  · rw [PacketProtoDecoder.look, if_pos (by omega), headFrame_of_short hshort]
  · have ht : t.length = d.bufUsed - 2 := by
      rw [List.length_append, Vector.length_toList] at hused
      omega
    have hlong : ¬ d.bufUsed < 2 := by
      rw [List.length_append, Vector.length_toList] at hused
      omega
    have hread : readVec (ρ := Assertion) d.buf d.bufStart 2 = .ok v :=
      readVec_of_at (at_append_iff.mp h.stored).1
    rw [PacketProtoDecoder.look, if_neg hlong, hread, ok_bind, headFrame_header, ← ht]
    by_cases hlimit : d.outputMtu < ltoh16 v
    · rw [if_pos hlimit, if_pos hlimit]
      rfl
    · rw [if_neg hlimit, if_neg hlimit]
      by_cases hpart : t.length < ltoh16 v
      · rw [if_pos hpart, if_pos hpart]
        rfl
      · rw [if_neg hpart, if_neg hpart]
        have hp : (t.take (ltoh16 v)).length = ltoh16 v := by
          rw [List.length_take]
          omega
        dsimp only
        rw [hp]
        rfl

/-- 残りが揃わないのは、`buf` に余りがある間だけである。 -/
theorem Window.room (h : Window d window)
    (hinc : headFrame ltoh16 d.outputMtu window = .incomplete) :
    d.bufUsed < d.bufSize := by
  have hused := h.used
  have hsize := h.size
  rcases exists_header 2 window with hshort | ⟨v, t, rfl⟩
  · omega
  · rw [List.length_append, Vector.length_toList] at hused
    rw [headFrame_header] at hinc
    split at hinc
    next => cases hinc
    next =>
      split at hinc
      next => omega
      next => cases hinc

/-- 詰めても data は変わらず、後ろに余りができる。 -/
theorem Window.compact (h : Window d window) (hroom : d.bufUsed < d.bufSize) :
    ∃ d', d.compact = .ok d' ∧ Window d' window ∧ d'.bufStart + d'.bufUsed < d'.bufSize ∧
      d'.receiving = d.receiving ∧ d'.sending = d.sending ∧ d'.outputMtu = d.outputMtu ∧
        d'.mtu = d.mtu := by
  have hle := h.le
  have hused := h.used
  by_cases hend : d.bufStart + d.bufUsed = d.bufSize
  · have hread : readVec (ρ := Assertion) d.buf d.bufStart d.bufUsed =
        .ok ⟨window.toArray, hused⟩ :=
      readVec_of_at h.stored
    have hfit : 0 + window.length ≤ d.buf.length := by rw [h.length]; omega
    refine ⟨{ d with buf := writeAt d.buf 0 window, bufStart := 0 }, ?_, ?_, ?_, rfl, rfl, rfl, rfl⟩
    · rw [PacketProtoDecoder.compact, if_pos hend, hread]
      rfl
    · exact ⟨(length_writeAt hfit).trans h.length, h.size, h.outputMtu, hused,
        at_writeAt (Nat.zero_le _)⟩
    · show 0 + d.bufUsed < d.bufSize
      omega
  · exact ⟨d, if_neg hend, h, by omega, rfl, rfl, rfl, rfl⟩

theorem receiverRecv_eq (hnone : d.receiving = none) (hroom : d.bufStart + d.bufUsed < d.bufSize) :
    d.receiverRecv =
      .ok { d with
        receiving := some (d.bufStart + d.bufUsed, d.bufSize - (d.bufStart + d.bufUsed)) } := by
  rw [PacketProtoDecoder.receiverRecv, ensure_bind (by omega), ensure_bind hnone]
  rfl

end Window

/-! ## `process_data` -/

/-- 受信を待っているか、packet を渡しているかのどちらかである。 -/
inductive Mode (d : PacketProtoDecoder) (window : List UInt8) (packets : List (List UInt8)) :
    Prop where
  | receiving (request : d.receiving =
    some (d.bufStart + d.bufUsed, d.bufSize - (d.bufStart + d.bufUsed)))
      (idle : d.sending = none) (room : d.bufStart + d.bufUsed < d.bufSize)
      (waits : headFrame ltoh16 d.outputMtu window = .incomplete)
  | sending (data : Nat) (p : List UInt8) (idle : d.receiving = none)
      (request : d.sending = some (data, p.length))
      (last : packets.getLast? = some p) (kept : At d.buf data p)

variable {mtu : Nat} {s : Decoding} {c : List UInt8}

namespace Decoding

/-- 届いた byte が、渡した frame と残っている data に分かれる。 -/
structure Split (mtu : Nat) (s : Decoding) (c window : List UInt8) : Prop where
  mtu : s.dec.mtu = mtu
  stream : s.epoch.stream = c ++ window
  frames : Frames ltoh16 s.dec.outputMtu c s.epoch.packets
  window : Window s.dec window
  failed : ∀ e ∈ s.failed, deframe ltoh16 s.dec.outputMtu e.stream = ⟨e.packets, true⟩

/-- 不変量。 -/
def Inv (mtu : Nat) (s : Decoding) : Prop :=
  ∃ c window, Split mtu s c window ∧ Mode s.dec window s.epoch.packets

/-- `process_data` は故障せず、頭の frame に応じて進む。 -/
theorem Split.processData {window : List UInt8} (h : Split mtu s c window)
    (hrecv : s.dec.receiving = none) (hsend : s.dec.sending = none) :
    ∃ r, s.dec.processData = .ok r ∧ Inv mtu (s.record r) ∧
      ((s.record r).dec.sending ≠ none → (s.record r).dec.bufUsed < s.dec.bufUsed) := by
  rw [PacketProtoDecoder.processData, h.window.look, ok_bind]
  cases hhead : headFrame ltoh16 s.dec.outputMtu window with
  | incomplete =>
    obtain ⟨d, hd, hw, hroom, hr, hs, hm, hm'⟩ := h.window.compact (h.window.room hhead)
    dsimp only
    rw [hd, ok_bind, receiverRecv_eq (hr.trans hrecv) hroom]
    refine ⟨_, rfl, ⟨c, window, ⟨hm'.trans h.mtu, h.stream, ?_, ?_, ?_⟩,
      .receiving rfl (hs.trans hsend) hroom ?_⟩, fun hne => absurd (hs.trans hsend) hne⟩
    · show Frames ltoh16 d.outputMtu c s.epoch.packets
      rw [hm]
      exact h.frames
    · exact ⟨hw.length, hw.size, hw.outputMtu, hw.used, hw.stored⟩
    · show ∀ e ∈ s.failed, deframe ltoh16 d.outputMtu e.stream = ⟨e.packets, true⟩
      rw [hm]
      exact h.failed
    · show headFrame ltoh16 d.outputMtu window = _
      rw [hm]
      exact hhead
  | tooLong =>
    have hsize : 0 < s.dec.bufSize := by
      rw [h.window.size]
      omega
    dsimp only
    rw [receiverRecv_eq (d := { s.dec with bufStart := 0, bufUsed := 0 }) hrecv hsize]
    refine ⟨_, rfl, ⟨[], [], ⟨h.mtu, rfl, frames_nil, ?_, ?_⟩, .receiving rfl hsend hsize ?_⟩,
      fun hne => absurd hsend hne⟩
    · exact ⟨h.window.length, h.window.size, h.window.outputMtu, rfl, ⟨[], s.dec.buf, rfl, rfl⟩⟩
    · intro e he
      rcases List.mem_append.mp he with he | he
      · exact h.failed e he
      · obtain rfl := List.mem_singleton.mp he
        show deframe ltoh16 s.dec.outputMtu s.epoch.stream = _
        rw [h.stream, h.frames, deframe_of_tooLong hhead, List.append_nil]
    · exact headFrame_of_short (by decide)
  | frame p rest =>
    obtain ⟨v, rfl, hlen, hle⟩ := of_headFrame_eq_frame hhead
    have hmtu : p.length ≤ s.dec.mtu := by
      have := h.window.outputMtu
      omega
    have hused := h.window.used
    rw [List.length_append, List.length_append, Vector.length_toList] at hused
    obtain ⟨hv, hp, hrest⟩ : At s.dec.buf s.dec.bufStart v.toList ∧
        At s.dec.buf (s.dec.bufStart + 2) p ∧
        At s.dec.buf (s.dec.bufStart + (2 + p.length)) rest := by
      have hat := h.window.stored
      rw [at_append_iff, at_append_iff, Vector.length_toList, Nat.add_assoc] at hat
      exact hat
    have hsent : (s.dec.buf.drop (s.dec.bufStart + 2)).take p.length = p := hp.eq_take.symm
    dsimp only
    rw [PacketProtoDecoder.senderSend, ensure_bind (by exact hmtu), ensure_bind (by exact hsend)]
    refine ⟨_, rfl, ⟨c ++ (v.toList ++ p), rest, ⟨h.mtu, ?_, ?_, ?_, h.failed⟩,
      .sending (s.dec.bufStart + 2) p hrecv rfl ?_ hp⟩, fun _ => ?_⟩
    · show s.epoch.stream = _
      rw [h.stream, List.append_assoc, List.append_assoc]
    · show Frames ltoh16 s.dec.outputMtu _
        (s.epoch.packets ++ [(s.dec.buf.drop (s.dec.bufStart + 2)).take p.length])
      rw [hsent]
      exact h.frames.append (frames_singleton hlen hle)
    · refine ⟨h.window.length, h.window.size, h.window.outputMtu, ?_, hrest⟩
      show rest.length = s.dec.bufUsed - (2 + p.length)
      omega
    · show (s.epoch.packets ++ [(s.dec.buf.drop (s.dec.bufStart + 2)).take p.length]).getLast? =
        some p
      rw [hsent, List.getLast?_concat]
    · show s.dec.bufUsed - (2 + p.length) < s.dec.bufUsed
      omega

/-! ## 一つの事象 -/

theorem record_dec (s : Decoding) (d : PacketProtoDecoder) (r : PacketProtoDecoder × Report) :
    { s with dec := d }.record r = s.record r := by
  obtain ⟨d', report⟩ := r
  cases report <;> rfl

/-- 届いた data は、残っている data に続く。 -/
theorem Split.received {window : List UInt8} (h : Split mtu s c window) (data : List UInt8)
    (hroom : s.dec.bufStart + s.dec.bufUsed + data.length ≤ s.dec.bufSize) :
    Split mtu { s.received (s.dec.bufStart + s.dec.bufUsed) data with
      dec.bufUsed := s.dec.bufUsed + data.length } c (window ++ data) := by
  have hused := h.window.used
  have hlen := h.window.length
  have hfit : s.dec.bufStart + s.dec.bufUsed + data.length ≤ s.dec.buf.length := by omega
  refine ⟨h.mtu, ?_, h.frames, ⟨(length_writeAt hfit).trans hlen, h.window.size, h.window.outputMtu,
    ?_, ?_⟩, h.failed⟩
  · show s.epoch.stream ++ data = _
    rw [h.stream, List.append_assoc]
  · rw [List.length_append, hused]
  · show At (writeAt s.dec.buf (s.dec.bufStart + s.dec.bufUsed) data) s.dec.bufStart
      (window ++ data)
    rw [at_append_iff, hused]
    exact ⟨h.window.stored.writeAt hfit (.inl (by omega)), at_writeAt (by omega)⟩

theorem Inv.deliver {dest len : Nat} {data : List UInt8} (h : Inv mtu s)
    (hreq : s.dec.receiving = some (dest, len)) (hpos : 0 < data.length) (hle : data.length ≤ len) :
    ∃ v r, readVec (ρ := Assertion) s.dec.buf dest data.length = .ok v ∧
      (s.received dest data).dec.inputHandlerDone data.length = .ok r ∧
        Inv mtu ((s.received dest data).record r) := by
  obtain ⟨c, window, hsplit, hmode⟩ := h
  cases hmode with
  | receiving hr hs hroom =>
    rw [hr, Option.some.injEq, Prod.mk.injEq] at hreq
    obtain ⟨rfl, rfl⟩ := hreq
    have hlen := hsplit.window.length
    have hrecv := hsplit.received data (by omega)
    obtain ⟨r, hp, hinv, -⟩ := hrecv.processData rfl hs
    rw [record_dec] at hinv
    refine ⟨_, r, dif_pos (by omega), ?_, hinv⟩
    rw [PacketProtoDecoder.inputHandlerDone, ensure_bind hpos, ensure_bind (by exact hle)]
    exact hp
  | sending data p hr => rw [hr] at hreq; cases hreq

theorem Inv.done {req : Nat × Nat} (h : Inv mtu s) (hreq : s.dec.sending = some req) :
    ∃ r, { s.dec with sending := none }.outputHandlerDone = .ok r ∧ Inv mtu (s.record r) ∧
      ((s.record r).dec.sending ≠ none → (s.record r).dec.bufUsed < s.dec.bufUsed) := by
  obtain ⟨c, window, hsplit, hmode⟩ := h
  cases hmode with
  | receiving hr hs => rw [hs] at hreq; cases hreq
  | sending data p hr =>
    have hidle : Split mtu { s with dec := { s.dec with sending := none } } c window :=
      ⟨hsplit.mtu, hsplit.stream, hsplit.frames,
        ⟨hsplit.window.length, hsplit.window.size, hsplit.window.outputMtu, hsplit.window.used,
        hsplit.window.stored⟩, hsplit.failed⟩
    obtain ⟨r, hp, hinv, hlt⟩ := hidle.processData hr rfl
    rw [record_dec] at hinv hlt
    exact ⟨r, hp, hinv, hlt⟩

/-- 事象が届ける byte。 -/
def bytesOf : DecodeEvent → List UInt8
  | .deliver data => data
  | .done => []

theorem delivered_record (s : Decoding) (r : PacketProtoDecoder × Report) :
    (s.record r).delivered = s.delivered := by
  obtain ⟨d, report⟩ := r
  cases report with
  | waiting => rfl
  | error => simp [record, delivered]
  | sent => rfl

/-- どの事象でも故障せず、不変量が保たれ、届いた byte が記録に足される。 -/
theorem inv_step (mtu : Nat) (s : Decoding) (ev : DecodeEvent) (r : Except Fault Decoding)
    (h : Inv mtu s) (hstep : s.step ev = some r) :
    ∃ s', r = .ok s' ∧ Inv mtu s' ∧ s'.delivered = s.delivered ++ bytesOf ev := by
  cases ev with
  | deliver data =>
    simp only [step] at hstep
    split at hstep
    next dest len hreq =>
      split at hstep
      next hdata =>
        obtain ⟨v, r', hv, hr', hinv⟩ := h.deliver hreq hdata.1 hdata.2
        rw [hv, ok_bind, hr', ok_bind] at hstep
        refine ⟨_, (Option.some.inj hstep).symm, hinv, ?_⟩
        rw [delivered_record]
        exact (List.append_assoc _ _ _).symm
      next => cases hstep
    next => cases hstep
  | done =>
    simp only [step] at hstep
    split at hstep
    next req hreq =>
      obtain ⟨r', hr', hinv, -⟩ := h.done hreq
      rw [hr', ok_bind] at hstep
      refine ⟨_, (Option.some.inj hstep).symm, hinv, ?_⟩
      rw [delivered_record]
      exact (List.append_nil _).symm
    next => cases hstep

/-! ## run -/

/-- 使う側から見た、decoder の正しさ。 -/
structure Correct (mtu : Nat) (s : Decoding) : Prop where
  length : s.dec.buf.length = s.dec.bufSize
  window : s.dec.bufStart + s.dec.bufUsed ≤ s.dec.bufSize
  /-- 受信を頼む時は、`buf` の中の一 byte 以上の所を示す。 -/
  offer : ∀ dest len, s.dec.receiving = some (dest, len) → 0 < len ∧ dest + len ≤ s.dec.bufSize
  /-- 渡している packet は、終わるまで `buf` に残り、受信は頼まれていない。 -/
  packet : ∀ data dataLen, s.dec.sending = some (data, dataLen) → s.dec.receiving = none ∧
    ∃ p, s.epoch.packets.getLast? = some p ∧ p.length = dataLen ∧ At s.dec.buf data p
  /-- 渡した packet は、stream の frame の初めの幾つかである。 -/
  sofar : s.epoch.packets <+: (deframe ltoh16 (min mtu maxPayload) s.epoch.stream).packets
  /-- 渡している packet が無ければ、届いた frame はすべて渡し終え、上限を超える header は届いていない。 -/
  complete : s.dec.sending = none →
    deframe ltoh16 (min mtu maxPayload) s.epoch.stream = ⟨s.epoch.packets, false⟩
  /-- 誤りを報告したのは、上限を超える header に当たった時だけで、その前の frame はすべて渡してある。 -/
  failed : ∀ e ∈ s.failed, deframe ltoh16 (min mtu maxPayload) e.stream = ⟨e.packets, true⟩

theorem Split.limit {window : List UInt8} (h : Split mtu s c window) :
    s.dec.outputMtu = min mtu maxPayload := by rw [h.window.outputMtu, h.mtu]

theorem Inv.correct (h : Inv mtu s) : Correct mtu s := by
  obtain ⟨c, window, hsplit, hmode⟩ := h
  have hlimit := hsplit.limit
  have hdeframe : deframe ltoh16 (min mtu maxPayload) s.epoch.stream =
      ⟨s.epoch.packets ++ (deframe ltoh16 (min mtu maxPayload) window).packets,
        (deframe ltoh16 (min mtu maxPayload) window).tooLong⟩ := by
    rw [← hlimit, hsplit.stream, hsplit.frames]
  refine ⟨hsplit.window.length, hsplit.window.le, ?_, ?_, ?_, ?_,
    by rw [← hlimit]; exact hsplit.failed⟩
  · intro dest len hreq
    cases hmode with
    | receiving hr hs hroom =>
      rw [hr, Option.some.injEq, Prod.mk.injEq] at hreq
      omega
    | sending data p hr => rw [hr] at hreq; cases hreq
  · intro data dataLen hreq
    cases hmode with
    | receiving hr hs => rw [hs] at hreq; cases hreq
    | sending data' p hr hs hlast hat =>
      rw [hs, Option.some.injEq, Prod.mk.injEq] at hreq
      obtain ⟨rfl, rfl⟩ := hreq
      exact ⟨hr, p, hlast, rfl, hat⟩
  · rw [hdeframe]
    exact List.prefix_append _ _
  · intro hidle
    cases hmode with
    | receiving hr hs hroom hwait =>
      rw [hlimit] at hwait
      rw [hdeframe, deframe_of_incomplete hwait, List.append_nil]
    | sending data p hr hs => rw [hs] at hidle; cases hidle

theorem init_ok {buf : List UInt8} (hbuf : buf.length = 2 + min mtu maxPayload) :
    ∃ d, PacketProtoDecoder.init mtu buf = .ok d ∧ Inv mtu ⟨d, ⟨[], []⟩, []⟩ := by
  refine ⟨_, receiverRecv_eq rfl (by show 0 + 0 < 2 + _; omega), [], [],
    ⟨rfl, rfl, frames_nil, ?_, by simp⟩, ?_⟩
  · exact ⟨hbuf, rfl, rfl, rfl, ⟨[], buf, rfl, rfl⟩⟩
  · exact .receiving rfl rfl (by show 0 + 0 < 2 + _; omega) (headFrame_of_short (by decide))

/-- 出力が終え続ければ、揃った packet は尽きて、受信を待つようになる。 -/
theorem Inv.drains (h : Inv mtu s) :
    ∃ k s', exec (guarded step) (.ok s) (List.replicate k .done) = some (.ok s') ∧
      s'.dec.sending = none := by
  by_cases hidle : s.dec.sending = none
  · exact ⟨0, s, rfl, hidle⟩
  · have hstep : ∀ n (r : Except Fault Decoding),
      (∃ s, r = .ok s ∧ Inv mtu s ∧ s.dec.sending ≠ none ∧ s.dec.bufUsed = n) →
        ∃ r', guarded step r .done = some r' ∧ ((∃ s', r' = .ok s' ∧ s'.dec.sending = none) ∨
          ∃ m, m < n ∧ ∃ s, r' = .ok s ∧ Inv mtu s ∧ s.dec.sending ≠ none ∧ s.dec.bufUsed = m) := by
      rintro n _ ⟨s, rfl, hinv, hsend, rfl⟩
      obtain ⟨req, hreq⟩ := Option.ne_none_iff_exists'.mp hsend
      obtain ⟨r, hr, hinv', hlt⟩ := hinv.done hreq
      refine ⟨.ok (s.record r), ?_, ?_⟩
      · simp only [guarded, step, hreq, hr, ok_bind]
        rfl
      · by_cases hidle' : (s.record r).dec.sending = none
        · exact .inl ⟨_, rfl, hidle'⟩
        · exact .inr ⟨_, hlt hidle', _, rfl, hinv', hidle', rfl⟩
    obtain ⟨k, r, hrun, s', rfl, hs'⟩ :=
      exec_reaches _ hstep s.dec.bufUsed (.ok s) ⟨s, rfl, h, hidle, rfl⟩
    exact ⟨k, s', hrun, hs'⟩

/--
届いた byte の全体で見ると、最初の誤りまでに渡した packet は、上限を超える header までの frame であり、誤りを報告したことは
そのような header が届いたことと同じである。
-/
theorem Correct.whole (h : Correct mtu s) (hidle : s.dec.sending = none ∨ s.failed ≠ []) :
    deframe ltoh16 (min mtu maxPayload) s.delivered =
      ⟨(s.failed.headD s.epoch).packets, !s.failed.isEmpty⟩ := by
  cases hfailed : s.failed with
  | nil =>
    have hsend : s.dec.sending = none := hidle.resolve_right fun hne => hne hfailed
    rw [delivered, hfailed, List.flatMap_nil, List.nil_append, h.complete hsend]
    rfl
  | cons e failed =>
    -- 最初の誤りまでの stream は全体の頭で、そこで既に上限を超えている
    have he := h.failed e (by rw [hfailed]; exact List.mem_cons_self)
    rw [delivered, hfailed, List.flatMap_cons, List.append_assoc,
      deframe_append_of_tooLong (by rw [he]), he]
    rfl

/-- 受け入れられる packet の frame だけが届いたなら、誤りは起きず、渡し終えた packet はちょうどそれらである。 -/
theorem Correct.of_frames {ps : List (List UInt8)} (h : Correct mtu s)
    (hframes : Frames ltoh16 (min mtu maxPayload) s.delivered ps) :
    s.failed = [] ∧ (s.dec.sending = none → s.epoch.packets = ps) := by
  have hnone : s.failed = [] := by
    by_contra hne
    have hwhole := h.whole (.inr hne)
    rw [hframes.deframe, Deframed.mk.injEq] at hwhole
    simp [hne] at hwhole
  refine ⟨hnone, fun hidle => ?_⟩
  have hwhole := h.whole (.inl hidle)
  rw [hframes.deframe, Deframed.mk.injEq, hnone] at hwhole
  exact hwhole.1.symm

end Decoding

/--
**decoder は、stream の区切り方によらず、frame をそのまま取り出す。**

どの byte 列をどう区切って届けても、故障せず、渡した packet は stream の frame を初めから並べたものである。受信を待っている
時には、届いた全体を `deframe` で切り分けた結果が、最初の誤りまでに渡した packet と、誤りを報告したかどうかとに一致する。
出力が終え続ければ必ず受信を待つようになる。

後半は encoder との往復である。受け入れられる packet を encoder で符号化したものをつなげて届ければ、ちょうど元の packet
が渡される。
-/
theorem packetProto_chunking_independent {mtu : Nat} {buf : List UInt8}
    (hbuf : buf.length = 2 + min mtu maxPayload) :
    ∃ d, PacketProtoDecoder.init mtu buf = .ok d ∧
      ∀ events r, exec (guarded Decoding.step) (.ok ⟨d, ⟨[], []⟩, []⟩) events = some r →
        ∃ s, r = .ok s ∧ s.Correct mtu ∧
          (s.dec.sending = none ∨ s.failed ≠ [] →
            deframe ltoh16 (min mtu maxPayload) (events.flatMap Decoding.bytesOf) =
              ⟨(s.failed.headD s.epoch).packets, !s.failed.isEmpty⟩) ∧
          (∃ k s', exec (guarded Decoding.step) (.ok s) (List.replicate k .done) = some (.ok s') ∧
            s'.dec.sending = none) ∧
          ∀ ps outs, List.Forall₂ (fun p out => p.length ≤ min mtu maxPayload ∧ ∃ mem data,
              data + 2 + p.length ≤ mem.length ∧
              PacketProtoEncoder.encodePacket ⟨none⟩ mem data p = .ok (⟨none⟩, out)) ps outs →
            events.flatMap Decoding.bytesOf = outs.flatten →
            s.failed = [] ∧ (s.dec.sending = none → s.epoch.packets = ps) := by
  obtain ⟨d, hd, hinit⟩ := Decoding.init_ok hbuf
  refine ⟨d, hd, fun events r hrun => ?_⟩
  obtain ⟨s, rfl, hs, hdelivered⟩ := exec_safe_log (Decoding.inv_step mtu) hinit hrun
  replace hdelivered : s.delivered = events.flatMap Decoding.bytesOf := hdelivered
  refine ⟨s, rfl, hs.correct, ?_, hs.drains, fun ps outs henc hbytes => ?_⟩
  · rw [← hdelivered]
    exact hs.correct.whole
  · refine hs.correct.of_frames ?_
    rw [hdelivered, hbytes]
    exact frames_encoded henc

/-- MTU 3 の出力に、切れ目の合わない断片で届く三つの frame。三つ目は上限を超える。 -/
def fragmentedRun : List DecodeEvent :=
  [.deliver [2, 0, 7], .deliver [8, 1], .done, .deliver [0, 9, 5], .done, .deliver [0]]

theorem packetProto_chunking_independent_fragmented :
    ∃ d s, PacketProtoDecoder.init 3 [0, 0, 0, 0, 0] = .ok d ∧
      exec (guarded Decoding.step) (.ok ⟨d, ⟨[], []⟩, []⟩) fragmentedRun = some (.ok s) ∧
      s.failed = [⟨[2, 0, 7, 8, 1, 0, 9, 5, 0], [[7, 8], [9]]⟩] ∧ s.Correct 3 := by
  obtain ⟨d, hd, hall⟩ := @packetProto_chunking_independent 3 [0, 0, 0, 0, 0] (by decide)
  obtain rfl : (⟨3, 3, 5, 0, 0, [0, 0, 0, 0, 0], some (0, 5), none⟩ : PacketProtoDecoder) = d :=
    Except.ok.inj hd
  obtain ⟨s, hrun, hp⟩ := exec_ok_exists Decoding.step
    ⟨⟨3, 3, 5, 0, 0, [0, 0, 0, 0, 0], some (0, 5), none⟩, ⟨[], []⟩, []⟩ fragmentedRun
    (fun s => s.failed = [⟨[2, 0, 7, 8, 1, 0, 9, 5, 0], [[7, 8], [9]]⟩]) (by decide +kernel)
  obtain ⟨s', hs', hcorrect, -⟩ := hall _ _ hrun
  obtain rfl := Except.ok.inj hs'
  exact ⟨_, s, hd, hrun, hp, hcorrect⟩

end Flow
