import Mathlib.Data.List.Infix
import PsiphonVpn.Infra.Agree
import PsiphonVpn.Net.Ipaddr6Grammar

/-!
# IPv6 address の parser が受け取る text

`ipaddr6_parse_ipv6_addr_bin` の model が、`recognise` と一致すること。位置と memory を持つ parser の一歩ごとに、
`scan` の一歩が対応する。

* `parseAddr_agree` — parser は止まり、外に触れず、`recognise` の通りに受け取る
* `parseAddr_accepts_grammar` — `::` の代わる group が無い text を除けば、受け取るのは RFC 4291 の text である。
  除かなければならないのも、その text に限る
-/

namespace Net.Ipaddr6

open Infra

/-! ## memory -/

variable {bytes : List UInt8} {c : UInt8} {compress : Option Nat} {groups : List Group}
  {quad : Option Quad} {t : AddrText}

theorem put_eq {data : List UInt8} {i : Nat} (h : i + data.length ≤ bytes.length) :
    put bytes i data = .ok (writeAt bytes i data) := if_pos h

theorem readAt_eq {name pre rest : List UInt8} {i : Nat} (hname : name = pre ++ c :: rest)
    (hi : i = pre.length) : readAt name i = .ok c := by
  subst hname hi
  simp [readAt]

theorem length_blockBytes (block : Nat) : (blockBytes block).length = 2 := rfl

/-- `bytes` の先頭に `done` が書かれている。 -/
def Written (bytes done : List UInt8) : Prop := bytes.length = 16 ∧ bytes.take done.length = done

theorem Written.put {done : List UInt8} (h : Written bytes done) (data : List UInt8)
    (hroom : done.length + data.length ≤ 16) :
    ∃ bytes', put bytes done.length data = .ok bytes' ∧ Written bytes' (done ++ data) := by
  obtain ⟨hlen, htake⟩ := h
  refine ⟨_, put_eq (by omega), ?_, ?_⟩
  · rw [length_writeAt (by omega), hlen]
  · rw [List.length_append, take_writeAt (by omega), htake]

theorem length_flatMap_bytes (groups : List Group) :
    (groups.flatMap Group.bytes).length = 2 * groups.length := by
  induction groups with
  | nil => rfl
  | cons g groups ih =>
    rw [List.flatMap_cons, List.length_append, ih, Group.bytes, length_blockBytes, List.length_cons]
    omega

/-! ## 一歩 -/

/-- memory が、読み終えた group と途中の数字を表す。 -/
structure Holds (s : ParseState) (st : Scan) : Prop where
  numBlocks : s.numBlocks = st.groups.length
  compressPos : s.compressPos = st.compress
  block : s.block = hexValue st.cur.text
  empty : s.empty = st.cur.text.isEmpty
  written : Written s.bytes (st.groups.flatMap Group.bytes)

/-- 位置も合っていて、残りが `rest` である。 -/
structure At (name : List UInt8) (s : ParseState) (st : Scan) (rest : List UInt8) :
    Prop extends Holds s st where
  name_eq : name = st.text ++ rest
  pos : s.i = st.text.length

variable {name rest : List UInt8} {s : ParseState} {st : Scan}

/-- group を一つ書く。 -/
theorem Holds.putBlock (h : Holds s st) (hlt : st.groups.length < 8) (hne : st.cur.text ≠ []) :
    ∃ s', s.putBlock = .ok s' ∧ s'.numBlocks = st.groups.length + 1 ∧ s'.compressPos = st.compress ∧
      s'.i = s.i ∧
      Written s'.bytes ((st.groups ++ [st.cur.toGroup hne]).flatMap Group.bytes) := by
  have hlen := length_flatMap_bytes st.groups
  obtain ⟨bytes, hput, hwritten⟩ := h.written.put (blockBytes (hexValue st.cur.text))
    (by rw [length_blockBytes]; omega)
  refine ⟨{ s with bytes, numBlocks := s.numBlocks + 1 }, ?_, by rw [h.numBlocks], h.compressPos,
    rfl, ?_⟩
  · rw [ParseState.putBlock, h.numBlocks, h.block, ← hlen, hput, ok_bind]
    rfl
  · rw [List.flatMap_append, List.flatMap_singleton]
    exact hwritten

theorem Holds.closeGroup (h : Holds s st) (hpos : s.i = st.text.length) (double : Bool) :
    Agree .reject (fun s' st' => Holds s' st') (s.closeGroup double) (st.close double) := by
  unfold ParseState.closeGroup Scan.close
  by_cases htext : st.text = []
  · rw [if_neg (by rw [hpos, htext]; simp), if_pos htext]
    cases double with
    | false => exact .stop
    | true => exact .ok h
  · have hi : 0 < s.i := by
      rw [hpos]
      exact List.length_pos_iff.mpr htext
    rw [if_pos hi, if_neg htext]
    by_cases hne : st.cur.text ≠ [] ∧ st.groups.length ≠ 7
    · have hlt : st.groups.length < 7 := Nat.lt_of_le_of_ne st.length_le hne.2
      have hcont : ¬(s.empty = true ∨ s.numBlocks = 7) := by
        rw [h.empty, h.numBlocks, List.isEmpty_iff]
        exact not_or.mpr hne
      obtain ⟨s', hput, hnum, hcomp, -, hwritten⟩ := h.putBlock (by omega) hne.1
      rw [if_neg hcont, dif_pos hne]
      refine Agree.bind_ok hput (.ok ?_)
      exact ⟨by rw [hnum]; simp [Scan.addGroup], hcomp, rfl, rfl, hwritten⟩
    · have hstop : s.empty = true ∨ s.numBlocks = 7 := by
        rw [h.empty, h.numBlocks, List.isEmpty_iff]
        by_contra hcont
        exact hne (not_or.mp hcont)
      rw [if_pos hstop, dif_neg hne]
      exact .stop

theorem Holds.markCompress (h : Holds s st) (double : Bool) :
    Agree .reject (fun s' st' => Holds s' st') (s.markCompress double) (st.mark double) := by
  unfold ParseState.markCompress Scan.mark
  cases double with
  | false => exact .ok h
  | true =>
    rw [if_pos rfl, if_pos rfl, h.compressPos]
    cases hcomp : st.compress with
    | none => exact .ok ⟨h.numBlocks, congrArg some h.numBlocks, h.block, h.empty, h.written⟩
    | some k => exact .stop

theorem At.isDouble (h : At name s st (colon :: rest)) :
    s.isDouble name = .ok (rest.head? == some colon) := by
  have hname : name = (st.text ++ [colon]) ++ rest := by simpa using h.name_eq
  have hlen : name.length = s.i + 1 + rest.length := by
    rw [hname, h.pos, List.length_append, List.length_append, List.length_singleton]
  unfold ParseState.isDouble
  cases rest with
  | nil =>
    rw [if_neg (by rw [hlen]; simp)]
    rfl
  | cons c rest =>
    rw [if_pos (by rw [hlen]; simp), readAt_eq hname (by rw [h.pos]; simp), ok_bind]
    rfl

theorem At.stepColon (h : At name s st (colon :: rest)) :
    Agree .reject (fun s' st' => At name s' st' (afterColon rest)) (s.stepColon name)
      (st.colonStep (rest.head? == some colon)) := by
  have hboth : Agree .reject (fun s' st' => Holds s' st')
      (s.closeGroup (rest.head? == some colon) >>= fun s₁ => s₁.markCompress
        (rest.head? == some colon))
      (st.colonStep (rest.head? == some colon)) :=
    (h.toHolds.closeGroup h.pos _).bind fun s₁ st₁ h₁ => h₁.markCompress _
  have hmove : ∀ s₂ st', st.colonStep (rest.head? == some colon) = some st' → Holds s₂ st' →
      At name { s₂ with i := s.i + 1 + (rest.head? == some colon).toNat } st'
        (afterColon rest) := by
    intro s₂ st' hstep h₂
    have htext := Scan.text_colonStep hstep
    refine ⟨⟨h₂.numBlocks, h₂.compressPos, h₂.block, h₂.empty, h₂.written⟩, ?_, ?_⟩
    · rw [htext, List.append_assoc, colon_afterColon]
      exact h.name_eq
    · rw [htext, h.pos, List.length_append]
      cases rest.head? == some colon <;> rfl
  have hall : Agree Stop.reject (fun s' st' => At name s' st' (afterColon rest))
      (_ >>= fun s₂ : ParseState => .ok { s₂ with i := s.i + 1 + (rest.head? == some colon).toNat })
      _ := hboth.map hmove
  rw [bind_assoc] at hall
  exact Agree.bind_ok h.isDouble hall

theorem At.stepDigit (h : At name s st (c :: rest)) :
    Agree .reject (fun s' st' => At name s' st' rest) (s.stepDigit c) (st.digit c) := by
  unfold ParseState.stepDigit
  cases hc : decodeHexDigit c with
  | none =>
    have hdigit : st.digit c = none := dif_neg fun hand => by simp [hc] at hand
    rw [hdigit]
    exact .stop
  | some d =>
    have hvalue := hexValue_append_singleton st.cur.text hc
    rw [Option.bind_some, accum_eq (by decide), h.block, ← hvalue]
    by_cases hle : hexValue (st.cur.text ++ [c]) ≤ 65535
    · have hdigit : st.digit c = some { st with cur := st.cur.push c (by simp [hc]) hle } :=
        dif_pos ⟨by simp [hc], hle⟩
      have htext := Scan.text_digit hdigit
      rw [if_pos hle, hdigit]
      refine .ok ⟨⟨h.numBlocks, h.compressPos, rfl, ?_, h.written⟩, ?_, ?_⟩
      · simp [Hex.push]
      · rw [htext, List.append_assoc, List.singleton_append]
        exact h.name_eq
      · rw [htext, List.length_append, List.length_singleton, ← h.pos]
    · have hdigit : st.digit c = none := dif_neg fun hand => hle hand.2
      rw [if_neg hle, hdigit]
      exact .stop

theorem At.blocks_succ (h : At name s st (c :: rest)) (fuel : Nat) :
    ParseState.blocks name (fuel + 1) s =
      if c = dot then pure (s, true) else s.step name c >>= ParseState.blocks name fuel := by
  have hlt : s.i < name.length := by
    rw [h.pos, h.name_eq, List.length_append, List.length_cons]
    omega
  rw [ParseState.blocks, if_pos hlt, readAt_eq h.name_eq h.pos, ok_bind]

/-- 最初の loop は `scan` の通りに進み、残りの文字の数より多くは回らない。 -/
theorem At.blocks (h : At name s st rest) {fuel : Nat} (hfuel : rest.length < fuel) :
    Agree .reject (fun r st' => At name r.1 st'.1 st'.2 ∧ r.2 = !st'.2.isEmpty)
      (ParseState.blocks name fuel s)
      (scan st rest) := by
  obtain ⟨fuel, rfl⟩ := Nat.exists_eq_succ_of_ne_zero (by omega : fuel ≠ 0)
  fun_induction scan st rest generalizing s fuel with
  | case1 st =>
    have hend : ¬s.i < name.length := by
      rw [h.pos, h.name_eq]
      simp
    rw [ParseState.blocks, if_neg hend]
    exact .ok ⟨h, rfl⟩
  | case2 st rest =>
    rw [h.blocks_succ, if_pos rfl]
    exact .ok ⟨h, rfl⟩
  | case3 st rest hnone hdot =>
    have hstep := h.stepColon
    rw [hnone] at hstep
    rw [h.blocks_succ, if_neg hdot, ParseState.step, if_pos rfl, hstep.eq_stop]
    exact .stop
  | case4 st rest st₁ hsome hdot ih =>
    have hless := length_afterColon_le rest
    rw [List.length_cons] at hfuel
    obtain ⟨fuel, rfl⟩ := Nat.exists_eq_succ_of_ne_zero (by omega : fuel ≠ 0)
    have hstep := h.stepColon
    rw [hsome] at hstep
    obtain ⟨s₁, hs₁, h₁⟩ := hstep.exists_ok
    rw [h.blocks_succ, if_neg hdot, ParseState.step, if_pos rfl, hs₁, ok_bind]
    exact ih h₁ fuel (by omega)
  | case5 st c rest hdot hcolon hnone =>
    have hstep := h.stepDigit
    rw [hnone] at hstep
    rw [h.blocks_succ, if_neg hdot, ParseState.step, if_neg hcolon, hstep.eq_stop]
    exact .stop
  | case6 st c rest hdot hcolon st₁ hsome ih =>
    rw [List.length_cons] at hfuel
    obtain ⟨fuel, rfl⟩ := Nat.exists_eq_succ_of_ne_zero (by omega : fuel ≠ 0)
    have hstep := h.stepDigit
    rw [hsome] at hstep
    obtain ⟨s₁, hs₁, h₁⟩ := hstep.exists_ok
    rw [h.blocks_succ, if_neg hdot, ParseState.step, if_neg hcolon, hs₁, ok_bind]
    exact ih h₁ fuel (by omega)

/-! ## 十進の部分 -/

/-- `:` まで戻る。 -/
theorem rewind_eq {pre rest : List UInt8} (cur : List UInt8) (hcur : colon ∉ cur) :
    rewind (pre ++ colon :: (cur ++ rest)) (pre.length + 1 + cur.length) =
      .ok (pre.length + 1) := by
  induction cur using List.reverseRecOn generalizing rest with
  | nil =>
    rw [List.length_nil, Nat.add_zero, rewind, readAt_eq rfl rfl, ok_bind, if_neg (by simp)]
    rfl
  | append_singleton cur c ih =>
    rw [List.mem_append, not_or] at hcur
    have hc : c ≠ colon := fun he => hcur.2 (by simp [he])
    have hname : pre ++ colon :: (cur ++ [c] ++ rest) = (pre ++ colon :: cur) ++
      c :: rest := by simp
    have hpos : pre.length + 1 + cur.length = (pre ++ colon :: cur).length := by simp; omega
    rw [List.length_append, List.length_singleton, ← Nat.add_assoc, rewind, readAt_eq hname hpos,
      ok_bind, if_pos hc, List.append_assoc cur]
    exact ih hcur.1

/-- 四 byte の先頭に、読み終えた数が書かれている。 -/
structure QuadAt (name : List UInt8) (start : Nat) (q : QuadState) (st : QuadScan)
    (rest : List UInt8) : Prop where
  name_eq : name.drop start = st.text ++ rest
  start_le : start ≤ name.length
  pos : q.i = start + st.text.length
  curByte : q.curByte = st.done.length
  byte : q.byte = decValue st.cur.text
  empty : q.empty = st.cur.text.isEmpty
  length_eq : q.bytes.length = 4
  bytes : q.bytes.take st.done.length = st.done.map fun o => UInt8.ofNat (decValue o.text)

variable {start : Nat} {q : QuadState} {qst : QuadScan}

/-- 次の byte を書く。 -/
theorem QuadAt.put (h : QuadAt name start q qst rest) :
    ∃ bytes, put q.bytes q.curByte [UInt8.ofNat q.byte] = .ok bytes ∧ bytes.length = 4 ∧
      bytes.take (qst.done.length + 1) =
        (qst.done.map fun o => UInt8.ofNat (decValue o.text)) ++
          [UInt8.ofNat (decValue qst.cur.text)] := by
  have hle := qst.length_le
  have hlen := h.length_eq
  refine ⟨_, put_eq (by rw [h.curByte, List.length_singleton]; omega), ?_, ?_⟩
  · rw [length_writeAt (by rw [h.curByte, List.length_singleton]; omega), hlen]
  · have htake := @take_writeAt _ q.bytes [UInt8.ofNat q.byte] q.curByte (by rw [h.curByte]; omega)
    rw [h.curByte, List.length_singleton, h.bytes, h.byte] at htake
    rw [h.curByte, h.byte]
    exact htake

theorem QuadAt.stepDot (h : QuadAt name start q qst (dot :: rest)) :
    Agree .reject (fun q' st' => QuadAt name start q' st' rest) q.stepDot qst.close := by
  unfold QuadState.stepDot
  by_cases hne : qst.cur.text ≠ [] ∧ qst.done.length ≠ 3
  · have hcont : ¬(q.empty = true ∨ q.curByte = 3) := by
      rw [h.empty, h.curByte, List.isEmpty_iff]
      exact not_or.mpr hne
    obtain ⟨bytes, hput, hlen, htake⟩ := h.put
    have hclose : qst.close = some _ := dif_pos hne
    have htext := QuadScan.text_close hclose
    rw [if_neg hcont, hclose]
    refine Agree.bind_ok hput (.ok ⟨?_, h.start_le, ?_, ?_, rfl, rfl, hlen, ?_⟩)
    · rw [htext, List.append_assoc]
      exact h.name_eq
    · rw [htext, h.pos, List.length_append]
      rfl
    · rw [h.curByte, List.length_append, List.length_singleton]
    · rw [List.length_append, List.length_singleton, List.map_append]
      exact htake
  · have hstop : q.empty = true ∨ q.curByte = 3 := by
      rw [h.empty, h.curByte, List.isEmpty_iff]
      by_contra hcont
      exact hne (not_or.mp hcont)
    have hclose : qst.close = none := dif_neg hne
    rw [if_pos hstop, hclose]
    exact .stop

/-- 値が 0 の数は、`0` だけである。 -/
theorem Dec.eq_zero_iff (x : Dec) :
    (x.text.isEmpty = false ∧ decValue x.text = 0) ↔ x.text = [48] := by
  constructor
  · rintro ⟨hne, hzero⟩
    cases htext : x.text with
    | nil => simp [htext] at hne
    | cons c more =>
      obtain ⟨d, hd⟩ := Option.isSome_iff_exists.mp (x.digits c (by simp [htext]))
      have hle : d ≤ decValue x.text := by
        rw [htext, decValue, List.filterMap_cons_some hd, numValue_cons, Nat.zero_mul, Nat.zero_add]
        exact le_numValue (by decide)
      have hd0 : d = 0 := by omega
      have hc : c = 48 := by
        obtain ⟨hrange, heq⟩ := of_ite_eq_some hd
        have hsub : c.toNat - 48 = d := heq
        exact UInt8.toNat_inj.mp (by show c.toNat = 48; omega)
      rw [← htext]
      exact x.noZero (by rw [htext, hc]; rfl)
  · intro htext
    rw [htext]
    decide

theorem QuadAt.stepDigit (h : QuadAt name start q qst (c :: rest)) :
    Agree .reject (fun q' st' => QuadAt name start q' st' rest) (q.stepDigit c) (qst.digit c) := by
  unfold QuadState.stepDigit
  have hiff : (q.empty = false ∧ q.byte = 0) ↔ qst.cur.text = [48] := by
    rw [h.empty, h.byte]
    exact qst.cur.eq_zero_iff
  by_cases hzero : qst.cur.text = [48]
  · have hdigit : qst.digit c = none := dif_neg fun hand => hand.2.2 hzero
    rw [if_pos (hiff.mpr hzero), hdigit]
    exact .stop
  · rw [if_neg fun hand => hzero (hiff.mp hand)]
    cases hc : decodeDecimalDigit c with
    | none =>
      have hdigit : qst.digit c = none := dif_neg fun hand => by simp [hc] at hand
      rw [hdigit]
      exact .stop
    | some d =>
      have hvalue := decValue_append_singleton qst.cur.text hc
      rw [Option.bind_some, accum_eq (by decide), h.byte, ← hvalue]
      by_cases hle : decValue (qst.cur.text ++ [c]) ≤ 255
      · have hdigit : qst.digit c = some
            { qst with cur := qst.cur.push c (by simp [hc]) hle hzero } :=
          dif_pos ⟨by simp [hc], hle, hzero⟩
        have htext := QuadScan.text_digit hdigit
        rw [if_pos hle, hdigit]
        refine .ok ⟨?_, h.start_le, ?_, h.curByte, rfl, ?_, h.length_eq, h.bytes⟩
        · rw [htext, List.append_assoc]
          exact h.name_eq
        · rw [htext, h.pos, List.length_append]
          rfl
        · simp [Dec.push]
      · have hdigit : qst.digit c = none := dif_neg fun hand => hle hand.2.1
        rw [if_neg hle, hdigit]
        exact .stop

theorem QuadAt.step (h : QuadAt name start q qst (c :: rest)) :
    Agree .reject (fun q' st' => QuadAt name start q' st' rest) (q.step c) (qst.step c) := by
  refine Agree.ite Iff.rfl (fun hdot _ => ?_) fun _ _ => h.stepDigit
  subst hdot
  exact h.stepDot

theorem QuadAt.loop (h : QuadAt name start q qst rest) {fuel : Nat} (hfuel : rest.length < fuel) :
    Agree .reject (fun q' st' => QuadAt name start q' st' []) (QuadState.loop name fuel q)
      (qst.scan rest) := by
  induction rest generalizing q qst fuel with
  | nil =>
    obtain ⟨fuel, rfl⟩ := Nat.exists_eq_succ_of_ne_zero (by omega : fuel ≠ 0)
    have hlen := congrArg List.length h.name_eq
    rw [List.length_drop, List.append_nil] at hlen
    have hend : ¬q.i < name.length := by
      have := h.start_le
      rw [h.pos]
      omega
    rw [QuadState.loop, if_neg hend]
    exact .ok h
  | cons c rest ih =>
    rw [List.length_cons] at hfuel
    obtain ⟨fuel, rfl⟩ := Nat.exists_eq_succ_of_ne_zero (by omega : fuel ≠ 0)
    have hname : name = (name.take start ++ qst.text) ++ c :: rest := by
      rw [List.append_assoc, ← h.name_eq, List.take_append_drop]
    have hpos : q.i = (name.take start ++ qst.text).length := by
      rw [List.length_append, List.length_take, Nat.min_eq_left h.start_le, h.pos]
    have hlt : q.i < name.length := by
      have hlen := congrArg List.length hname
      rw [List.length_append, ← hpos, List.length_cons] at hlen
      omega
    rw [QuadState.loop, if_pos hlt, readAt_eq hname hpos, ok_bind]
    exact h.step.bind fun q' st' h' => ih h' (by omega)

theorem QuadAt.lastByte (h : QuadAt name start q qst rest) :
    Agree .reject (fun bytes quad => bytes = Quad.bytes quad) q.lastByte qst.finish := by
  unfold QuadState.lastByte
  by_cases hne : qst.done.length = 3 ∧ qst.cur.text ≠ []
  · have hcont : ¬(q.curByte ≠ 3 ∨ q.empty = true) := by
      rw [h.curByte, h.empty, List.isEmpty_iff]
      exact not_or.mpr ⟨not_not.mpr hne.1, hne.2⟩
    obtain ⟨bytes, hput, hlen, htake⟩ := h.put
    have hfinish : qst.finish = some _ := dif_pos hne
    rw [if_neg hcont, hput, hfinish]
    refine .ok ?_
    rw [hne.1, List.take_of_length_le (by omega)] at htake
    rw [htake, Quad.bytes, List.map_append]
    rfl
  · have hstop : q.curByte ≠ 3 ∨ q.empty = true := by
      rw [h.curByte, h.empty, List.isEmpty_iff]
      by_contra hcont
      obtain ⟨hthree, hcur⟩ := not_or.mp hcont
      exact hne ⟨not_not.mp hthree, hcur⟩
    have hfinish : qst.finish = none := dif_neg hne
    rw [if_pos hstop, hfinish]
    exact .stop

/-! ## 終わり -/

/-- `::` の所を除いた byte。 -/
def AddrText.explicitBytes : AddrText → List UInt8
  | .full t => t.bytes
  | .compressed front t => front.flatMap Group.bytes ++ t.bytes

/-- `::` の前の group の数。 -/
def AddrText.compressPos : AddrText → Option Nat
  | .full _ => none
  | .compressed front _ => some front.length

/-- 書かれた group がすべて並んでいる。 -/
structure Built (s : ParseState) (t : AddrText) : Prop where
  compressPos : s.compressPos = t.compressPos
  numBlocks : s.numBlocks = t.count
  count_le : t.count ≤ 8
  written : Written s.bytes t.explicitBytes

theorem Quad.length_bytes (q : Quad) : q.bytes.length = 4 := by
  rw [Quad.bytes, List.length_map, q.length_eq]

theorem Tail.length_bytes (t : Tail) : t.bytes.length = 2 * t.count := by
  obtain ⟨groups, quad⟩ := t
  rw [Tail.bytes, List.length_append, length_flatMap_bytes, Tail.count]
  cases quad with
  | none => rfl
  | some q =>
    show 2 * groups.length + q.bytes.length = 2 * (groups.length + 2)
    rw [q.length_bytes]
    omega

theorem explicitBytes_build :
    (Scan.build compress groups quad).explicitBytes = groups.flatMap Group.bytes ++
      (quad.map Quad.bytes).getD [] := by
  cases compress with
  | none => rfl
  | some k =>
    show (groups.take k).flatMap Group.bytes ++ ((groups.drop k).flatMap Group.bytes ++ _) = _
    rw [← List.append_assoc, ← List.flatMap_append, List.take_append_drop]

theorem count_build (hk : ∀ k ∈ compress, k ≤ groups.length) :
    (Scan.build compress groups quad).count = groups.length + (if quad.isSome then 2 else 0) := by
  cases compress with
  | none => rfl
  | some k =>
    have hle : k ≤ groups.length := hk k rfl
    show (groups.take k).length + ((groups.drop k).length + (if quad.isSome then 2 else 0)) = _
    rw [List.length_take, List.length_drop, Nat.min_eq_left hle]
    omega

theorem compressPos_build (hk : ∀ k ∈ compress, k ≤ groups.length) :
    (Scan.build compress groups quad).compressPos = compress := by
  cases compress with
  | none => rfl
  | some k =>
    show some (groups.take k).length = _
    rw [List.length_take, Nat.min_eq_left (hk k rfl)]

theorem Holds.lastBlock (h : Holds s st) : Agree .reject Built s.lastBlock (st.finish []) := by
  have hk := st.compress_le
  have hseven := st.length_le
  unfold ParseState.lastBlock Scan.finish
  rw [if_pos rfl]
  by_cases hne : st.cur.text ≠ []
  · have hk' : ∀ k ∈ st.compress, k ≤ (st.groups ++ [st.cur.toGroup hne]).length := fun k hm => by
      have := hk k hm
      rw [List.length_append, List.length_singleton]
      omega
    have hempty : s.empty = false := by
      rw [h.empty, ← Bool.not_eq_true, List.isEmpty_iff]
      exact hne
    obtain ⟨s', hput, hnum, hcomp, -, hwritten⟩ := h.putBlock (by omega) hne
    rw [if_pos hempty, dif_pos hne, hput]
    refine .ok ⟨?_, ?_, ?_, ?_⟩
    · rw [compressPos_build hk', hcomp]
    · rw [count_build hk', hnum, List.length_append]
      rfl
    · rw [count_build hk', List.length_append]
      simp
      omega
    · rw [explicitBytes_build, Option.map_none, Option.getD_none, List.append_nil]
      exact hwritten
  · have hempty : ¬s.empty = false := by
      rw [h.empty, not_not.mp hne]
      decide
    rw [if_neg hempty, dif_neg hne, h.compressPos, h.numBlocks]
    by_cases hcomp : st.compress = some st.groups.length
    · rw [if_neg (not_not.mpr hcomp), if_pos hcomp]
      refine .ok ⟨?_, ?_, ?_, ?_⟩
      · rw [compressPos_build hk, h.compressPos]
      · rw [count_build hk, h.numBlocks]
        rfl
      · rw [count_build hk]
        simp
        omega
      · rw [explicitBytes_build, Option.map_none, Option.getD_none, List.append_nil]
        exact h.written
    · rw [if_pos hcomp, if_neg hcomp]
      exact .stop

/-- group か `::` が前にあれば、直前は `:` である。 -/
theorem headText_eq_append_colon (h : ¬(groups = [] ∧ compress = none)) :
    ∃ pre, headText compress groups = pre ++ [colon] := by
  have hclosed : ∀ l : List Group, l ≠ [] → ∃ pre, closed l = pre ++ [colon] := fun l hl =>
    ⟨_, (intercalate_append_colon hl).symm⟩
  cases compress with
  | none => exact hclosed groups fun hnil => h ⟨hnil, rfl⟩
  | some k =>
    by_cases hdrop : groups.drop k = []
    · exact ⟨_, by rw [headText, hdrop]; rfl⟩
    · obtain ⟨pre, hpre⟩ := hclosed _ hdrop
      refine ⟨(if k = 0 then [colon] else closed (groups.take k)) ++ colon :: pre, ?_⟩
      rw [headText, hpre]
      simp

theorem At.ipv4Ending (h : At name s st rest) (hrest : rest ≠ []) {quad : List UInt8}
    (hquad : quad.length = 4) :
    Agree .reject Built (s.ipv4Ending name quad) (st.finish rest) := by
  have hk := st.compress_le
  unfold ParseState.ipv4Ending Scan.finish
  rw [if_neg hrest]
  refine Agree.ite ?_ (fun _ _ => .stop) fun _ hcont => ?_
  · rw [h.empty, List.isEmpty_iff, h.numBlocks, h.compressPos, List.length_eq_zero_iff]
  obtain ⟨hcur, hprev⟩ := not_or.mp hcont
  obtain ⟨pre, hpre⟩ := headText_eq_append_colon hprev
  have hname : name = pre ++ colon :: (st.cur.text ++ rest) := by
    rw [h.name_eq, Scan.text, hpre]
    simp
  have hpos : s.i = pre.length + 1 + st.cur.text.length := by
    rw [h.pos, Scan.text, hpre]
    simp
    omega
  have hrewind : rewind name s.i = .ok (pre.length + 1) := by
    rw [hname, hpos]
    exact rewind_eq st.cur.text fun hmem => st.cur.ne_colon hmem rfl
  have hstart : QuadAt name (pre.length + 1) ⟨pre.length + 1, 0, 0, true, quad⟩ .init
      (st.cur.text ++ rest) := by
    refine ⟨?_, ?_, rfl, rfl, rfl, rfl, hquad, rfl⟩
    · rw [hname, ← List.singleton_append, ← List.append_assoc, List.drop_left' (by simp)]
      rfl
    · rw [hname]
      simp
  have hfuel : (st.cur.text ++ rest).length < name.length + 1 := by
    rw [hname]
    simp
    omega
  have hparse : Agree Stop.reject (fun bytes q => bytes = Quad.bytes q)
      (QuadState.loop name (name.length + 1) ⟨pre.length + 1, 0, 0, true, quad⟩ >>=
        QuadState.lastByte)
      (parseQuad (st.cur.text ++ rest)) := (hstart.loop hfuel).bind fun q' st' h' => h'.lastByte
  refine Agree.bind_ok hrewind ?_
  rw [← bind_assoc]
  refine hparse.bind fun last q hlast => Agree.ite (by rw [h.numBlocks]) (fun _ _ => .stop) fun _
    hroom => ?_
  have hlen := length_flatMap_bytes st.groups
  have hfour : last.length = 4 := by rw [hlast, q.length_bytes]
  obtain ⟨bytes, hput, hwritten⟩ := h.written.put last (by omega)
  rw [hlen, ← h.numBlocks] at hput
  refine Agree.bind_ok hput (.ok ⟨?_, ?_, ?_, ?_⟩)
  · rw [compressPos_build hk]
    exact h.compressPos
  · rw [count_build hk]
    rw [h.numBlocks]
    rfl
  · rw [count_build hk]
    simp
    omega
  · rw [explicitBytes_build, Option.map_some, Option.getD_some, ← hlast]
    exact hwritten

/-- 後ろの `rear` を末尾に移し、間を 0 で埋める。 -/
theorem expand_bytes {front rear : List UInt8} {k r : Nat} (h : Written bytes (front ++ rear))
    (hfront : front.length = 2 * k) (hrear : rear.length = 2 * r) (hroom : k + r ≤ 8) :
    (put bytes (2 * (8 - r)) ((bytes.drop (2 * k)).take (2 * r)) >>= fun moved =>
      put moved (2 * k) (List.replicate (2 * (8 - r - k)) 0)) =
        .ok (front ++ List.replicate (2 * (8 - (k + r))) 0 ++ rear) := by
  obtain ⟨hlen, htake⟩ := h
  rw [List.length_append, hfront, hrear] at htake
  have hread : (bytes.drop (2 * k)).take (2 * r) = rear := by
    have hdrop := congrArg (List.drop (2 * k)) htake
    rw [List.drop_take, List.drop_left' hfront] at hdrop
    rw [← hdrop]
    congr 1
    omega
  have hhead : bytes.take (2 * k) = front := by
    have hprefix := congrArg (List.take (2 * k)) htake
    rw [List.take_take, List.take_left' hfront, Nat.min_eq_left (by omega)] at hprefix
    exact hprefix
  have hmoved : writeAt bytes (2 * (8 - r)) rear = bytes.take (2 * (8 - r)) ++ rear := by
    unfold writeAt
    rw [List.drop_eq_nil_of_le (by omega), List.append_nil]
  have hmovedLen : (bytes.take (2 * (8 - r)) ++ rear).length = 16 := by
    rw [List.length_append, List.length_take]
    omega
  rw [hread, put_eq (by omega), ok_bind, hmoved,
    put_eq (by rw [hmovedLen, List.length_replicate]; omega)]
  refine congrArg Except.ok ?_
  unfold writeAt
  have hzeros : 8 - r - k = 8 - (k + r) := by omega
  rw [List.length_replicate, List.take_append_of_le_length (by rw [List.length_take]; omega),
    List.take_take, Nat.min_eq_left (by omega), hhead, hzeros]
  congr 1
  exact List.drop_left' (by rw [List.length_take]; omega)

theorem Built.expand (h : Built s t) :
    Agree .reject (fun bytes t' => bytes = t'.bytes) s.expand t.complete := by
  have hcount := h.count_le
  have hwritten := h.written
  cases t with
  | full tail =>
    have hlen := tail.length_bytes
    have hnum : s.numBlocks = tail.count := h.numBlocks
    have hfront : s.frontBlocks = if tail.count ≠ 8 then .error .reject else .ok 0 := by
      rw [ParseState.frontBlocks, h.compressPos, ← hnum]
      rfl
    by_cases height : tail.count = 8
    · rw [ParseState.expand, hfront, if_neg (not_not.mpr height), ok_bind, hnum, height]
      have hexpand := @expand_bytes s.bytes [] tail.bytes 0 8 hwritten rfl (by omega) (by omega)
      have hcomplete : (AddrText.full tail).complete = some (.full tail) := if_pos height
      rw [hcomplete]
      show Agree _ _ (put s.bytes (2 * (8 - 8)) ((s.bytes.drop (2 * 0)).take (2 * 8)) >>= _) _
      rw [hexpand]
      exact .ok rfl
    · have hcomplete : (AddrText.full tail).complete = none := if_neg height
      rw [ParseState.expand, hfront, if_pos height, hcomplete]
      exact .stop
  | compressed front tail =>
    have hlen := tail.length_bytes
    have hnum : s.numBlocks = front.length + tail.count := h.numBlocks
    have hsum : front.length + tail.count ≤ 8 := hcount
    have hfront : s.frontBlocks = .ok front.length := by
      rw [ParseState.frontBlocks, h.compressPos]
      rfl
    have hrear : s.numBlocks - front.length = tail.count := by omega
    have hexpand := expand_bytes hwritten (length_flatMap_bytes front) hlen hsum
    rw [ParseState.expand, hfront, ok_bind, hrear, if_neg (by omega), hexpand]
    exact .ok rfl

/-! ## parser 全体 -/

theorem parseAddr_agree (name : List UInt8) (out : Vector UInt8 16) (quad : Vector UInt8 4) :
    Agree .reject (fun bytes t => bytes = AddrText.bytes t) (parseAddr name out quad)
      (recognise name) := by
  have hstart : At name ⟨0, 0, none, 0, true, out.toList⟩ .init name :=
    ⟨⟨rfl, rfl, rfl, rfl, out.length_toList, rfl⟩, rfl, rfl⟩
  refine (hstart.blocks (Nat.lt_succ_self _)).bind ?_
  rintro ⟨s, atDot⟩ ⟨st, rest⟩ ⟨h, hdot⟩
  have hending : Agree Stop.reject Built (s.ending name quad.toList atDot) (st.finish rest) := by
    change atDot = !rest.isEmpty at hdot
    unfold ParseState.ending
    cases rest with
    | nil =>
      rw [hdot]
      exact h.toHolds.lastBlock
    | cons c rest =>
      rw [hdot]
      exact h.ipv4Ending (by simp) quad.length_toList
  exact hending.bind fun s' t h' => h'.expand

/-! ## 受け取る text -/

theorem AddrText.length_bytes (h : t.Accepted) : t.bytes.length = 16 := by
  cases t with
  | full tail =>
    have hcount : tail.count = 8 := h
    show tail.bytes.length = 16
    rw [tail.length_bytes, hcount]
  | compressed front tail =>
    have hcount : front.length + tail.count ≤ 8 := h.2
    show (front.flatMap Group.bytes ++ List.replicate (2 * (8 - (front.length + tail.count))) 0 ++
      tail.bytes).length = 16
    rw [List.length_append, List.length_append, List.length_replicate, length_flatMap_bytes,
      tail.length_bytes]
    omega

theorem parseAddr_eq_ok_iff {name : List UInt8} {out : Vector UInt8 16} {quad : Vector UInt8 4} :
    parseAddr name out quad = .ok bytes ↔ ∃ t : AddrText, t.text = name ∧ t.Accepted ∧
      bytes = t.bytes := by
  have hagree := parseAddr_agree name out quad
  cases hrec : recognise name with
  | none =>
    rw [hrec] at hagree
    rw [hagree.eq_stop]
    refine iff_of_false nofun ?_
    rintro ⟨t, rfl, hacc, -⟩
    rw [recognise_complete hacc] at hrec
    cases hrec
  | some t =>
    rw [hrec] at hagree
    obtain ⟨bytes', hparse, rfl⟩ := hagree.exists_ok
    rw [hparse]
    constructor
    · intro heq
      obtain ⟨htext, hacc⟩ := recognise_sound hrec
      exact ⟨t, htext, hacc, (Except.ok.inj heq).symm⟩
    · rintro ⟨t', rfl, hacc, rfl⟩
      rw [recognise_complete hacc] at hrec
      rw [Option.some.inj hrec]

/-- 受け取る text を二通りに読むことはない。 -/
theorem AddrText.eq_of_text {t' : AddrText} (h : t.Accepted) (h' : t'.Accepted)
    (htext : t.text = t'.text) : t = t' := by
  have hrec := recognise_complete h
  rw [htext, recognise_complete h'] at hrec
  exact (Option.some.inj hrec).symm

theorem AddrText.WellFormed.accepted (h : t.WellFormed) : t.Accepted := by
  cases t with
  | full tail => exact h
  | compressed front tail =>
    change front.length + tail.count ≤ 7 at h
    exact ⟨by omega, by omega⟩

/--
**`ipaddr6_parse_ipv6_addr_bin` が受け取るのは、RFC 4291 の text である。**

どの byte の列でも parser は止まり、文字列の外を読まず、十六 byte の外に書かない。受け取るのが文法に従う text に限り、
結果がその text の表す address であることは、`::` の代わる group が無い text でないことと同じである。
-/
theorem parseAddr_accepts_grammar (name : List UInt8) (out : Vector UInt8 16)
    (quad : Vector UInt8 4) :
    ((∃ bytes, parseAddr name out quad = .ok bytes ∧ bytes.length = 16) ∨
      parseAddr name out quad = .error .reject) ∧
    ((∀ bytes, parseAddr name out quad = .ok bytes ↔
        ∃ t : AddrText, t.text = name ∧ t.WellFormed ∧ bytes = t.bytes) ↔
      ¬∃ front tail, (AddrText.compressed front tail).text = name ∧ front.length ≤ 7 ∧
        front.length + tail.count = 8) := by
  constructor
  · have hagree := parseAddr_agree name out quad
    cases hrec : recognise name with
    | none =>
      rw [hrec] at hagree
      exact .inr hagree.eq_stop
    | some t =>
      rw [hrec] at hagree
      obtain ⟨bytes, hparse, rfl⟩ := hagree.exists_ok
      exact .inl ⟨_, hparse, AddrText.length_bytes (recognise_sound hrec).2⟩
  constructor
  · -- その text は受け取られるので、文法に従う別の読み方が要る
    rintro hgrammar ⟨front, tail, htext, hfront, hcount⟩
    have hacc : (AddrText.compressed front tail).Accepted := ⟨hfront, hcount.le⟩
    obtain ⟨t, htext', hwell, -⟩ := (hgrammar _).mp (parseAddr_eq_ok_iff.mpr ⟨_, htext, hacc, rfl⟩)
    obtain rfl := AddrText.eq_of_text hwell.accepted hacc (htext'.trans htext.symm)
    change front.length + tail.count ≤ 7 at hwell
    omega
  · intro hnone bytes
    rw [parseAddr_eq_ok_iff]
    refine exists_congr fun t => and_congr_right fun htext => and_congr_left' ?_
    refine ⟨fun hacc => ?_, AddrText.WellFormed.accepted⟩
    cases t with
    | full tail => exact hacc
    | compressed front tail =>
      have hcount : front.length + tail.count ≠ 8 :=
        fun h8 => hnone ⟨front, tail, htext, hacc.1, h8⟩
      have hle : front.length + tail.count ≤ 8 := hacc.2
      show front.length + tail.count ≤ 7
      omega

/-- `fe80::1.2.3.4` -/
theorem parseAddr_accepts_grammar_quad :
    ∃ t : AddrText, t.text = "fe80::1.2.3.4".toList.map Char.toUInt8 ∧ t.WellFormed ∧
      [0xfe, 0x80, 0, 0, 0, 0, 0, 0, 0, 0, 0, 0, 1, 2, 3, 4] = t.bytes := by
  have hparse : parseAddr ("fe80::1.2.3.4".toList.map Char.toUInt8) (Vector.replicate 16 7)
      (Vector.replicate 4 9) = .ok [0xfe, 0x80, 0, 0, 0, 0, 0, 0, 0, 0, 0, 0, 1, 2, 3, 4] := by
    decide +kernel
  have hread : ∀ t ∈ recognise ("fe80::1.2.3.4".toList.map Char.toUInt8), t.count = 3 := by
    decide +kernel
  refine ((parseAddr_accepts_grammar _ (Vector.replicate 16 7) (Vector.replicate 4 9)).2.mpr
    ?_ _).mp hparse
  rintro ⟨front, tail, htext, hfront, hcount⟩
  have hacc : (AddrText.compressed front tail).Accepted := ⟨hfront, hcount.le⟩
  have hthree := hread _ (htext ▸ recognise_complete hacc)
  change front.length + tail.count = 3 at hthree
  omega

/--
`1:2:3:4::5:6:7:8` は、八つの group がすべて書かれていて、`::` の代わる group が一つも無いのに受け取られる。
-/
theorem parseAddr_accepts_empty_compression :
    parseAddr ("1:2:3:4::5:6:7:8".toList.map Char.toUInt8) (Vector.replicate 16 0)
      (Vector.replicate 4 0) =
      .ok [0, 1, 0, 2, 0, 3, 0, 4, 0, 5, 0, 6, 0, 7, 0, 8] ∧
    ¬∃ t : AddrText, t.text = "1:2:3:4::5:6:7:8".toList.map Char.toUInt8 ∧ t.WellFormed := by
  refine ⟨by decide +kernel, ?_⟩
  rintro ⟨t, htext, hwell⟩
  have hread : ∀ t ∈ recognise ("1:2:3:4::5:6:7:8".toList.map Char.toUInt8), ¬t.WellFormed := by
    decide +kernel
  exact hread t (htext ▸ recognise_complete hwell.accepted) hwell

end Net.Ipaddr6
