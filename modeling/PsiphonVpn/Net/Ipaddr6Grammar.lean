import Mathlib.Tactic.Ring
import PsiphonVpn.Infra.Checked
import PsiphonVpn.Net.Ipaddr6

/-!
# IPv6 address の文法

RFC 4291 の text の形と、`ipaddr6_parse_ipv6_addr_bin` が受け取る text の対応。

* `AddrText` — 文法に従う text。group の数の条件は `AddrText.WellFormed` が言う
-/

namespace Net.Ipaddr6

open Infra

/-! ## 文法 -/

def hexValue (text : List UInt8) : Nat := numValue 16 0 (text.filterMap decodeHexDigit)

def decValue (text : List UInt8) : Nat := numValue 10 0 (text.filterMap decodeDecimalDigit)

/-- 十六進の数字の列。値は十六 bit に収まる。先頭の 0 はいくつあってもよい。 -/
@[ext] structure Hex where
  text : List UInt8
  digits : ∀ c ∈ text, (decodeHexDigit c).isSome
  le : hexValue text ≤ 65535

/-- group -/
@[ext] structure Group extends Hex where
  nonempty : text ≠ []

def Group.bytes (g : Group) : List UInt8 := blockBytes (hexValue g.text)

/-- 十進の数字の列。値は八 bit に収まり、余分な先頭の 0 は無い。 -/
@[ext] structure Dec where
  text : List UInt8
  digits : ∀ c ∈ text, (decodeDecimalDigit c).isSome
  le : decValue text ≤ 255
  noZero : text.head? = some 48 → text = [48]

@[ext] structure Octet extends Dec where
  nonempty : text ≠ []

/-- `.` で区切った四つの数。 -/
@[ext] structure Quad where
  octets : List Octet
  length_eq : octets.length = 4

def Quad.text (q : Quad) : List UInt8 := [dot].intercalate (q.octets.map (·.text))

def Quad.bytes (q : Quad) : List UInt8 := q.octets.map fun o => UInt8.ofNat (decValue o.text)

/-- `:` で区切った group。最後の二つは十進の四つの数で書いてもよい。 -/
@[ext] structure Tail where
  groups : List Group
  quad : Option Quad

namespace Tail

def text (t : Tail) : List UInt8 :=
  [colon].intercalate (t.groups.map (·.text) ++ (t.quad.map Quad.text).toList)

/-- group の数。十進の部分は二つと数える。 -/
def count (t : Tail) : Nat := t.groups.length + (if t.quad.isSome then 2 else 0)

def bytes (t : Tail) : List UInt8 := t.groups.flatMap Group.bytes ++ (t.quad.map Quad.bytes).getD []

end Tail

inductive AddrText where
  | full (t : Tail)
  /-- `front::t` -/
  | compressed (front : List Group) (t : Tail)

namespace AddrText

def text : AddrText → List UInt8
  | full t => t.text
  | compressed front t => [colon].intercalate (front.map (·.text)) ++ [colon, colon] ++ t.text

/-- 書かれている group の数。 -/
def count : AddrText → Nat
  | full t => t.count
  | compressed front t => front.length + t.count

/-- 全体で八つの group。`::` は一つ以上の 0 の group に代わる。 -/
def WellFormed : AddrText → Prop
  | full t => t.count = 8
  | compressed front t => front.length + t.count ≤ 7

instance : DecidablePred WellFormed
  | full t => inferInstanceAs (Decidable (t.count = 8))
  | compressed front t => inferInstanceAs (Decidable (front.length + t.count ≤ 7))

/-- parser が受け取る text。`::` が 0 個の group に代わる場合も、後ろに group があれば受け取る。 -/
def Accepted : AddrText → Prop
  | full t => t.count = 8
  | compressed front t => front.length ≤ 7 ∧ front.length + t.count ≤ 8

/-- 表す address。 -/
def bytes : AddrText → List UInt8
  | full t => t.bytes
  | compressed front t =>
    front.flatMap Group.bytes ++ List.replicate (2 * (8 - (front.length + t.count))) 0 ++ t.bytes

end AddrText

/-! ## 数字 -/

theorem colon_ne_dot : colon ≠ dot := by decide

theorem decodeHexDigit_colon : decodeHexDigit colon = none := by decide

theorem decodeHexDigit_dot : decodeHexDigit dot = none := by decide

theorem decodeDecimalDigit_dot : decodeDecimalDigit dot = none := by decide

variable {c : UInt8} {d : Nat} {st' : QuadScan} {st : Scan} {t : AddrText}

theorem decodeHexDigit_of_decimal (h : decodeDecimalDigit c = some d) :
    decodeHexDigit c = some d ∧ d ≤ 9 := by
  unfold decodeDecimalDigit at h
  obtain ⟨hc, rfl⟩ := of_ite_eq_some h
  exact ⟨if_pos hc, by omega⟩

namespace Hex

/-- 空の列。 -/
def nil : Hex := ⟨[], nofun, by decide⟩

theorem ne_colon (x : Hex) (hc : c ∈ x.text) : c ≠ colon := by
  rintro rfl
  simpa [decodeHexDigit_colon] using x.digits colon hc

theorem ne_dot (x : Hex) (hc : c ∈ x.text) : c ≠ dot := by
  rintro rfl
  simpa [decodeHexDigit_dot] using x.digits dot hc

end Hex

theorem hexValue_append_singleton (text : List UInt8) (hc : decodeHexDigit c = some d) :
    hexValue (text ++ [c]) = hexValue text * 16 + d := by
  rw [hexValue, List.filterMap_append, List.filterMap_cons_some hc, List.filterMap_nil,
    numValue_append_singleton]
  rfl

theorem decValue_append_singleton (text : List UInt8) (hc : decodeDecimalDigit c = some d) :
    decValue (text ++ [c]) = decValue text * 10 + d := by
  rw [decValue, List.filterMap_append, List.filterMap_cons_some hc, List.filterMap_nil,
    numValue_append_singleton]
  rfl

theorem hexValue_le_append (text more : List UInt8) : hexValue text ≤ hexValue (text ++ more) := by
  rw [hexValue, hexValue, List.filterMap_append, numValue, numValue, List.foldl_append]
  exact le_numValue (by decide)

theorem decValue_le_append (text more : List UInt8) : decValue text ≤ decValue (text ++ more) := by
  rw [decValue, decValue, List.filterMap_append, numValue, numValue, List.foldl_append]
  exact le_numValue (by decide)

/-- 数字を一つ足す。 -/
def Hex.push (x : Hex) (c : UInt8) (hc : (decodeHexDigit c).isSome)
    (hle : hexValue (x.text ++ [c]) ≤ 65535) : Hex where
  text := x.text ++ [c]
  digits := by
    intro a ha
    rcases List.mem_append.mp ha with ha | ha
    · exact x.digits a ha
    · obtain rfl : a = c := by simpa using ha
      exact hc
  le := hle

/-- 空でなければ group である。 -/
def Hex.toGroup (x : Hex) (h : x.text ≠ []) : Group := { x with nonempty := h }

namespace Dec

def nil : Dec := ⟨[], nofun, by decide, nofun⟩

/-- 数字を一つ足す。0 の後には足せない。 -/
def push (x : Dec) (c : UInt8) (hc : (decodeDecimalDigit c).isSome)
    (hle : decValue (x.text ++ [c]) ≤ 255)
    (hzero : x.text ≠ [48]) : Dec where
  text := x.text ++ [c]
  digits := by
    intro a ha
    rcases List.mem_append.mp ha with ha | ha
    · exact x.digits a ha
    · obtain rfl : a = c := by simpa using ha
      exact hc
  le := hle
  noZero := by
    intro hhead
    cases htext : x.text with
    | nil =>
      rw [htext] at hhead
      simpa using hhead
    | cons b rest =>
      rw [htext] at hhead
      have hb : x.text.head? = some 48 := by rw [htext]; exact hhead
      exact absurd (x.noZero hb) hzero

def toOctet (x : Dec) (h : x.text ≠ []) : Octet := { x with nonempty := h }

end Dec

/-! ## 十進の部分を読む -/

/-- 読み終えた数と、途中の数字。 -/
structure QuadScan where
  done : List Octet
  cur : Dec
  length_le : done.length ≤ 3

variable {rest : List UInt8} {compress : Option Nat} {groups : List Group}

namespace QuadScan

/-- 読み終えた文字。 -/
def text (st : QuadScan) : List UInt8 := st.done.flatMap (fun o => o.text ++ [dot]) ++ st.cur.text

def init : QuadScan := ⟨[], .nil, by decide⟩

def close (st : QuadScan) : Option QuadScan :=
  if h : st.cur.text ≠ [] ∧ st.done.length ≠ 3 then
    some ⟨st.done ++ [st.cur.toOctet h.1], .nil, by
      have := st.length_le
      rw [List.length_append, List.length_singleton]
      omega⟩
  else none

def digit (st : QuadScan) (c : UInt8) : Option QuadScan :=
  if h : (decodeDecimalDigit c).isSome ∧ decValue (st.cur.text ++ [c]) ≤ 255 ∧
      st.cur.text ≠ [48] then
    some { st with cur := st.cur.push c h.1 h.2.1 h.2.2 }
  else none

def step (st : QuadScan) (c : UInt8) : Option QuadScan := if c = dot then st.close else st.digit c

def scan (st : QuadScan) (rest : List UInt8) : Option QuadScan := rest.foldlM step st

def finish (st : QuadScan) : Option Quad :=
  if h : st.done.length = 3 ∧ st.cur.text ≠ [] then
    some ⟨st.done ++ [st.cur.toOctet h.2], by rw [List.length_append, List.length_singleton]; omega⟩
  else none

theorem text_close {st : QuadScan} (h : st.close = some st') : st'.text = st.text ++ [dot] := by
  unfold close at h
  split at h
  next hne =>
    obtain rfl := Option.some.inj h
    simp [text, Dec.nil, Dec.toOctet]
  next => cases h

theorem text_digit {st : QuadScan} (h : st.digit c = some st') : st'.text = st.text ++ [c] := by
  unfold digit at h
  split at h
  next hne =>
    obtain rfl := Option.some.inj h
    simp [text, Dec.push]
  next => cases h

theorem text_step {st : QuadScan} (h : st.step c = some st') : st'.text = st.text ++ [c] := by
  unfold step at h
  split at h
  next hc =>
    rw [hc]
    exact text_close h
  next => exact text_digit h

theorem text_scan {st : QuadScan} (h : st.scan rest = some st') : st'.text = st.text ++ rest := by
  induction rest generalizing st with
  | nil =>
    obtain rfl := Option.some.inj h
    exact (List.append_nil _).symm
  | cons c rest ih =>
    obtain ⟨st₁, hstep, hrest⟩ := Option.bind_eq_some_iff.mp h
    rw [ih hrest, text_step hstep, List.append_assoc, List.singleton_append]

end QuadScan

/-- 四つの数を読む。 -/
def parseQuad (text : List UInt8) : Option Quad := (QuadScan.init.scan text).bind QuadScan.finish

/-- `.` を後に付けて並べたものに最後を足すと、`.` で区切ったものになる。 -/
theorem intercalate_concat (sep : UInt8) (l : List (List UInt8)) (last : List UInt8) :
    [sep].intercalate (l ++ [last]) = l.flatMap (fun x => x ++ [sep]) ++ last := by
  induction l with
  | nil => simp [List.intercalate]
  | cons x l ih =>
    cases l with
    | nil => simp [List.intercalate]
    | cons y l =>
      rw [List.flatMap_cons, List.append_assoc, ← ih]
      simp [List.intercalate]

theorem text_of_parseQuad {text : List UInt8} {q : Quad} (h : parseQuad text = some q) :
    q.text = text := by
  obtain ⟨st, hscan, hfin⟩ := Option.bind_eq_some_iff.mp h
  have htext := QuadScan.text_scan hscan
  unfold QuadScan.finish at hfin
  split at hfin
  next hne =>
    obtain rfl := Option.some.inj hfin
    rw [Quad.text, List.map_append, List.map_singleton, intercalate_concat, List.flatMap_map]
    exact htext
  next => cases hfin

namespace QuadScan

/-- 数字の列を読み終える。 -/
theorem scan_digits {st : QuadScan} {more : List UInt8} {x : Dec}
    (hx : x.text = st.cur.text ++ more) :
    st.scan (more ++ rest) = { st with cur := x }.scan rest := by
  induction more generalizing st with
  | nil =>
    obtain rfl : x = st.cur := Dec.ext (by simpa using hx)
    rfl
  | cons c more ih =>
    have hc : (decodeDecimalDigit c).isSome := x.digits c (by simp [hx])
    have hle : decValue (st.cur.text ++ [c]) ≤ 255 := by
      refine Nat.le_trans (decValue_le_append _ more) ?_
      have := x.le
      rw [hx] at this
      simpa using this
    have hzero : st.cur.text ≠ [48] := by
      intro h48
      have hall := x.noZero (by rw [hx, h48]; rfl)
      rw [hx, h48] at hall
      cases hall
    have hdot : c ≠ dot := by
      rintro rfl
      simp [decodeDecimalDigit_dot] at hc
    have hstep : st.step c = some { st with cur := st.cur.push c hc hle hzero } := by
      rw [step, if_neg hdot, digit, dif_pos ⟨hc, hle, hzero⟩]
    rw [scan, List.cons_append, List.foldlM_cons, hstep]
    exact @ih { st with cur := st.cur.push c hc hle hzero } (by simp [Dec.push, hx])

theorem scan_octet {done : List Octet} {o : Octet} (hlen : done.length ≤ 2) :
    QuadScan.scan ⟨done, .nil, by omega⟩ (o.text ++ dot :: rest) =
      QuadScan.scan ⟨done ++ [o], .nil, by rw [List.length_append, List.length_singleton]; omega⟩
        rest := by
  rw [scan_digits (x := o.toDec) rfl]
  have hstep : (⟨done, o.toDec, by omega⟩ : QuadScan).step dot =
      some ⟨done ++ [o], .nil, by rw [List.length_append, List.length_singleton]; omega⟩ := by
    rw [step, if_pos rfl, close, dif_pos ⟨o.nonempty, by show done.length ≠ 3; omega⟩]
    rfl
  rw [scan, List.foldlM_cons, hstep]
  rfl

end QuadScan

/-- 四つの数の text は読める。 -/
theorem parseQuad_text (q : Quad) : parseQuad q.text = some q := by
  obtain ⟨octets, hlen⟩ := q
  match octets, hlen with
  | [a, b, c, d], hlen =>
    have htext : Quad.text ⟨[a, b, c, d], hlen⟩ = a.text ++
        dot :: (b.text ++ dot :: (c.text ++ dot :: (d.text ++ []))) := by
      simp [Quad.text, List.intercalate]
    rw [parseQuad, htext, QuadScan.init, QuadScan.scan_octet (by simp),
      QuadScan.scan_octet (by simp), QuadScan.scan_octet (by simp),
      QuadScan.scan_digits (x := d.toDec) rfl]
    show QuadScan.finish _ = _
    rw [QuadScan.finish, dif_pos ⟨rfl, d.nonempty⟩]
    rfl

/-! ## text 全体を読む -/

/-- `:` を後に付けて並べた group。 -/
def closed (groups : List Group) : List UInt8 := groups.flatMap fun g => g.text ++ [colon]

theorem closed_append (l m : List Group) : closed (l ++ m) = closed l ++ closed m :=
  List.flatMap_append

theorem closed_singleton (g : Group) : closed [g] = g.text ++ [colon] := by simp [closed]

theorem intercalate_concat_group (l : List Group) (last : List UInt8) :
    [colon].intercalate (l.map (·.text) ++ [last]) = closed l ++ last := by
  rw [intercalate_concat, List.flatMap_map]
  rfl

theorem intercalate_append_colon {l : List Group} (h : l ≠ []) :
    [colon].intercalate (l.map (·.text)) ++ [colon] = closed l := by
  obtain ⟨l, g, rfl⟩ := (List.eq_nil_or_concat' l).resolve_left h
  rw [List.map_append, List.map_singleton, intercalate_concat_group, closed_append,
    closed_singleton, List.append_assoc]

/-- 読み終えた group と `:` の文字。`compress` は `::` の前の group の数。 -/
def headText (compress : Option Nat) (groups : List Group) : List UInt8 :=
  match compress with
  | none => closed groups
  | some k => (if k = 0 then [colon] else closed (groups.take k)) ++ colon :: closed (groups.drop k)

theorem headText_concat (h : ∀ k ∈ compress, k ≤ groups.length) (g : Group) :
    headText compress (groups ++ [g]) = headText compress groups ++ (g.text ++ [colon]) := by
  cases compress with
  | none => rw [headText, headText, closed_append, closed_singleton]
  | some k =>
    have hle : k ≤ groups.length := h k rfl
    rw [headText, headText, List.take_append_of_le_length hle, List.drop_append_of_le_length hle,
      closed_append, closed_singleton, List.append_assoc, List.cons_append]

theorem headText_mark (h : groups ≠ []) :
    headText (some groups.length) groups = headText none groups ++ [colon] := by
  have hlen : groups.length ≠ 0 := fun h0 => h (List.length_eq_zero_iff.mp h0)
  rw [headText, headText, if_neg hlen, List.take_length, List.drop_length]
  rfl

/-- 読み終えた group と、`::` の前の group の数と、途中の数字。 -/
structure Scan where
  groups : List Group
  compress : Option Nat
  cur : Hex
  length_le : groups.length ≤ 7
  compress_le : ∀ k ∈ compress, k ≤ groups.length

namespace Scan

/-- 読み終えた文字。 -/
def text (st : Scan) : List UInt8 := headText st.compress st.groups ++ st.cur.text

def init : Scan := ⟨[], none, .nil, by decide, nofun⟩

/-- 読み終えた group に一つ足す。 -/
def addGroup (st : Scan) (g : Group) (h : st.groups.length < 7) : Scan where
  groups := st.groups ++ [g]
  compress := st.compress
  cur := .nil
  length_le := by
    rw [List.length_append, List.length_singleton]
    omega
  compress_le := by
    intro k hk
    have := st.compress_le k hk
    rw [List.length_append, List.length_singleton]
    omega

/-- `:` の前の group を終える。先頭の `:` は `::` でなければならない。 -/
def close (st : Scan) (double : Bool) : Option Scan :=
  if st.text = [] then if double = true then some st else none
  else if h : st.cur.text ≠ [] ∧ st.groups.length ≠ 7 then
    some (st.addGroup (st.cur.toGroup h.1) (Nat.lt_of_le_of_ne st.length_le h.2))
  else none

/-- `::` の位置を覚える。 -/
def marked (st : Scan) : Scan :=
  { st with compress := some st.groups.length, compress_le := by simp }

def mark (st : Scan) (double : Bool) : Option Scan :=
  if double = true then if st.compress = none then some st.marked else none else some st

def colonStep (st : Scan) (double : Bool) : Option Scan := (st.close double).bind (·.mark double)

def digit (st : Scan) (c : UInt8) : Option Scan :=
  if h : (decodeHexDigit c).isSome ∧ hexValue (st.cur.text ++ [c]) ≤ 65535 then
    some { st with cur := st.cur.push c h.1 h.2 }
  else none

end Scan

/-- `:` の後。`::` なら二つ目も読み飛ばす。 -/
def afterColon (rest : List UInt8) : List UInt8 :=
  if rest.head? == some colon then rest.tail else rest

theorem length_afterColon_le (rest : List UInt8) : (afterColon rest).length ≤ rest.length := by
  unfold afterColon
  split
  · rw [List.length_tail]
    omega
  · exact Nat.le_refl _

theorem colon_afterColon (rest : List UInt8) :
    (if (rest.head? == some colon) = true then [colon, colon] else [colon]) ++ afterColon rest =
      colon :: rest := by
  unfold afterColon
  split
  next h =>
    cases rest with
    | nil => cases h
    | cons c rest =>
      obtain rfl : c = colon := by simpa using h
      rfl
  next => rfl

/-- 残りの文字を読む。`.` に当たれば、そこで止まって残りを返す。 -/
def scan (st : Scan) (rest : List UInt8) : Option (Scan × List UInt8) :=
  match rest with
  | [] => some (st, [])
  | c :: rest =>
    if c = dot then some (st, c :: rest)
    else if c = colon then
      match st.colonStep (rest.head? == some colon) with
      | none => none
      | some st' => scan st' (afterColon rest)
    else
      match st.digit c with
      | none => none
      | some st' => scan st' rest
termination_by rest.length
decreasing_by
  · exact Nat.lt_succ_of_le (length_afterColon_le rest)
  · exact Nat.lt_succ_self _

namespace Scan

/-- 読み終えた group と続きからできる text。 -/
def build (compress : Option Nat) (groups : List Group) (quad : Option Quad) : AddrText :=
  match compress with
  | none => .full ⟨groups, quad⟩
  | some k => .compressed (groups.take k) ⟨groups.drop k, quad⟩

/-- 読み終えた所で、text が終わっているかを見る。 -/
def finish (st : Scan) (rest : List UInt8) : Option AddrText :=
  if rest = [] then
    if h : st.cur.text ≠ [] then some (build st.compress (st.groups ++ [st.cur.toGroup h]) none)
    else if st.compress = some st.groups.length then some (build st.compress st.groups none)
    else none
  else if st.cur.text = [] ∨ (st.groups = [] ∧ st.compress = none) then none
  else (parseQuad (st.cur.text ++ rest)).bind fun q =>
    if 8 < st.groups.length + 2 then none else some (build st.compress st.groups (some q))

end Scan

/-- `::` が無ければ、group は八つでなければならない。 -/
def AddrText.complete (t : AddrText) : Option AddrText :=
  match t with
  | .full tail => if tail.count = 8 then some t else none
  | .compressed _ _ => some t

def recognise (name : List UInt8) : Option AddrText :=
  (scan .init name).bind fun (st, rest) => (st.finish rest).bind AddrText.complete

/-! ### 受け取った text は文法に従う -/

namespace Scan

theorem text_digit {st' : Scan} (h : st.digit c = some st') : st'.text = st.text ++ [c] := by
  unfold digit at h
  split at h
  next hne =>
    obtain rfl := Option.some.inj h
    simp only [text, Hex.push, List.append_assoc]
  next => cases h

theorem text_addGroup (st : Scan) (hne : st.cur.text ≠ []) (hlen : st.groups.length < 7) :
    (st.addGroup (st.cur.toGroup hne) hlen).text = st.text ++ [colon] := by
  show headText st.compress (st.groups ++ [_]) ++ [] = _
  rw [headText_concat st.compress_le, List.append_nil]
  exact (List.append_assoc _ _ _).symm

theorem eq_init_of_text_eq_nil (h : st.text = []) : st = .init := by
  obtain ⟨groups, compress, cur, hlen, hcomp⟩ := st
  have hcur : cur = .nil := Hex.ext (List.append_eq_nil_iff.mp h).2
  cases compress with
  | some k => simp [text, headText] at h
  | none =>
    cases groups with
    | nil =>
      subst hcur
      rfl
    | cons g groups => simp [text, headText, closed] at h

theorem text_marked (hnone : st.compress = none) (hne : st.groups ≠ []) (hcur : st.cur.text = []) :
    st.marked.text = st.text ++ [colon] := by
  show headText (some st.groups.length) st.groups ++ st.cur.text = _
  rw [headText_mark hne, hcur, text, hnone, hcur, List.append_nil, List.append_nil]

theorem text_colonStep {st' : Scan} {double : Bool} (h : st.colonStep double = some st') :
    st'.text = st.text ++ (if double = true then [colon, colon] else [colon]) := by
  obtain ⟨st₁, hclose, hmark⟩ := Option.bind_eq_some_iff.mp h
  unfold close at hclose
  split at hclose
  next hinit =>
    -- 先頭の `::`
    obtain ⟨rfl, rfl⟩ := of_ite_eq_some hclose
    obtain rfl := eq_init_of_text_eq_nil hinit
    obtain rfl := Option.some.inj hmark
    rfl
  next =>
    split at hclose
    next hne =>
      obtain rfl := Option.some.inj hclose
      have htext := st.text_addGroup hne.1 (Nat.lt_of_le_of_ne st.length_le hne.2)
      unfold mark at hmark
      split at hmark
      next hdouble =>
        obtain ⟨hnone, rfl⟩ := of_ite_eq_some hmark
        rw [text_marked hnone (by simp [addGroup]) rfl, htext, if_pos hdouble, List.append_assoc]
        rfl
      next hdouble =>
        obtain rfl := Option.some.inj hmark
        rw [if_neg hdouble]
        exact htext
    next => cases hclose

end Scan

theorem scan_text {st' : Scan} {rest' : List UInt8} (h : scan st rest = some (st', rest')) :
    st.text ++ rest = st'.text ++ rest' ∧ (rest' = [] ∨ rest'.head? = some dot) := by
  fun_induction scan st rest with
  | case1 st =>
    obtain ⟨rfl, rfl⟩ := Prod.mk.inj (Option.some.inj h)
    exact ⟨rfl, .inl rfl⟩
  | case2 st rest =>
    obtain ⟨rfl, rfl⟩ := Prod.mk.inj (Option.some.inj h)
    exact ⟨rfl, .inr rfl⟩
  | case3 => cases h
  | case4 st rest st₁ hstep _ ih =>
    obtain ⟨heq, hrest⟩ := ih h
    refine ⟨?_, hrest⟩
    rw [← heq, Scan.text_colonStep hstep, List.append_assoc, colon_afterColon]
  | case5 => cases h
  | case6 st c rest _ _ st₁ hstep ih =>
    obtain ⟨heq, hrest⟩ := ih h
    refine ⟨?_, hrest⟩
    rw [← heq, Scan.text_digit hstep, List.append_assoc, List.singleton_append]

/-- `::` までの文字。 -/
theorem front_text {k : Nat} (hk : k ≤ groups.length) :
    [colon].intercalate ((groups.take k).map (·.text)) ++ [colon, colon] =
      (if k = 0 then [colon] else closed (groups.take k)) ++ [colon] := by
  by_cases h0 : k = 0
  · subst h0
    rfl
  · have hne : groups.take k ≠ [] := by
      intro hnil
      have hlen := congrArg List.length hnil
      rw [List.length_take, List.length_nil] at hlen
      omega
    rw [if_neg h0, ← intercalate_append_colon hne, List.append_assoc]
    rfl

namespace Scan

/-- `gs` は `groups` に続く group、`last` はその text の、最後の `:` より後である。 -/
theorem text_build {more : List Group} {quad : Option Quad} {last : List UInt8}
    (hk : ∀ k ∈ compress, k ≤ groups.length)
    (hlast : ∀ l, Tail.text ⟨l ++ more, quad⟩ = closed l ++ last) :
    (build compress (groups ++ more) quad).text = headText compress groups ++ last := by
  cases compress with
  | none => exact hlast groups
  | some k =>
    have hle : k ≤ groups.length := hk k rfl
    show [colon].intercalate (((groups ++ more).take k).map (·.text)) ++ [colon, colon] ++
      Tail.text ⟨(groups ++ more).drop k, quad⟩ = _
    rw [List.take_append_of_le_length hle, List.drop_append_of_le_length hle, hlast, front_text hle,
      headText, List.append_assoc, List.append_assoc, List.singleton_append, List.cons_append]

theorem tail_text_group (g : Group) (l : List Group) :
    Tail.text ⟨l ++ [g], none⟩ = closed l ++ g.text := by
  rw [Tail.text, Option.map_none, Option.toList_none, List.append_nil, List.map_append,
    List.map_singleton]
  exact intercalate_concat_group l g.text

theorem tail_text_quad (q : Quad) (l : List Group) :
    Tail.text ⟨l, some q⟩ = closed l ++ q.text := by
  rw [Tail.text, Option.map_some, Option.toList_some]
  exact intercalate_concat_group l q.text

theorem accepted_build {quad : Option Quad} (hk : ∀ k ∈ compress, k ≤ groups.length ∧ k ≤ 7)
    (hcount : (Tail.mk groups quad).count ≤ 8)
    (h : (build compress groups quad).complete = some t) :
    t = build compress groups quad ∧ t.Accepted := by
  cases compress with
  | none =>
    obtain ⟨height, rfl⟩ := of_ite_eq_some h
    exact ⟨rfl, height⟩
  | some k =>
    obtain rfl := Option.some.inj h
    obtain ⟨hle, hseven⟩ := hk k rfl
    refine ⟨rfl, ?_, ?_⟩
    · rw [List.length_take]
      omega
    · dsimp only [Tail.count] at hcount ⊢
      rw [List.length_take, List.length_drop]
      omega

/-- 読み終えて受け取った text は、読んだ文字そのものである。 -/
theorem finish_sound {t₀ : AddrText} (h : st.finish rest = some t₀) (ht : t₀.complete = some t) :
    t.text = st.text ++ rest ∧ t.Accepted := by
  have hseven := st.length_le
  have hk := st.compress_le
  unfold finish at h
  split at h
  next hrest =>
    subst hrest
    split at h
    next hcur =>
      obtain rfl := Option.some.inj h
      obtain ⟨rfl, hacc⟩ := accepted_build (fun k hm => by
          have := hk k hm
          rw [List.length_append, List.length_singleton]
          omega) (by
          unfold Tail.count
          simp
          omega) ht
      refine ⟨?_, hacc⟩
      rw [text_build hk (tail_text_group _), List.append_nil]
      rfl
    next hcur =>
      obtain ⟨hcomp, rfl⟩ := of_ite_eq_some h
      obtain ⟨rfl, hacc⟩ := accepted_build (fun k hm => by
          have := hk k hm
          omega) (by
          unfold Tail.count
          simp
          omega) ht
      refine ⟨?_, hacc⟩
      rw [List.append_nil, text, not_not.mp hcur, hcomp, List.append_nil, build, AddrText.text,
        front_text (Nat.le_refl _), headText, List.drop_length]
      exact List.append_nil _ ▸ rfl
  next hrest =>
    split at h
    next => cases h
    next hcur =>
      obtain ⟨q, hq, h⟩ := Option.bind_eq_some_iff.mp h
      split at h
      next => cases h
      next height =>
        obtain rfl := Option.some.inj h
        obtain ⟨rfl, hacc⟩ := accepted_build (fun k hm => by
            have := hk k hm
            omega) (by
            unfold Tail.count
            simp
            omega) ht
        refine ⟨?_, hacc⟩
        have hbuild := @text_build st.compress st.groups [] (some q) q.text hk
          (fun l => by rw [List.append_nil]; exact tail_text_quad q l)
        rw [List.append_nil] at hbuild
        rw [hbuild, text_of_parseQuad hq, text, List.append_assoc]

end Scan

theorem recognise_sound {name : List UInt8} (h : recognise name = some t) :
    t.text = name ∧ t.Accepted := by
  obtain ⟨⟨st, rest⟩, hscan, h⟩ := Option.bind_eq_some_iff.mp h
  obtain ⟨t₀, hfin, ht⟩ := Option.bind_eq_some_iff.mp h
  obtain ⟨htext, hacc⟩ := Scan.finish_sound hfin ht
  exact ⟨htext.trans (scan_text hscan).1.symm, hacc⟩

/-! ### 文法に従う text は受け取る -/

/-- 数字の列を読み終える。 -/
theorem scan_digits {more : List UInt8} {x : Hex} (hx : x.text = st.cur.text ++ more) :
    scan st (more ++ rest) = scan { st with cur := x } rest := by
  induction more generalizing st with
  | nil =>
    obtain rfl : x = st.cur := Hex.ext (by simpa using hx)
    rfl
  | cons c more ih =>
    have hmem : c ∈ x.text := by simp [hx]
    have hc : (decodeHexDigit c).isSome := x.digits c hmem
    have hle : hexValue (st.cur.text ++ [c]) ≤ 65535 := by
      refine Nat.le_trans (hexValue_le_append _ more) ?_
      have := x.le
      rw [hx] at this
      simpa using this
    have hstep : st.digit c = some { st with cur := st.cur.push c hc hle } := dif_pos ⟨hc, hle⟩
    rw [List.cons_append, scan, if_neg (x.ne_dot hmem), if_neg (x.ne_colon hmem), hstep]
    exact @ih { st with cur := st.cur.push c hc hle } (by simp [Hex.push, hx])

section

variable {groups : List Group} {compress : Option Nat} {hlen : groups.length ≤ 7}
  {hk : ∀ k ∈ compress, k ≤ groups.length} {g : Group} {rest : List UInt8}

theorem close_group (hlt : groups.length < 7) (double : Bool) :
    (⟨groups, compress, g.toHex, hlen, hk⟩ : Scan).close double =
      some ((⟨groups, compress, .nil, hlen, hk⟩ : Scan).addGroup g hlt) := by
  have htext : (⟨groups, compress, g.toHex, hlen, hk⟩ : Scan).text ≠ [] := fun h =>
    g.nonempty (List.append_eq_nil_iff.mp h).2
  rw [Scan.close, if_neg htext, dif_pos ⟨g.nonempty, Nat.ne_of_lt hlt⟩]
  rfl

theorem scan_group (hlt : groups.length < 7) (hrest : rest.head? ≠ some colon) :
    scan ⟨groups, compress, .nil, hlen, hk⟩ (g.text ++ colon :: rest) =
      scan ((⟨groups, compress, .nil, hlen, hk⟩ : Scan).addGroup g hlt) rest := by
  have hsingle : (rest.head? == some colon) = false := beq_eq_false_iff_ne.mpr hrest
  have hafter : afterColon rest = rest := if_neg (by rw [hsingle]; decide)
  rw [scan_digits (x := g.toHex) rfl, scan, if_neg colon_ne_dot, if_pos rfl, hsingle,
    Scan.colonStep, close_group hlt, hafter]
  rfl

theorem scan_group_double (hlt : groups.length < 7) {hk : ∀ k ∈ none, k ≤ groups.length} :
    scan ⟨groups, none, .nil, hlen, hk⟩ (g.text ++ colon :: colon :: rest) =
      scan ((⟨groups, none, .nil, hlen, hk⟩ : Scan).addGroup g hlt).marked rest := by
  have hdouble : ((colon :: rest).head? == some colon) = true := beq_self_eq_true _
  rw [scan_digits (x := g.toHex) rfl, scan, if_neg colon_ne_dot, if_pos rfl, hdouble,
    Scan.colonStep, close_group hlt]
  rfl

end

theorem Group.head_ne_colon (g : Group) (rest : List UInt8) :
    (g.text ++ rest).head? ≠ some colon := by
  cases htext : g.text with
  | nil => exact absurd htext g.nonempty
  | cons c text =>
    rw [List.cons_append, List.head?_cons, ne_eq, Option.some.injEq]
    exact g.ne_colon (by simp [htext])

theorem closed_head_ne_colon (h : rest.head? ≠ some colon) (l : List Group) :
    (closed l ++ rest).head? ≠ some colon := by
  cases l with
  | nil => exact h
  | cons g l =>
    rw [closed, List.flatMap_cons, List.append_assoc, List.append_assoc]
    exact g.head_ne_colon _

theorem scan_closed {more : List Group} {hlen : groups.length ≤ 7}
    {hk : ∀ k ∈ compress, k ≤ groups.length} (hlen' : (groups ++ more).length ≤ 7)
    (hk' : ∀ k ∈ compress, k ≤ (groups ++ more).length) (hrest : rest.head? ≠ some colon) :
    scan ⟨groups, compress, .nil, hlen, hk⟩ (closed more ++ rest) =
      scan ⟨groups ++ more, compress, .nil, hlen', hk'⟩ rest := by
  induction more generalizing groups with
  | nil =>
    congr 1
    simp
  | cons g more ih =>
    have hlt : groups.length < 7 := by
      rw [List.length_append, List.length_cons] at hlen'
      omega
    have hassoc : groups ++ g :: more = groups ++ [g] ++ more := by simp
    have htext : closed (g :: more) ++ rest = g.text ++ colon :: (closed more ++ rest) := by
      simp [closed]
    rw [htext, scan_group hlt (closed_head_ne_colon hrest more)]
    refine (ih (by rw [← hassoc]; exact hlen') (by rw [← hassoc]; exact hk')).trans ?_
    congr 1
    simp

/-- 十進の数字の列を十六進で読んだ値は、十進の値の二乗を超えない。 -/
theorem hexValue_le_sq {text : List UInt8} (h : ∀ c ∈ text, (decodeDecimalDigit c).isSome) :
    hexValue text ≤ decValue text ^ 2 := by
  induction text using List.reverseRecOn with
  | nil => decide
  | append_singleton text c ih =>
    obtain ⟨d, hd⟩ := Option.isSome_iff_exists.mp (h c (by simp))
    have hle : hexValue text ≤ decValue text ^ 2 := ih fun a ha => h a (by simp [ha])
    rw [hexValue_append_singleton text (decodeHexDigit_of_decimal hd).1,
      decValue_append_singleton text hd]
    have hsq : d ≤ d ^ 2 := Nat.le_self_pow (by decide) d
    have hexpand : (decValue text * 10 + d) ^ 2 =
      100 * decValue text ^ 2 + 20 * (decValue text * d) + d ^ 2 := by ring
    rw [hexpand]
    omega

/-- 十進の数の text は、十六進の数字の列でもある。 -/
def Octet.toHex (o : Octet) : Hex where
  text := o.text
  digits := by
    intro c hc
    obtain ⟨d, hd⟩ := Option.isSome_iff_exists.mp (o.digits c hc)
    simp [(decodeHexDigit_of_decimal hd).1]
  le := Nat.le_trans (hexValue_le_sq o.digits) (Nat.pow_le_pow_left o.le 2 |>.trans (by decide))

theorem Quad.exists_text (q : Quad) :
    ∃ (o : Octet) (rest : List UInt8), q.text = o.text ++ dot :: rest := by
  obtain ⟨octets, hlen⟩ := q
  match octets, hlen with
  | [a, b, c, d], hlen =>
    exact ⟨a, [dot].intercalate [b.text, c.text, d.text], by simp [Quad.text, List.intercalate]⟩

theorem Octet.head_ne_colon (o : Octet) (rest : List UInt8) : (o.text ++ rest).head? ≠ some colon :=
  Group.head_ne_colon (o.toHex.toGroup o.nonempty) rest

/-- `scan` の後の検査まで通った結果。 -/
def accept (st : Scan) (rest : List UInt8) : Option AddrText :=
  (scan st rest).bind fun (st', rest') => st'.finish rest'

section

variable {groups : List Group} {compress : Option Nat} {hlen : groups.length ≤ 7}
  {hk : ∀ k ∈ compress, k ≤ groups.length}

/-- group で終わる続きを読む。 -/
theorem accept_groups (more : List Group) (last : Group)
    (hseven : groups.length + more.length ≤ 7) :
    accept ⟨groups, compress, .nil, hlen, hk⟩ (Tail.text ⟨more ++ [last], none⟩) =
      some (Scan.build compress (groups ++ (more ++ [last])) none) := by
  have hrest : last.text.head? ≠ some colon := by simpa using last.head_ne_colon []
  rw [accept, Scan.tail_text_group, scan_closed (by rw [List.length_append]; omega)
    (fun k hm => by have := hk k hm; rw [List.length_append]; omega) hrest]
  have hdigits := @scan_digits ⟨groups ++ more, compress, .nil, by rw [List.length_append]; omega,
    fun k hm => by have := hk k hm; rw [List.length_append]; omega⟩ [] last.text last.toHex rfl
  rw [List.append_nil] at hdigits
  rw [hdigits, scan, Option.bind_some]
  show Scan.finish _ [] = _
  rw [Scan.finish, if_pos rfl, dif_pos last.nonempty, ← List.append_assoc]
  rfl

/-- 十進の部分で終わる続きを読む。 -/
theorem accept_quad (more : List Group) (q : Quad) (hsix : groups.length + more.length ≤ 6)
    (hprev : groups ++ more ≠ [] ∨ compress ≠ none) :
    accept ⟨groups, compress, .nil, hlen, hk⟩ (Tail.text ⟨more, some q⟩) =
      some (Scan.build compress (groups ++ more) (some q)) := by
  obtain ⟨o, rest, htext⟩ := q.exists_text
  have hrest : q.text.head? ≠ some colon := by
    rw [htext]
    exact o.head_ne_colon _
  have hlength : (groups ++ more).length = groups.length + more.length := List.length_append
  rw [accept, Scan.tail_text_quad, scan_closed (by omega) (fun k hm => by have := hk k hm; omega)
    hrest, htext,
    scan_digits (x := o.toHex) rfl, scan, if_pos rfl, Option.bind_some]
  show Scan.finish _ (dot :: rest) = _
  rw [Scan.finish, if_neg (by simp), if_neg]
  · show (parseQuad (o.text ++ dot :: rest)).bind _ = _
    rw [← htext, parseQuad_text, Option.bind_some, if_neg (by dsimp only; omega)]
  · rintro (hnil | ⟨hnil, hnone⟩)
    · exact o.nonempty hnil
    · exact hprev.elim (fun h => h hnil) fun h => h hnone

end

/-- 先頭から `::` までを読む。 -/
theorem accept_front (front : List Group) (hseven : front.length ≤ 7) (rest : List UInt8) :
    accept .init ([colon].intercalate (front.map (·.text)) ++ [colon, colon] ++ rest) =
      accept ⟨front, some front.length, .nil, hseven, by simp⟩ rest := by
  unfold accept
  congr 1
  rcases List.eq_nil_or_concat' front with rfl | ⟨front, last, rfl⟩
  · show scan .init (colon :: colon :: rest) = _
    rw [scan, if_neg colon_ne_dot, if_pos rfl]
    rfl
  · have hlen : front.length < 7 := by
      rw [List.length_append, List.length_singleton] at hseven
      omega
    have htext : [colon].intercalate ((front ++ [last]).map (·.text)) ++ [colon, colon] ++ rest =
        closed front ++ (last.text ++ colon :: colon :: rest) := by
      rw [List.map_append, List.map_singleton, intercalate_concat_group]
      simp
    rw [htext, Scan.init, @scan_closed _ none [] front _ _ (by simp; omega) (by simp)
      (last.head_ne_colon _)]
    exact scan_group_double (by simpa using hlen)

/-- 続きの形は、空か、group で終わるか、十進の部分で終わるかである。 -/
theorem recognise_complete (h : t.Accepted) : recognise t.text = some t := by
  have hreduce : recognise t.text = (accept .init t.text).bind AddrText.complete := by
    unfold recognise accept
    rw [Option.bind_assoc]
  rw [hreduce]
  cases t with
  | full tail =>
    obtain ⟨groups, quad⟩ := tail
    have hcount : (Tail.mk groups quad).count = 8 := h
    cases quad with
    | none =>
      have hlen : groups.length = 8 := hcount
      rcases List.eq_nil_or_concat' groups with rfl | ⟨more, last, rfl⟩
      · simp at hlen
      · have hmore : more.length ≤ 7 := by
          rw [List.length_append, List.length_singleton] at hlen
          omega
        rw [AddrText.text, Scan.init, accept_groups more last (by simpa using hmore),
          List.nil_append, Option.bind_some]
        exact if_pos hcount
    | some q =>
      have hlen : groups.length + 2 = 8 := hcount
      rw [AddrText.text, Scan.init, accept_quad groups q (by simp; omega)
        (.inl fun hnil => by simp at hnil; simp [hnil] at hlen), List.nil_append, Option.bind_some]
      exact if_pos hcount
  | compressed front tail =>
    obtain ⟨groups, quad⟩ := tail
    obtain ⟨hseven, hcount⟩ : front.length ≤ 7 ∧ front.length + (Tail.mk groups quad).count ≤ 8 := h
    have hbuild : Scan.build (some front.length) (front ++ groups) quad = .compressed front
        ⟨groups, quad⟩ := by
      rw [Scan.build, List.take_left, List.drop_left]
    rw [AddrText.text, accept_front front hseven]
    cases quad with
    | none =>
      have hlen : front.length + groups.length ≤ 8 := hcount
      rcases List.eq_nil_or_concat' groups with rfl | ⟨more, last, rfl⟩
      · -- `::` で終わる
        show (accept _ []).bind _ = _
        rw [accept, scan, Option.bind_some]
        show (Scan.finish _ []).bind _ = _
        rw [Scan.finish, if_pos rfl, dif_neg (fun hne => hne rfl), if_pos rfl, ← hbuild,
          List.append_nil]
        rfl
      · rw [List.length_append, List.length_singleton] at hlen
        rw [accept_groups more last (by omega), hbuild]
        rfl
    | some q =>
      have hlen : front.length + (groups.length + 2) ≤ 8 := hcount
      rw [accept_quad groups q (by omega) (.inr (by simp)), hbuild]
      rfl

end Net.Ipaddr6
