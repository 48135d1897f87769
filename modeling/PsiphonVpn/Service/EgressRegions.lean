import PsiphonVpn.Infra.SearchTree
import Mathlib.Data.List.DropRight
import Mathlib.Data.List.Forall2

/-!
# 埋め込みの server entry から egress region を取り出す

`Utils.egressRegionsFromEmbeddedServers` は server entry の一覧を一行ずつ 16 進から戻し、空白で区切った四つの
古い欄を飛ばして、五つ目の欄の JSON から `region` を読む。集めた region は大文字と小文字を区別しない順の
`TreeSet` に入る。

* `parseInt` — `hexDecode` が二文字ごとに呼ぶ `Integer.parseInt(s, 16)`。符号と、Unicode の他の数字も受け取る
* `split_eq` — `limit` のある `split` は、残りを最後の欄にまとめる
* `LineRegion` — 一行が表す region。`hexDecode` とは別に、16 進の数字だけから定める
* `Readable` — 一行から読める region。`parseInt` の受け取る組も含む
* `egressLoop_spec` — 行を順に処理した結果

文字列は Java と同じく UTF-16 の code unit の列である。文字の表 `CharTable` は端末の Unicode の版によるので、
ASCII の数字のほかは何も仮定しない。JSON の解析は `region` として与える。
-/

namespace Service.EgressRegions

open Infra

abbrev Str := List UInt16

/-- ASCII の文字からなる文字列。 -/
def ascii (s : String) : Str := s.toList.map fun c => UInt16.ofNat c.toNat

def newline : UInt16 := 10
def space : UInt16 := 32
def plus : UInt16 := 43
def minus : UInt16 := 45

/-- 16 進の数字 `0-9`、`a-f`、`A-F` の値。 -/
def hexDigit (c : UInt16) : Option (Fin 16) :=
  if 48 ≤ c ∧ c ≤ 57 then some (Fin.ofNat 16 (c.toNat - 48))
  else if 97 ≤ c ∧ c ≤ 102 then some (Fin.ofNat 16 (c.toNat - 87))
  else if 65 ≤ c ∧ c ≤ 70 then some (Fin.ofNat 16 (c.toNat - 55))
  else none

/-- 端末の `java.lang.Character` の表。 -/
structure CharTable where
  /-- `Character.digit(c, 16)`。負の値は `none` である。 -/
  digit : UInt16 → Option (Fin 16)
  isWhitespace : UInt16 → Bool
  toUpperCase : UInt16 → UInt16
  toLowerCase : UInt16 → UInt16
  digit_ascii : ∀ c, c < 128 → digit c = hexDigit c

/-- 投げられる例外。 -/
inductive Thrown
  | illegalArgument (message : String)
  | numberFormat (input : Str)
  | indexOutOfBounds
  deriving DecidableEq, Repr

/-- `NumberFormatException` は `IllegalArgumentException` の子 class である。 -/
def Thrown.isIllegalArgument : Thrown → Bool
  | illegalArgument _ | numberFormat _ => true
  | indexOutOfBounds => false

section Model

variable (chars : CharTable)

/-! ## 標準 library -/

/-- 桁を負の数に溜める loop。 -/
def parseIntLoop (s : Str) (limit : Int) : Int → Str → Except Thrown Int
  | result, [] => .ok result
  | result, c :: rest =>
    match chars.digit c with
    | none => .error (.numberFormat s)
    | some digit =>
      if result < limit.tdiv 16 then .error (.numberFormat s)
      else if result * 16 < limit + digit.val then .error (.numberFormat s)
      else parseIntLoop s limit (result * 16 - digit.val) rest

/-- `Integer.parseInt(s, 16)`。 -/
def parseInt (s : Str) : Except Thrown Int :=
  match s with
  | [] => .error (.numberFormat s)
  | firstChar :: rest =>
    if firstChar < 48 then
      if firstChar = minus then
        if rest = [] then .error (.numberFormat s) else parseIntLoop chars s (-2147483648) 0 rest
      else if firstChar = plus then
        if rest = [] then .error (.numberFormat s)
        else (parseIntLoop chars s (-2147483647) 0 rest).map (- ·)
      else .error (.numberFormat s)
    else (parseIntLoop chars s (-2147483647) 0 s).map (- ·)

/-- Kotlin の `trim`。両端の空白を除く。 -/
def trim (s : Str) : Str := (s.dropWhile chars.isWhitespace).rdropWhile chars.isWhitespace

/-- Kotlin の `split` の loop。`size` は `result.size`、`piece` は `currentOffset` から先の読んだ部分。 -/
def splitLoop (delimiter : UInt16) (limit : Nat) : Nat → Str → Str → List Str
  | _, piece, [] => [piece]
  | size, piece, c :: rest =>
    if c = delimiter then
      if 0 < limit ∧ size + 1 = limit - 1 then [piece, rest]
      else piece :: splitLoop delimiter limit (size + 1) [] rest
    else splitLoop delimiter limit size (piece ++ [c]) rest

/-- 一文字の区切りによる `split(delimiter, limit = limit)`。`limit` の 0 は制限なしである。 -/
def split (delimiter : UInt16) (limit : Nat) (s : Str) : List Str :=
  if limit = 1 then [s] else splitLoop delimiter limit 0 [] s

/-- `String.CASE_INSENSITIVE_ORDER`。 -/
def compareIgnoreCase : Str → Str → Ordering
  | [], [] => .eq
  | [], _ :: _ => .lt
  | _ :: _, [] => .gt
  | c1 :: s1, c2 :: s2 =>
    if c1 = c2 then compareIgnoreCase s1 s2
    else if chars.toUpperCase c1 = chars.toUpperCase c2 then compareIgnoreCase s1 s2
    else if chars.toLowerCase (chars.toUpperCase c1) = chars.toLowerCase (chars.toUpperCase c2) then
      compareIgnoreCase s1 s2
    else compare (chars.toLowerCase (chars.toUpperCase c1))
      (chars.toLowerCase (chars.toUpperCase c2))

/-! ## `Utils` -/

/-- `hexDecode` の loop。`substring(i, i + 2)` の終わりは、長さが偶数なら文字列の中にある。 -/
def hexDecodeLoop : Str → Except Thrown Str
  | [] => .ok []
  | [_] => .error .indexOutOfBounds
  | a :: b :: rest => do
    let decimal ← parseInt chars [a, b]
    let decoded ← hexDecodeLoop rest
    return UInt16.ofInt decimal :: decoded

def hexDecode (s : Str) : Except Thrown (Option Str) :=
  if s.length % 2 ≠ 0 then .ok none else (hexDecodeLoop chars s).map some

/-- 古い形式の四つの欄を飛ばした JSON。 -/
def jsonPart : List Str → Option Str
  | [_, _, _, _, json] => some json
  | _ => none

variable (region : Str → Option Str)

/-- 空でない一行。`region` は `JSONObject(json).getString("region")` で、`JSONException` は `none` である。 -/
def addLine (lineNum : Nat) (trimmedLine : Str) (egressRegionsSet : List Str) :
    Except Thrown (List Str) := do
  match ← hexDecode chars trimmedLine with
  | none => throw (.illegalArgument s!"Failed to hex decode line: {lineNum}")
  | some decoded =>
    match jsonPart (split space 5 decoded) with
    | none => throw (.illegalArgument s!"Failed to extract JSON from line: {lineNum}")
    | some json =>
      match region json with
      | none => throw (.illegalArgument s!"Failed to parse JSON from line: {lineNum}")
      | some r => return SearchTree.add (compareIgnoreCase chars) id r egressRegionsSet

def egressLoop : Nat → List Str → List Str → Except Thrown (List Str)
  | _, [], egressRegionsSet => .ok egressRegionsSet
  | lineNum, line :: lines, egressRegionsSet =>
    if trim chars line = [] then egressLoop (lineNum + 1) lines egressRegionsSet
    else do
      let egressRegionsSet ← addLine chars region (lineNum + 1) (trim chars line) egressRegionsSet
      egressLoop (lineNum + 1) lines egressRegionsSet

def egressRegionsFromEmbeddedServers (embeddedServersString : Str) : Except Thrown (List Str) :=
  egressLoop chars region 0 (split newline 0 embeddedServersString) []

end Model

/-! ## 行の表すもの -/

/-- 16 進の数字の列が表す文字列。 -/
inductive Decodes : Str → Str → Prop
  | nil : Decodes [] []
  | pair {a b : UInt16} {x y : Fin 16} {rest decoded : Str} (ha : hexDigit a = some x)
      (hb : hexDigit b = some y) (h : Decodes rest decoded) :
      Decodes (a :: b :: rest) (UInt16.ofNat (16 * x.val + y.val) :: decoded)

/-- 空白で区切った欄。 -/
def fields (decoded : Str) : List Str := decoded.splitOn space

/-- 五つ目の欄から終わりまで。 -/
def fifthField (decoded : Str) : Str := [space].intercalate ((fields decoded).drop 4)

/-- 偶数個の 16 進の数字の列である。 -/
def IsHex (line : Str) : Prop := line.length % 2 = 0 ∧ ∀ c ∈ line, (hexDigit c).isSome

/-- 空でない行 `line` が region `r` を表す。 -/
def LineRegion (region : Str → Option Str) (line r : Str) : Prop :=
  ∃ decoded, Decodes line decoded ∧ 5 ≤ (fields decoded).length ∧
    region (fifthField decoded) = some r

/-- 空でない行 `line` が形式に反する。 -/
def Malformed (region : Str → Option Str) (line : Str) : Prop :=
  ¬ IsHex line ∨
    ∃ decoded, Decodes line decoded ∧
      ((fields decoded).length < 5 ∨ 5 ≤ (fields decoded).length ∧
        region (fifthField decoded) = none)

/-- 前後の空白を除いて空でない行。 -/
def entryLines (chars : CharTable) (embeddedServersString : Str) : List Str :=
  ((embeddedServersString.splitOn newline).map (trim chars)).filter (· ≠ [])

/-- `Integer.parseInt(s, 16)` が二文字から読む値。一文字目は符号でもよく、数字は ASCII の外にもある。 -/
inductive PairValue (chars : CharTable) : UInt16 → UInt16 → Int → Prop
  | digits {a b : UInt16} {x y : Fin 16} (ha : chars.digit a = some x)
      (hb : chars.digit b = some y) :
      PairValue chars a b (16 * x.val + y.val : Nat)
  | positive {b : UInt16} {y : Fin 16} (hb : chars.digit b = some y) : PairValue chars plus b y.val
  | negative {b : UInt16} {y : Fin 16}
      (hb : chars.digit b = some y) : PairValue chars minus b (-y.val)

/-- 二文字ずつ `PairValue` で読んだ文字列。16 進の数字の列でなくても読めることがある。 -/
inductive Reads (chars : CharTable) : Str → Str → Prop
  | nil : Reads chars [] []
  | pair {a b : UInt16} {v : Int} {rest decoded : Str} (hv : PairValue chars a b v)
      (h : Reads chars rest decoded) : Reads chars (a :: b :: rest) (UInt16.ofInt v :: decoded)

/-- 空でない行 `line` から、`Reads` によって region `r` が読める。 -/
def Readable (chars : CharTable) (region : Str → Option Str) (line r : Str) : Prop :=
  ∃ decoded, Reads chars line decoded ∧ 5 ≤ (fields decoded).length ∧
    region (fifthField decoded) = some r

/-! ## 16 進の数字 -/

variable {c b a : UInt16} {line decoded : Str}

theorem hexDigit_eq_none_of_lt (h : c < 48) : hexDigit c = none := by
  rw [UInt16.lt_iff_toNat_lt] at h
  simp only [hexDigit, UInt16.le_iff_toNat_le, UInt16.reduceToNat] at h ⊢
  rw [if_neg (by omega), if_neg (by omega), if_neg (by omega)]

theorem hexDigit_eq_none_of_le (h : 128 ≤ c) : hexDigit c = none := by
  simp only [hexDigit, UInt16.le_iff_toNat_le, UInt16.reduceToNat] at h ⊢
  rw [if_neg (by omega), if_neg (by omega), if_neg (by omega)]

theorem IsHex.of_decodes (h : Decodes line decoded) : IsHex line := by
  induction h with
  | nil => exact ⟨rfl, by simp⟩
  | pair ha hb h ih =>
    obtain ⟨hlen, hall⟩ := ih
    refine ⟨by simp only [List.length_cons]; omega, ?_⟩
    simp only [List.mem_cons, forall_eq_or_imp]
    exact ⟨by rw [ha]; rfl, by rw [hb]; rfl, hall⟩

theorem Decodes.unique {decoded' : Str} (h : Decodes line decoded) (h' : Decodes line decoded') :
    decoded = decoded' := by
  induction h generalizing decoded' with
  | nil =>
    cases h'
    rfl
  | pair ha hb h ih =>
    cases h' with
    | pair ha' hb' h' =>
      obtain rfl := Option.some.inj (ha.symm.trans ha')
      obtain rfl := Option.some.inj (hb.symm.trans hb')
      rw [ih h']

theorem LineRegion.not_malformed {region : Str → Option Str} {r : Str}
    (h : LineRegion region line r) : ¬ Malformed region line := by
  obtain ⟨decoded, hdec, hlen, hr⟩ := h
  rintro (hhex | ⟨decoded', hdec', hbad⟩)
  · exact hhex (IsHex.of_decodes hdec)
  · obtain rfl := hdec.unique hdec'
    rcases hbad with hlt | ⟨-, hnone⟩
    · omega
    · rw [hr] at hnone
      cases hnone

theorem IsHex.exists_decodes (h : IsHex line) : ∃ decoded, Decodes line decoded := by
  induction line using hexDecodeLoop.induct with
  | case1 => exact ⟨[], .nil⟩
  | case2 => exact absurd h.1 (by simp)
  | case3 a b rest ih =>
    obtain ⟨hlen, hall⟩ := h
    obtain ⟨x, hx⟩ := Option.isSome_iff_exists.mp (hall a (by simp))
    obtain ⟨y, hy⟩ := Option.isSome_iff_exists.mp (hall b (by simp))
    simp only [List.length_cons] at hlen
    obtain ⟨decoded, hdec⟩ := ih ⟨by omega, fun c hc => hall c (by simp [hc])⟩
    exact ⟨_, .pair hx hy hdec⟩

theorem malformed_of_not_lineRegion {region : Str → Option Str}
    (h : ¬ ∃ r, LineRegion region line r) : Malformed region line := by
  by_cases hhex : IsHex line
  · obtain ⟨decoded, hdec⟩ := hhex.exists_decodes
    refine Or.inr ⟨decoded, hdec, ?_⟩
    rcases Nat.lt_or_ge (fields decoded).length 5 with hlt | hlen
    · exact Or.inl hlt
    · refine Or.inr ⟨hlen, Option.eq_none_iff_forall_ne_some.mpr fun r hr =>
        h ⟨r, decoded, hdec, hlen, hr⟩⟩
  · exact Or.inl hhex

/-! ## `hexDecode` -/

section Pairs

variable {chars : CharTable}

theorem digit_of_hexDigit {x : Fin 16} (h : hexDigit c = some x) : chars.digit c = some x := by
  have hlt : c < 128 := by
    by_contra hge
    rw [hexDigit_eq_none_of_le (UInt16.not_lt.mp hge)] at h
    cases h
  rw [chars.digit_ascii c hlt, h]

/-- `-` と `+` を含む記号は、数字より前にある。 -/
theorem digit_eq_none_of_lt (h : c < 48) : chars.digit c = none := by
  have hlt : c < 128 := UInt16.lt_trans h (by decide)
  rw [chars.digit_ascii c hlt, hexDigit_eq_none_of_lt h]

theorem parseIntLoop_one (s : Str) {y : Fin 16} (hb : chars.digit b = some y) {limit : Int}
    (hdiv : limit.tdiv 16 ≤ 0) (hlimit : limit ≤ -16) :
    parseIntLoop chars s limit 0 [b] = .ok (-y.val) := by
  have hy := y.isLt
  simp only [parseIntLoop, hb]
  rw [if_neg (by omega), if_neg (by omega)]
  congr 1
  omega

/-- 二桁では溢れの検査に掛からない。 -/
theorem parseIntLoop_two (s : Str) {x y : Fin 16} (ha : chars.digit a = some x)
    (hb : chars.digit b = some y) :
    parseIntLoop chars s (-2147483647) 0 [a, b] = .ok (-(16 * x.val + y.val : Nat)) := by
  have hx := x.isLt
  have hy := y.isLt
  have hdiv : (-2147483647 : Int).tdiv 16 = -134217727 := by decide
  simp only [parseIntLoop, ha, hb, hdiv]
  rw [if_neg (by omega), if_neg (by omega), if_neg (by omega), if_neg (by omega)]
  congr 1
  omega

theorem parseIntLoop_bad (s : Str) (h : chars.digit a = none ∨ chars.digit b = none) :
    parseIntLoop chars s (-2147483647) 0 [a, b] = .error (.numberFormat s) := by
  cases ha : chars.digit a with
  | none => simp only [parseIntLoop, ha]
  | some x =>
    rw [ha] at h
    have hb : chars.digit b = none := h.resolve_left nofun
    have hx := x.isLt
    simp only [parseIntLoop, ha, hb]
    rw [if_neg (by decide), if_neg (by omega)]

theorem PairValue.parseInt {v : Int} (h : PairValue chars a b v) :
    parseInt chars [a, b] = .ok v := by
  cases h with
  | digits ha hb =>
    have hge : ¬a < 48 := by
      intro hlt
      rw [digit_eq_none_of_lt hlt] at ha
      cases ha
    rw [EgressRegions.parseInt, if_neg hge, parseIntLoop_two _ ha hb]
    simp [Except.map]
  | positive hb =>
    rw [EgressRegions.parseInt, if_pos (by decide), if_neg (by decide), if_pos rfl,
      if_neg (by simp), parseIntLoop_one _ hb (by decide) (by decide)]
    simp [Except.map]
  | negative hb =>
    rw [EgressRegions.parseInt, if_pos (by decide), if_pos rfl, if_neg (by simp),
      parseIntLoop_one _ hb (by decide) (by decide)]

/-- 値を持たない組は `NumberFormatException` になる。 -/
theorem parseInt_cases (chars : CharTable) (a b : UInt16) :
    (∃ v, PairValue chars a b v) ∨ parseInt chars [a, b] = .error (.numberFormat [a, b]) := by
  cases hb : chars.digit b with
  | some y =>
    cases ha : chars.digit a with
    | some x => exact Or.inl ⟨_, .digits ha hb⟩
    | none =>
      by_cases hminus : a = minus
      · exact Or.inl ⟨_, hminus ▸ PairValue.negative hb⟩
      by_cases hplus : a = plus
      · exact Or.inl ⟨_, hplus ▸ PairValue.positive hb⟩
      rw [parseInt, if_neg hminus, if_neg hplus, parseIntLoop_bad _ (Or.inl ha)]
      exact Or.inr (ite_self _)
  | none =>
    have hone (limit : Int) : parseIntLoop chars [a, b] limit 0 [b] =
        .error (.numberFormat [a, b]) := by
      simp only [parseIntLoop, hb]
    refine Or.inr ?_
    simp only [parseInt, hone, parseIntLoop_bad _ (Or.inr hb), Except.map, ite_self]

theorem ofInt_pair (x y : Fin 16) :
    UInt16.ofInt (16 * x.val + y.val : Nat) = UInt16.ofNat (16 * x.val + y.val) := by
  have hx := x.isLt
  have hy := y.isLt
  rw [UInt16.ofInt]
  congr 1
  omega

theorem Decodes.reads (h : Decodes line decoded) : Reads chars line decoded := by
  induction h with
  | nil => exact .nil
  | @pair a b x y rest decoded ha hb _ ih =>
    rw [← ofInt_pair x y]
    exact .pair (.digits (digit_of_hexDigit ha) (digit_of_hexDigit hb)) ih

theorem Reads.even (h : Reads chars line decoded) : line.length % 2 = 0 := by
  induction h with
  | nil => rfl
  | pair _ _ ih =>
    simp only [List.length_cons]
    omega

theorem Reads.hexDecodeLoop (h : Reads chars line decoded) :
    hexDecodeLoop chars line = .ok decoded := by
  induction h with
  | nil => rfl
  | pair hv _ ih =>
    rw [EgressRegions.hexDecodeLoop, hv.parseInt, ih]
    rfl

theorem Reads.unique {decoded' : Str} (h : Reads chars line decoded)
    (h' : Reads chars line decoded') : decoded = decoded' :=
  Except.ok.inj (h.hexDecodeLoop.symm.trans h'.hexDecodeLoop)

theorem hexDecodeLoop_cases (heven : line.length % 2 = 0) :
    (∃ decoded, Reads chars line decoded) ∨
      ∃ s, hexDecodeLoop chars line = .error (.numberFormat s) := by
  induction line using hexDecodeLoop.induct with
  | case1 => exact Or.inl ⟨[], .nil⟩
  | case2 => exact absurd heven (by simp)
  | case3 a b rest ih =>
    rw [hexDecodeLoop]
    rcases parseInt_cases chars a b with ⟨v, hv⟩ | hparse
    · simp only [List.length_cons] at heven
      rcases ih (by omega) with ⟨decoded, hreads⟩ | ⟨s, hloop⟩
      · exact Or.inl ⟨_, .pair hv hreads⟩
      · rw [hv.parseInt, hloop]
        exact Or.inr ⟨s, rfl⟩
    · rw [hparse]
      exact Or.inr ⟨_, rfl⟩

/-- 16 進の数字の列なら、その表す文字列を読む。 -/
theorem IsHex.decodes_of_reads (hhex : IsHex line) (h : Reads chars line decoded) :
    Decodes line decoded := by
  obtain ⟨decoded', hdec⟩ := hhex.exists_decodes
  have hreads : Reads chars line decoded' := hdec.reads
  rwa [h.unique hreads]

theorem hexDecode_cases (chars : CharTable) (line : Str) :
    (∃ decoded, Reads chars line decoded ∧ hexDecode chars line = .ok (some decoded)) ∨
    ((¬ ∃ decoded, Reads chars line decoded) ∧ (hexDecode chars line = .ok none ∨
      ∃ s, hexDecode chars line = .error (.numberFormat s))) := by
  by_cases heven : line.length % 2 = 0
  · rw [hexDecode, if_neg (by simpa using heven)]
    rcases hexDecodeLoop_cases heven with ⟨decoded, hreads⟩ | ⟨s, hloop⟩
    · rw [hreads.hexDecodeLoop]
      exact Or.inl ⟨decoded, hreads, rfl⟩
    · refine Or.inr ⟨fun ⟨decoded, hreads⟩ => ?_, Or.inr ⟨s, by rw [hloop]; rfl⟩⟩
      rw [hreads.hexDecodeLoop] at hloop
      cases hloop
  · rw [hexDecode, if_pos heven]
    exact Or.inr ⟨fun ⟨_, hreads⟩ => heven hreads.even, Or.inl rfl⟩

end Pairs

/-! ## 欄への分割 -/

theorem modifyHead_nil_append (l : List Str) : l.modifyHead ([] ++ ·) = l := by
  cases l <;> rfl

theorem splitLoop_unlimited (delimiter : UInt16) (size : Nat) (piece s : Str) :
    splitLoop delimiter 0 size piece s = (s.splitOn delimiter).modifyHead (piece ++ ·) := by
  induction s generalizing size piece with
  | nil => simp [splitLoop]
  | cons c rest ih =>
    rw [splitLoop, List.splitOn_cons_eq_if_modifyHead]
    by_cases hc : c = delimiter
    · rw [if_pos hc, if_neg (by simp), if_pos (by simpa using hc), ih, modifyHead_nil_append,
        List.modifyHead_cons, List.append_nil]
    · rw [if_neg hc, if_neg (by simpa using hc), ih, List.modifyHead_modifyHead]
      simp [Function.comp_def]

/-- `limit` がなければ、区切りのすべてで切る。 -/
theorem split_unlimited (delimiter : UInt16) (s : Str) :
    split delimiter 0 s = s.splitOn delimiter := by
  rw [split, if_neg (by decide), splitLoop_unlimited, modifyHead_nil_append]

/-- 初めの `n` 個の欄と、残りをまとめた一つの欄。 -/
def cutFields (delimiter : UInt16) (n : Nat) (fields : List Str) : List Str :=
  if fields.length ≤ n then fields else fields.take n ++ [[delimiter].intercalate (fields.drop n)]

theorem cutFields_cons (delimiter : UInt16) (n : Nat) (piece : Str) (fields : List Str) :
    cutFields delimiter (n + 1) (piece :: fields) = piece :: cutFields delimiter n fields := by
  unfold cutFields
  by_cases hle : fields.length ≤ n
  · rw [if_pos hle, if_pos (by simpa using hle)]
  · rw [if_neg hle, if_neg (by simpa using hle)]
    rfl

/-- あと `n + 1` 回切れる所から。 -/
theorem splitLoop_limited {delimiter : UInt16} {limit size n : Nat} (hn : size + n + 2 = limit)
    (piece s : Str) :
    splitLoop delimiter limit size piece s =
      cutFields delimiter (n + 1) ((s.splitOn delimiter).modifyHead (piece ++ ·)) := by
  induction s generalizing size piece n with
  | nil => simp [splitLoop, cutFields]
  | cons c rest ih =>
    rw [splitLoop, List.splitOn_cons_eq_if_modifyHead]
    by_cases hc : c = delimiter
    · subst hc
      rw [if_pos rfl, BEq.rfl, if_pos rfl, List.modifyHead_cons, cutFields_cons, List.append_nil]
      cases n with
      | zero =>
        have hne : (rest.splitOn c).length ≠ 0 := by simp
        rw [if_pos ⟨by omega, by omega⟩, cutFields, if_neg (by omega)]
        simp
      | succ n =>
        rw [if_neg (by omega), ih (n := n) (by omega), modifyHead_nil_append]
    · rw [if_neg hc, if_neg (by simpa using hc), ih hn, List.modifyHead_modifyHead]
      simp [Function.comp_def]

/-- `limit` があれば、残りを最後の欄にまとめる。 -/
theorem split_eq (delimiter : UInt16) (n : Nat) (s : Str) :
    split delimiter (n + 2) s = cutFields delimiter (n + 1) (s.splitOn delimiter) := by
  rw [split, if_neg (by omega), splitLoop_limited (by omega : 0 + n + 2 = n + 2),
    modifyHead_nil_append]

/-- 五つの欄があるときだけ JSON を取り出し、それは五つ目から後の全体である。 -/
theorem jsonPart_split (decoded : Str) :
    jsonPart (split space 5 decoded) = if 5 ≤ (fields decoded).length then some (fifthField decoded)
      else none := by
  rw [split_eq, cutFields]
  change jsonPart (if (fields decoded).length ≤ 4 then fields decoded else
    (fields decoded).take 4 ++ [fifthField decoded]) = _
  split
  next hle =>
    rw [if_neg (by omega)]
    rcases hf : fields decoded with _ | ⟨a, _ | ⟨b, _ | ⟨c, _ | ⟨d, _ | ⟨e, l⟩⟩⟩⟩⟩
    · rfl
    · rfl
    · rfl
    · rfl
    · rfl
    · simp only [hf, List.length_cons] at hle
      omega
  next hlt =>
    rw [if_pos (by omega)]
    rcases hf : fields decoded with _ | ⟨a, _ | ⟨b, _ | ⟨c, _ | ⟨d, l⟩⟩⟩⟩
    · simp [hf] at hlt
    · simp [hf] at hlt
    · simp [hf] at hlt
    · simp [hf] at hlt
    · rfl

/-! ## 行を順に処理した結果 -/

section Lines

variable {chars : CharTable} (region : Str → Option Str)

theorem addLine_spec (line : Str) (lineNum : Nat) (set : List Str) :
    (∃ r, Readable chars region line r ∧
      addLine chars region lineNum line set =
        .ok (SearchTree.add (compareIgnoreCase chars) id r set)) ∨
    ((¬ ∃ r, Readable chars region line r) ∧
      ∃ e, addLine chars region lineNum line set = .error e ∧ e.isIllegalArgument) := by
  unfold addLine
  rcases hexDecode_cases chars line with ⟨decoded, hreads, hdec⟩ | ⟨hno, hdec⟩
  · rw [hdec]
    simp only [bind, Except.bind, jsonPart_split]
    -- 読み方は一通りなので、ここで止まれば region は読めない
    have hread (r : Str) (h : Readable chars region line r) :
        5 ≤ (fields decoded).length ∧ region (fifthField decoded) = some r := by
      obtain ⟨decoded', hreads', h⟩ := h
      rwa [hreads.unique hreads']
    by_cases hlen : 5 ≤ (fields decoded).length
    · rw [if_pos hlen]
      dsimp only
      cases hr : region (fifthField decoded) with
      | none =>
        refine Or.inr ⟨fun ⟨r, h⟩ => ?_, _, rfl, rfl⟩
        have := hr.symm.trans (hread r h).2
        cases this
      | some r => exact Or.inl ⟨r, ⟨decoded, hreads, hlen, hr⟩, rfl⟩
    · rw [if_neg hlen]
      exact Or.inr ⟨fun ⟨r, h⟩ => hlen (hread r h).1, _, rfl, rfl⟩
  · refine Or.inr ⟨fun ⟨_, decoded, hreads, _⟩ => hno ⟨decoded, hreads⟩, ?_⟩
    rcases hdec with hdec | ⟨s, hdec⟩ <;> rw [hdec] <;> exact ⟨_, rfl, rfl⟩

/-- すべての行から region が読めれば、読んだ region を順に加えた集合になる。読めない行があれば例外になる。 -/
theorem egressLoop_spec (chars : CharTable) (region : Str → Option Str) (lines : List Str)
    (lineNum : Nat) (set : List Str) :
    (∃ occurring, List.Forall₂ (Readable chars region)
        ((lines.map (trim chars)).filter (· ≠ [])) occurring ∧
      egressLoop chars region lineNum lines set =
        .ok (occurring.foldl (fun set r => SearchTree.add (compareIgnoreCase chars) id r set)
          set)) ∨
    ((∃ line ∈ (lines.map (trim chars)).filter (· ≠ []), ¬ ∃ r, Readable chars region line r) ∧
      ∃ e, egressLoop chars region lineNum lines set = .error e ∧ e.isIllegalArgument) := by
  induction lines generalizing lineNum set with
  | nil => exact Or.inl ⟨[], .nil, rfl⟩
  | cons line lines ih =>
    rw [egressLoop]
    by_cases hblank : trim chars line = []
    · rw [List.map_cons, List.filter_cons_of_neg (by simpa using hblank), if_pos hblank]
      exact ih (lineNum + 1) set
    · rw [List.map_cons, List.filter_cons_of_pos (by simpa using hblank), if_neg hblank]
      rcases addLine_spec region (trim chars line) (lineNum + 1) set with
        ⟨r, hregion, hadd⟩ | ⟨hbad, e, hadd, he⟩
      · rw [hadd]
        rcases ih (lineNum + 1) (SearchTree.add (compareIgnoreCase chars) id r set) with
          ⟨occurring, hocc, hloop⟩ | ⟨⟨l, hl, hbad⟩, e, hloop, he⟩
        · exact Or.inl ⟨r :: occurring, .cons hregion hocc, hloop⟩
        · exact Or.inr ⟨⟨l, List.mem_cons_of_mem _ hl, hbad⟩, e, hloop, he⟩
      · rw [hadd]
        exact Or.inr ⟨⟨_, List.mem_cons_self, hbad⟩, e, rfl, he⟩

/-! ## 大文字と小文字を区別しない順 -/

/-- 比べる前に文字を畳む。 -/
def fold (chars : CharTable) (c : UInt16) : UInt16 := chars.toLowerCase (chars.toUpperCase c)

/-- 途中で等しくなった文字を飛ばす比較は、畳んだ文字の辞書式順に等しい。 -/
theorem compareIgnoreCase_eq (s1 s2 : Str) :
    compareIgnoreCase chars s1 s2 = List.compareLex (compareOn (fold chars)) s1 s2 := by
  induction s1 generalizing s2 with
  | nil => cases s2 <;> rfl
  | cons c1 s1 ih =>
    cases s2 with
    | nil => rfl
    | cons c2 s2 =>
      have hskip (h : fold chars c1 = fold chars c2) :
          List.compareLex (compareOn (fold chars)) (c1 :: s1) (c2 :: s2) = compareIgnoreCase chars
            s1 s2 := by
        have hself : compare (fold chars c2) (fold chars c2) = .eq := Std.ReflOrd.compare_self
        rw [List.compareLex_cons_cons, compareOn, h, hself, Ordering.eq_then, ih]
      unfold compareIgnoreCase
      split
      next h => rw [hskip (by rw [h])]
      next =>
        split
        next h => rw [hskip (by rw [fold, h, fold])]
        next =>
          split
          next h => rw [hskip h]
          next h =>
            rw [List.compareLex_cons_cons, compareOn]
            change compare (fold chars c1) (fold chars c2) = _
            cases hcmp : compare (fold chars c1) (fold chars c2) with
            | lt => rfl
            | eq => exact absurd (Std.LawfulEqCmp.eq_of_compare hcmp) h
            | gt => rfl

instance : Std.TransCmp (compareIgnoreCase chars) := by
  have heq : compareIgnoreCase chars = List.compareLex (compareOn (fold chars)) := by
    funext s1 s2
    exact compareIgnoreCase_eq s1 s2
  rw [heq]
  infer_instance

end Lines

/-! ## 取り出した region -/

theorem exists_of_forall₂ {R : Str → Str → Prop} {lines occurring : List Str}
    (h : List.Forall₂ R lines occurring) (hline : line ∈ lines) : ∃ r, R line r := by
  induction h with
  | nil => cases hline
  | cons hr _ ih =>
    rcases List.mem_cons.mp hline with rfl | hline
    · exact ⟨_, hr⟩
    · exact ih hline

/-- 形式に反する行があるときに限って `IllegalArgumentException` になり、ほかのときは、現れた region の最初の綴りを、
大文字と小文字を区別しない順に並べて返す。これが成り立たないのは、16 進の数字の列でない行がありながら、
どの行からも region が読めるときに限る。 -/
theorem egressRegionsFromEmbeddedServers_spec (chars : CharTable) (region : Str → Option Str)
    (embeddedServersString : Str) :
    (((∃ e, egressRegionsFromEmbeddedServers chars region embeddedServersString = .error e ∧
          e.isIllegalArgument) ↔
        ∃ line ∈ entryLines chars embeddedServersString, Malformed region line) ∧
      ((¬ ∃ line ∈ entryLines chars embeddedServersString, Malformed region line) →
        ∃ regions occurring,
          egressRegionsFromEmbeddedServers chars region embeddedServersString = .ok regions ∧
          List.Forall₂ (LineRegion region) (entryLines chars embeddedServersString) occurring ∧
          regions.Pairwise (compareIgnoreCase chars · · = .lt) ∧
          ∀ r, r ∈ regions ↔ ∃ before after, occurring = before ++ r :: after ∧
            ∀ earlier ∈ before, compareIgnoreCase chars r earlier ≠ .eq)) ↔
    ¬ ((∀ line ∈ entryLines chars embeddedServersString, ∃ r, Readable chars region line r) ∧
      ∃ line ∈ entryLines chars embeddedServersString, ¬ IsHex line) := by
  have hloop := egressLoop_spec chars region (embeddedServersString.splitOn newline) 0 []
  rw [← split_unlimited] at hloop
  unfold entryLines
  rw [← split_unlimited]
  change _ ∨
    (_ ∧ ∃ e, egressRegionsFromEmbeddedServers chars region embeddedServersString = .error e ∧ _)
    at hloop
  generalize hlines : ((split newline 0 embeddedServersString).map (trim chars)).filter (· ≠ []) =
    lines
    at hloop ⊢
  rcases hloop with ⟨occurring, hocc, hok⟩ | ⟨⟨line, hline, hbad⟩, e, herr, he⟩
  · change egressRegionsFromEmbeddedServers chars region embeddedServersString = _ at hok
    rw [hok]
    by_cases hhex : ∀ line ∈ lines, IsHex line
    · have hregions : List.Forall₂ (LineRegion region) lines occurring := by
        refine ((List.forall₂_and_left _ _).mpr ⟨hhex, hocc⟩).imp ?_
        rintro line r ⟨hhex, decoded, hreads, h⟩
        exact ⟨decoded, hhex.decodes_of_reads hreads, h⟩
      have hgood : ¬ ∃ line ∈ lines, Malformed region line := by
        rintro ⟨line, hline, hbad⟩
        obtain ⟨r, hr⟩ := exists_of_forall₂ hregions hline
        exact hr.not_malformed hbad
      obtain ⟨hord, hmem⟩ := @SearchTree.ordered_foldl_add _ _ (compareIgnoreCase chars) id _
        occurring
      refine iff_of_true ⟨iff_of_false nofun hgood,
        fun _ => ⟨_, occurring, rfl, hregions, hord, hmem⟩⟩ ?_
      rintro ⟨-, line, hline, hnot⟩
      exact hnot (hhex line hline)
    · obtain ⟨line, hline, hnot⟩ : ∃ line ∈ lines, ¬ IsHex line := by
        simpa only [not_forall, exists_prop] using hhex
      refine iff_of_false (fun h => ?_) fun h =>
        h ⟨fun _ => exists_of_forall₂ hocc, line, hline, hnot⟩
      obtain ⟨e, he, -⟩ := h.1.mpr ⟨line, hline, Or.inl hnot⟩
      cases he
  · have hmalformed : ∃ line ∈ lines, Malformed region line := by
      refine ⟨line, hline, malformed_of_not_lineRegion ?_⟩
      rintro ⟨r, decoded, hdec, h⟩
      exact hbad ⟨r, decoded, hdec.reads, h⟩
    rw [herr]
    exact iff_of_true ⟨iff_of_true ⟨e, rfl, he⟩ hmalformed, fun hgood => absurd hmalformed hgood⟩
      fun h => hbad (h.1 line hline)

/-- ASCII の外を何にも使わない表。 -/
def asciiTable : CharTable where
  digit := hexDigit
  isWhitespace c := c == 32 || 9 ≤ c && c ≤ 13 || 28 ≤ c && c ≤ 31
  toUpperCase c := if 97 ≤ c ∧ c ≤ 122 then c - 32 else c
  toLowerCase c := if 65 ≤ c ∧ c ≤ 90 then c + 32 else c
  digit_ascii _ _ := rfl

/-- `US` の JSON だけを読む。 -/
def usRegion (json : Str) : Option Str :=
  if json = ascii "\x7b\"region\":\"US\"\x7d" then some (ascii "US") else none

/-- 四つの空の欄と `US` の JSON を 16 進で書いた行。 -/
def usLine : Str := ascii "202020207b22726567696f6e223a225553227d"

theorem egressRegionsFromEmbeddedServers_us :
    egressRegionsFromEmbeddedServers asciiTable usRegion (usLine ++ newline :: usLine) =
        .ok [ascii "US"] ∧
      ¬ ∃ line ∈ entryLines asciiTable (usLine ++ newline :: usLine), Malformed usRegion line := by
  have hentries : entryLines asciiTable (usLine ++ newline :: usLine) = [usLine, usLine] := by
    decide +kernel
  have hall : usLine.all (fun c => (hexDigit c).isSome) = true := by decide +kernel
  have hhex : IsHex usLine := ⟨by decide +kernel, List.all_eq_true.mp hall⟩
  have hrun : egressRegionsFromEmbeddedServers asciiTable usRegion (usLine ++ newline :: usLine) =
      .ok [ascii "US"] := by decide +kernel
  have hspec := (egressRegionsFromEmbeddedServers_spec asciiTable usRegion
    (usLine ++ newline :: usLine)).mpr
  rw [hentries] at hspec ⊢
  refine ⟨hrun, fun hbad => ?_⟩
  obtain ⟨e, herr, -⟩ := (hspec fun h => by simpa [hhex] using h.2).1.mpr hbad
  rw [hrun] at herr
  cases herr

/-- `hexDecode` は符号の付いた組 `+f` を受け取る。 -/
theorem egressRegionsFromEmbeddedServers_accepts_sign :
    (∃ line ∈ entryLines asciiTable (ascii "+f" ++ usLine), Malformed usRegion line) ∧
      egressRegionsFromEmbeddedServers asciiTable usRegion (ascii "+f" ++ usLine) =
        .ok [ascii "US"] := by
  have hentries : entryLines asciiTable (ascii "+f" ++ usLine) = [ascii "+f" ++ usLine] := by
    decide +kernel
  have hsign : hexDigit plus = none := by decide
  refine ⟨⟨ascii "+f" ++ usLine, by rw [hentries]; exact List.mem_singleton_self _,
    Or.inl fun hhex => ?_⟩, by decide +kernel⟩
  have hplus := hhex.2 plus List.mem_cons_self
  rw [hsign] at hplus
  cases hplus

end Service.EgressRegions
