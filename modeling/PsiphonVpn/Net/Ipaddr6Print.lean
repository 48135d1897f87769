import PsiphonVpn.Net.Ipaddr6Parse

/-!
# IPv6 address の印字

`ipaddr6_print_addr` の印字する text は、最も長い 0 の group の並びのうち最初のものだけを `::` に縮めたものであり、
`ipaddr6_parse_ipv6_addr_bin` で読むと元の address に戻る。

* `RunSearch.loop_searched` — 並びを探す loop は、最も長いもののうち最初のものを見つける
* `printAddr_roundtrip` — 往復
-/

namespace Net.Ipaddr6

open Infra

/-! ## 0 の group の並び -/

/-- `start` からの `len` 個の group が 0 である。 -/
def ZeroRun (groups : List Nat) (start len : Nat) : Prop := ∀ i, start ≤ i → i < start + len →
    groups[i]? = some 0

/-- `start` からの `len` 個が、最初の `bound` 個の中の最も長い 0 の並びのうち、最初のものである。 -/
structure FirstLongestWithin (groups : List Nat) (bound start len : Nat) : Prop where
  inside : start + len ≤ bound
  zero : ZeroRun groups start len
  longest : ∀ s l, s + l ≤ bound → ZeroRun groups s l → l ≤ len ∧ (l = len → 0 < l → start ≤ s)

/-- `i` 番目の手前までを見た loop の変数。 -/
structure RunSearch.Searched (groups : List Nat) (i : Nat) (r : RunSearch) : Prop where
  current_end : r.currentStart + r.currentLen = i
  current_zero : ZeroRun groups r.currentStart r.currentLen
  /-- 今の並びは左に延ばせない。 -/
  current_first : ∀ s l, s + l = i → ZeroRun groups s l → 0 < l → r.currentStart ≤ s
  largest : FirstLongestWithin groups i r.largestStart r.largestLen

variable {groups : List Nat} {i block : Nat} {r : RunSearch}

variable {start len n : Nat} {bytes : List UInt8}

theorem ZeroRun.succ (h : ZeroRun groups start len) (hnext : groups[start + len]? = some 0) :
    ZeroRun groups start (len + 1) := by
  intro j hlo hhi
  by_cases hj : j = start + len
  · rw [hj]
    exact hnext
  · exact h j hlo (by omega)

theorem ZeroRun.of_succ (h : ZeroRun groups start (len + 1)) : ZeroRun groups start len :=
  fun j hlo hhi => h j hlo (by omega)

theorem RunSearch.Searched.start_le (h : r.Searched groups i) {s l : Nat} (hend : s + l = i + 1)
    (hrun : ZeroRun groups s l) (hpos : 0 < l) : r.currentStart ≤ s := by
  obtain ⟨l, rfl⟩ := Nat.exists_eq_succ_of_ne_zero (Nat.ne_of_gt hpos)
  have hcur := h.current_end
  by_cases hl : l = 0
  · omega
  · exact h.current_first s l (by omega) hrun.of_succ (by omega)

theorem RunSearch.Searched.step (h : r.Searched groups i) (hblock : groups[i]? = some block) :
    (r.step i block).Searched groups (i + 1) := by
  have hcur := h.current_end
  have hin := h.largest.inside
  unfold RunSearch.step
  split
  next hzero =>
    subst hzero
    have hnext : ZeroRun groups r.currentStart (r.currentLen + 1) :=
      h.current_zero.succ (by rw [hcur]; exact hblock)
    split
    next hlt =>
      refine ⟨?_, hnext, fun s l hend hrun hpos => h.start_le hend hrun hpos, ?_, hnext,
        fun s l hbound hrun => ?_⟩
      · show r.currentStart + (r.currentLen + 1) = i + 1
        omega
      · show r.currentStart + (r.currentLen + 1) ≤ i + 1
        omega
      · show l ≤ r.currentLen + 1 ∧ (l = r.currentLen + 1 → 0 < l → r.currentStart ≤ s)
        by_cases hold : s + l ≤ i
        · have hle := (h.largest.longest s l hold hrun).1
          omega
        · by_cases hpos : 0 < l
          · have hstart := h.start_le (by omega) hrun hpos
            omega
          · omega
    next hge =>
      refine ⟨?_, hnext, fun s l hend hrun hpos => h.start_le hend hrun hpos, ?_, h.largest.zero,
        fun s l hbound hrun => ?_⟩
      · show r.currentStart + (r.currentLen + 1) = i + 1
        omega
      · show r.largestStart + r.largestLen ≤ i + 1
        omega
      · show l ≤ r.largestLen ∧ (l = r.largestLen → 0 < l → r.largestStart ≤ s)
        by_cases hold : s + l ≤ i
        · exact h.largest.longest s l hold hrun
        · by_cases hpos : 0 < l
          · have hstart := h.start_le (by omega) hrun hpos
            omega
          · omega
  next hne =>
    -- `i` 番目を含む並びは無い
    have hnot : ∀ s l, s + l = i + 1 → ZeroRun groups s l → l = 0 := by
      intro s l hend hrun
      by_contra hl
      have hi := hrun i (by omega) (by omega)
      exact hne (Option.some.inj (hblock.symm.trans hi))
    refine ⟨rfl, fun j hlo hhi => ?_, fun s l hend hrun hpos => ?_, ?_, h.largest.zero,
      fun s l hbound hrun => ?_⟩
    · exact absurd hhi (by show ¬j < i + 1 + 0; change i + 1 ≤ j at hlo; omega)
    · have := hnot s l hend hrun
      omega
    · show r.largestStart + r.largestLen ≤ i + 1
      omega
    · show l ≤ r.largestLen ∧ (l = r.largestLen → 0 < l → r.largestStart ≤ s)
      by_cases hold : s + l ≤ i
      · exact h.largest.longest s l hold hrun
      · have := hnot s l (by omega) hrun
        omega

theorem RunSearch.loop_searched (pre rest : List Nat) (hgroups : groups = pre ++ rest)
    (h : r.Searched groups pre.length) :
    (r.loop pre.length rest).Searched groups groups.length := by
  induction rest generalizing pre r with
  | nil =>
    rw [List.append_nil] at hgroups
    rw [RunSearch.loop, hgroups]
    rw [hgroups] at h
    exact h
  | cons block rest ih =>
    have hblock : groups[pre.length]? = some block := by
      rw [hgroups]
      simp
    have hnext := ih (pre ++ [block]) (by rw [hgroups]; simp)
      (by rw [List.length_append]; exact h.step hblock)
    rw [List.length_append, List.length_singleton] at hnext
    exact hnext

theorem searchRuns (groups : List Nat) :
    FirstLongestWithin groups groups.length (RunSearch.loop ⟨0, 0, 0, 0⟩ 0 groups).largestStart
      (RunSearch.loop ⟨0, 0, 0, 0⟩ 0 groups).largestLen := by
  have hnone : ∀ s, ZeroRun groups s 0 := fun s j hlo hhi => absurd hhi (by omega)
  have hinit : (⟨0, 0, 0, 0⟩ : RunSearch).Searched groups 0 := by
    refine ⟨rfl, hnone 0, fun s l _ _ _ => Nat.zero_le s, Nat.le_refl 0, hnone 0,
      fun s l hbound _ => ?_⟩
    omega
  exact (RunSearch.loop_searched [] groups rfl hinit).largest

/-! ## `%x` -/

theorem decodeHexDigit_digitChar {d : Nat} (h : d < 16) :
    decodeHexDigit d.digitChar.toUInt8 = some d := by
  have hall : ∀ d : Fin 16, decodeHexDigit (Nat.digitChar d).toUInt8 = some d.val := by decide
  exact hall ⟨d, h⟩

theorem digits_of_lt (h : n < 16) : BAddr.digits 16 n = [n.digitChar.toUInt8] := by
  rw [BAddr.digits, Nat.toDigits_of_lt_base h]
  rfl

theorem digits_of_le (h : 16 ≤ n) :
    BAddr.digits 16 n = BAddr.digits 16 (n / 16) ++ [(n % 16).digitChar.toUInt8] := by
  rw [BAddr.digits, Nat.toDigits_of_base_le (by decide) h, List.map_append]
  rfl

theorem isSome_of_mem_digits (n : Nat) : ∀ c ∈ BAddr.digits 16 n, (decodeHexDigit c).isSome := by
  induction n using Nat.strongRecOn with
  | ind n ih =>
    intro c hc
    by_cases hlt : n < 16
    · rw [digits_of_lt hlt, List.mem_singleton] at hc
      rw [hc, decodeHexDigit_digitChar hlt]
      rfl
    · rw [digits_of_le (Nat.not_lt.mp hlt)] at hc
      rcases List.mem_append.mp hc with hc | hc
      · exact ih (n / 16) (by omega) c hc
      · rw [List.mem_singleton.mp hc, decodeHexDigit_digitChar (by omega)]
        rfl

theorem hexValue_digits (n : Nat) : hexValue (BAddr.digits 16 n) = n := by
  induction n using Nat.strongRecOn with
  | ind n ih =>
    by_cases hlt : n < 16
    · have hvalue := hexValue_append_singleton [] (decodeHexDigit_digitChar hlt)
      rw [List.nil_append] at hvalue
      rw [digits_of_lt hlt, hvalue]
      exact Nat.zero_add n
    · rw [digits_of_le (Nat.not_lt.mp hlt),
        hexValue_append_singleton _ (decodeHexDigit_digitChar (by omega : n % 16 < 16)),
        ih (n / 16) (by omega)]
      omega

theorem digits_ne_nil (n : Nat) : BAddr.digits 16 n ≠ [] := by
  rw [BAddr.digits, ne_eq, List.map_eq_nil_iff]
  exact Nat.toDigits_ne_nil

theorem length_digits_le (h : n ≤ 65535) : (BAddr.digits 16 n).length ≤ 4 := by
  rw [BAddr.digits, List.length_map]
  exact (Nat.length_toDigits_le_iff (by decide) (by decide)).mpr (by omega)

/-- 印字した group。 -/
def hexGroup (n : Nat) (h : n ≤ 65535) : Group where
  text := BAddr.digits 16 n
  digits := isSome_of_mem_digits n
  le := by rw [hexValue_digits]; exact h
  nonempty := digits_ne_nil n

/-! ## byte の列と group -/

theorem words_le : ∀ w ∈ BAddr.words bytes, w ≤ 65535 := by
  fun_induction BAddr.words bytes with
  | case1 hi lo rest ih =>
    intro w hw
    rcases List.mem_cons.mp hw with rfl | hw
    · have hhi := hi.toNat_lt
      have hlo := lo.toNat_lt
      omega
    · exact ih w hw
  | case2 => nofun

theorem blockBytes_word (hi lo : UInt8) : blockBytes (256 * hi.toNat + lo.toNat) = [hi, lo] := by
  have hlo := lo.toNat_lt
  have hhi := hi.toNat_lt
  have h₁ : UInt8.ofNat ((256 * hi.toNat + lo.toNat) / 256) = hi := by
    rw [show (256 * hi.toNat + lo.toNat) / 256 = hi.toNat by omega, UInt8.ofNat_toNat]
  have h₂ : UInt8.ofNat (256 * hi.toNat + lo.toNat) = lo := by
    refine UInt8.toNat_inj.mp ?_
    rw [UInt8.toNat_ofNat']
    omega
  rw [blockBytes, h₁, h₂]

theorem flatMap_blockBytes_words (h : bytes.length % 2 = 0) :
    (BAddr.words bytes).flatMap blockBytes = bytes := by
  fun_induction BAddr.words bytes with
  | case1 hi lo rest ih =>
    rw [List.flatMap_cons, blockBytes_word, ih (by simp only [List.length_cons] at h; omega)]
    rfl
  | case2 bytes hshort =>
    match bytes with
    | [] => rfl
    | [b] => simp at h
    | hi :: lo :: rest => exact absurd rfl (hshort hi lo rest)

theorem length_words : (BAddr.words bytes).length = bytes.length / 2 := by
  fun_induction BAddr.words bytes with
  | case1 hi lo rest ih =>
    simp only [List.length_cons, ih]
    omega
  | case2 bytes hshort =>
    match bytes with
    | [] => rfl
    | [b] => simp
    | hi :: lo :: rest => exact absurd rfl (hshort hi lo rest)

/-- group の列の印字。 -/
def hexGroups (words : List Nat) (h : ∀ w ∈ words, w ≤ 65535) : List Group := words.pmap hexGroup h

theorem map_hexGroups {β : Type} {f : Group → β} {g : Nat → β}
    (hfg : ∀ w hw, f (hexGroup w hw) = g w) (words : List Nat) (h : ∀ w ∈ words, w ≤ 65535) :
    (hexGroups words h).map f = words.map g := by
  induction words with
  | nil => rfl
  | cons w words ih =>
    rw [hexGroups, List.pmap_cons, List.map_cons, hfg, List.map_cons, ← hexGroups, ih]

theorem map_text_hexGroups (words : List Nat) (h : ∀ w ∈ words, w ≤ 65535) :
    (hexGroups words h).map (·.text) = words.map (BAddr.digits 16) :=
      map_hexGroups (fun _ _ => rfl) words h

theorem flatMap_bytes_hexGroups (words : List Nat) (h : ∀ w ∈ words, w ≤ 65535) :
    (hexGroups words h).flatMap Group.bytes = words.flatMap blockBytes := by
  have hbytes : ∀ w hw, (hexGroup w hw).bytes = blockBytes w :=
    fun w hw => congrArg blockBytes (hexValue_digits w)
  rw [List.flatMap_def, map_hexGroups hbytes, ← List.flatMap_def]

theorem length_hexGroups (words : List Nat) (h : ∀ w ∈ words, w ≤ 65535) :
    (hexGroups words h).length = words.length :=
  List.length_pmap

/-! ## 印字した text -/

/-- `::` の前。group が無ければ `:` を足す。 -/
theorem print_front (words : List Nat) :
    words.flatMap (fun w => BAddr.digits 16 w ++ [colon]) ++ (if words = [] then [colon] else []) =
      [colon].intercalate (words.map (BAddr.digits 16)) ++ [colon] := by
  rcases List.eq_nil_or_concat' words with rfl | ⟨words, w, rfl⟩
  · rfl
  · rw [if_neg (by simp), List.append_nil, List.map_append, List.map_singleton, intercalate_concat,
      List.flatMap_append, List.flatMap_map, List.flatMap_singleton, List.append_assoc]

/-- `::` の後。group が無ければ `:` を足す。 -/
theorem print_rear (words : List Nat) :
    words.flatMap (fun w => colon :: BAddr.digits 16 w) ++ (if words = [] then [colon] else []) =
      colon :: [colon].intercalate (words.map (BAddr.digits 16)) := by
  induction words with
  | nil => rfl
  | cons w words ih =>
    rw [if_neg (by simp), List.append_nil, List.flatMap_cons]
    cases words with
    | nil => simp [List.intercalate]
    | cons v words =>
      rw [if_neg (by simp), List.append_nil] at ih
      rw [ih]
      simp [List.intercalate]

theorem intercalate_append (sep : UInt8) {l m : List (List UInt8)} (hl : l ≠ []) (hm : m ≠ []) :
    [sep].intercalate (l ++ m) = [sep].intercalate l ++ [sep] ++ [sep].intercalate m := by
  obtain ⟨l, x, rfl⟩ := (List.eq_nil_or_concat' l).resolve_left hl
  obtain ⟨m, y, rfl⟩ := (List.eq_nil_or_concat' m).resolve_left hm
  rw [← List.append_assoc, intercalate_concat, intercalate_concat, intercalate_concat]
  simp

/-- `%x` の文字は、group 一つにつき四つまでである。 -/
theorem length_intercalate_digits {words : List Nat} (h : ∀ w ∈ words, w ≤ 65535) :
    ([colon].intercalate (words.map (BAddr.digits 16))).length ≤ 5 * words.length - 1 := by
  induction words with
  | nil => decide
  | cons w words ih =>
    have hw := length_digits_le (h w List.mem_cons_self)
    have hrest := ih fun v hv => h v (List.mem_cons_of_mem w hv)
    cases words with
    | nil =>
      simp only [List.map_cons, List.map_nil, List.intercalate_singleton, List.length_singleton]
      omega
    | cons v words =>
      have hsplit := intercalate_append colon (l := [BAddr.digits 16 w])
        (m := (v :: words).map (BAddr.digits 16)) (by simp)
        (by simp)
      rw [List.map_cons, ← List.singleton_append (l := List.map _ _), hsplit,
        List.intercalate_singleton, List.length_append, List.length_append, List.length_singleton]
      simp only [List.length_cons] at hrest ⊢
      omega

section

variable (addr : Vector UInt8 16)

theorem length_words_addr : (BAddr.words addr.toList).length = 8 := by
  rw [length_words, addr.length_toList]

/-- `::` に縮める並び。長さが 1 までなら縮めない。 -/
def largestRun : Nat × Nat :=
  let run := RunSearch.loop ⟨0, 0, 0, 0⟩ 0 (BAddr.words addr.toList)
  (run.largestStart, run.largestLen)

/-- 印字した text の形。 -/
def printed : AddrText :=
  let words := BAddr.words addr.toList
  if 1 < (largestRun addr).2 then
    .compressed (hexGroups (words.take (largestRun addr).1) fun w hw =>
      words_le w (List.mem_of_mem_take hw))
      ⟨hexGroups (words.drop ((largestRun addr).1 + (largestRun addr).2)) fun w hw =>
        words_le w (List.mem_of_mem_drop hw), none⟩
  else .full ⟨hexGroups words words_le, none⟩

theorem tail_text_hexGroups (words : List Nat) (h : ∀ w ∈ words, w ≤ 65535) :
    Tail.text ⟨hexGroups words h, none⟩ = [colon].intercalate (words.map (BAddr.digits 16)) := by
  rw [Tail.text, map_text_hexGroups]
  exact congrArg _ (List.append_nil _)

theorem largestRun_first :
    FirstLongestWithin (BAddr.words addr.toList) 8 (largestRun addr).1 (largestRun addr).2 := by
  have h := searchRuns (BAddr.words addr.toList)
  rw [length_words_addr] at h
  exact h

theorem printAddr_eq : printAddr addr =
    if 1 < (largestRun addr).2 then
      ((BAddr.words addr.toList).take (largestRun addr).1).flatMap
        (fun block => BAddr.digits 16 block ++ [colon]) ++
        (if (largestRun addr).1 = 0 then [colon] else []) ++
        ((BAddr.words addr.toList).drop ((largestRun addr).1 + (largestRun addr).2)).flatMap
          (fun block => colon :: BAddr.digits 16 block) ++
        (if (largestRun addr).1 + (largestRun addr).2 = 8 then [colon] else [])
    else [colon].intercalate ((BAddr.words addr.toList).map (BAddr.digits 16)) := rfl

theorem text_printed : (printed addr).text =
    if 1 < (largestRun addr).2 then
      [colon].intercalate (((BAddr.words addr.toList).take (largestRun addr).1).map
        (BAddr.digits 16)) ++ [colon, colon] ++
        [colon].intercalate
          (((BAddr.words addr.toList).drop ((largestRun addr).1 + (largestRun addr).2)).map
            (BAddr.digits 16))
    else [colon].intercalate ((BAddr.words addr.toList).map (BAddr.digits 16)) := by
  unfold printed
  by_cases hlong : 1 < (largestRun addr).2
  · rw [if_pos hlong, if_pos hlong]
    show [colon].intercalate _ ++ [colon, colon] ++ Tail.text _ = _
    rw [map_text_hexGroups, tail_text_hexGroups]
  · rw [if_neg hlong, if_neg hlong]
    show Tail.text _ = _
    rw [tail_text_hexGroups]

theorem printAddr_eq_text : printAddr addr = (printed addr).text := by
  have hlen := length_words_addr addr
  have hin := (largestRun_first addr).inside
  rw [printAddr_eq, text_printed]
  by_cases hlong : 1 < (largestRun addr).2
  · have hstart : (largestRun addr).1 = 0 ↔
        (BAddr.words addr.toList).take (largestRun addr).1 = [] := by
      rw [← List.length_eq_zero_iff, List.length_take]
      omega
    have hend : (largestRun addr).1 + (largestRun addr).2 = 8 ↔
        (BAddr.words addr.toList).drop ((largestRun addr).1 + (largestRun addr).2) = [] := by
      rw [← List.length_eq_zero_iff, List.length_drop]
      omega
    rw [if_pos hlong, if_pos hlong]
    simp only [hstart, hend]
    rw [List.append_assoc, print_rear, print_front]
    simp
  · rw [if_neg hlong, if_neg hlong]

theorem flatMap_blockBytes_replicate (n : Nat) :
    (List.replicate n 0).flatMap blockBytes = List.replicate (2 * n) 0 := by
  induction n with
  | zero => rfl
  | succ n ih =>
    rw [List.replicate_succ, List.flatMap_cons, ih]
    rfl

/-- 0 の並びを除いた残りから、元の列が分かる。 -/
theorem ZeroRun.eq_append {groups : List Nat} (h : ZeroRun groups start len)
    (hin : start + len ≤ groups.length) :
    groups = groups.take start ++ List.replicate len 0 ++ groups.drop (start + len) := by
  have hmid : (groups.drop start).take len = List.replicate len 0 := by
    refine List.eq_replicate_iff.mpr
      ⟨by rw [List.length_take, List.length_drop]; omega, fun w hw => ?_⟩
    obtain ⟨j, hj⟩ := List.mem_iff_getElem?.mp hw
    rw [List.getElem?_take] at hj
    split at hj
    next hlt =>
      rw [List.getElem?_drop, h (start + j) (by omega) (by omega)] at hj
      exact (Option.some.inj hj).symm
    next => cases hj
  rw [← hmid, List.append_assoc, ← List.drop_drop, List.take_append_drop, List.take_append_drop]

theorem printed_wellFormed : (printed addr).WellFormed := by
  have hlen := length_words_addr addr
  have hin := (largestRun_first addr).inside
  unfold printed
  by_cases hlong : 1 < (largestRun addr).2
  · rw [if_pos hlong]
    show _ + (_ + 0) ≤ 7
    rw [length_hexGroups, length_hexGroups, List.length_take, List.length_drop]
    omega
  · rw [if_neg hlong]
    show _ + 0 = 8
    rw [length_hexGroups, hlen]

theorem printed_bytes : (printed addr).bytes = addr.toList := by
  have hlen := length_words_addr addr
  have hin := (largestRun_first addr).inside
  have hbytes : (BAddr.words addr.toList).flatMap blockBytes = addr.toList :=
    flatMap_blockBytes_words (by rw [addr.length_toList])
  unfold printed
  by_cases hlong : 1 < (largestRun addr).2
  · rw [if_pos hlong]
    have hsplit := (largestRun_first addr).zero.eq_append (by omega)
    have hparts : ((BAddr.words addr.toList).take (largestRun addr).1).flatMap blockBytes ++
        List.replicate (2 * (largestRun addr).2) 0 ++
        ((BAddr.words addr.toList).drop ((largestRun addr).1 + (largestRun addr).2)).flatMap
          blockBytes = addr.toList := by
      rw [← flatMap_blockBytes_replicate, ← List.flatMap_append, ← List.flatMap_append, ← hsplit,
        hbytes]
    have hzeros : 8 - (min (largestRun addr).1
        8 + (8 - ((largestRun addr).1 + (largestRun addr).2) + 0)) =
        (largestRun addr).2 := by omega
    show _ ++ List.replicate (2 * (8 - (_ + (_ + 0)))) 0 ++ (_ ++ []) = _
    rw [flatMap_bytes_hexGroups, length_hexGroups, length_hexGroups, flatMap_bytes_hexGroups,
      List.append_nil, List.length_take, List.length_drop, hlen, hzeros, hparts]
  · rw [if_neg hlong]
    show _ ++ [] = _
    rw [flatMap_bytes_hexGroups, List.append_nil, hbytes]

theorem length_printAddr_le : (printAddr addr).length ≤ 43 := by
  have hlen := length_words_addr addr
  have hin := (largestRun_first addr).inside
  rw [printAddr_eq_text, text_printed]
  split
  · have hfront := @length_intercalate_digits ((BAddr.words addr.toList).take (largestRun addr).1)
      fun w hw => words_le w (List.mem_of_mem_take hw)
    have hrear := @length_intercalate_digits
      ((BAddr.words addr.toList).drop ((largestRun addr).1 + (largestRun addr).2))
      fun w hw => words_le w (List.mem_of_mem_drop hw)
    have htwo : [colon, colon].length = 2 := rfl
    rw [List.length_take] at hfront
    rw [List.length_drop] at hrear
    rw [List.length_append, List.length_append]
    omega
  · have hall := @length_intercalate_digits (BAddr.words addr.toList) words_le
    omega

end

/--
**印字した IPv6 address は、読むと元に戻る。**

どの address でも、`ipaddr6_print_addr` の書く text は `IPADDR6_PRINT_MAX - 1` 文字までであり、
二つ以上の 0 の group の並びのうち、最も長いものの最初だけを `::` に縮めたもので、`ipaddr6_parse_ipv6_addr_bin` で読むと元の address になる。
-/
theorem printAddr_roundtrip (addr out : Vector UInt8 16) (quad : Vector UInt8 4) :
    (printAddr addr).length ≤ 44 - 1 ∧
    (∃ start len, FirstLongestWithin (BAddr.words addr.toList) 8 start len ∧
      printAddr addr =
        if 1 < len then
          [colon].intercalate (((BAddr.words addr.toList).take start).map (BAddr.digits 16)) ++
            [colon, colon] ++
            [colon].intercalate (((BAddr.words addr.toList).drop (start + len)).map
              (BAddr.digits 16))
        else [colon].intercalate ((BAddr.words addr.toList).map (BAddr.digits 16))) ∧
    parseAddr (printAddr addr) out quad = .ok addr.toList := by
  refine ⟨length_printAddr_le addr, ⟨_, _, largestRun_first addr, ?_⟩, ?_⟩
  · rw [printAddr_eq_text, text_printed]
  · exact parseAddr_eq_ok_iff.mpr
      ⟨printed addr, (printAddr_eq_text addr).symm, (printed_wellFormed addr).accepted,
        (printed_bytes addr).symm⟩

end Net.Ipaddr6
