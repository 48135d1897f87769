import PsiphonVpn.Manager.Model
import PsiphonVpn.Net.Inet4

/-!
# 私設 address の選択

`PsiphonVpnManager.selectPrivateAddress`。interface に付いた IPv4 address の text を順に調べ、使われている
subnet を候補から外し、残った最初の候補を返す。

subnet に入るかどうかを text の先頭の比較で決めるので、数値の範囲とは一致しない所がある。
-/

namespace Manager

open Net

/-- `InetAddress` -/
inductive InetAddress where
  | inet4 (address : Inet4Address)
  | inet6 (address : Vector UInt8 16)
  deriving DecidableEq, Repr

/-- `NetworkInterface` の `inetAddresses`。 -/
abbrev NetworkInterface := List InetAddress

structure IllegalStateException where
  message : String
  deriving DecidableEq, Repr

/-- `mutableMapOf` は挿入の順を保つ。 -/
abbrev Candidates := List (String × PrivateAddress)

def Candidates.remove (candidates : Candidates) (key : String) : Candidates :=
  candidates.filter (·.1 ≠ key)

def allCandidates : Candidates :=
  [("10", ⟨"10.0.0.1", "10.0.0.0", 8, "10.0.0.2"⟩),
   ("172", ⟨"172.16.0.1", "172.16.0.0", 12, "172.16.0.2"⟩),
   ("192", ⟨"192.168.0.1", "192.168.0.0", 16, "192.168.0.2"⟩),
   ("169", ⟨"169.254.1.1", "169.254.1.0", 24, "169.254.1.2"⟩)]

/-- `when` の三つの枝。外す候補の key を返す。 -/
def keyInUse (ipAddress : List Char) : Option String :=
  if "10.".toList <+: ipAddress then some "10"
  else if 6 ≤ ipAddress.length ∧ textLe "172.16".toList (ipAddress.take 6) ∧
      textLe (ipAddress.take 6) "172.31".toList then
    some "172"
  else if "192.168".toList <+: ipAddress then some "192"
  else none

/-- 一つの address についての `forEach` の中身。 -/
def visit (candidates : Candidates) : InetAddress → Candidates
  | .inet4 address => ((keyInUse address.hostAddress).map candidates.remove).getD candidates
  | .inet6 _ => candidates

/--
`selectPrivateAddress`

引数は `NetworkInterface.getNetworkInterfaces()` の結果である。`SocketException` を投げるか、null を返すか、
interface の列を返す。
-/
def selectPrivateAddress (netInterfaces : Except String (Option (List NetworkInterface))) :
    Except IllegalStateException PrivateAddress :=
  match netInterfaces with
  | .error e => .error ⟨"Error getting network interfaces: " ++ e⟩
  | .ok none => .error ⟨"No network interfaces found"⟩
  | .ok (some interfaces) =>
    match (interfaces.flatten.foldl visit allCandidates).head? with
    | some (_, address) => .ok address
    | none => .error ⟨"No private address available"⟩

/-! ## 何を返すべきか -/

/-- 四つの subnet。この順に、空いている最初のものを選ぶ。 -/
def privateNetworks : List Network :=
  [⟨⟨10, 0, 0, 0⟩, 8⟩, ⟨⟨172, 16, 0, 0⟩, 12⟩, ⟨⟨192, 168, 0, 0⟩, 16⟩, ⟨⟨169, 254, 1, 0⟩, 24⟩]

/-- `subnet` と `prefixLength` の示す subnet。 -/
def PrivateAddress.On (p : PrivateAddress) (n : Network) : Prop :=
  p.subnet.toList = n.base.hostAddress ∧ p.prefixLength = n.prefixLength

instance (p : PrivateAddress) (n : Network) : Decidable (p.On n) :=
  inferInstanceAs (Decidable (_ ∧ _))

/-- `inetAddress is Inet4Address` である address だけを取り出す。 -/
def inet4Addresses : List InetAddress → List Inet4Address
  | [] => []
  | .inet4 x :: addresses => x :: inet4Addresses addresses
  | .inet6 _ :: addresses => inet4Addresses addresses

/-- interface に付いた IPv4 address。 -/
def assigned (interfaces : List NetworkInterface) : List Inet4Address :=
  inet4Addresses interfaces.flatten

/-! ## text の比較が受け入れる address -/

theorem take_two_octet (n : UInt8) (t : List Char) :
    (octet n ++ '.' :: t).take 2 = (octet n ++ ['.']).take 2 := by
  have hlen : 1 ≤ (octet n).length := List.length_pos_iff.mpr (octet_ne_nil n)
  rw [List.take_append, List.take_append]
  congr 1
  rcases hk : 2 - (octet n).length with _ | k
  · rfl
  · obtain rfl : k = 0 := by omega
    rfl

/-- `172.` に続く二文字が `16` から `31` までに入る octet。一桁の 2 と 3、三桁の 160 以上も入る。 -/
theorem second_octet_iff (n : UInt8) :
    (textLe "16".toList ((octet n ++ ['.']).take 2) ∧
      textLe ((octet n ++ ['.']).take 2) "31".toList) ↔
      (16 ≤ n ∧ n ≤ 31) ∨ n = 2 ∨ n = 3 ∨ 160 ≤ n := by
  revert n
  exact forall_octet (by decide +kernel)

variable {x : Inet4Address}

theorem starts_10_iff : "10.".toList <+: x.hostAddress ↔ x.a = 10 := by
  show octet 10 ++ '.' :: [] <+: x.hostAddress ↔ x.a = 10
  rw [sep_isPrefix_hostAddress_iff]
  simp

theorem starts_192_168_iff : "192.168".toList <+: x.hostAddress ↔ x.a = 192 ∧ x.b = 168 := by
  have hoctet : ∀ n : UInt8, octet 168 <+: octet n ↔ n = 168 := forall_octet (by decide +kernel)
  show octet 192 ++ '.' :: octet 168 <+: x.hostAddress ↔ x.a = 192 ∧ x.b = 168
  rw [sep_isPrefix_hostAddress_iff, isPrefix_before_sep_iff (dot_notMem_octet 168), hoctet]

/-- `172.16` から `172.31` までの比較が実際に受け入れる範囲。 -/
def Within172 (x : Inet4Address) : Prop :=
  x.a = 172 ∧ ((16 ≤ x.b ∧ x.b ≤ 31) ∨ x.b = 2 ∨ x.b = 3 ∨ 160 ≤ x.b)

theorem compare_172_iff :
    (textLe "172.16".toList (x.hostAddress.take 6) ∧
      textLe (x.hostAddress.take 6) "172.31".toList) ↔ Within172 x := by
  show (textLe ((octet 172 ++ ['.']) ++ "16".toList) _ ∧
    textLe _ ((octet 172 ++ ['.']) ++ "31".toList)) ↔ _
  rw [between_append_iff, Within172, ← second_octet_iff]
  -- 先頭の四文字が合えば、残る二文字は第二 octet の頭である
  have htail : x.a = 172 → x.hostAddress.take 6 = (octet 172 ++ ['.']) ++ (octet x.b ++ ['.']).take
      2 := by
    intro ha
    rw [Inet4Address.hostAddress, ha, ← take_two_octet x.b (octet x.c ++ '.' :: octet x.d)]
    rfl
  constructor
  · rintro ⟨y, hy, hbetween⟩
    have hsep : octet 172 ++ '.' :: [] <+: x.hostAddress :=
      (List.prefix_append _ y).trans (hy ▸ List.take_prefix 6 _)
    have ha := (sep_isPrefix_hostAddress_iff.mp hsep).1
    rw [htail ha, List.append_cancel_left_eq] at hy
    exact ⟨ha, hy ▸ hbetween⟩
  · rintro ⟨ha, hbetween⟩
    exact ⟨_, htail ha, hbetween⟩

theorem six_le_length_hostAddress (x : Inet4Address) : 6 ≤ x.hostAddress.length := by
  have ha := List.length_pos_iff.mpr (octet_ne_nil x.a)
  have hb := List.length_pos_iff.mpr (octet_ne_nil x.b)
  have hc := List.length_pos_iff.mpr (octet_ne_nil x.c)
  have hd := List.length_pos_iff.mpr (octet_ne_nil x.d)
  simp only [Inet4Address.hostAddress, List.length_append, List.length_cons]
  omega

/-- 三つの枝を octet で言い直したもの。 -/
theorem keyInUse_eq_some_iff {key : String} :
    keyInUse x.hostAddress = some key ↔
      (key = "10" ∧ x.a = 10) ∨ (key = "172" ∧ Within172 x) ∨
        (key = "192" ∧ x.a = 192 ∧ x.b = 168) := by
  have h172 : 6 ≤ x.hostAddress.length ∧ textLe "172.16".toList (x.hostAddress.take 6) ∧
      textLe (x.hostAddress.take 6) "172.31".toList ↔ Within172 x :=
    (and_iff_right (six_le_length_hostAddress x)).trans compare_172_iff
  rw [keyInUse]
  split
  next ha =>
    rw [starts_10_iff] at ha
    simp [ha, Within172, eq_comm (a := key)]
  next ha =>
    rw [starts_10_iff] at ha
    split
    next hw =>
      rw [h172] at hw
      simp [hw, hw.1, eq_comm (a := key)]
    next hw =>
      rw [h172] at hw
      split
      next hb =>
        rw [starts_192_168_iff] at hb
        simp [hw, hb, eq_comm (a := key)]
      next hb =>
        rw [starts_192_168_iff] at hb
        simp [ha, hw, hb]

/-! ## 候補に残るもの -/

/-- 候補 `key` がどの address によっても外されない。 -/
def Kept (addresses : List Inet4Address) (key : String) : Prop :=
  ∀ x ∈ addresses, keyInUse x.hostAddress ≠ some key

instance (addresses : List Inet4Address) (key : String) : Decidable (Kept addresses key) :=
  inferInstanceAs (Decidable (∀ x ∈ addresses, keyInUse x.hostAddress ≠ some key))

theorem kept_cons_iff {addresses : List Inet4Address} {key : String} :
    Kept (x :: addresses) key ↔ keyInUse x.hostAddress ≠ some key ∧ Kept addresses key := by
  simp [Kept]

theorem visit_inet4 (candidates : Candidates) (x : Inet4Address) :
    visit candidates (.inet4 x) = candidates.filter
      (fun kv => keyInUse x.hostAddress ≠ some kv.1) := by
  rw [visit]
  cases keyInUse x.hostAddress with
  | none => simp
  | some key => simp [Candidates.remove, eq_comm (a := key)]

/-- `forEach` を終えた候補は、外されなかったものを元の順に並べたものである。 -/
theorem foldl_visit (candidates : Candidates) (addresses : List InetAddress) :
    addresses.foldl visit candidates = candidates.filter
      (fun kv => Kept (inet4Addresses addresses) kv.1) := by
  induction addresses generalizing candidates with
  | nil => simp [Kept, inet4Addresses]
  | cons x addresses ih =>
    rw [List.foldl_cons, ih]
    cases x with
    | inet4 x =>
      rw [visit_inet4, List.filter_filter]
      congr 1
      funext kv
      simp only [inet4Addresses, kept_cons_iff, Bool.decide_and, Bool.and_comm]
    | inet6 x => rfl

theorem selectPrivateAddress_eq (interfaces : List NetworkInterface) :
    selectPrivateAddress (.ok (some interfaces)) =
      match allCandidates.find? (fun kv => Kept (assigned interfaces) kv.1) with
      | some (_, address) => .ok address
      | none => .error ⟨"No private address available"⟩ := by
  rw [selectPrivateAddress, foldl_visit, List.head?_filter, assigned]

/-! ## 数値の範囲との比較 -/

section Ranges

variable {x : Inet4Address}

theorem contains_10_iff : Network.Contains ⟨⟨10, 0, 0, 0⟩, 8⟩ x ↔ x.a = 10 := by
  have hb := x.b.toNat_lt
  have hc := x.c.toNat_lt
  have hd := x.d.toNat_lt
  rw [Network.Contains, ← UInt8.toNat_inj]
  simp only [Inet4Address.toNat, UInt8.reduceToNat]
  omega

theorem contains_172_iff :
    Network.Contains ⟨⟨172, 16, 0, 0⟩, 12⟩ x ↔ x.a = 172 ∧ 16 ≤ x.b ∧ x.b ≤ 31 := by
  have hb := x.b.toNat_lt
  have hc := x.c.toNat_lt
  have hd := x.d.toNat_lt
  rw [Network.Contains, ← UInt8.toNat_inj, UInt8.le_iff_toNat_le, UInt8.le_iff_toNat_le]
  simp only [Inet4Address.toNat, UInt8.reduceToNat]
  omega

theorem contains_192_iff : Network.Contains ⟨⟨192, 168, 0, 0⟩, 16⟩ x ↔ x.a = 192 ∧ x.b = 168 := by
  have hb := x.b.toNat_lt
  have hc := x.c.toNat_lt
  have hd := x.d.toNat_lt
  rw [Network.Contains, ← UInt8.toNat_inj, ← UInt8.toNat_inj]
  simp only [Inet4Address.toNat, UInt8.reduceToNat]
  omega

end Ranges

/--
比較が `172.16.0.0/12` に数えてしまう、範囲の外の address。第二 octet の頭の二文字が `16` から `31` までに
入る。
-/
def Misread (x : Inet4Address) : Prop := x.a = 172 ∧ (x.b = 2 ∨ x.b = 3 ∨ 160 ≤ x.b)

instance (x : Inet4Address) : Decidable (Misread x) := inferInstanceAs (Decidable (_ ∧ _))

section Kept

variable (addresses : List Inet4Address)

theorem kept_10_iff : Kept addresses "10" ↔ Network.Free ⟨⟨10, 0, 0, 0⟩, 8⟩ addresses := by
  simp [Kept, Network.Free, keyInUse_eq_some_iff, contains_10_iff]

theorem kept_172_iff : Kept addresses "172" ↔
    Network.Free ⟨⟨172, 16, 0, 0⟩, 12⟩ addresses ∧ ∀ x ∈ addresses, ¬ Misread x := by
  have hiff (x : Inet4Address) : keyInUse x.hostAddress ≠ some "172" ↔
      ¬ Network.Contains ⟨⟨172, 16, 0, 0⟩, 12⟩ x ∧ ¬ Misread x := by
    rw [ne_eq, keyInUse_eq_some_iff, contains_172_iff]
    simp only [Within172, Misread]
    simp
    tauto
  exact (forall₂_congr fun x _ => hiff x).trans forall₂_and

theorem kept_192_iff : Kept addresses "192" ↔ Network.Free ⟨⟨192, 168, 0, 0⟩, 16⟩ addresses := by
  simp [Kept, Network.Free, keyInUse_eq_some_iff, contains_192_iff]

theorem kept_169 : Kept addresses "169" := by
  simp [Kept, keyInUse_eq_some_iff]

end Kept

theorem exists_find_kept (addresses : List Inet4Address) :
    ∃ kv, allCandidates.find? (fun kv => Kept addresses kv.1) = some kv := by
  refine Option.isSome_iff_exists.mp (List.find?_isSome.mpr ⟨_, List.mem_of_getLast? rfl, ?_⟩)
  exact decide_eq_true (kept_169 addresses)

/-- 残った最初の候補が空いた最初の subnet でないのは、読み違えた `172.16.0.0/12` がその subnet であるときに限る。 -/
theorem find_kept_on_iff {addresses : List Inet4Address} {kv : String × PrivateAddress}
    (hkv : allCandidates.find? (fun kv => Kept addresses kv.1) = some kv)
    (hfree : ∃ n ∈ privateNetworks, n.Free addresses) :
    (∀ n, privateNetworks.find? (fun n => n.Free addresses) = some n → kv.2.On n) ↔
      Network.Free ⟨⟨10, 0, 0, 0⟩, 8⟩ addresses ∨ ¬ Network.Free ⟨⟨172, 16, 0, 0⟩, 12⟩ addresses ∨
        ∀ x ∈ addresses, ¬ Misread x := by
  simp only [allCandidates, List.find?_cons, kept_10_iff, kept_192_iff, kept_169] at hkv
  simp only [privateNetworks, List.find?_cons]
  have h172 := kept_172_iff addresses
  by_cases hf10 : Network.Free ⟨⟨10, 0, 0, 0⟩, 8⟩ addresses
  · simp only [hf10, decide_true] at hkv ⊢
    obtain rfl := Option.some.inj hkv
    exact iff_of_true (by rintro n ⟨⟩; decide) (.inl trivial)
  by_cases hf172 : Network.Free ⟨⟨172, 16, 0, 0⟩, 12⟩ addresses
  · by_cases hread : ∀ x ∈ addresses, ¬ Misread x
    · simp only [hf10, hf172, h172.mpr ⟨hf172, hread⟩, decide_true, decide_false] at hkv ⊢
      obtain rfl := Option.some.inj hkv
      exact iff_of_true (by rintro n ⟨⟩; decide) (.inr (.inr hread))
    · have hskip : ¬ Kept addresses "172" := fun h => hread (h172.mp h).2
      simp only [hf10, hf172, hskip, decide_true, decide_false] at hkv ⊢
      refine iff_of_false (fun h => ?_) (by simpa using hread)
      -- 空いた `172.16.0.0/12` を飛ばし、後の候補を選ぶ
      have hon := h _ rfl
      split at hkv <;> obtain rfl := Option.some.inj hkv <;> revert hon <;> decide
  have hskip : ¬ Kept addresses "172" := fun h => hf172 (h172.mp h).1
  by_cases hf192 : Network.Free ⟨⟨192, 168, 0, 0⟩, 16⟩ addresses
  · simp only [hf10, hf172, hf192, hskip, decide_true, decide_false] at hkv ⊢
    obtain rfl := Option.some.inj hkv
    exact iff_of_true (by rintro n ⟨⟩; decide) (.inr (.inl not_false))
  -- 残るのは `169` だけで、ここでは仮定がその空きを言う
  have hf169 : Network.Free ⟨⟨169, 254, 1, 0⟩, 24⟩ addresses := by
    simpa [privateNetworks, hf10, hf172, hf192] using hfree
  simp only [hf10, hf172, hf192, hf169, hskip, decide_true, decide_false] at hkv ⊢
  obtain rfl := Option.some.inj hkv
  exact iff_of_true (by rintro n ⟨⟩; decide) (.inr (.inl not_false))

/--
**最初の空いた subnet が選ばれ、空きが無いときに限って例外になる。**

これが成り立つのは、四つの subnet のどれかが空いていて、`10.0.0.0/8` が空いているか、`172.16.0.0/12` が使われているか、
読み違える address が無いときであり、そのときに限る。
-/
theorem selectPrivateAddress_first_free (interfaces : List NetworkInterface) :
    ((∀ n, privateNetworks.find? (fun n => n.Free (assigned interfaces)) = some n →
        ∃ p, selectPrivateAddress (.ok (some interfaces)) = .ok p ∧ p.On n) ∧
      ((∃ e, selectPrivateAddress (.ok (some interfaces)) = .error e) ↔
        ∀ n ∈ privateNetworks, ¬ n.Free (assigned interfaces))) ↔
    (∃ n ∈ privateNetworks, n.Free (assigned interfaces)) ∧
      (Network.Free ⟨⟨10, 0, 0, 0⟩, 8⟩ (assigned interfaces) ∨
        ¬ Network.Free ⟨⟨172, 16, 0, 0⟩, 12⟩ (assigned interfaces) ∨
        ∀ x ∈ assigned interfaces, ¬ Misread x) := by
  obtain ⟨kv, hkv⟩ := exists_find_kept (assigned interfaces)
  have hok : selectPrivateAddress (.ok (some interfaces)) = .ok kv.2 := by
    rw [selectPrivateAddress_eq, hkv]
  have hthrow : ¬ ∃ e, selectPrivateAddress (.ok (some interfaces)) = .error e := by
    rintro ⟨e, he⟩
    rw [hok] at he
    cases he
  have hselect (n : Network) :
      (∃ p, selectPrivateAddress (.ok (some interfaces)) = .ok p ∧ p.On n) ↔ kv.2.On n := by
    simp [hok]
  simp only [hselect, iff_false_left hthrow, not_forall, not_not, exists_prop]
  rw [and_comm]
  exact and_congr_right fun hfree => find_kept_on_iff hkv hfree

/-- 自宅の LAN と別の VPN。 -/
def homeNetwork : List NetworkInterface :=
  [[.inet4 ⟨127, 0, 0, 1⟩], [.inet4 ⟨192, 168, 1, 7⟩], [.inet4 ⟨10, 8, 0, 2⟩]]

theorem selectPrivateAddress_homeNetwork :
    (∀ n, privateNetworks.find? (fun n => n.Free (assigned homeNetwork)) = some n →
      ∃ p, selectPrivateAddress (.ok (some homeNetwork)) = .ok p ∧ p.On n) ∧
    ((∃ e, selectPrivateAddress (.ok (some homeNetwork)) = .error e) ↔
      ∀ n ∈ privateNetworks, ¬ n.Free (assigned homeNetwork)) :=
  (selectPrivateAddress_first_free homeNetwork).mpr ⟨by decide, .inr (.inr (by decide))⟩

/-- 範囲の外の `172.200.0.1` を持つ回線。 -/
def publicNetwork : List NetworkInterface := [[.inet4 ⟨10, 0, 0, 5⟩], [.inet4 ⟨172, 200, 0, 1⟩]]

/-- 四つの subnet がどれも使われている。 -/
def crowdedNetwork : List NetworkInterface :=
  [[.inet4 ⟨10, 0, 0, 5⟩, .inet4 ⟨172, 16, 0, 9⟩],
    [.inet4 ⟨192, 168, 1, 7⟩, .inet4 ⟨169, 254, 1, 3⟩]]

/--
**範囲の外の address が `172.16.0.0/12` を塞ぎ、四つとも塞がっていても例外にならない。**

`publicNetwork` では `172.16.0.0/12` が空いているのに `192.168.0.0/16` が選ばれ、`crowdedNetwork` では使われている
`169.254.1.0/24` が選ばれる。
-/
theorem selectPrivateAddress_misread :
    (selectPrivateAddress (.ok (some publicNetwork)) =
        .ok ⟨"192.168.0.1", "192.168.0.0", 16, "192.168.0.2"⟩ ∧
      privateNetworks.find? (fun n => n.Free (assigned publicNetwork)) =
        some ⟨⟨172, 16, 0, 0⟩, 12⟩) ∧
    (selectPrivateAddress (.ok (some crowdedNetwork)) =
        .ok ⟨"169.254.1.1", "169.254.1.0", 24, "169.254.1.2"⟩ ∧
      ∀ n ∈ privateNetworks, ¬ n.Free (assigned crowdedNetwork)) := by
  refine ⟨⟨?_, by decide⟩, ?_, by decide⟩ <;> decide +kernel

end Manager
