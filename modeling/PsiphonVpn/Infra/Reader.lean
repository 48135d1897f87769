import PsiphonVpn.Infra.Checked

/-!
# 範囲を確かめる読み取り

受け取った byte の列から、長さの field に従って一部を読む関数は、列の外を読みうる。読み取りを
`readVec mem off n` で書き、外を読めば `Stop.outOfBounds`、形式に合わないので自ら退ければ `Stop.reject` で
止まるとする。

`At mem off l` は「`mem` の `off` 番目から `l` が並ぶ」で、読んだ値はこの形で述べる。
`Yields x P` は「`x` は列の外を読まず、値を返すならその値は `P` を満たす」という事後条件で、関数の本体に沿って
`Yields.bind` などの規則で組み立てる。
-/

namespace Infra

variable {ρ : Type} {α β : Type}

inductive Stop (ρ : Type) where
  | outOfBounds
  | reject (reason : ρ)
  deriving DecidableEq, Repr

/-- `mem` の `off` 番目から `n` 個。 -/
def readVec (mem : List α) (off n : Nat) : Except (Stop ρ) (Vector α n) :=
  if h : off + n ≤ mem.length then
    .ok ⟨((mem.drop off).take n).toArray, by simp; omega⟩
  else .error .outOfBounds

/-- 読んだものの `off` 番目から `m` 個。 -/
def subVec {n : Nat} (v : Vector α n) (off m : Nat) (h : off + m ≤ n) : Vector α m :=
  ⟨((v.toList.drop off).take m).toArray, by simp; omega⟩

/-- 条件を満たさなければ退ける。 -/
def require (reason : ρ) (p : Prop) [Decidable p] : Except (Stop ρ) Unit :=
  if p then .ok () else .error (.reject reason)

/-- `mem` の `off` 番目から `l` が並んでいる。 -/
def At (mem : List α) (off : Nat) (l : List α) : Prop :=
  ∃ pre post, mem = pre ++ (l ++ post) ∧ pre.length = off

/-- 列の外を読まず、値を返すならその値は `P` を満たす。 -/
def Yields (x : Except (Stop ρ) α) (P : α → Prop) : Prop :=
  match x with
  | .ok a => P a
  | .error (.reject _) => True
  | .error .outOfBounds => False

/-! ## 事後条件の規則 -/

variable {P : α → Prop} {x : Except (Stop ρ) α} {n off : Nat} {a b l mem : List α}

theorem Yields.of_ok {a : α} (h : P a) : Yields (.ok a : Except (Stop ρ) α) P := h

theorem Yields.bind {f : α → Except (Stop ρ) β} {Q : β → Prop} (hx : Yields x P)
    (hf : ∀ a, P a → Yields (f a) Q) : Yields (x >>= f) Q := by
  cases x with
  | ok a => exact hf a hx
  | error e =>
    cases e with
    | outOfBounds => exact hx.elim
    | reject r => trivial

theorem Yields.mono {Q : α → Prop} (hx : Yields x P) (h : ∀ a, P a → Q a) : Yields x Q := by
  cases x with
  | ok a => exact h a hx
  | error e =>
    cases e with
    | outOfBounds => exact hx.elim
    | reject r => trivial

theorem yields_require (reason : ρ) (p : Prop) [Decidable p] :
    Yields (require reason p) fun _ => p := by
  unfold require
  split
  next h => exact h
  next => trivial

theorem Yields.of_eq_ok {a : α} (hx : Yields x P) (h : x = .ok a) : P a := by
  subst h
  exact hx

theorem Yields.ne_outOfBounds (hx : Yields x P) : x ≠ .error .outOfBounds := by
  rintro rfl
  exact hx

@[simp] theorem require_bind {reason : ρ} {p : Prop} [Decidable p] (h : p)
    (f : Unit → Except (Stop ρ) α) :
    (require reason p >>= f) = f () := by
  simp only [require, h, if_true]
  rfl

/-! ## 読み取り -/

@[simp] theorem toList_subVec (v : Vector α n) (off m : Nat) (h : off + m ≤ n) :
    (subVec v off m h).toList = (v.toList.drop off).take m := rfl

/-- 長さの決まった頭どうしなら、連結の等しさは各部の等しさである。 -/
theorem toList_append_inj_iff {v w : Vector α n} :
    v.toList ++ a = w.toList ++ b ↔ v = w ∧ a = b := by
  constructor
  · intro h
    obtain ⟨hv, hab⟩ := List.append_inj h (by simp)
    exact ⟨Vector.toList_inj.mp hv, hab⟩
  · rintro ⟨rfl, rfl⟩
    rfl

theorem toList_split {m : Nat} (v : Vector α (n + m)) :
    (subVec v 0 n (by omega)).toList ++ (subVec v n m (by omega)).toList = v.toList := by
  have hrest : (v.toList.drop n).take m = v.toList.drop n := List.take_of_length_le (by simp)
  rw [toList_subVec, toList_subVec, List.drop_zero, hrest, List.take_append_drop]

theorem subVec_of_append {m : Nat} {v : Vector α (n + m)} {a : Vector α n} {b : Vector α m}
    (h : v.toList = a.toList ++ b.toList) :
    subVec v 0 n (by omega) = a ∧ subVec v n m (by omega) = b := by
  rw [← toList_split v, toList_append_inj_iff] at h
  exact ⟨h.1, Vector.toList_inj.mp h.2⟩

theorem exists_vec (h : l.length = n) : ∃ v : Vector α n, v.toList = l := ⟨⟨l.toArray, h⟩, rfl⟩

theorem at_zero (l : List α) : At l 0 l := ⟨[], [], by simp, rfl⟩

theorem at_zero_iff : At mem 0 l ↔ l <+: mem := by
  constructor
  · rintro ⟨pre, post, rfl, hpre⟩
    obtain rfl := List.eq_nil_of_length_eq_zero hpre
    exact List.prefix_append l post
  · rintro ⟨post, rfl⟩
    exact ⟨[], post, rfl, rfl⟩

theorem At.le_length (h : At mem off l) : off + l.length ≤ mem.length := by
  obtain ⟨pre, post, rfl, rfl⟩ := h
  simp only [List.length_append]
  omega

theorem At.eq_take (h : At mem off l) : l = (mem.drop off).take l.length := by
  obtain ⟨pre, post, rfl, rfl⟩ := h
  simp

theorem at_append_iff : At mem off (a ++ b) ↔ At mem off a ∧ At mem (off + a.length) b := by
  constructor
  · rintro ⟨pre, post, rfl, rfl⟩
    exact ⟨⟨pre, b ++ post, by simp, rfl⟩, ⟨pre ++ a, post, by simp, by simp⟩⟩
  · rintro ⟨⟨pre, post, rfl, rfl⟩, pre', post', h, hlen⟩
    rw [← List.append_assoc] at h
    obtain ⟨rfl, rfl⟩ := List.append_inj h (by simp [hlen])
    exact ⟨pre, post', by simp, rfl⟩

theorem At.initial (h : At mem off b) (hab : a <+: b) : At mem off a := by
  obtain ⟨t, rfl⟩ := hab
  exact (at_append_iff.mp h).1

/-- 同じ位置の二つの並びは、短いほうが長いほうの頭である。 -/
theorem At.isPrefix (ha : At mem off a) (hb : At mem off b) (hlen : a.length ≤ b.length) :
    a <+: b := by
  obtain ⟨pre, post, rfl, rfl⟩ := ha
  obtain ⟨pre', post', h, hpre⟩ := hb
  have htail := (List.append_inj h hpre.symm).2
  exact List.prefix_of_prefix_length_le (List.prefix_append a post)
    (htail ▸ List.prefix_append b post') hlen

theorem exists_at (h : off + n ≤ mem.length) : ∃ l, l.length = n ∧ At mem off l := by
  refine ⟨(mem.drop off).take n, by simp; omega, mem.take off, mem.drop (off + n), ?_,
    by simp; omega⟩
  have hv : (mem.drop off).take n ++ mem.drop (off + n) = mem.drop off := by
    rw [← List.drop_drop, List.take_append_drop]
  simp [hv]

theorem readVec_of_at {v : Vector α n} (h : At mem off v.toList) :
    readVec (ρ := ρ) mem off n = .ok v := by
  have hlen := h.le_length
  rw [Vector.length_toList] at hlen
  rw [readVec, dif_pos hlen]
  congr 1
  apply Vector.toList_inj.mp
  have heq := h.eq_take
  rw [Vector.length_toList] at heq
  exact heq.symm

theorem yields_readVec (h : off + n ≤ mem.length) :
    Yields (readVec (ρ := ρ) mem off n) fun v => At mem off v.toList := by
  obtain ⟨l, hl, hat⟩ := exists_at h
  have hv : At mem off (Vector.toList ⟨l.toArray, hl⟩) := hat
  rw [readVec_of_at hv]
  exact hv

end Infra
