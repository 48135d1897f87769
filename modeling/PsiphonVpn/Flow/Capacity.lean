import PsiphonVpn.Flow.Fifo

/-!
# `ChunkBuffer2` の容量

`ChunkBuffer2_calc_blocks` は、MTU の packet を `num + 1` 個並べられる block を取る。折り返す所では、MTU の packet が入らない
末尾が捨てられるが、その長さは packet 一つに満たない。入っている packet が `num` 個より少なければ、残りにはいつも MTU の packet
が入る。

それを言うには、並びの形のほかに、どこで折り返したかを覚えておく必要がある。

* `chunkBuffer2_capacity` — どの run の後でも、`num` 個に満たなければ MTU の packet を受け取れる
-/

namespace Flow

open Infra

/-! ## 入出力の所のほかは変わらないこと -/

/-- 入力の所と出力の所のほかは同じである。 -/
def SameBlocks (b' b : ChunkBuffer2) : Prop :=
  ∃ inDest inAvail outDest outAvail,
    b' = { b with
      inputDest := inDest, inputAvail := inAvail, outputDest := outDest, outputAvail := outAvail }

section SameBlocks

variable {b b' b'' : ChunkBuffer2}

theorem SameBlocks.trans (h : SameBlocks b'' b') (h' : SameBlocks b' b) : SameBlocks b'' b := by
  obtain ⟨_, _, _, _, rfl⟩ := h'
  obtain ⟨_, _, _, _, rfl⟩ := h
  exact ⟨_, _, _, _, rfl⟩

theorem sameBlocks_updateInput (b : ChunkBuffer2) : SameBlocks b.updateInput b := ⟨_, _, _, _, rfl⟩

theorem sameBlocks_updateOutput (h : b.updateOutput = .ok b') : SameBlocks b' b := by
  unfold ChunkBuffer2.updateOutput at h
  split at h
  next =>
    obtain ⟨datalen, -, hb⟩ := bind_eq_ok.mp h
    exact ⟨_, _, _, _, (Except.ok.inj hb).symm⟩
  next => exact ⟨_, _, _, _, (Except.ok.inj h).symm⟩

theorem submitPacket_sameBlocks {len : Nat} (h : b.submitPacket len = .ok b') :
    SameBlocks b' (b.push len) := by
  -- 検査はどれも state を変えない
  obtain ⟨-, -, h⟩ := bind_eq_ok.mp h
  obtain ⟨-, -, h⟩ := bind_eq_ok.mp h
  obtain ⟨-, -, h⟩ := bind_eq_ok.mp h
  obtain ⟨-, -, h⟩ := bind_eq_ok.mp h
  obtain ⟨-, -, h⟩ := bind_eq_ok.mp h
  obtain ⟨-, -, h⟩ := bind_eq_ok.mp h
  obtain ⟨-, -, h⟩ := bind_eq_ok.mp h
  obtain ⟨-, -, h⟩ := bind_eq_ok.mp h
  dsimp only at h
  split at h
  next =>
    obtain ⟨b₁, hb₁, h⟩ := bind_eq_ok.mp h
    obtain ⟨-, -, h⟩ := bind_eq_ok.mp h
    obtain rfl := Except.ok.inj h
    exact (sameBlocks_updateOutput hb₁).trans (sameBlocks_updateInput _)
  next =>
    rw [pure_bind] at h
    obtain ⟨-, -, h⟩ := bind_eq_ok.mp h
    obtain rfl := Except.ok.inj h
    exact sameBlocks_updateInput _

theorem consumePacket_sameBlocks (h : b.consumePacket = .ok b') :
    ∃ datalen, b.lenAt b.start = .ok datalen ∧ SameBlocks b' (b.pop (blocksFor datalen.toNat)) := by
  obtain ⟨-, -, h⟩ := bind_eq_ok.mp h
  obtain ⟨-, -, h⟩ := bind_eq_ok.mp h
  obtain ⟨-, -, h⟩ := bind_eq_ok.mp h
  obtain ⟨-, -, h⟩ := bind_eq_ok.mp h
  obtain ⟨-, -, h⟩ := bind_eq_ok.mp h
  obtain ⟨datalen, hlen, h⟩ := bind_eq_ok.mp h
  obtain ⟨-, -, h⟩ := bind_eq_ok.mp h
  obtain ⟨-, -, h⟩ := bind_eq_ok.mp h
  obtain ⟨-, -, h⟩ := bind_eq_ok.mp h
  obtain ⟨b₁, hb₁, h⟩ := bind_eq_ok.mp h
  obtain ⟨-, -, h⟩ := bind_eq_ok.mp h
  obtain rfl := Except.ok.inj h
  refine ⟨datalen, hlen, (sameBlocks_updateOutput hb₁).trans ?_⟩
  split
  next => exact sameBlocks_updateInput _
  next => exact ⟨_, _, _, _, rfl⟩

end SameBlocks

/-! ## 折り返す所 -/

/-- 記録 `queue` の入っている buffer の、折り返す所についての不変量。 -/
structure Roomy (b : ChunkBuffer2) (queue : List Entry) : Prop where
  /-- どの packet も MTU を超えない。 -/
  narrow : ∀ e ∈ queue, e.width ≤ 1 + b.mtu
  /-- どの記録も、MTU の packet が入る所から始まっている。 -/
  begins : ∀ e ∈ queue, e.pos + 1 + b.mtu ≤ b.size
  /-- 折り返す前は、並びの後ろに MTU の packet が入る。 -/
  room : ¬ b.Wrapped → b.endBlock + 1 + b.mtu ≤ b.size
  /-- 折り返す所の後ろには、MTU の packet が入らない。 -/
  tight : b.Wrapped → b.size < b.wrap + 1 + b.mtu

section Roomy

variable {b b' : ChunkBuffer2} {queue front back : List Entry}

theorem Roomy.sameBlocks (h : Roomy b queue) (hs : SameBlocks b' b) : Roomy b' queue := by
  obtain ⟨_, _, _, _, rfl⟩ := hs
  exact ⟨h.narrow, h.begins, h.room, h.tight⟩

/-- MTU の packet が入る所に MTU を超えない packet を足しても、不変量は保たれる。 -/
theorem Roomy.push (h : Roomy b queue) (hopen : ¬ b.Wrapped → b.wrap = b.size) {len : Nat}
    {data : List UInt8} (hlen : data.length = len) (hnarrow : blocksFor len ≤ b.mtu)
    (hbegins : b.endBlock + 1 + b.mtu ≤ b.size) :
    Roomy (b.push len) (queue ++ [⟨b.endBlock, data⟩]) := by
  have hsum : (b.push len).start + (b.push len).used = b.start + (b.used + (1 + blocksFor len)) :=
    rfl
  have hnarrow' : ∀ e ∈ queue ++ [⟨b.endBlock, data⟩], e.width ≤ 1 + b.mtu := by
    intro e he
    rcases List.mem_append.mp he with he | he
    · exact h.narrow e he
    · obtain rfl := List.mem_singleton.mp he
      rw [Entry.width, hlen]
      omega
  have hbegins' : ∀ e ∈ queue ++ [⟨b.endBlock, data⟩], e.pos + 1 + b.mtu ≤ b.size := by
    intro e he
    rcases List.mem_append.mp he with he | he
    · exact h.begins e he
    · obtain rfl := List.mem_singleton.mp he
      exact hbegins
  by_cases hw : b.Wrapped
  · -- 折り返した後は `wrap` が動かない
    have hle : b.wrap ≤ b.start + b.used := hw
    have hwrap : (b.push len).wrap = b.wrap := if_neg (by omega)
    have hw' : (b.push len).Wrapped := by
      rw [ChunkBuffer2.Wrapped, hwrap, hsum]
      omega
    refine ⟨hnarrow', hbegins', fun hno => absurd hw' hno, fun _ => ?_⟩
    rw [hwrap]
    exact h.tight hw
  · have hend := ChunkBuffer2.endBlock_of_not_wrapped hw
    have hsize := hopen hw
    by_cases hmtu : b.size < b.endBlock + 1 + blocksFor len + 1 + b.mtu
    · -- 後ろに MTU の packet が入らなくなったので、ここで折り返す
      have hwrap : (b.push len).wrap = b.endBlock + 1 + blocksFor len := if_pos ⟨by omega, hmtu⟩
      have hw' : (b.push len).Wrapped := by
        rw [ChunkBuffer2.Wrapped, hwrap, hsum]
        omega
      refine ⟨hnarrow', hbegins', fun hno => absurd hw' hno, fun _ => ?_⟩
      rw [hwrap]
      exact hmtu
    · have hwrap : (b.push len).wrap = b.wrap := if_neg fun hc => hmtu hc.2
      have hw' : ¬ (b.push len).Wrapped := by
        rw [ChunkBuffer2.Wrapped, hwrap, hsum]
        omega
      refine ⟨hnarrow', hbegins', fun _ => ?_, fun hyes => absurd hyes hw'⟩
      rw [ChunkBuffer2.endBlock_of_not_wrapped hw', hsum]
      show b.start + (b.used + (1 + blocksFor len)) + 1 + b.mtu ≤ b.size
      omega

/-- 最も古い packet を除いても、不変量は保たれる。並びが block 0 からになるときも、その後ろには MTU の packet が入る。 -/
theorem Roomy.pop {e : Entry} {rest : List Entry} (h : Roomy b (e :: rest ++ back))
    (hlay : Layout b (e :: rest) back) :
    Roomy (b.pop (blocksFor e.data.length)) (rest ++ back) := by
  obtain ⟨hsize, hmtu, -, -⟩ := pop_frame b (blocksFor e.data.length)
  obtain ⟨⟨hpos, -⟩, -, hused⟩ := hlay.head
  have hmem : ∀ x ∈ rest ++ back, x ∈ e :: rest ++ back := fun x hx => List.mem_cons_of_mem e hx
  have hnarrow : ∀ x ∈ rest ++ back, x.width ≤ 1 + (b.pop (blocksFor e.data.length)).mtu := by
    rw [hmtu]
    exact fun x hx => h.narrow x (hmem x hx)
  have hbegins : ∀ x ∈ rest ++ back,
      x.pos + 1 + (b.pop (blocksFor e.data.length)).mtu ≤ (b.pop
        (blocksFor e.data.length)).size := by
    rw [hmtu, hsize]
    exact fun x hx => h.begins x (hmem x hx)
  by_cases hlast : b.start + e.width = b.wrap
  · -- 並びの終わりは、除いた記録の始まりより前にある
    obtain ⟨hw, hno, hend, -⟩ := hlay.pop_last_free hlast
    refine ⟨hnarrow, hbegins, fun _ => ?_, fun hyes => absurd hyes hno⟩
    rcases hlay.cases with ⟨-, hend₀, -, -, hback, -⟩ | ⟨hno₀, -⟩
    · have hbegin := h.begins e List.mem_cons_self
      rw [hend, hmtu, hsize]
      omega
    · exact absurd hw hno₀
  · obtain ⟨hiff, hend, -, -⟩ := ChunkBuffer2.pop_next_free hlast hused
    have hwrap : (b.pop (blocksFor e.data.length)).wrap =
      b.wrap := by rw [ChunkBuffer2.pop_of_not_last hlast]
    refine ⟨hnarrow, hbegins, fun hno => ?_, fun hyes => ?_⟩
    · rw [hend, hmtu, hsize]
      exact h.room (mt hiff.mpr hno)
    · rw [hwrap, hmtu, hsize]
      exact h.tight (hiff.mp hyes)

theorem span_le {n : Nat} (h : ∀ e ∈ queue, e.width ≤ n) :
    span Entry.width queue ≤ queue.length * n := by
  induction queue with
  | nil => exact Nat.zero_le _
  | cons e queue ih =>
    have he := h e List.mem_cons_self
    have hrest := ih fun x hx => h x (List.mem_cons_of_mem e hx)
    rw [span_cons, List.length_cons, Nat.succ_mul]
    omega

/-- 入っている packet が `num` 個に満たなければ、空きには MTU の packet が入る。 -/
theorem Roomy.free_ge (h : Roomy b (front ++ back)) (hlay : Layout b front back) {num : Nat}
    (hsize : b.size = (1 + b.mtu) * (num + 1)) (hfew : (front ++ back).length < num) :
    1 + b.mtu ≤ b.free ∧ b.endBlock + 1 + b.mtu ≤ b.size := by
  have hwl := hlay.wrap_le
  by_cases hw : b.Wrapped
  · have htight := h.tight hw
    have hspan := span_le h.narrow
    have hmul : (front ++ back).length * (1 + b.mtu) ≤ (num - 1) * (1 + b.mtu) :=
      Nat.mul_le_mul_right _ (by omega)
    have hexpand : (1 + b.mtu) * (num + 1) = (num - 1) * (1 + b.mtu) + 2 * (1 + b.mtu) := by
      obtain ⟨k, rfl⟩ : ∃ k, num = k + 1 := ⟨num - 1, by omega⟩
      rw [Nat.mul_comm, ← Nat.add_mul]
      rfl
    rw [span_append] at hspan
    rcases hlay.cases with ⟨-, hend, hfree, hfront, hback, -⟩ | ⟨hno, -⟩
    · rw [hend, hfree]
      omega
    · exact absurd hw hno
  · have hroom := h.room hw
    rw [ChunkBuffer2.free_of_not_wrapped hw]
    omega

end Roomy

/-! ## run -/

namespace Ring

/-- `ChunkBuffer2_Init` に渡した大きさのまま、記録も折り返す所も整っている。 -/
structure Sized (mtu num : Nat) (s : Ring) : Prop where
  inv : Inv s
  mtu_eq : s.buf.mtu = blocksFor mtu
  size_eq : s.buf.size = (1 + blocksFor mtu) * (num + 1)
  roomy : Roomy s.buf s.queue

/-- 使う側は、MTU を超える packet を入れない。 -/
def WithinMtu (mtu : Nat) : RingEvent → Prop
  | .submit len => len ≤ mtu
  | _ => True

variable {mtu num : Nat} {s : Ring}

theorem Sized.write {off dest : Nat} {data : List UInt8} (h : Sized mtu num s)
    (hdest : s.buf.inputDest = some dest)
    (hle : ((off + data.length : Nat) : Int) ≤ s.buf.inputAvail) :
    ∃ s', s.write (dest + off) data = .ok s' ∧ Sized mtu num s' := by
  obtain ⟨s', hs', hinv⟩ := h.inv.write hdest hle
  obtain ⟨-, -, hrest⟩ := bind_eq_ok.mp hs'
  obtain rfl := Except.ok.inj hrest
  exact ⟨_, hs', hinv, h.mtu_eq, h.size_eq, h.roomy.narrow, h.roomy.begins, h.roomy.room,
    h.roomy.tight⟩

theorem Sized.submit {len dest : Nat} (h : Sized mtu num s) (hdest : s.buf.inputDest = some dest)
    (hle : (len : Int) ≤ s.buf.inputAvail) (hmtu : len ≤ mtu) :
    ∃ b, s.buf.submitPacket len = .ok b ∧
      Sized mtu num ⟨b, s.queue ++ [⟨s.buf.endBlock, s.written dest len⟩]⟩ := by
  obtain ⟨b, hb, hinv⟩ := h.inv.submit hdest hle
  obtain ⟨front, back, hq, hlay, hin, -⟩ := h.inv
  have hsame := submitPacket_sameBlocks hb
  have hinside := (hlay.input_free hin hdest).1
  obtain ⟨hlen, -⟩ := s.written_at dest len (by omega)
  obtain ⟨-, -, -, hbegins⟩ := hlay.inputOf_eq_some (hin.1.symm.trans hdest)
  have hnarrow : blocksFor len ≤ s.buf.mtu := by
    rw [h.mtu_eq, blocksFor_le_iff]
    exact hmtu.trans (le_blocksFor mtu)
  have hopen : ¬ s.buf.Wrapped → s.buf.wrap = s.buf.size := by
    intro hno
    rcases hlay.cases with ⟨hyes, -⟩ | ⟨-, -, -, -, hwrap, -⟩
    · exact absurd hyes hno
    · exact hwrap
  have hroomy := (h.roomy.push hopen hlen hnarrow hbegins).sameBlocks hsame
  obtain ⟨_, _, _, _, rfl⟩ := hsame
  exact ⟨_, hb, hinv, h.mtu_eq, h.size_eq, hroomy⟩

theorem Sized.consume {dest : Nat} (h : Sized mtu num s) (hdest : s.buf.outputDest = some dest) :
    ∃ b, s.buf.consumePacket = .ok b ∧ Sized mtu num ⟨b, s.queue.tail⟩ ∧
      ∀ d, s.buf.inputDest = some d → b.inputDest = some d ∧ s.buf.inputAvail ≤ b.inputAvail := by
  obtain ⟨b, hb, hinv, hkeep⟩ := h.inv.consume hdest
  obtain ⟨front, back, hq, hlay, -, hout⟩ := h.inv
  obtain ⟨datalen, hlen, hsame⟩ := consumePacket_sameBlocks hb
  refine ⟨b, hb, ?_, hkeep⟩
  cases front with
  | nil =>
    obtain rfl := hlay.back_eq_nil
    rw [← hq] at hout
    rw [hout.1] at hdest
    cases hdest
  | cons e rest =>
    rw [hlay.lenAt_start, Except.ok.injEq] at hlen
    subst hlen
    have hroomy := (hq ▸ h.roomy : Roomy s.buf (e :: rest ++ back)).pop hlay
    obtain ⟨hsize, hmtu, -, -⟩ := pop_frame s.buf (blocksFor e.data.length)
    rw [Int.toNat_natCast] at hsame
    replace hroomy := hroomy.sameBlocks hsame
    obtain ⟨_, _, _, _, rfl⟩ := hsame
    refine ⟨hinv, hmtu.trans h.mtu_eq, hsize.trans h.size_eq, ?_⟩
    rw [← hq]
    exact hroomy

/-- 一つの操作は、MTU を超えない packet だけが入る限り、不変量を保つ。 -/
theorem sized_step (s : Ring) (ev : RingEvent) (r : Except Fault Ring) (h : Sized mtu num s)
    (hok : WithinMtu mtu ev) (hstep : s.step ev = some r) :
    ∃ s', r = .ok s' ∧ Sized mtu num s' := by
  cases ev with
  | write off data =>
    simp only [step] at hstep
    split at hstep
    next dest hdest =>
      split at hstep
      next hle =>
        obtain ⟨s', hs', hsized⟩ := h.write hdest hle
        exact ⟨s', by rw [← hs', ← Option.some.inj hstep], hsized⟩
      next => cases hstep
    next => cases hstep
  | submit len =>
    simp only [step] at hstep
    split at hstep
    next dest hdest =>
      split at hstep
      next hle =>
        obtain ⟨b, hb, hsized⟩ := h.submit hdest hle hok
        rw [hb, ok_bind] at hstep
        exact ⟨_, (Option.some.inj hstep).symm, hsized⟩
      next => cases hstep
    next => cases hstep
  | consume =>
    simp only [step] at hstep
    split at hstep
    next dest hdest =>
      obtain ⟨b, hb, hsized, -⟩ := h.consume hdest
      rw [hb, ok_bind] at hstep
      exact ⟨_, (Option.some.inj hstep).symm, hsized⟩
    next => cases hstep

/-- `num` 個に満たなければ、MTU の packet を受け取れる。 -/
theorem Sized.input_avail (h : Sized mtu num s) (hfew : s.queue.length < num) :
    (∃ dest, s.buf.inputDest = some dest) ∧ (mtu : Int) ≤ s.buf.inputAvail := by
  obtain ⟨front, back, hq, hlay, hin, -⟩ := h.inv
  have hsize : s.buf.size = (1 + s.buf.mtu) * (num + 1) := by rw [h.mtu_eq, h.size_eq]
  rw [← hq] at hfew
  obtain ⟨hfree, hroom⟩ := (hq ▸ h.roomy : Roomy s.buf (front ++ back)).free_ge hlay hsize hfew
  have hdest : s.buf.inputOf.1 = some (4 * (s.buf.endBlock + 1)) := by
    rw [ChunkBuffer2.inputOf, if_neg (by omega), if_pos (by omega)]
  obtain ⟨-, -, havail, -⟩ := hlay.inputOf_eq_some hdest
  have hmtu := le_blocksFor mtu
  rw [← h.mtu_eq] at hmtu
  rw [hin.1, hin.2, havail]
  exact ⟨⟨_, hdest⟩, by omega⟩

/-- `ChunkBuffer2_calc_blocks` の求めた大きさは `int` に収まり、MTU の packet が一つは入る。 -/
theorem calcBlocks_eq {blocks : Nat} (h : ChunkBuffer2.calcBlocks mtu num = blocks) :
    blocks = (1 + blocksFor mtu) * (num + 1) ∧ 1 + blocksFor mtu ≤ blocks ∧ blocks < 2 ^ 31 := by
  unfold ChunkBuffer2.calcBlocks at h
  split at h
  · omega
  split at h
  · omega
  split at h
  · omega
  next hdiv =>
    obtain rfl := Int.ofNat_inj.mp h
    refine ⟨rfl, Nat.le_mul_of_pos_right _ (Nat.succ_pos _), ?_⟩
    exact Nat.lt_of_le_of_lt ((Nat.le_div_iff_mul_le (Nat.succ_pos num)).mp (Nat.not_lt.mp hdiv))
      (by decide)

/-- `ChunkBuffer2_calc_blocks` の求めた大きさで作られた、空の buffer。 -/
theorem sized_init {blocks : Nat} {buffer : List UInt8}
    (hcalc : ChunkBuffer2.calcBlocks mtu num = blocks) (hint : 4 * blocks ≤ 2 ^ 31)
    (hlen : buffer.length = 4 * blocks) :
    ∃ b, ChunkBuffer2.init buffer blocks mtu = .ok b ∧ Sized mtu num ⟨b, []⟩ := by
  obtain ⟨hblocks, hone, -⟩ := calcBlocks_eq hcalc
  have hpos : 0 < blocks := by omega
  obtain ⟨b, hb, hinv⟩ := @init_ok buffer blocks mtu hpos hint hlen
  refine ⟨b, hb, ?_⟩
  have hsame : SameBlocks b (ChunkBuffer2.fresh buffer blocks mtu) := by
    obtain ⟨-, -, h⟩ := bind_eq_ok.mp hb
    obtain ⟨-, -, h⟩ := bind_eq_ok.mp h
    obtain ⟨b₁, hb₁, h⟩ := bind_eq_ok.mp h
    obtain ⟨-, -, h⟩ := bind_eq_ok.mp h
    obtain rfl := Except.ok.inj h
    exact (sameBlocks_updateOutput hb₁).trans (sameBlocks_updateInput _)
  have hopen : ¬ (ChunkBuffer2.fresh buffer blocks mtu).Wrapped := Nat.not_le.mpr hpos
  have hroomy : Roomy (ChunkBuffer2.fresh buffer blocks mtu) [] := by
    refine ⟨nofun, nofun, fun _ => ?_, fun hyes => absurd hyes hopen⟩
    rw [ChunkBuffer2.endBlock_of_not_wrapped hopen]
    show 0 + 0 + 1 + blocksFor mtu ≤ blocks
    omega
  replace hroomy := hroomy.sameBlocks hsame
  obtain ⟨_, _, _, _, rfl⟩ := hsame
  exact ⟨hinv, rfl, hblocks, hroomy⟩

/-- 全部で `num` 個を超えないなら、どの長さの packet も続けて入れられる。 -/
theorem Sized.fill {lens : List Nat} (h : Sized mtu num s) (hmtu : ∀ len ∈ lens, len ≤ mtu)
    (hfew : s.queue.length + lens.length ≤ num) :
    ∃ s', exec (guarded step) (.ok s) (lens.map .submit) = some (.ok s') ∧
      s'.queue.length = s.queue.length + lens.length := by
  induction lens generalizing s with
  | nil => exact ⟨s, rfl, rfl⟩
  | cons len lens ih =>
    rw [List.length_cons] at hfew
    have hlen := hmtu len List.mem_cons_self
    obtain ⟨⟨dest, hdest⟩, havail⟩ := h.input_avail (by omega)
    have hle : (len : Int) ≤ s.buf.inputAvail := by omega
    obtain ⟨b, hb, hsized⟩ := h.submit hdest hle hlen
    have hstep : guarded step (.ok s) (.submit len) =
        some (.ok ⟨b, s.queue ++ [⟨s.buf.endBlock, s.written dest len⟩]⟩) := by
      simp only [guarded, step, hdest, hle, if_true, hb, ok_bind]
      rfl
    obtain ⟨s', hrun, hlength⟩ := ih hsized (fun l hl => hmtu l (List.mem_cons_of_mem _ hl))
      (by simp only [List.length_append, List.length_singleton]; omega)
    refine ⟨s', ?_, ?_⟩
    · rw [List.map_cons, exec_cons hstep]
      exact hrun
    · rw [hlength, List.length_append, List.length_singleton, List.length_cons]
      omega

end Ring

/--
**`ChunkBuffer2_calc_blocks` の求めた大きさの buffer には、いつでも `num` 個の packet が入る。**

MTU を超えない packet をどう入れ、どう取り出した後でも、入っている packet が `num` 個に満たない間は MTU の packet を受け取れる。
したがって、折り返す所でどれだけ捨てられていても、`num` 個になるまで続けて入れられる。
-/
theorem chunkBuffer2_capacity {mtu num blocks : Nat} {buffer : List UInt8}
    (hcalc : ChunkBuffer2.calcBlocks mtu num = blocks) (hint : 4 * blocks < 2 ^ 31)
    (hlen : buffer.length = 4 * blocks) :
    ∃ b, ChunkBuffer2.init buffer blocks mtu = .ok b ∧
      ∀ events r, (∀ len, .submit len ∈ events → len ≤ mtu) →
        exec (guarded Ring.step) (.ok ⟨b, []⟩) events = some r →
        ∃ s, r = .ok s ∧ (s.queue.length < num → (mtu : Int) ≤ s.buf.inputAvail) ∧
          ∀ lens : List Nat, (∀ len ∈ lens, len ≤ mtu) → s.queue.length + lens.length ≤ num →
            ∃ s', exec (guarded Ring.step) (.ok s) (lens.map .submit) = some (.ok s') ∧
              s'.queue.length = s.queue.length + lens.length := by
  obtain ⟨b, hb, hinit⟩ := Ring.sized_init hcalc (Nat.le_of_lt hint) hlen
  refine ⟨b, hb, fun events r hmtu hrun => ?_⟩
  have hwithin : ∀ ev ∈ events, ∀ r, OkThen (fun _ ev => Ring.WithinMtu mtu ev)
      (r : Except Fault Ring) ev := by
    intro ev hev r
    cases r with
    | error f => trivial
    | ok s =>
      cases ev with
      | submit len => exact hmtu len hev
      | write off data => trivial
      | consume => trivial
  obtain ⟨s, rfl, hs⟩ := exec_safe Ring.sized_step hinit (Meets.of_mem hwithin _) hrun
  exact ⟨s, rfl, fun hfew => (hs.input_avail hfew).2, fun lens hmtu hfew => hs.fill hmtu hfew⟩

/-- 六 block の buffer の五 block 目で折り返し、一つだけを残す。 -/
def fragmentingRun : List RingEvent :=
  [.write 0 [1], .submit 1, .submit 0, .submit 0, .submit 0, .consume, .consume, .consume]

theorem chunkBuffer2_capacity_fragmented :
    ∃ s,
        exec (guarded Ring.step)
          (.ok ⟨(ChunkBuffer2.fresh (List.replicate 24 0) 6 4).updateInput, []⟩) fragmentingRun =
        some (.ok s) ∧
      (s.buf.wrap = 5 ∧ s.queue = [⟨4, []⟩]) ∧ 4 ≤ s.buf.inputAvail := by
  obtain ⟨b, hb, hall⟩ := @chunkBuffer2_capacity 4 2 6 (List.replicate 24 0) (by decide) (by decide)
    (by decide)
  have hinit : ChunkBuffer2.init (List.replicate 24 0) 6 4 =
      .ok (ChunkBuffer2.fresh (List.replicate 24 0) 6 4).updateInput := by rfl
  obtain rfl := Except.ok.inj (hinit.symm.trans hb)
  obtain ⟨s, hrun, hp⟩ := exec_ok_exists Ring.step
    ⟨(ChunkBuffer2.fresh (List.replicate 24 0) 6 4).updateInput, []⟩
    fragmentingRun (fun s => s.buf.wrap = 5 ∧ s.queue = [⟨4, []⟩]) (by decide +kernel)
  obtain ⟨s', hs', havail, -⟩ := hall _ _ (by simp [fragmentingRun]) hrun
  obtain rfl := Except.ok.inj hs'
  exact ⟨s, hrun, hp, havail (by rw [hp.2]; decide)⟩

end Flow
