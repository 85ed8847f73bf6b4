import BufferFlow.Proofs.Pipeline.DataPath

set_option autoImplicit false

namespace BufferFlow

namespace Bits

theorem sum_eq_ncard {α : Type} {width : Nat} (pos : 0 < width) (test : α → Nat → Bool) (xs : List α) :
    (xs.map fun x => (List.range width).countP (test x)).sum =
      {i | ((xs[i / width]?).any fun x => test x (i % width)) = true}.ncard := by
  have inside : {i | i < width * xs.length ∧
      ((xs[i / width]?).any fun x => test x (i % width)) = true} =
      {i | ((xs[i / width]?).any fun x => test x (i % width)) = true} := by
    refine Set.ext fun i => and_iff_right_of_imp fun set => ?_
    obtain ⟨x, there, -⟩ := (Option.any_eq_true _ _).1 set
    obtain ⟨item, -⟩ := List.getElem?_eq_some_iff.1 there
    rwa [Nat.div_lt_iff_lt_mul pos, Nat.mul_comm] at item
  rw [sum_countP pos, countP_range, inside]

theorem ncard_le {α : Type} {width : Nat} (pos : 0 < width) (test : α → Nat → Bool) (xs : List α) :
    {i | ((xs[i / width]?).any fun x => test x (i % width)) = true}.ncard ≤ width * xs.length := by
  rw [← sum_eq_ncard pos, sum_countP pos]
  exact List.countP_le_length.trans_eq List.length_range

theorem sum_ones_eq_ncard (ws : List UInt64) :
    (ws.map ones).sum = {i | bit ws i = true}.ncard :=
  sum_eq_ncard (show 0 < perWord by decide) (fun w : UInt64 => w.toNat.testBit) ws

theorem sum_byteOnes_eq_ncard (data : List UInt8) :
    (data.map byteOnes).sum = {i | byteBit data i = true}.ncard :=
  sum_eq_ncard (show 0 < 8 by decide) (fun b : UInt8 => b.toNat.testBit) data

end Bits

theorem FireVector.countOnes_eq (v : FireVector) :
    v.countOnes = Checked.narrow (v.words.toList.map Bits.ones).sum :=
  Checked.sum32_spec _

theorem SinkBuffer.countOnes_eq (b : SinkBuffer) :
    b.countOnes = Checked.narrow (b.data.map Bits.byteOnes).sum :=
  Checked.sum32_spec _

theorem SinkBuffer.sum_fitted {n : Nat} {bytes : List UInt8} (room : bytes.length ≤ n) :
    ((fitted n bytes).map Bits.byteOnes).sum = (bytes.map Bits.byteOnes).sum := by
  have none : Bits.byteOnes 0 = 0 := by decide
  rw [fitted, List.take_of_length_le room, List.map_append, List.map_replicate, List.sum_append,
    List.sum_replicate, none, Nat.add_eq_left]
  exact Nat.mul_zero _

namespace Pipeline

/-- A count is the number of set bits if that has 32 bits, and an overflow otherwise. Words count
the same in a buffer that has room for them. -/
theorem countOnes_exact (v : FireVector) (b : SinkBuffer) :
    v.countOnes = Checked.narrow {i | Bits.bit v.words.toList i = true}.ncard ∧
      b.countOnes = Checked.narrow {i | Bits.byteBit b.data i = true}.ncard ∧
      (v.words.size * 8 ≤ b.data.length →
        (b.writeWords v.words.toList).countOnes = v.countOnes) := by
  refine ⟨?_, ?_, fun room => ?_⟩
  · rw [v.countOnes_eq, Bits.sum_ones_eq_ncard]
  · rw [b.countOnes_eq, Bits.sum_byteOnes_eq_ncard]
  · have fits : (v.words.toList.flatMap Bits.littleEndian).length ≤ b.data.length := by
      rwa [Bits.length_bytes, Array.length_toList]
    rw [v.countOnes_eq, SinkBuffer.countOnes_eq, SinkBuffer.writeWords, SinkBuffer.sum_fitted fits,
      Bits.sum_bytes]

theorem countOnes_exact_five :
    (#[5] : Array UInt64).size * 8 ≤ (List.replicate 12 (255 : UInt8)).length ∧
      (SinkBuffer.writeWords ⟨⟨.u32, 3, 0⟩, List.replicate 12 255, 0⟩ [5]).countOnes = .ok 2 := by
  have counted : (⟨#[5], 0⟩ : FireVector).countOnes = .ok 2 := by decide
  obtain ⟨-, -, same⟩ := countOnes_exact ⟨#[5], 0⟩ ⟨⟨.u32, 3, 0⟩, List.replicate 12 255, 0⟩
  exact ⟨by decide, (same (by decide)).trans counted⟩

theorem countOnes_short (v : FireVector) (b : SinkBuffer) :
    (64 * v.words.size < 2 ^ 32 → ∃ count, v.countOnes = .ok count ∧
      count.toNat = {i | Bits.bit v.words.toList i = true}.ncard) ∧
    (8 * b.data.length < 2 ^ 32 → ∃ count, b.countOnes = .ok count ∧
      count.toNat = {i | Bits.byteBit b.data i = true}.ncard) := by
  refine ⟨fun short => ?_, fun short => ?_⟩
  · have few : {i | Bits.bit v.words.toList i = true}.ncard ≤ 64 * v.words.toList.length :=
      Bits.ncard_le (show 0 < 64 by decide) (fun w : UInt64 => w.toNat.testBit) _
    rw [v.countOnes_eq, Bits.sum_ones_eq_ncard]
    exact Checked.narrow_eq (few.trans_lt short)
  · have few : {i | Bits.byteBit b.data i = true}.ncard ≤ 8 * b.data.length :=
      Bits.ncard_le (show 0 < 8 by decide) (fun b : UInt8 => b.toNat.testBit) _
    rw [b.countOnes_eq, Bits.sum_byteOnes_eq_ncard]
    exact Checked.narrow_eq (few.trans_lt short)

variable {config : PipelineConfig} {step : Nat}

/-- Where more indices fire than 32 bits can count, no count is had of them, neither before nor after
they are collected. -/
theorem countOnes_crowded (pos : 0 < config.firingPeriod.toNat)
    (many : 2 ^ 32 ≤ firingsAt config step) (description : Description) (number : UInt64) :
    (FireVector.mk (exchangeAt config step).words number).countOnes = .error .addOverflow ∧
      (SinkBuffer.mk description (reportAt config step) number).countOnes =
        .error .addOverflow := by
  have beyond : Checked.narrow (firingsAt config step) = .error .addOverflow := by
    rw [Checked.narrow, if_neg (Nat.not_lt.2 many)]
  rw [FireVector.countOnes_eq, SinkBuffer.countOnes_eq, sum_ones_exchangeAt pos,
    sum_byteOnes_reportAt pos]
  exact ⟨beyond, beyond⟩

theorem firingsAt_full (period : config.firingPeriod.toNat = 1) (step : Nat) :
    firingsAt config step = config.vectorSize.toNat := by
  have all : (List.range config.vectorSize.toNat).countP
      (fun i => i % config.firingPeriod.toNat = step % config.firingPeriod.toNat) =
      (List.range config.vectorSize.toNat).length := by
    refine List.countP_eq_length.2 fun i _ => ?_
    rw [period, Nat.mod_one, Nat.mod_one]
    rfl
  rw [firingsAt, all, List.length_range]

/-- A valid configuration fires 2 ^ 32 bits, one more than can be counted. -/
theorem uncounted_when_full :
    PipelineConfig.validate { vectorSize := 4294967296, firingPeriod := 1 } = .ok () ∧
      (FireVector.mk (exchangeAt { vectorSize := 4294967296, firingPeriod := 1 } 0).words 0).countOnes =
        .error .addOverflow ∧
      (SinkBuffer.mk ⟨.bit, 4294967296, 0⟩
        (reportAt { vectorSize := 4294967296, firingPeriod := 1 } 0) 0).countOnes =
        .error .addOverflow := by
  refine ⟨rfl, countOnes_crowded (by decide) ?_ _ 0⟩
  rw [firingsAt_full rfl]
  decide

end Pipeline

end BufferFlow
