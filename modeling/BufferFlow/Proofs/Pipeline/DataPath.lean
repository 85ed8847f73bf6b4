import BufferFlow.Pipeline
import BufferFlow.Proofs.Hub.Extents
import BufferFlow.Proofs.Payload.Copying
import BufferFlow.Proofs.Payload.Vector

set_option autoImplicit false

namespace BufferFlow

namespace ExchangeVector

variable {v : ExchangeVector}

theorem size_set (v : ExchangeVector) (i : Nat) : (v.set i).2.words.size = v.words.size := by
  rw [set]
  split
  · exact Array.size_modify
  · rfl

theorem setAll_extent (v : ExchangeVector) (is : List Nat) :
    (v.setAll is).2.bits = v.bits ∧ (v.setAll is).2.words.size = v.words.size := by
  rw [setAll_eq]
  induction is generalizing v with
  | nil => exact ⟨rfl, rfl⟩
  | cons i is ih =>
    obtain ⟨bits, size⟩ := ih (v.set i).2
    exact ⟨bits.trans (v.set_bits i), size.trans (v.size_set i)⟩

theorem setEvery_extent (v : ExchangeVector) (period step : Nat) :
    (v.setEvery period step).1.bits = v.bits ∧
      (v.setEvery period step).1.words.size = v.words.size := by
  rw [setEvery]
  split
  · exact ⟨rfl, Array.size_replicate⟩
  · obtain ⟨bits, size⟩ := v.clear.setAll_extent (indicesFrom v.bits (step % period) period)
    exact ⟨bits, size.trans Array.size_replicate⟩

end ExchangeVector

namespace Pipeline

variable {config : PipelineConfig} {period step : Nat} {old source payload : Payload}

theorem fillExchange_extent (period step : Nat) (old : Payload) :
    (fillExchange period step old).payload.extent = old.extent := by
  cases old with
  | exchange v =>
    obtain ⟨bits, size⟩ := v.setEvery_extent period step
    change (Payload.exchange (v.setEvery period step).1).extent = _
    rw [Payload.extent, bits, size, Payload.extent]
  | _ => rfl

theorem fillGate_extent (config : PipelineConfig) (step : Nat) (old : Payload) :
    (fillGate config step old).payload.extent = old.extent := by
  cases old <;> rfl

theorem deriveFire_extent (calls : Nat) (source old : Payload) :
    (deriveFire calls source old).payload.extent = old.extent := by
  unfold deriveFire
  split
  · exact congrArg (fun size => (Payload.Kind.fire, 0, size)) (FireVector.size_setFireBits _ _)
  · rfl

theorem collectFire_extent (calls : Nat) (source old : Payload) :
    (collectFire calls source old).payload.extent = old.extent := by
  unfold collectFire
  split
  · exact congrArg (fun size => (Payload.Kind.sink, 0, size)) (SinkBuffer.length_fitted _ _)
  · rfl

theorem firingPeriod_pos (valid : config.validate = .ok ()) : 0 < config.firingPeriod.toNat := by
  refine Nat.pos_of_ne_zero fun zero => ?_
  have none : config.firingPeriod = 0 := UInt64.toNat_inj.1 zero
  simp only [PipelineConfig.validate, none, if_true] at valid
  split at valid
  · simp at valid
  · split at valid <;> simp at valid

theorem fillExchange_fault (pos : 0 < period) (step : Nat) (old : Payload) :
    (fillExchange period step old).fault = none := by
  cases old with
  | exchange v =>
    change (v.setEvery period step).2 = none
    rw [ExchangeVector.setEvery, if_neg (Nat.ne_of_gt pos)]
  | _ => rfl

theorem fillGate_fault (config : PipelineConfig) (step : Nat) (old : Payload) :
    (fillGate config step old).fault = none := by
  cases old <;> rfl

theorem deriveFire_fault {calls : Nat} {source old : Payload} {fault : Fault}
    (faults : (deriveFire calls source old).fault = some fault) :
    Checked.overrun? calls = some fault := by
  unfold deriveFire at faults
  split at faults
  · exact faults
  · cases faults

theorem collectFire_fault (calls : Nat) (source old : Payload) :
    (collectFire calls source old).fault = none := by
  unfold collectFire
  split <;> rfl

def exchangeAt (config : PipelineConfig) (step : Nat) : ExchangeVector :=
  .everyNth config.vectorSize.toNat config.firingPeriod.toNat step

/-- How many indices fire in a step. -/
def firingsAt (config : PipelineConfig) (step : Nat) : Nat :=
  (List.range config.vectorSize.toNat).countP fun i =>
    i % config.firingPeriod.toNat = step % config.firingPeriod.toNat

/-- The bytes of a step's report. -/
def reportAt (config : PipelineConfig) (step : Nat) : List UInt8 :=
  (exchangeAt config step).words.toList.flatMap Bits.littleEndian

theorem size_exchangeAt (pos : 0 < config.firingPeriod.toNat) (step : Nat) :
    (exchangeAt config step).words.size = Bits.numWords config.vectorSize.toNat := by
  obtain ⟨bits, sized, -⟩ := ExchangeVector.everyNth_spec config.vectorSize.toNat step pos
  rw [exchangeAt, sized, bits]

theorem sum_ones_exchangeAt (pos : 0 < config.firingPeriod.toNat) (step : Nat) :
    ((exchangeAt config step).words.toList.map Bits.ones).sum = firingsAt config step :=
  ExchangeVector.sum_ones_everyNth config.vectorSize.toNat step pos

theorem sum_byteOnes_reportAt (pos : 0 < config.firingPeriod.toNat) (step : Nat) :
    ((reportAt config step).map Bits.byteOnes).sum = firingsAt config step := by
  rw [reportAt, Bits.sum_bytes, sum_ones_exchangeAt pos]

section

variable {v : ExchangeVector} {f : FireVector} {b : SinkBuffer}

theorem sized_of_extent (extent : (Payload.exchange v).extent =
    (.exchange, config.vectorSize.toNat, Bits.numWords config.vectorSize.toNat)) :
    v.bits = config.vectorSize.toNat ∧ v.Sized := by
  obtain ⟨-, bits, size⟩ : Payload.Kind.exchange = .exchange ∧ v.bits = config.vectorSize.toNat ∧
      v.words.size = Bits.numWords config.vectorSize.toNat := by
    simpa [Payload.extent] using extent
  exact ⟨bits, by rw [ExchangeVector.Sized, size, bits]⟩

theorem setEvery_exchangeAt (pos : 0 < config.firingPeriod.toNat) (step : Nat)
    (extent : (Payload.exchange v).extent =
      (.exchange, config.vectorSize.toNat, Bits.numWords config.vectorSize.toNat)) :
    v.setEvery config.firingPeriod.toNat step = (exchangeAt config step, none) := by
  obtain ⟨bits, sized⟩ := sized_of_extent extent
  rw [ExchangeVector.setEvery_eq sized pos, bits, exchangeAt]

theorem setFireBits_exchangeAt (pos : 0 < config.firingPeriod.toNat) (step : Nat)
    (extent : (Payload.fire f).extent = (.fire, 0, Bits.numWords config.vectorSize.toNat)) :
    f.setFireBits (exchangeAt config step).words =
      { f with words := (exchangeAt config step).words } := by
  have size : f.words.size = Bits.numWords config.vectorSize.toNat := by
    simpa [Payload.extent] using extent
  exact FireVector.setFireBits_eq (by rw [size_exchangeAt pos, size])

theorem writeWords_exchangeAt (pos : 0 < config.firingPeriod.toNat) (step : Nat)
    (extent : (Payload.sink b).extent = (.sink, 0, Bits.numWords config.vectorSize.toNat * 8)) :
    b.writeWords (exchangeAt config step).words.toList =
      { b with data := reportAt config step } := by
  have length : b.data.length = Bits.numWords config.vectorSize.toNat * 8 := by
    simpa [Payload.extent] using extent
  exact SinkBuffer.writeWords_eq (by rw [Array.length_toList, size_exchangeAt pos, length])

theorem fillExchange_eq (pos : 0 < config.firingPeriod.toNat) (step : Nat)
    (extent : (Payload.exchange v).extent =
      (.exchange, config.vectorSize.toNat, Bits.numWords config.vectorSize.toNat)) :
    fillExchange config.firingPeriod.toNat step (.exchange v) =
      ⟨.exchange (exchangeAt config step), none⟩ := by
  change Written.mk (.exchange (v.setEvery config.firingPeriod.toNat step).1)
    (v.setEvery config.firingPeriod.toNat step).2 = _
  rw [setEvery_exchangeAt pos step extent]

theorem deriveFire_eq (pos : 0 < config.firingPeriod.toNat) (step calls : Nat)
    (extent : (Payload.fire f).extent = (.fire, 0, Bits.numWords config.vectorSize.toNat)) :
    deriveFire calls (.exchange (exchangeAt config step)) (.fire f) =
      ⟨.fire ⟨(exchangeAt config step).words, calls.toUInt64⟩, Checked.overrun? calls⟩ := by
  rw [deriveFire, setFireBits_exchangeAt pos step extent]

theorem collectFire_eq (pos : 0 < config.firingPeriod.toNat) (step calls : Nat) (number : UInt64)
    (extent : (Payload.sink b).extent = (.sink, 0, Bits.numWords config.vectorSize.toNat * 8)) :
    collectFire calls (.fire ⟨(exchangeAt config step).words, number⟩) (.sink b) =
      ⟨.sink { b with data := reportAt config step, step := number }, none⟩ := by
  rw [collectFire, writeWords_exchangeAt pos step extent]

end

theorem exchange_filled (pos : 0 < config.firingPeriod.toNat)
    (filled : fillExchange config.firingPeriod.toNat step old = ⟨payload, none⟩)
    (extent : payload.extent =
      (.exchange, config.vectorSize.toNat, Bits.numWords config.vectorSize.toNat)) :
    payload = .exchange (exchangeAt config step) := by
  have same := fillExchange_extent config.firingPeriod.toNat step old
  rw [filled, extent] at same
  cases old with
  | exchange v =>
    rw [fillExchange_eq pos step same.symm] at filled
    exact (congrArg Written.payload filled).symm
  | _ => simp [Payload.extent] at same

theorem fire_derived
    (derived : deriveFire step (.exchange (exchangeAt config step)) old = ⟨payload, none⟩)
    (pos : 0 < config.firingPeriod.toNat)
    (extent : payload.extent = (.fire, 0, Bits.numWords config.vectorSize.toNat)) :
    payload = .fire ⟨(exchangeAt config step).words, step.toUInt64⟩ := by
  have same := deriveFire_extent step (.exchange (exchangeAt config step)) old
  rw [derived, extent] at same
  cases old with
  | fire f =>
    rw [deriveFire_eq pos step step same.symm] at derived
    exact (congrArg Written.payload derived).symm
  | _ => simp [Payload.extent] at same

theorem report_counts {calls : Nat} (pos : 0 < config.firingPeriod.toNat)
    (collected : collectFire calls (.fire ⟨(exchangeAt config step).words, step.toUInt64⟩) old =
      ⟨payload, none⟩)
    (extent : payload.extent = (.sink, 0, Bits.numWords config.vectorSize.toNat * 8))
    (fits : firingsAt config step < 2 ^ 32) :
    ∃ b ones, payload = .sink b ∧ b.countOnes = .ok ones ∧ ones.toNat = firingsAt config step := by
  have same := collectFire_extent calls (.fire ⟨(exchangeAt config step).words, step.toUInt64⟩) old
  rw [collected, extent] at same
  cases old with
  | sink b =>
    have sum := sum_byteOnes_reportAt pos step
    obtain ⟨ones, counted, total⟩ := Checked.sum32_eq (sum ▸ fits)
    rw [collectFire_eq pos step calls step.toUInt64 same.symm] at collected
    exact ⟨_, ones, (congrArg Written.payload collected).symm, counted, total.trans sum⟩
  | _ => simp [Payload.extent] at same

end Pipeline

end BufferFlow
