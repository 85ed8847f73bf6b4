import BufferFlow.Proofs.Payload.Copying
import BufferFlow.Proofs.Payload.Members
import BufferFlow.Proofs.Pipeline.DataPath
import BufferFlow.Proofs.Pipeline.Layout

set_option autoImplicit false

namespace BufferFlow

/-- A buffer that comes back holds anything, in the kind and the sizes that it was made with. -/
def Payload.Shape.Recycled (shape : Payload.Shape) (old : Payload) : Prop :=
  ∃ i made, shape.make i = .ok made ∧ old.extent = made.extent

namespace Pipeline

variable {config : PipelineConfig} {old : Payload}

theorem extent_recycled_exchange {bits : Nat}
    (recycled : (Payload.Shape.exchange bits).Recycled old) :
    old.extent = (.exchange, bits, Bits.numWords bits) := by
  obtain ⟨i, made, new, same⟩ := recycled
  obtain rfl := Except.ok.inj new
  rw [same, Payload.extent, ExchangeVector.new, Array.size_replicate]

theorem extent_recycled_fire {bits : Nat} (recycled : (Payload.Shape.fire bits).Recycled old) :
    old.extent = (.fire, 0, Bits.numWords bits) := by
  obtain ⟨i, made, new, same⟩ := recycled
  obtain rfl := Except.ok.inj new
  rw [same, Payload.extent, FireVector.new, Array.size_replicate]

theorem extent_recycled_sink
    (recycled : (Payload.Shape.sink ⟨.bit, config.vectorSize, 0⟩).Recycled old) :
    old.extent = (.sink, 0, Bits.numWords config.vectorSize.toNat * 8) := by
  obtain ⟨i, made, new, same⟩ := recycled
  change (Payload.Shape.sink ⟨.bit, config.vectorSize, 0⟩).factory.make i = .ok made at new
  rw [same, extent_sink new]

/-- Whatever the recycled buffers held, the report of a step has the bytes of a vector's words, and
in them exactly the bits of the indices below the vector's size that leave the step's remainder by
the period. No function faults, except that the aggregator's count of calls overflows in call `2 ^
64 - 1`; no index is refused, and no range is out of bounds. -/
theorem report_bits (config : PipelineConfig) (step : Nat) (pos : 0 < config.firingPeriod.toNat) :
    ∃ data : List UInt8, data.length = 8 * ((config.vectorSize.toNat + 63) / 64) ∧
      (∀ i, Bits.byteBit data i = true ↔ i < config.vectorSize.toNat ∧
        i % config.firingPeriod.toNat = step % config.firingPeriod.toNat) ∧
      ∀ (v : ExchangeVector) (f : FireVector) (b : SinkBuffer) (derived collected : Nat),
        (Payload.Shape.exchange config.vectorSize.toNat).Recycled (.exchange v) →
        (Payload.Shape.fire config.vectorSize.toNat).Recycled (.fire f) →
        (Payload.Shape.sink ⟨.bit, config.vectorSize, 0⟩).Recycled (.sink b) →
        ∃ v' f' b',
          fillExchange config.firingPeriod.toNat step (.exchange v) = ⟨.exchange v', none⟩ ∧
          deriveFire derived (.exchange v') (.fire f) = ⟨.fire f', Checked.overrun? derived⟩ ∧
          collectFire collected (.fire f') (.sink b) = ⟨.sink b', none⟩ ∧
          b'.data = data ∧
          v.setEvery? config.firingPeriod.toNat step = some v' ∧
          f.setFireBits? v'.words = some { f' with step := f.step } ∧
          b.writeWords? f'.words.toList = some { b' with step := b.step } := by
  obtain ⟨-, -, members⟩ := ExchangeVector.everyNth_spec config.vectorSize.toNat step pos
  refine ⟨reportAt config step, ?_, fun i => ?_, ?_⟩
  · rw [reportAt, Bits.length_bytes, Array.length_toList, size_exchangeAt pos, Nat.mul_comm]
    rfl
  · rw [reportAt, Bits.byteBit_bytes, exchangeAt, members, decide_eq_true_iff]
  intro v f b derived collected oldExchange oldFire oldSink
  have exchange := extent_recycled_exchange oldExchange
  have fire := extent_recycled_fire oldFire
  have sink := extent_recycled_sink oldSink
  refine ⟨exchangeAt config step, ⟨(exchangeAt config step).words, derived.toUInt64⟩,
    { b with data := reportAt config step, step := derived.toUInt64 },
    fillExchange_eq pos step exchange, deriveFire_eq pos step derived fire,
    collectFire_eq pos step collected _ sink, rfl, ?_, ?_, ?_⟩
  · rw [ExchangeVector.setEvery?_eq (sized_of_extent exchange).2 pos,
      setEvery_exchangeAt pos step exchange]
  · rw [FireVector.setFireBits?_eq, setFireBits_exchangeAt pos step fire]
  · rw [SinkBuffer.writeWords?_eq, writeWords_exchangeAt pos step sink]

theorem report_bits_over_ones :
    (Payload.Shape.exchange 70).Recycled
      (.exchange ⟨70, #[0xFFFFFFFFFFFFFFFF, 0xFFFFFFFFFFFFFFFF]⟩) ∧
    (Payload.Shape.fire 70).Recycled (.fire ⟨#[5, 7], 9⟩) ∧
    (Payload.Shape.sink ⟨.bit, 70, 0⟩).Recycled
      (.sink ⟨⟨.bit, 70, 0⟩, List.replicate 16 255, 2⟩) ∧
    ∃ v f b,
      fillExchange 3 4 (.exchange ⟨70, #[0xFFFFFFFFFFFFFFFF, 0xFFFFFFFFFFFFFFFF]⟩) =
        ⟨.exchange v, none⟩ ∧
      deriveFire 1 (.exchange v) (.fire ⟨#[5, 7], 9⟩) = ⟨.fire f, none⟩ ∧
      collectFire 1 (.fire f) (.sink ⟨⟨.bit, 70, 0⟩, List.replicate 16 255, 2⟩) =
        ⟨.sink b, none⟩ ∧
      b.data.length = 16 ∧ Bits.byteBit b.data 67 = true ∧ Bits.byteBit b.data 68 = false ∧
      Bits.byteBit b.data 70 = false := by
  have oldExchange : (Payload.Shape.exchange 70).Recycled
      (.exchange ⟨70, #[0xFFFFFFFFFFFFFFFF, 0xFFFFFFFFFFFFFFFF]⟩) := ⟨0, _, rfl, by decide⟩
  have oldFire : (Payload.Shape.fire 70).Recycled (.fire ⟨#[5, 7], 9⟩) := ⟨0, _, rfl, by decide⟩
  have oldSink : (Payload.Shape.sink ⟨.bit, 70, 0⟩).Recycled
      (.sink ⟨⟨.bit, 70, 0⟩, List.replicate 16 255, 2⟩) := ⟨0, _, rfl, by decide⟩
  obtain ⟨data, length, members, carried⟩ :=
    report_bits { vectorSize := 70, firingPeriod := 3 } 4 (by decide)
  obtain ⟨v, f, b, filled, derived, collected, rfl, -⟩ :=
    carried _ _ _ 1 1 oldExchange oldFire oldSink
  have unset : ∀ i, ¬ (i < 70 ∧ i % 3 = 4 % 3) → Bits.byteBit b.data i = false := fun i out =>
    Bool.eq_false_iff.2 fun set => out ((members i).1 set)
  exact ⟨oldExchange, oldFire, oldSink, v, f, b, filled, derived, collected, length,
    (members 67).2 (by decide), unset 68 (by decide), unset 70 (by decide)⟩

end Pipeline

end BufferFlow
