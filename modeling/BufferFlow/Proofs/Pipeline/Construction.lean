import BufferFlow.Proofs.Network.Refusals
import BufferFlow.Proofs.Pipeline.Layout

set_option autoImplicit false

namespace BufferFlow.Pipeline

variable {config : PipelineConfig} {n : Network} {capacity bits : Nat}

/-- The slots of a pool of the pipeline can be addressed, whatever kind of payloads they have. -/
def Addressable (config : PipelineConfig) : Prop :=
  ∀ kind : Payload.Kind, kind.FitsSlots config.buffers.toNat

theorem bytes_ne_zero (some_bits : bits ≠ 0) : Bits.numWords bits * 8 ≠ 0 := fun empty =>
  some_bits ((ElementType.bytesFor_eq_zero (t := .bit)).1 empty)

theorem fills_signal (i : Nat) : Payload.Shape.signal.factory.Fills i :=
  ⟨.signal .closed, rfl, Nat.one_ne_zero⟩

theorem fills_exchange (some_bits : bits ≠ 0) (i : Nat) :
    (Payload.Shape.exchange bits).factory.Fills i :=
  ⟨.exchange (.new bits), rfl, bytes_ne_zero some_bits⟩

theorem fills_fire (some_bits : bits ≠ 0) (i : Nat) : (Payload.Shape.fire bits).factory.Fills i := by
  refine ⟨.fire (.new bits), rfl, ?_⟩
  rw [Payload.byteSize, FireVector.byteSize, FireVector.new, Array.size_replicate]
  exact bytes_ne_zero some_bits

theorem bits_sized (some_bits : config.vectorSize ≠ 0) :
    ∃ size, (Description.mk .bit config.vectorSize 0).byteSize = .ok size ∧ size ≠ 0 ∧
      size.toNat ≤ Memory.largestPiece := by
  obtain ⟨size, sized, -⟩ := ElementType.numBytes_bit config.vectorSize
  have bytes := ElementType.numBytes_eq_ok.1 sized
  have elements : (Description.mk .bit config.vectorSize 0).elements = config.vectorSize.toNat := rfl
  have whole : (Description.mk .bit config.vectorSize 0).byteSize = .ok size := by
    rw [Description.byteSize_eq_ok, elements]
    exact ⟨config.vectorSize.toNat_lt, bytes⟩
  refine ⟨size, whole, ?_, ?_⟩
  · rintro rfl
    exact some_bits (Description.byteSize_eq_zero.1 whole).1
  · rw [bytes]
    exact (ElementType.bytesFor_bit_le config.vectorSize).trans (by decide)

theorem addGates_isOk (wanted : 0 < config.buffers.toNat) (addressable : Addressable config)
    (n : Network) (indices : List Nat) : ∃ added, addGates config n indices = .ok added := by
  have along : ∀ added, ∃ added', indices.foldlM (addGate config) added = Except.ok added' := by
    induction indices with
    | nil => exact fun added => ⟨added, rfl⟩
    | cons index indices ih =>
      intro added
      obtain ⟨⟨gate, n'⟩, made⟩ := (added.2.admits_relay s!"gate-{index}" config.buffers.toNat
        Payload.Shape.signal.factory (fillGate config)).built.2
          ⟨wanted, addressable .signal, fun i _ => fills_signal i⟩
      have first : addGate config added index = .ok (added.1 ++ [gate], n') := by
        simp only [addGate, made, bind, Except.bind, pure, Except.pure]
      rw [List.foldlM_cons, first]
      exact ih _
  exact along ([], n)

theorem build_isOk (wanted : config.buffers ≠ 0) (some_bits : config.vectorSize ≠ 0)
    (addressable : Addressable config) : ∃ p n, build config = .ok (p, n) := by
  have buffers : 0 < config.buffers.toNat :=
    Nat.pos_of_ne_zero fun none => wanted (UInt64.toNat_inj.1 none)
  have size : config.vectorSize.toNat ≠ 0 := fun none => some_bits (UInt64.toNat_inj.1 none)
  obtain ⟨sinkSize, sized, full, small⟩ := bits_sized some_bits
  obtain ⟨⟨exchange, n₁⟩, relayed⟩ := (Network.admits_relay {} "exchange" config.buffers.toNat
    (Payload.Shape.exchange config.vectorSize.toNat).factory
    (fillExchange config.firingPeriod.toNat)).built.2
      ⟨buffers, addressable .exchange, fun i _ => fills_exchange size i⟩
  obtain ⟨⟨gates, n₂⟩, gated⟩ :=
    addGates_isOk buffers addressable n₁ (List.range config.gates.toNat)
  have aggregated : ∀ (n : Network) source signals, ∃ fire, (n.newAggregator "fire"
      config.buffers.toNat (Payload.Shape.fire config.vectorSize.toNat).factory source signals
      deriveFire).1 = .ok fire := fun n source signals =>
    (n.admits_aggregator "fire" config.buffers.toNat _ source signals deriveFire).built.2
      ⟨buffers, addressable .fire, fun i _ => fills_fire size i⟩
  have collected : ∀ (n : Network) source signals, ∃ sink, (n.newSink "report"
      ⟨.bit, config.vectorSize, 0⟩ config.buffers.toNat source signals collectFire).1 = .ok sink :=
    fun n source signals =>
      ((n.admits_sink "report" _ config.buffers.toNat source signals collectFire).built _ sized).2
        ⟨full, buffers, addressable .sink, small⟩
  simp only [build, relayed, gated, bind, Except.bind]
  -- whatever the subscriptions are called, the aggregator and the sink are built
  obtain ⟨fire, made⟩ := aggregated (subscribeAll (n₂.subscribe exchange false).2 gates).2
    (n₂.subscribe exchange false).1 (subscribeAll (n₂.subscribe exchange false).2 gates).1
  simp only [made]
  generalize (Network.newAggregator _ "fire" _ _ _ _ _).2 = n₃
  obtain ⟨sink, made⟩ := collected (subscribeAll (n₃.subscribe fire false).2 gates).2
    (n₃.subscribe fire false).1 (subscribeAll (n₃.subscribe fire false).2 gates).1
  simp only [made]
  exact ⟨_, _, rfl⟩

theorem build_refused {failure : Failure} (refused : Network.newRelay {} "exchange"
      config.buffers.toNat (Payload.Shape.exchange config.vectorSize.toNat).factory
      (fillExchange config.firingPeriod.toNat) = .error failure) :
    build config = .error failure := by
  simp only [build, refused, bind, Except.bind]

theorem build_unsized (none : config.buffers = 0) :
    build config = .error (.refused (.invalidCapacity 0)) := by
  refine build_refused ?_
  rw [none]
  exact (Network.admits_relay {} "exchange" 0 (Payload.Shape.exchange 0).factory _).unsized rfl _

theorem build_empty (wanted : config.buffers ≠ 0) (empty : config.vectorSize = 0)
    (addressable : Addressable config) :
    build config = .error (.refused (.emptyPayload "exchange")) := by
  have buffers : 0 < config.buffers.toNat :=
    Nat.pos_of_ne_zero fun none => wanted (UInt64.toNat_inj.1 none)
  refine build_refused ?_
  rw [empty]
  exact (Network.admits_relay {} "exchange" config.buffers.toNat (Payload.Shape.exchange 0).factory
    _).empty 0 buffers (addressable .exchange).fits (fun i before => absurd before (Nat.not_lt_zero i))
      (.exchange (.new 0)) rfl rfl _ rfl fun _ _ => rfl

end BufferFlow.Pipeline
