import BufferFlow.Proofs.Pipeline.Construction
import BufferFlow.Proofs.Pipeline.FirstRound
import BufferFlow.Proofs.Pipeline.Reports

set_option autoImplicit false

namespace BufferFlow

theorem PipelineConfig.validate_eq_ok {config : PipelineConfig} : config.validate = .ok () ↔
    config.buffers ≠ 0 ∧ config.vectorSize ≠ 0 ∧ config.firingPeriod ≠ 0 := by
  rw [validate]
  split
  · simp [*]
  · split
    · simp [*]
    · split <;> simp [*]

namespace Pipeline

variable {config : PipelineConfig} {p : Parts} {n₀ n : Network}

theorem Broadcast.follow?_append {b b' : Broadcast} {first : List Turn}
    (run : b.follow? p first = some b') (later : List Turn) :
    b.follow? p (first ++ later) = b'.follow? p later := by
  induction first generalizing b with
  | nil => rw [Option.some.inj run, List.nil_append]
  | cons turn first ih =>
    obtain ⟨b₁, step, run⟩ := Option.bind_eq_some_iff.1 run
    rw [List.cons_append, follow?, step]
    exact ih run

/-- No stage faults, whatever turns are taken, but by an overflow of its count of rounds. -/
def NeverFaults (p : Parts) (n : Network) : Prop :=
  ∀ turns b, Broadcast.follow? p turns (.start p n) = some b →
    ∀ (i : Nat) st, b.network.stages.get? i = some st → ∀ fault, st.thread = .faulted fault →
      Checked.overrun? st.loop.rounds = some fault

/-- In any round and with any stale contents no function of a stage faults, no index is refused, and
no range is out of bounds, except that the aggregator's count of calls may overflow. -/
structure RoundsSafe (config : PipelineConfig) (n : Network) : Prop where
  faultless : ∀ (i : Nat) st, n.stages.get? i = some st → st.loop.Faultless
  collects : ∀ calls source old, (collectFire calls source old).fault = none
  filled : ∀ step v, (Payload.Shape.exchange config.vectorSize.toNat).Recycled (.exchange v) →
    (v.setEvery? config.firingPeriod.toNat step).isSome
  derived : ∀ (v : ExchangeVector) (f : FireVector), (f.setFireBits? v.words).isSome
  collected : ∀ (f : FireVector) (b : SinkBuffer), (b.writeWords? f.words.toList).isSome

theorem Laid.stage_loop (laid : Planned config n₀) {i : Nat} {st : Stage}
    (found : n₀.stages.get? i = some st) : st.loop = loopOf config i := by
  obtain ⟨name, -, there⟩ := laid.stage i (laid.stageCount ▸ Table.get?_lt found)
  obtain rfl := Option.some.inj (found.symm.trans there)
  rfl

theorem Laid.neverFaults (laid : Planned config n₀) (pos : 0 < config.firingPeriod.toNat) :
    NeverFaults (partsOf config) n₀ := by
  intro turns b run i st found fault faulted
  obtain ⟨ops, k⟩ := laid.custody.follow laid pos run
  obtain ⟨t, there, -, -, tells⟩ := k.underway.stage i (k.underway.within i st found)
  obtain rfl := Option.some.inj (found.symm.trans there)
  rw [Stage.Tells, faulted] at tells
  exact tells.2

theorem Laid.roundsSafe (laid : Planned config n₀) (pos : 0 < config.firingPeriod.toNat) :
    RoundsSafe config n₀ := by
  refine ⟨fun i st found => ?_, collectFire_fault, fun step v recycled => ?_, fun v f => ?_,
    fun f b => ?_⟩
  · rw [laid.stage_loop found]
    exact faultless_loopOf pos i
  · rw [ExchangeVector.setEvery?_eq (sized_of_extent (extent_recycled_exchange recycled)).2 pos]
    rfl
  · rw [FireVector.setFireBits?_eq]
    rfl
  · rw [SinkBuffer.writeWords?_eq]
    rfl

theorem fillExchange_unpaced (step : Nat) (v : ExchangeVector) :
    (fillExchange 0 step (.exchange v)).fault = some .remainderByZero := rfl

theorem Laid.unsafe_unpaced (laid : Planned config n₀) (none : config.firingPeriod = 0) :
    ¬ RoundsSafe config n₀ := by
  intro safe
  obtain ⟨name, -, found⟩ := laid.stage 0 (Nat.succ_pos _)
  have faultless := safe.faultless 0 _ found
  rw [loopOf, if_pos rfl, none] at faultless
  cases (fillExchange_unpaced 0 (.new 0)).symm.trans (faultless 0 (.exchange (.new 0)))

theorem Laid.faults (laid : Planned config n₀) (none : config.firingPeriod = 0) :
    ∃ turns b st, Broadcast.follow? (partsOf config) turns (.start (partsOf config) n₀) = some b ∧
      b.network.stages.get? (partsOf config).exchange = some st ∧
      st.thread = .faulted .remainderByZero := by
  obtain ⟨name, proper, found⟩ := laid.stage 0 (Nat.succ_pos _)
  obtain ⟨counters, log, started⟩ := Network.start_eq found rfl (Stage.nameFault?_eq_none proper)
  -- the listener starts the relay first
  have run : Broadcast.follow? (partsOf config) [.listener] (.start (partsOf config) n₀) =
      some ⟨(n₀.start 0).2, { toStart := (partsOf config).starts.tail }⟩ := rfl
  obtain ⟨st, there, -, stands⟩ := laid.endsAtOnce none _ _ run
  have running : st.thread = .running := by
    have fresh : (n₀.stages.modify 0 Stage.started).get? 0 = some st := by rwa [started] at there
    rw [Table.get?_modify, if_pos rfl, found] at fresh
    obtain rfl := Option.some.inj fresh
    rfl
  rcases stands with idle | fallen | ⟨-, k, -, b, st', turns, last, faulted⟩
  · cases running.symm.trans idle
  · cases running.symm.trans fallen
  · exact ⟨_, b, st', (Broadcast.follow?_append run _).trans turns, last, faulted⟩

/-- If the slots can be addressed, the valid configurations are exactly those whose pipelines are
built and never fault, in any order of turns and any round, but by an overflow of a 64-bit count of
rounds. The others are refused for what fails first: no buffers, vectors without data, or the
remainder in the first round of a pipeline that is built. -/
theorem validate_exact (config : PipelineConfig) (addressable : Addressable config) :
    (config.validate = .ok () ↔ ∃ p n, build config = .ok (p, n) ∧ NeverFaults p n) ∧
    (config.validate = .ok () ↔ ∃ p n, build config = .ok (p, n) ∧ RoundsSafe config n) ∧
    (config.buffers = 0 →
      config.validate = .error (.invalidConfig "pipeline.buffers must be > 0") ∧
      build config = .error (.refused (.invalidCapacity 0))) ∧
    (config.buffers ≠ 0 → config.vectorSize = 0 →
      config.validate = .error (.invalidConfig "pipeline.vector_size must be > 0") ∧
      build config = .error (.refused (.emptyPayload "exchange"))) ∧
    (config.buffers ≠ 0 → config.vectorSize ≠ 0 → config.firingPeriod = 0 →
      config.validate = .error (.invalidConfig "pipeline.firing_period must be > 0") ∧
      ∃ p n, build config = .ok (p, n) ∧ EndsAtOnce p n .remainderByZero ∧
        ∃ turns b st, Broadcast.follow? p turns (.start p n) = some b ∧
          b.network.stages.get? p.exchange = some st ∧ st.thread = .faulted .remainderByZero) := by
  have pos : config.validate = .ok () → 0 < config.firingPeriod.toNat := firingPeriod_pos
  have accepted : config.validate = .ok () → ∃ p n, build config = .ok (p, n) := fun valid =>
    build_isOk (PipelineConfig.validate_eq_ok.1 valid).1 (PipelineConfig.validate_eq_ok.1 valid).2.1
      addressable
  have needed : ∀ p n, build config = .ok (p, n) → (config.firingPeriod ≠ 0) →
      config.validate = .ok () := by
    intro p n built period
    refine PipelineConfig.validate_eq_ok.2 ⟨fun none => ?_, fun empty => ?_, period⟩
    · cases built.symm.trans (build_unsized none)
    · by_cases none : config.buffers = 0
      · cases built.symm.trans (build_unsized none)
      · cases built.symm.trans (build_empty none empty addressable)
  refine ⟨⟨fun valid => ?_, ?_⟩, ⟨fun valid => ?_, ?_⟩, fun none => ?_, fun some_buffers empty => ?_,
    fun some_buffers some_bits none => ?_⟩
  · obtain ⟨p, n, built⟩ := accepted valid
    obtain ⟨rfl, laid⟩ := build_laid built
    exact ⟨_, n, built, laid.neverFaults (pos valid)⟩
  · rintro ⟨p, n, built, never⟩
    obtain ⟨rfl, laid⟩ := build_laid built
    refine needed _ n built fun none => ?_
    obtain ⟨turns, b, st, run, found, faulted⟩ := laid.faults none
    exact nomatch (Checked.overrun?_eq_some.1 (never turns b run _ st found _ faulted)).2
  · obtain ⟨p, n, built⟩ := accepted valid
    exact ⟨p, n, built, (build_laid built).2.roundsSafe (pos valid)⟩
  · rintro ⟨p, n, built, safe⟩
    exact needed p n built fun none => (build_laid built).2.unsafe_unpaced none safe
  · exact ⟨if_pos none, build_unsized none⟩
  · refine ⟨?_, build_empty some_buffers empty addressable⟩
    rw [PipelineConfig.validate, if_neg some_buffers, if_pos empty]
  · obtain ⟨p, n, built⟩ := build_isOk some_buffers some_bits addressable
    obtain ⟨rfl, laid⟩ := build_laid built
    refine ⟨?_, _, n, built, laid.endsAtOnce none, laid.faults none⟩
    rw [PipelineConfig.validate, if_neg some_buffers, if_neg some_bits, if_pos none]

/-- Vectors of seventy bits, which end within a word, without gates: with a period of zero, and with
a period. -/
theorem validate_exact_ungated :
    (∃ p n, build { buffers := 1, vectorSize := 70, gates := 0, firingPeriod := 0 } = .ok (p, n) ∧
      EndsAtOnce p n .remainderByZero ∧ ¬ NeverFaults p n) ∧
    ∃ p n, build { buffers := 1, vectorSize := 70, gates := 0, firingPeriod := 71 } = .ok (p, n) ∧
      NeverFaults p n := by
  have addressable : ∀ period, Addressable
      { buffers := 1, vectorSize := 70, gates := 0, firingPeriod := period } := by
    have fits : ∀ kind : Payload.Kind, kind.FitsSlots 1 := fun kind => by cases kind <;> decide
    exact fun _ => fits
  obtain ⟨-, -, -, -, refused⟩ := validate_exact _ (addressable 0)
  obtain ⟨-, p, n, built, ends, turns, b, st, run, found, faulted⟩ :=
    refused (by decide) (by decide) rfl
  obtain ⟨accepted, -⟩ := validate_exact _ (addressable 71)
  refine ⟨⟨p, n, built, ends, fun never => ?_⟩, accepted.1 (by decide)⟩
  exact nomatch (Checked.overrun?_eq_some.1 (never turns b run _ st found _ faulted)).2

end Pipeline

end BufferFlow
