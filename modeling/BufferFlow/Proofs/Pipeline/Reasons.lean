import BufferFlow.Proofs.Pipeline.Supplies

set_option autoImplicit false

namespace BufferFlow.Pipeline

variable {config : PipelineConfig} {n₀ n n' : Network} {ops : List Operation} {i j s : Nat}
  {pub : Publication}

theorem mem_tail_sourcesOf (hi : i < gateCount config + 3) (hs : s ∈ (sourcesOf config i).tail) :
    s ∈ sourcesOf config i ∧ 0 < outletOf config s ∧ outletOf config s ≤ gateCount config := by
  refine ⟨List.mem_of_mem_tail hs, ?_⟩
  rcases joins_of_mem_sourcesOf hi (List.mem_of_mem_tail hs) with rfl | rfl
  · rw [sourcesOf, loopOf_fire] at hs
    obtain ⟨k, hk, rfl⟩ := List.mem_map.1 (show s ∈ (List.range _).map _ from hs)
    have := List.mem_range.1 hk
    rw [outletOf, if_pos (by omega)]
    omega
  · rw [sourcesOf, loopOf_sink] at hs
    obtain ⟨k, hk, rfl⟩ := List.mem_map.1 (show s ∈ (List.range _).map _ from hs)
    have := List.mem_range.1 hk
    rw [outletOf, if_neg (by omega), if_pos (by omega)]
    omega

theorem outletOf_fire : s ∈ sourcesOf config (gateCount config + 1) ↔
    s ≤ gateCount config ∧ outletOf config s = s := by
  rw [mem_sourcesOf_fire]
  refine ⟨fun hs => ⟨hs, if_pos (by omega)⟩, And.left⟩

theorem outletOf_sink (hs : s ∈ sourcesOf config (gateCount config + 2)) :
    outletOf config s = gateCount config + 1 ∨
      0 < outletOf config s ∧ outletOf config s ≤ gateCount config := by
  have := mem_sourcesOf_sink.1 hs
  rw [outletOf]
  split
  · omega
  · rw [if_pos (by omega)]
    omega

theorem mem_sourcesOf_sink_gate (first : 0 < i) (last : i ≤ gateCount config) :
    gateCount config + 1 + i ∈ sourcesOf config (gateCount config + 2) ∧
      outletOf config (gateCount config + 1 + i) = i := by
  refine ⟨mem_sourcesOf_sink.2 ⟨by omega, by omega⟩, ?_⟩
  rw [outletOf, if_neg (by omega), if_pos (by omega)]
  omega

abbrev count (n₀ : Network) (ops : List Operation) (stage : Nat) : Nat :=
  (made n₀ ops stage).length

theorem Laid.length_supply (laid : Planned config n₀) (ops : List Operation) (hi : i < gateCount config + 3)
    (hs : s ∈ sourcesOf config i) :
    (n₀.hub.supply s ops).length = count n₀ ops (outletOf config s) := by
  rw [laid.supply_eq ops (sourcesOf_given hi hs), List.length_map]

theorem count_asks (n₀ : Network) (ops : List Operation) (st : Stage) (h : Hub) (counters : Counters)
    (log : List Record) (i : Nat) :
    count n₀ (ops ++ (st.asks h ++ [.tally counters log])) i =
      count n₀ (ops ++ st.loop.requests h) i := by
  have closing : ∀ blank, .publish i blank ∉ st.loop.closing := fun blank hop => by
    rw [Loop.closing_eq] at hop
    simp at hop
  rw [Stage.asks, List.append_assoc, ← List.append_assoc ops, count, made, Hub.publishedBy_quiet_all]
  rintro _ hop blank rfl
  rcases List.mem_append.1 hop with hop | hop
  · split at hop
    · exact List.not_mem_nil hop
    · exact List.not_mem_nil hop
    · exact closing blank hop
    · exact closing blank hop
  · cases List.mem_singleton.1 hop

namespace Underway

variable (u : Underway config n₀.hub ops n) (laid : Planned config n₀)

include u laid

theorem count_le (hi : i < gateCount config + 3) (hs : s ∈ sourcesOf config i) :
    count n₀ ops i ≤ count n₀ ops (outletOf config s) := by
  obtain ⟨l, loop⟩ : ∃ l, loopOf config i = .aggregator l := by
    rcases joins_of_mem_sourcesOf hi hs with rfl | rfl
    · exact ⟨_, loopOf_fire config⟩
    · exact ⟨_, loopOf_sink config⟩
  refine Nat.le_of_not_lt fun short => ?_
  have last := List.getElem?_eq_getElem short
  obtain ⟨⟨source, old, primary, -⟩, gates⟩ := u.derived laid hi loop last
  have brought : s = l.primary ∨ s ∈ l.gates := by
    rw [sourcesOf, loop] at hs
    exact List.mem_cons.1 hs
  rcases brought with rfl | gate
  · exact Nat.lt_irrefl _ (List.getElem?_eq_some_iff.1 primary).1
  · obtain ⟨signal, found, -⟩ := gates s gate
    exact Nat.lt_irrefl _ (List.getElem?_eq_some_iff.1 found).1

end Underway

/-- Why a stage is to stop: nobody listens; or a stage before it has ended without a buffer for its
round; or all have one, and a gate's is closed. -/
def Due (config : PipelineConfig) (n₀ n : Network) (ops : List Operation) (i : Nat) :
    Termination → Prop
  | .noListeners => n.hub.receivers i = []
  | .sourceGone => ∃ s ∈ sourcesOf config i, ¬ n.Working (outletOf config s) ∧
      count n₀ ops (outletOf config s) ≤ count n₀ ops i
  | .gateClosed => (∀ s ∈ sourcesOf config i, count n₀ ops i < count n₀ ops (outletOf config s)) ∧
      ∃ g ∈ (sourcesOf config i).tail, ∃ pub,
        (made n₀ ops (outletOf config g))[count n₀ ops i]? = some pub ∧ pub.payload.isOpen = false

namespace Underway

variable (u : Underway config n₀.hub ops n) (laid : Planned config n₀)

include u laid

omit laid in
theorem joins {st : Stage} {l : AggregatorLoop} (found : n.stages.get? i = some st)
    (loop : st.loop = .aggregator l) : gateCount config < i := by
  refine Nat.lt_of_not_le fun relay => ?_
  obtain ⟨fill, same⟩ := loopOf_relay relay
  have reset := u.reset found
  rw [loop, same] at reset
  cases reset

omit laid in
theorem relays {st : Stage} {l : RelayLoop} (found : n.stages.get? i = some st)
    (loop : st.loop = .relay l) : i ≤ gateCount config := by
  refine Nat.le_of_not_lt fun later => ?_
  have hi := u.within i st found
  have reset := u.reset found
  rw [loop] at reset
  obtain rfl | rfl : i = gateCount config + 1 ∨ i = gateCount config + 2 := by omega
  · rw [loopOf_fire] at reset
    cases reset
  · rw [loopOf_sink] at reset
    cases reset

theorem lost_iff (works : n.Working i) (hi : i < gateCount config + 3)
    (hs : s ∈ sourcesOf config i) :
    n.hub.publisherOf? s = none ↔ ¬ n.Working (outletOf config s) := by
  rcases (u.named laid (sourcesOf_given hi hs) (u.kept works hs)).2 with ⟨runs, named⟩ | ⟨idle, lost⟩
  · simp [runs, named]
  · simp [idle, lost]

/-- A stage that stops has reason to. If it is not for want of listeners it has published a buffer
for each of its rounds and publishes nothing more, and a relay has counted all that it published. -/
theorem stopped {st : Stage} {h' : Hub} {reason : Termination} (counters : Counters)
    (log : List Record) (found : n.stages.get? i = some st) (runs : st.Works)
    (step : st.loop.advance n.hub = .stopped h' reason) :
    Due config n₀ n ops i reason ∧ (reason ≠ .noListeners → st.loop.rounds = count n₀ ops i ∧
      count n₀ (ops ++ (st.asks n.hub ++ [.tally counters log])) i = count n₀ ops i) ∧
      (i ≤ gateCount config →
        count n₀ (ops ++ (st.asks n.hub ++ [.tally counters log])) i < 2 ^ 64) := by
  have hi := u.within i st found
  have working : n.Working i := ⟨st, found, runs⟩
  have r := u.orderly.working i st found runs
  have publisher := u.publisher found
  have sources := u.sources found
  rw [count_asks]
  cases loop : st.loop with
  | relay l =>
    rw [loop] at r step publisher
    rw [Loop.advance_relay, u.orderly.hub] at step
    obtain ⟨rfl, unheard, counted⟩ := RelayLoop.InRound.stopped r (Progress.map_eq_stopped step)
    rw [← u.orderly.hub] at unheard counted
    obtain rfl : l.publisher = i := publisher
    exact ⟨unheard, fun heard => absurd rfl heard, fun _ => counted⟩
  | aggregator l =>
    rw [loop] at r step publisher sources
    have later := u.joins found loop
    rw [Loop.advance_aggregator] at step
    replace step := Progress.map_eq_stopped step
    obtain rfl : l.publisher = i := publisher
    have mine : ∀ s, s ∈ l.sources ↔ s ∈ sourcesOf config l.publisher := fun s => by
      rw [← sources]
      rfl
    have due := AggregatorLoop.InRound.due r (u.orderly.hub ▸ step)
    refine ⟨?_, fun heard => ⟨AggregatorLoop.InRound.calls_eq r (u.orderly.hub ▸ step) heard, ?_⟩,
      fun relay => absurd relay (Nat.not_le.2 later)⟩
    rotate_left
    · rw [count, made, Hub.publishedBy_quiet_all]
      exact fun op hop blank => AggregatorLoop.stopped_quiet step heard op hop l.publisher blank
    cases reason with
    | noListeners =>
      change n.hub.receivers l.publisher = []
      rw [u.orderly.hub]
      exact due.2.2
    | sourceGone =>
      obtain ⟨s, hs, lost, short⟩ := due
      rw [mine] at hs
      rw [← u.orderly.hub, u.lost_iff laid working hi hs] at lost
      rw [laid.length_supply ops hi hs] at short
      exact ⟨s, hs, lost, short⟩
    | gateClosed =>
      obtain ⟨supplied, g, hg, v, hv, closed⟩ := due
      refine ⟨fun s hs => ?_, g, ?_, ?_⟩
      · have := supplied s ((mine s).2 hs)
        rwa [laid.length_supply ops hi hs] at this
      · rw [← sources]
        exact hg
      · have given := sourcesOf_given hi ((mine g).1 (List.mem_cons_of_mem _ hg))
        rw [laid.supply_eq ops given, List.getElem?_map] at hv
        obtain ⟨pub, hpub, rfl⟩ := Option.map_eq_some_iff.1 hv
        exact ⟨pub, hpub, closed⟩

omit laid in
/-- The sink's function never faults. -/
theorem fire_of_faults {st : Stage} {l : AggregatorLoop} {k : Nat} {v old : Payload} {fault : Fault}
    (found : n.stages.get? i = some st) (loop : st.loop = .aggregator l)
    (faults : (l.transform k v old).fault = some fault) : i = gateCount config + 1 := by
  have hi := u.within i st found
  have later := u.joins found loop
  have reset := u.reset found
  by_contra other
  obtain sink : i = gateCount config + 2 := by omega
  rw [loop, sink, loopOf_sink] at reset
  have collects : l.transform = collectFire :=
    congrArg AggregatorLoop.transform (Loop.aggregator.inj reset)
  rw [collects] at faults
  cases (collectFire_fault k v old).symm.trans faults

omit laid in
theorem mem_gates_fire {st : Stage} {l : AggregatorLoop} {g : Nat}
    (found : n.stages.get? (gateCount config + 1) = some st) (loop : st.loop = .aggregator l)
    (first : 0 < g) (last : g ≤ gateCount config) : g ∈ l.gates := by
  have reset := u.reset found
  rw [loop, loopOf_fire] at reset
  have gates : l.gates = (List.range (gateCount config)).map (· + 1) :=
    congrArg AggregatorLoop.gates (Loop.aggregator.inj reset)
  rw [gates]
  exact List.mem_map.2 ⟨g - 1, List.mem_range.2 (by omega), Nat.sub_add_cancel first⟩

/-- A stage faults only where a count of 64 bits has no room for its round: a relay after it has
published, and the aggregator in a round for which all gates are open. -/
theorem overran {st : Stage} {h' : Hub} {fault : Fault} (pos : 0 < config.firingPeriod.toNat)
    (counters : Counters) (log : List Record) (found : n.stages.get? i = some st) (runs : st.Works)
    (step : st.loop.advance n.hub = .faulted h' fault) :
    2 ^ 64 ≤ count n₀ ops i + 1 ∧
      (i ≤ gateCount config ∧
          2 ^ 64 ≤ count n₀ (ops ++ (st.asks n.hub ++ [.tally counters log])) i ∨
        i = gateCount config + 1 ∧ ∀ g, 0 < g → g ≤ gateCount config →
          ∃ pub, (made n₀ ops g)[count n₀ ops i]? = some pub ∧ pub.payload.isOpen = true) := by
  have r := u.orderly.working i st found runs
  have publisher := u.publisher found
  have faultless : st.loop.Faultless := by
    rw [← Loop.faultless_reset, u.reset found]
    exact faultless_loopOf pos i
  have overflow := (Checked.overrun?_eq_some.1 (r.overrun faultless (u.orderly.hub ▸ step))).1
  rw [count_asks]
  cases loop : st.loop with
  | relay l =>
    rw [loop] at r step publisher overflow faultless
    rw [Loop.advance_relay, u.orderly.hub] at step
    obtain rfl : l.publisher = i := publisher
    have counted : count n₀ ops l.publisher = l.step.toNat := r.linked.count
    rw [u.orderly.hub, counted]
    refine ⟨overflow, .inl ⟨u.relays found loop, ?_⟩⟩
    rcases RelayLoop.InRound.faulted r (Progress.map_eq_faulted step) with ⟨old, faults⟩ | ⟨-, all⟩
    · cases (faultless l.step.toNat old).symm.trans faults
    · exact all
  | aggregator l =>
    rw [loop] at r step publisher overflow
    rw [Loop.advance_aggregator, u.orderly.hub] at step
    obtain rfl : l.publisher = i := publisher
    obtain ⟨source, blank, v, old, payload, phase, -, -, faults⟩ :=
      AggregatorLoop.advance_faulted (Progress.map_eq_faulted step)
    obtain ⟨round, gates⟩ := AggregatorLoop.InRound.opened r phase
    have counted : count n₀ ops l.publisher = l.calls := round
    have fire := u.fire_of_faults found loop (congrArg Written.fault faults)
    rw [counted]
    refine ⟨overflow, .inr ⟨fire, fun g first last => ?_⟩⟩
    obtain ⟨w, hw, isOpen⟩ := gates g (u.mem_gates_fire (fire ▸ found) loop first last)
    rw [laid.supply_eq ops (by omega), outletOf, if_pos (by omega), List.getElem?_map] at hw
    obtain ⟨pub, hpub, rfl⟩ := Option.map_eq_some_iff.1 hw
    exact ⟨pub, hpub, isOpen⟩

end Underway

end BufferFlow.Pipeline
