import BufferFlow.Proofs.Pipeline.Custody
import BufferFlow.Proofs.Pipeline.Reading

set_option autoImplicit false

namespace BufferFlow.Pipeline

variable {config : PipelineConfig} {n₀ n : Network} {ops : List Operation} {i j s : Nat}
  {c : Copy} {q : SlotRef} {b : Broadcast}

/-- The copy is for a stage that works and has published less than the stage that the copy is from. -/
def Awaited (config : PipelineConfig) (n₀ : Network) (ops : List Operation) (n : Network)
    (c : Copy) : Prop :=
  ∃ i s, i < gateCount config + 3 ∧ n.Working i ∧ s ∈ sourcesOf config i ∧
    outletOf config s = c.ref.pool ∧ count n₀ ops i < count n₀ ops c.ref.pool

/-- What holds of a pipeline in which nobody can take a step. Every copy that no slot holds is
awaited. Every stage that works waits for one that has published as much, or for a slot of its own
pool. -/
structure Stalled (config : PipelineConfig) (n₀ : Network) (ops : List Operation) (n : Network) :
    Prop where
  underway : Underway config n₀.hub ops n
  blankless : n.hub.blanks = []
  loose : ∀ c ∈ n.hub.loose, Awaited config n₀ ops n c
  chained : Chained config n.hub
  blocked : ∀ i, n.Working i → (∃ s ∈ sourcesOf config i, n.Working (outletOf config s) ∧
    count n₀ ops (outletOf config s) = count n₀ ops i) ∨ n.hub.acquireFor? i = none

theorem Listener.waits {l : Listener} (waits : l.advance? (partsOf config) n = none) :
    l.toStart = [] ∧ l.report = none ∧
      (l.attached = true → n.hub.queueOf (reportsOf config) = []) := by
  rw [advance?] at waits
  split at waits
  · cases waits
  · cases waits
  · rename_i toStart report
    refine ⟨toStart, report, fun attached => ?_⟩
    rw [if_pos attached] at waits
    cases found : n.hub.pull (partsOf config).reports with | mk outcome hub =>
    rw [found] at waits
    cases outcome with
    | empty => exact Hub.pull_empty found
    | gone =>
      rw [leave?, if_pos attached] at waits
      cases waits
    | ready c => cases waits

theorem Threads.blocks {joined : List Nat} (t : Threads n [] joined) {st : Stage}
    (found : n.stages.get? i = some st) (works : st.Works) (still : n.advanceStage? i = none) :
    st.loop.advance n.hub = .blocked := by
  have runs : st.thread = .running :=
    works.resolve_left fun unstarted =>
      absurd ((t.unstarted i st found).1 unstarted) List.not_mem_nil
  rw [Network.advanceStage?, found] at still
  simp only [runs] at still
  split at still
  · assumption
  all_goals cases still

theorem Underway.owner (u : Underway config n₀.hub ops b.network) {owner : Belongings}
    (mem : owner ∈ owners config b) : owner = {} ∨ owner = b.listener.belongings config ∨
      ∃ i st, i < gateCount config + 3 ∧ b.network.stages.get? i = some st ∧ st.Works ∧
        owner = st.loop.belongings := by
  rcases List.mem_cons.1 mem with here | hb
  · exact .inr (.inl here)
  · obtain ⟨st, hst, rfl⟩ := List.mem_map.1 hb
    obtain ⟨i, found⟩ := Table.mem_values.1 hst
    by_cases works : st.Works
    · exact .inr (.inr ⟨i, st, u.within i st found, found, works, Stage.belongings_of_works works⟩)
    · exact .inl (Stage.belongings_of_ended works)

theorem Underway.ahead (u : Underway config n₀.hub ops n) (laid : Planned config n₀) {st : Stage}
    (found : n.stages.get? i = some st) (works : st.Works) (hs : s ∈ st.loop.sources)
    (mem : c ∈ n₀.hub.departed s ops ++ n.hub.queueOf s)
    (more : count n₀ ops i < (n₀.hub.departed s ops ++ n.hub.queueOf s).length) :
    Awaited config n₀ ops n c := by
  have hi := u.within i st found
  rw [u.sources found] at hs
  have given := sourcesOf_given hi hs
  have kept := u.kept ⟨st, found, works⟩ hs
  have pool := u.pool_brought laid given kept mem
  have supply := Hub.length_supply laid.reached.sound (laid.subscription s given) kept
  rw [laid.length_supply ops hi hs, ← u.orderly.hub, ← List.length_append] at supply
  refine ⟨i, s, hi, ⟨st, found, works⟩, hs, pool.symm, ?_⟩
  rw [pool, supply]
  exact more

section

variable (k : Custody config n₀ ops b) (laid : Planned config n₀)
  (waits : b.listener.advance? (partsOf config) b.network = none)

include k laid waits

theorem Custody.loose : ∀ c ∈ b.network.hub.loose, Awaited config n₀ ops b.network c := by
  obtain ⟨u, -, -, -, -, entrusted, -⟩ := k
  obtain ⟨-, report, queue⟩ := Listener.waits waits
  -- what a stage has in hand or in a cell was brought to it for its round
  have brought : ∀ i st c, b.network.stages.get? i = some st → st.Works →
      (c ∈ st.loop.belongings.copies ∨ ∃ cell ∈ st.loop.belongings.cells,
        b.network.hub.cells.get? cell = some (some c)) →
      Awaited config n₀ ops b.network c := by
    intro i st c found works has
    rw [u.orderly.hub] at has
    obtain ⟨s, hs, left, ahead⟩ := (u.orderly.working i st found works).brought has
    rw [u.publisher found] at ahead
    refine u.ahead laid found works hs (List.mem_append_left _ left) ?_
    rw [List.length_append]
    exact Nat.lt_of_lt_of_le ahead (Nat.le_add_right _ _)
  intro c hc
  rcases List.mem_append.1 hc with hc | hc
  · rcases List.mem_append.1 hc with inHand | queued
    · obtain ⟨owner, mem, has⟩ := List.mem_flatMap.1 (entrusted.copies.mem_iff.1 inHand)
      rcases u.owner mem with rfl | rfl | ⟨i, st, -, found, works, rfl⟩
      · exact absurd has List.not_mem_nil
      · rw [Listener.belongings, report] at has
        exact absurd has List.not_mem_nil
      · exact brought i st c found works (.inl has)
    · obtain ⟨sub, hsub, queued⟩ := List.mem_flatMap.1 queued
      obtain ⟨s, there⟩ := Table.mem_values.1 hsub
      have here : c ∈ b.network.hub.queueOf s := by
        rw [Hub.queueOf, there]
        exact queued
      obtain ⟨owner, mem, has⟩ :=
        List.mem_flatMap.1 (entrusted.subscriptions s (Hub.contains_of_get? there))
      rcases u.owner mem with rfl | rfl | ⟨i, st, -, found, works, rfl⟩
      · exact absurd has List.not_mem_nil
      · rw [Listener.belongings] at has
        split at has
        · rename_i attached
          obtain rfl := List.mem_singleton.1 has
          rw [queue attached] at here
          exact absurd here List.not_mem_nil
        · exact absurd has List.not_mem_nil
      · rw [Loop.subscriptions_belongings] at has
        have left := (u.orderly.working i st found works).round_le has
        rw [u.publisher found] at left
        refine u.ahead laid found works has (List.mem_append_right _ here) ?_
        rw [List.length_append]
        exact Nat.lt_of_le_of_lt left (Nat.lt_add_of_pos_right (List.length_pos_of_mem here))
  · obtain ⟨contents, hcell, filled⟩ := List.mem_filterMap.1 hc
    obtain ⟨cell, there⟩ := Table.mem_values.1 hcell
    obtain rfl : contents = some c := filled
    obtain ⟨owner, mem, has⟩ :=
      List.mem_flatMap.1 (entrusted.cells cell (Hub.contains_of_get? there))
    rcases u.owner mem with rfl | rfl | ⟨i, st, -, found, works, rfl⟩
    · exact absurd has List.not_mem_nil
    · exact absurd has List.not_mem_nil
    · exact brought i st c found works (.inr ⟨cell, has, there⟩)

theorem Custody.stalled (still : ∀ i, b.network.advanceStage? i = none) :
    Stalled config n₀ ops b.network := by
  have loose := k.loose laid waits
  obtain ⟨u, t, -, -, -, entrusted, chained⟩ := k
  rw [(Listener.waits waits).1] at t
  have blocks : ∀ i st, b.network.stages.get? i = some st → st.Works →
      st.loop.advance (n₀.hub.applyAll ops) = .blocked := fun i st found works =>
    u.orderly.hub ▸ t.blocks found works (still i)
  refine ⟨u, ?_, loose, chained, fun i works => ?_⟩
  · refine List.eq_nil_iff_forall_not_mem.2 fun r hr => ?_
    obtain ⟨owner, mem, has⟩ := List.mem_flatMap.1 (entrusted.blanks.mem_iff.1 hr)
    rcases u.owner mem with rfl | rfl | ⟨i, st, -, found, works, rfl⟩
    · exact absurd has List.not_mem_nil
    · exact absurd has List.not_mem_nil
    · obtain ⟨blankless, -⟩ :=
        (u.orderly.working i st found works).blocked (blocks i st found works)
      rw [Loop.blanks_belongings, blankless] at has
      exact absurd has List.not_mem_nil
  · obtain ⟨st, found, runs⟩ := id works
    have hi := u.within i st found
    obtain ⟨-, why⟩ := (u.orderly.working i st found runs).blocked (blocks i st found runs)
    rw [u.publisher found, ← u.orderly.hub, u.sources found] at why
    refine why.imp_left fun ⟨s, hs, alive, short⟩ => ⟨s, hs, ?_, ?_⟩
    · by_contra ended
      rw [(u.lost_iff laid works hi hs).2 ended] at alive
      exact nomatch alive
    · rw [laid.length_supply ops hi hs] at short
      exact short

end

theorem Custody.faulted (k : Custody config n₀ ops b) {st : Stage}
    (found : b.network.stages.get? i = some st) (ended : ¬ st.Works)
    (lives : st.state.isTerminated = false) :
    st.thread = .faulted .addOverflow ∧ 2 ^ 64 ≤ st.loop.rounds + 1 := by
  obtain ⟨t, same, -, -, tells⟩ := k.underway.stage i (k.underway.within i st found)
  obtain rfl := Option.some.inj (found.symm.trans same)
  cases thread : st.thread with
  | unstarted => exact absurd (.inl thread) ended
  | running => exact absurd (.inr thread) ended
  | gone => exact absurd ((k.threads.gone i st found).1 thread) List.not_mem_nil
  | ended reason =>
    rw [Stage.Tells, thread] at tells
    rw [show st.state = _ from tells] at lives
    cases lives
  | faulted fault =>
    obtain ⟨rfl, exhausted⟩ := tells.faulted thread
    exact ⟨rfl, exhausted.rounds⟩

theorem Underway.drained (u : Underway config n₀.hub ops n) (laid : Planned config n₀)
    (hi : i < gateCount config + 3) (works : n.Working i) (starves : n.hub.acquireFor? i = none) :
    (n.hub.slot? ⟨i, 0⟩).isSome ∧ ¬ n.hub.InState ⟨i, 0⟩ .free := by
  have named : n.hub.poolOf? i = some i := by
    have alive := u.alive_of_working works
    rw [u.orderly.hub] at alive ⊢
    rw [Hub.poolOf?_applyAll (laid.publisherCount ▸ hi) alive, laid.publisher i hi]
  have empty : n.hub.stackedAt ⟨i, 0⟩ = 0 := by
    rw [Hub.stackedAt]
    cases found : n.hub.pools.get? i with
    | none => rfl
    | some p =>
      cases free : p.free with
      | nil => simp [free]
      | cons slot rest =>
        simp [Hub.acquireFor?, named, Hub.acquire?, found, Pool.take?, free] at starves
  refine ⟨u.orderly.hub ▸ Hub.present_applyAll (laid.roomy i hi) ops, fun free => ?_⟩
  simp [free.1] at empty

namespace Stalled

variable (d : Stalled config n₀ ops n) (laid : Planned config n₀)

include d laid

theorem sound : n.hub.Sound := d.underway.orderly.hub ▸ laid.reached.sound.applyAll ops

theorem live {r : SlotRef} (present : (n.hub.slot? r).isSome) (used : ¬ n.hub.InState r .free) :
    ∃ c ∈ n.hub.copies, c.ref = r := by
  obtain ⟨state, inState⟩ := (d.sound laid).accounted.inState present
  cases state with
  | free => exact absurd inState used
  | owned =>
    obtain ⟨-, owned, -⟩ := inState
    rw [d.blankless] at owned
    exact nomatch owned
  | published =>
    obtain ⟨-, -, -, some⟩ := inState
    obtain ⟨c, hc, ref⟩ := List.countP_pos_iff.1 some
    exact ⟨c, hc, of_decide_eq_true ref⟩

theorem alive (hc : c ∈ n.hub.copies) : Awaited config n₀ ops n c ∨
    ∃ e ∈ n.hub.copies, c.ref.pool < e.ref.pool ∧
      (e.ref.pool = gateCount config + 1 ∨ e.ref.pool = gateCount config + 2) := by
  rcases List.mem_append.1 hc with loose | chained
  · exact .inl (d.loose c loose)
  · obtain ⟨q, holds⟩ := Hub.mem_chained.1 chained
    obtain ⟨s, hs, outlet⟩ := d.chained q c holds
    obtain ⟨slot, hslot, -⟩ := Hub.exists_slot_of_chainedAt holds
    obtain ⟨e, he, rfl⟩ := d.live laid (r := q) (by rw [hslot]; rfl) fun state => by
      rw [state.2.2.2.2] at holds
      exact nomatch holds
    have given : e.ref.pool < gateCount config + 3 := by
      have shown : n.hub.payload? e.ref = some slot.payload := by rw [Hub.payload?, hslot]; rfl
      obtain ⟨v, before, -⟩ := d.underway.keeps _ _ shown
      obtain ⟨slot₀, there, -⟩ := Option.map_eq_some_iff.1 before
      obtain ⟨p, hp, -⟩ := Hub.slot?_eq_some.1 there
      exact laid.poolCount ▸ Table.get?_lt hp
    exact .inr ⟨e, he, outlet ▸ outletOf_lt given hs, joins_of_mem_sourcesOf given hs⟩

theorem starving (hi : i < gateCount config + 3) (works : n.Working i)
    (starves : n.hub.acquireFor? i = none) : ∃ c ∈ n.hub.copies, c.ref.pool = i := by
  obtain ⟨present, used⟩ := d.underway.drained laid hi works starves
  obtain ⟨c, hc, ref⟩ := d.live laid present used
  exact ⟨c, hc, congrArg SlotRef.pool ref⟩

theorem no_report (hc : c ∈ n.hub.copies) : c.ref.pool ≠ gateCount config + 2 := by
  intro report
  rcases d.alive laid hc with ⟨i, s, hi, -, hs, outlet, -⟩ | ⟨e, -, later, given⟩
  · have := outletOf_lt hi hs
    omega
  · omega

theorem sink_up (works : n.Working (gateCount config + 2)) :
    count n₀ ops (gateCount config + 1) ≤ count n₀ ops (gateCount config + 2) := by
  rcases d.blocked _ works with ⟨s, hs, -, level⟩ | starves
  · rw [← level]
    -- a gate that the sink waits for is not behind the aggregator, which has joined it
    rcases outletOf_sink hs with fire | ⟨first, last⟩
    · exact Nat.le_of_eq (congrArg (count n₀ ops) fire.symm)
    · have gate : outletOf config s ∈ sourcesOf config (gateCount config + 1) :=
        mem_sourcesOf_fire.2 last
      have most := d.underway.count_le laid (by omega) gate
      rwa [(outletOf_fire.1 gate).2] at most
  · obtain ⟨c, hc, report⟩ := d.starving laid (by omega) works starves
    exact absurd report (d.no_report laid hc)

theorem no_fire (hc : c ∈ n.hub.copies) : c.ref.pool ≠ gateCount config + 1 := by
  intro fire
  rcases d.alive laid hc with ⟨i, s, hi, works, hs, outlet, ahead⟩ | ⟨e, he, later, given⟩
  · have := outletOf_lt hi hs
    -- only the sink takes fire vectors, and it is not behind
    obtain rfl : i = gateCount config + 2 := by omega
    have := d.sink_up laid works
    rw [fire] at ahead
    omega
  · exact d.no_report laid he (by omega)

theorem behind (hc : c ∈ n.hub.copies) :
    ∃ i, (i = gateCount config + 1 ∨ i = gateCount config + 2) ∧ n.Working i ∧
      count n₀ ops i < count n₀ ops c.ref.pool := by
  rcases d.alive laid hc with ⟨i, s, hi, works, hs, -, ahead⟩ | ⟨e, he, -, fire | report⟩
  · exact ⟨i, joins_of_mem_sourcesOf hi hs, works, ahead⟩
  · exact absurd fire (d.no_fire laid he)
  · exact absurd report (d.no_report laid he)

theorem relay_waits (relay : i ≤ gateCount config) (works : n.Working i) :
    ∃ j, (j = gateCount config + 1 ∨ j = gateCount config + 2) ∧ n.Working j ∧
      count n₀ ops j < count n₀ ops i := by
  rcases d.blocked i works with ⟨s, hs, -⟩ | starves
  · rw [sourcesOf_relay relay] at hs
    exact absurd hs List.not_mem_nil
  · obtain ⟨c, hc, rfl⟩ := d.starving laid (by omega) works starves
    exact d.behind laid hc

theorem join_waits (joins : i = gateCount config + 1 ∨ i = gateCount config + 2)
    (works : n.Working i) : ∃ s ∈ sourcesOf config i, n.Working (outletOf config s) ∧
      count n₀ ops (outletOf config s) = count n₀ ops i := by
  refine (d.blocked i works).resolve_right fun starves => ?_
  obtain ⟨c, hc, here⟩ := d.starving laid (by omega) works starves
  rcases joins with rfl | rfl
  · exact d.no_fire laid hc here
  · exact d.no_report laid hc here

theorem fire_ended : ¬ n.Working (gateCount config + 1) := by
  intro works
  obtain ⟨s, hs, alive, level⟩ := d.join_waits laid (.inl rfl) works
  obtain ⟨relay, outlet⟩ := outletOf_fire.1 hs
  rw [outlet] at alive level
  -- that relay is level with the aggregator, so it would be ahead of the sink
  obtain ⟨j, rfl | rfl, runs, behind⟩ := d.relay_waits laid relay alive
  · omega
  · have := d.sink_up laid runs
    omega

theorem sink_ended : ¬ n.Working (gateCount config + 2) := by
  intro works
  obtain ⟨s, hs, alive, level⟩ := d.join_waits laid (.inr rfl) works
  rcases outletOf_sink hs with fire | ⟨-, relay⟩
  · exact d.fire_ended laid (fire ▸ alive)
  · obtain ⟨j, rfl | rfl, runs, behind⟩ := d.relay_waits laid relay alive
    · exact d.fire_ended laid runs
    · omega

theorem ended (hi : i < gateCount config + 3) : ¬ n.Working i := by
  intro works
  by_cases fire : i = gateCount config + 1
  · exact d.fire_ended laid (fire ▸ works)
  by_cases sink : i = gateCount config + 2
  · exact d.sink_ended laid (sink ▸ works)
  obtain ⟨j, rfl | rfl, runs, -⟩ := d.relay_waits laid (by omega) works
  · exact d.fire_ended laid runs
  · exact d.sink_ended laid runs

end Stalled

/-- After any turns, and whenever the listener left: as long as a stage has not terminated, a stage
or the listener can take a step, and it is a stage where the listener cannot. A stage whose count of
rounds overflowed has faulted and does not terminate. -/
theorem deadlock_free {p : Parts} {turns : List Turn} (valid : config.validate = .ok ())
    (built : build config = .ok (p, n)) (run : Broadcast.follow? p turns (.start p n) = some b)
    {st : Stage} (found : b.network.stages.get? i = some st)
    (lives : st.state.isTerminated = false) :
    (∃ j, (b.network.advanceStage? j).isSome) ∨ (b.listener.advance? p b.network).isSome ∨
      st.thread = .faulted .addOverflow ∧ 2 ^ 64 ≤ st.loop.rounds + 1 := by
  obtain ⟨rfl, laid⟩ := build_laid built
  obtain ⟨ops, k⟩ := laid.custody.follow laid (firingPeriod_pos valid) run
  by_cases works : st.Works
  · by_contra stuck
    obtain ⟨still, stuck⟩ := not_or.1 stuck
    have waits := (not_or.1 stuck).1
    have d := k.stalled laid (by simpa using waits) (by simpa using still)
    exact d.ended laid (k.underway.within i st found) ⟨st, found, works⟩
  · exact .inr (.inr (k.faulted found works lives))

def heldTurns : List Turn :=
  let turns : List (Turn × Nat) :=
    [(.listener, 4), (.stage 0, 3), (.stage 1, 3), (.stage 2, 10), (.stage 3, 10), (.stage 1, 3),
      (.listener, 1)]
  turns.flatMap fun (turn, times) => List.replicate times turn

/-- A listener holds a report, which holds the aggregator's only buffer, which holds the only
exchange vector: every stage blocks, and the listener does not. -/
theorem deadlock_free_held : ∃ p n b st, build singleStep = .ok (p, n) ∧
    Broadcast.follow? p heldTurns (.start p n) = some b ∧ b.network.stages.get? 0 = some st ∧
    st.state.isTerminated = false ∧ (∀ j < 4, (b.network.advanceStage? j).isNone) ∧
    ((∃ j, (b.network.advanceStage? j).isSome) ∨ (b.listener.advance? p b.network).isSome ∨
      st.thread = .faulted .addOverflow ∧ 2 ^ 64 ≤ st.loop.rounds + 1) := by
  have runs : ((build singleStep).toOption.bind fun (p, n) =>
      (Broadcast.follow? p heldTurns (.start p n)).map fun b => (b.network.state? 0,
        (List.range 4).all fun j => (b.network.advanceStage? j).isNone)) =
      some (some .running, true) := by
    decide +kernel
  obtain ⟨⟨p, n⟩, built, runs⟩ := Option.bind_eq_some_iff.1 runs
  obtain ⟨b, run, last⟩ := Option.map_eq_some_iff.1 runs
  obtain ⟨state, blocked⟩ := Prod.mk.inj last
  obtain ⟨st, found, state⟩ := Option.map_eq_some_iff.1 state
  have built := build_of_toOption built
  have lives : st.state.isTerminated = false := by rw [state]; rfl
  refine ⟨p, n, b, st, built, run, found, lives, fun j hj => ?_,
    deadlock_free (by decide) built run found lives⟩
  exact List.all_eq_true.1 blocked j (List.mem_range.2 hj)

end BufferFlow.Pipeline
