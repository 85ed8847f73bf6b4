import BufferFlow.Proofs.Pipeline.Lead

set_option autoImplicit false

/-! # How a pipeline ends

With gates that are open for a number of steps, the aggregator publishes that many buffers and stops
at the closed gates. The sink goes on until it has collected all of these, and finds its source gone
before it ever gets to a closed gate. Only then do the relays find that nobody listens. -/

namespace BufferFlow.Pipeline

variable {config : PipelineConfig} {n₀ n n' : Network} {ops more : List Operation} {i j s : Nat}
  {reason : Termination}

def reasonOf (config : PipelineConfig) (stage : Nat) : Termination :=
  if stage = gateCount config + 1 then .gateClosed
  else if stage = gateCount config + 2 then .sourceGone
  else .noListeners

theorem reasonOf_fire (config : PipelineConfig) :
    reasonOf config (gateCount config + 1) = .gateClosed :=
  if_pos rfl

theorem reasonOf_sink (config : PipelineConfig) :
    reasonOf config (gateCount config + 2) = .sourceGone := by
  rw [reasonOf, if_neg (by omega), if_pos rfl]

theorem reasonOf_relay (hi : i ≤ gateCount config) : reasonOf config i = .noListeners := by
  rw [reasonOf, if_neg (by omega), if_neg (by omega)]

/-- Which stages have ended, and with how many buffers. A relay ends before its listeners do only if
a count of 64 bits has no room for what it has published. -/
structure Ending (config : PipelineConfig) (n₀ n : Network) (ops : List Operation) : Prop where
  leads : Leads config n₀ n ops
  relays : ∀ i ≤ gateCount config, ¬ n.Working i → count n₀ ops i < 2 ^ 64 →
    ¬ n.Working (gateCount config + 1) ∧ (0 < i → ¬ n.Working (gateCount config + 2))
  fire : ¬ n.Working (gateCount config + 1) →
    count n₀ ops (gateCount config + 1) = config.steps.toNat
  sink : ¬ n.Working (gateCount config + 2) → ¬ n.Working (gateCount config + 1) ∧
    count n₀ ops (gateCount config + 2) = config.steps.toNat
  reasons : ∀ (i : Nat) s reason, n.stages.get? i = some s → s.state = .terminated reason →
    reason = reasonOf config i ∧ (i ≤ gateCount config → count n₀ ops i < 2 ^ 64)
  complete : ∀ (i : Nat) s, n.stages.get? i = some s → ¬ s.Works → gateCount config < i →
    s.state = .terminated (reasonOf config i) ∧ s.loop.rounds = config.steps.toNat
  exhausted : ∀ (i : Nat) s, n.stages.get? i = some s → s.Exhausted →
    2 ^ 64 ≤ config.steps.toNat + config.buffers.toNat + 2

theorem Laid.ending (laid : Planned config n₀) : Ending config n₀ n₀ [] := by
  have works : ∀ i < gateCount config + 3, n₀.Working i := fun i hi => by
    obtain ⟨name, -, found⟩ := laid.stage i hi
    exact ⟨_, found, .inl rfl⟩
  have idle : ∀ (i : Nat) s, n₀.stages.get? i = some s → s.state = .idle ∧ s.Works := by
    intro i s found
    obtain ⟨name, -, same⟩ := laid.stage i (laid.stageCount ▸ Table.get?_lt found)
    obtain rfl := Option.some.inj (found.symm.trans same)
    exact ⟨rfl, .inl rfl⟩
  refine ⟨leads_nil config n₀, fun i relay ended => absurd (works i (by omega)) ended,
    fun ended => absurd (works _ (by omega)) ended, fun ended => absurd (works _ (by omega)) ended,
    fun i s reason found ended => ?_, fun i s found ended => absurd (idle i s found).2 ended,
    fun i s found exhausted => absurd (idle i s found).2 exhausted.ended⟩
  rw [(idle i s found).1] at ended
  simp at ended

/-- What a stage that stopped or faulted leaves behind, after a run. -/
structure Ends (config : PipelineConfig) (n₀ n : Network) (ops : List Operation) (i : Nat)
    (t : Stage) : Prop where
  idle : ¬ t.Works
  relay : i ≤ gateCount config → count n₀ ops i < 2 ^ 64 →
    ¬ n.Working (gateCount config + 1) ∧ (0 < i → ¬ n.Working (gateCount config + 2))
  sink : i = gateCount config + 2 → ¬ n.Working (gateCount config + 1)
  reason : ∀ reason, t.state = .terminated reason →
    reason = reasonOf config i ∧ (i ≤ gateCount config → count n₀ ops i < 2 ^ 64)
  complete : gateCount config < i → t.state = .terminated (reasonOf config i) ∧
    t.loop.rounds = config.steps.toNat ∧ count n₀ ops i = config.steps.toNat
  exhausted : t.Exhausted → 2 ^ 64 ≤ config.steps.toNat + config.buffers.toNat + 2

namespace Underway

variable (u : Underway config n₀.hub ops n) (laid : Planned config n₀)

include u laid

theorem unheard (works : n.Working i) (due : Due config n₀ n ops i .noListeners)
    (hj : j < gateCount config + 3) (hs : s ∈ sourcesOf config j) (outlet : outletOf config s = i) :
    ¬ n.Working j := by
  intro runs
  have heard := u.heard laid (sourcesOf_given hj hs) (u.kept runs hs) (outlet.symm ▸ works)
  rw [outlet, show n.hub.receivers i = [] from due] at heard
  exact List.not_mem_nil heard

theorem relay_due (works : n.Working i) (hi : i ≤ gateCount config)
    (due : Due config n₀ n ops i reason) :
    reason = .noListeners ∧ ¬ n.Working (gateCount config + 1) ∧
      (0 < i → ¬ n.Working (gateCount config + 2)) := by
  cases reason with
  | noListeners =>
    have outlet : outletOf config i = i := if_pos (by omega)
    refine ⟨rfl, u.unheard laid works due (by omega) (mem_sourcesOf_fire.2 hi) outlet, fun first => ?_⟩
    obtain ⟨mine, outlet⟩ := mem_sourcesOf_sink_gate first hi
    exact u.unheard laid works due (by omega) mine outlet
  | sourceGone =>
    obtain ⟨s, hs, -⟩ := due
    rw [sourcesOf_relay hi] at hs
    exact absurd hs List.not_mem_nil
  | gateClosed =>
    obtain ⟨-, g, hg, -⟩ := due
    rw [sourcesOf_relay hi] at hg
    exact absurd hg List.not_mem_nil

variable (pos : 0 < config.firingPeriod.toNat) (finite : config.steps ≠ 0)
  (e : Ending config n₀ n ops)

include pos finite e

theorem fire_due (gated : 0 < gateCount config) (works : n.Working (gateCount config + 1))
    (due : Due config n₀ n ops (gateCount config + 1) reason) :
    reason = .gateClosed ∧ count n₀ ops (gateCount config + 1) = config.steps.toNat := by
  cases reason with
  | noListeners =>
    have mine : gateCount config + 1 ∈ sourcesOf config (gateCount config + 2) :=
      mem_sourcesOf_sink.2 ⟨Nat.le_refl _, by omega⟩
    have ended := u.unheard laid works due (by omega) mine (if_pos (Nat.le_refl _))
    exact absurd works (e.sink ended).1
  | sourceGone =>
    obtain ⟨s, hs, ended, short⟩ := due
    obtain ⟨last, outlet⟩ := outletOf_fire.1 hs
    rw [outlet] at ended short
    have few := Nat.lt_of_le_of_lt (u.count_fire_le laid pos finite gated) config.steps.toNat_lt
    exact absurd works (e.relays s last ended (Nat.lt_of_le_of_lt short few)).1
  | gateClosed =>
    obtain ⟨-, g, hg, pub, hpub, closed⟩ := due
    obtain ⟨-, first, last⟩ := mem_tail_sourcesOf (by omega) hg
    exact ⟨rfl, u.closed_at laid finite first last (u.count_fire_le laid pos finite gated) hpub closed⟩

theorem sink_due (gated : 0 < gateCount config) (works : n.Working (gateCount config + 2))
    (attached : .dropSubscription (2 * gateCount config + 2) ∉ ops)
    (due : Due config n₀ n ops (gateCount config + 2) reason) :
    reason = .sourceGone ∧ ¬ n.Working (gateCount config + 1) ∧
      count n₀ ops (gateCount config + 2) = config.steps.toNat := by
  have mine : gateCount config + 1 ∈ sourcesOf config (gateCount config + 2) :=
    mem_sourcesOf_sink.2 ⟨Nat.le_refl _, by omega⟩
  have outlet : outletOf config (gateCount config + 1) = gateCount config + 1 :=
    if_pos (Nat.le_refl _)
  have short := u.count_le laid (by omega) mine
  rw [outlet] at short
  cases reason with
  | noListeners =>
    have reader : outletOf config (2 * gateCount config + 2) = gateCount config + 2 := by
      rw [outletOf, if_neg (by omega), if_neg (by omega)]
    have heard := u.heard laid (by omega) attached (reader.symm ▸ works)
    rw [reader, show n.hub.receivers (gateCount config + 2) = [] from due] at heard
    exact absurd heard List.not_mem_nil
  | sourceGone =>
    obtain ⟨s, hs, ended, long⟩ := due
    rcases outletOf_sink hs with fire | ⟨first, last⟩
    · rw [fire] at ended long
      exact ⟨rfl, ended, (Nat.le_antisymm short long).trans (e.fire ended)⟩
    · have few := Nat.lt_of_le_of_lt (u.count_fire_le laid pos finite gated) config.steps.toNat_lt
      have counted : count n₀ ops (outletOf config s) < 2 ^ 64 :=
        Nat.lt_of_le_of_lt (Nat.le_trans long short) few
      exact absurd works ((e.relays _ last ended counted).2 first)
  | gateClosed =>
    obtain ⟨supplied, g, hg, pub, hpub, closed⟩ := due
    obtain ⟨-, first, last⟩ := mem_tail_sourcesOf (by omega) hg
    have more := supplied _ mine
    rw [outlet] at more
    have few := u.count_fire_le laid pos finite gated
    have := u.closed_at laid finite first last (by omega) hpub closed
    omega

variable (gated : 0 < gateCount config) {st : Stage} {h : Hub} (counters : Counters)
  (log : List Record) (found : n.stages.get? i = some st) (runs : st.thread = .running)

include gated found runs

theorem stops {reason : Termination} (step : st.loop.advance n.hub = .stopped h reason)
    (attached : i = gateCount config + 2 → .dropSubscription (2 * gateCount config + 2) ∉ ops) :
    Ends config n₀ n (ops ++ (st.asks n.hub ++ [.tally counters log])) i
      (st.after (.stopped h reason)) := by
  have works : n.Working i := ⟨st, found, .inr runs⟩
  have hi := u.within i st found
  obtain ⟨due, quiet, counted⟩ := u.stopped laid counters log found (.inr runs) step
  have idle : ¬ (st.after (.stopped h reason)).Works := by simp [Stage.after, Stage.Works]
  have lives : ¬ (st.after (.stopped h reason)).Exhausted := fun exhausted => by
    cases exhausted.state
  by_cases relay : i ≤ gateCount config
  · obtain ⟨rfl, ended⟩ := u.relay_due laid works relay due
    refine ⟨idle, fun _ _ => ended, fun sink => by omega, fun other same => ?_,
      fun later => absurd relay (Nat.not_le.2 later), fun exhausted => absurd exhausted lives⟩
    obtain rfl := StageState.terminated.inj same
    exact ⟨(reasonOf_relay relay).symm, counted⟩
  obtain ⟨reasoned, heard, complete, sink⟩ : reason = reasonOf config i ∧ reason ≠ .noListeners ∧
      count n₀ ops i = config.steps.toNat ∧
      (i = gateCount config + 2 → ¬ n.Working (gateCount config + 1)) := by
    obtain rfl | rfl : i = gateCount config + 1 ∨ i = gateCount config + 2 := by omega
    · obtain ⟨rfl, all⟩ := u.fire_due laid pos finite e gated works due
      exact ⟨(reasonOf_fire config).symm, by decide, all, fun sink => by omega⟩
    · obtain ⟨rfl, ended, all⟩ := u.sink_due laid pos finite e gated works (attached rfl) due
      exact ⟨(reasonOf_sink config).symm, by decide, all, fun _ => ended⟩
  obtain ⟨rounds, same⟩ := quiet heard
  refine ⟨idle, fun early => absurd early relay, sink, fun other same => ?_,
    fun _ => ⟨congrArg _ reasoned, rounds.trans complete, same.trans complete⟩,
    fun exhausted => absurd exhausted lives⟩
  obtain rfl := StageState.terminated.inj same
  exact ⟨reasoned, fun early => absurd early relay⟩

theorem faults {fault : Fault} (step : st.loop.advance n.hub = .faulted h fault) :
    Ends config n₀ n (ops ++ (st.asks n.hub ++ [.tally counters log])) i
      (st.after (.faulted h fault)) := by
  obtain ⟨overflow, ⟨relay, beyond⟩ | ⟨fire, gates⟩⟩ :=
    u.overran laid pos counters log found (.inr runs) step
  · have lead := e.leads i relay ⟨st, found, .inr runs⟩
    have running : st.state = .running := by
      obtain ⟨t, ht, -, -, tells⟩ := u.stage i (u.within i st found)
      obtain rfl := Option.some.inj (found.symm.trans ht)
      rwa [Stage.Tells, runs] at tells
    refine ⟨by simp [Stage.after, Stage.Works], fun _ few => absurd few (Nat.not_lt.2 beyond),
      fun sink => by omega, fun reason same => (by cases running.symm.trans same),
      fun later => absurd relay (Nat.not_le.2 later), fun _ => by omega⟩
  · obtain ⟨signal, hsignal, isOpen⟩ := gates 1 Nat.one_pos gated
    rw [u.gate_made laid Nat.one_pos gated hsignal, fire,
      gateOpen_iff finite (u.count_fire_le laid pos finite gated)] at isOpen
    have := config.steps.toNat_lt
    rw [fire] at overflow
    omega

end Underway

theorem Underway.count_ended (u : Underway config n₀.hub ops n) (laid : Planned config n₀)
    (hi : i < gateCount config + 3) (ended : ¬ n.Working i) (more : List Operation) :
    count n₀ (ops ++ more) i = count n₀ ops i := by
  rw [u.working_iff hi, Bool.not_eq_true, u.orderly.hub] at ended
  rw [count, made, Hub.publishedBy_dead (laid.publisherCount ▸ hi) ended]

theorem Underway.ended (u : Underway config n₀.hub ops n) {s : Stage}
    (found : n.stages.get? i = some s) (state : s.state = .terminated reason) :
    ¬ s.Works ∧ ¬ n.Working i := by
  obtain ⟨t, same, -, -, tells⟩ := u.stage i (u.within i s found)
  obtain rfl := Option.some.inj (found.symm.trans same)
  have idle : ¬ s.Works := fun works => by
    have lives := tells.unterminated works
    rw [state] at lives
    cases lives
  refine ⟨idle, fun ⟨t, there, works⟩ => idle ?_⟩
  obtain rfl := Option.some.inj (found.symm.trans there)
  exact works

theorem Ending.same (e : Ending config n₀ n ops) (u : Underway config n₀.hub ops n)
    (laid : Planned config n₀) (works : ∀ j, n'.Working j ↔ n.Working j)
    (leads : Leads config n₀ n' (ops ++ more))
    (stage : ∀ (j : Nat) t, n'.stages.get? j = some t →
      (t.Works ∧ ∀ reason, t.state ≠ .terminated reason) ∨ ∃ s, n.stages.get? j = some s ∧
        t.state = s.state ∧ t.loop = s.loop ∧ (t.Works ↔ s.Works)) :
    Ending config n₀ n' (ops ++ more) := by
  have still := fun {i : Nat} (hi : i < gateCount config + 3) (ended : ¬ n.Working i) =>
    u.count_ended laid hi ended more
  refine ⟨leads, fun i relay => ?_, ?_, ?_, fun j t reason ht ended => ?_,
    fun j t ht idle later => ?_, fun j t ht exhausted => ?_⟩
  · simp only [works]
    exact fun ended few => e.relays i relay ended (still (by omega) ended ▸ few)
  · simp only [works]
    exact fun ended => (still (by omega) ended).trans (e.fire ended)
  · simp only [works]
    exact fun ended => ⟨(e.sink ended).1, (still (by omega) ended).trans (e.sink ended).2⟩
  · obtain ⟨-, never⟩ | ⟨s, hs, state, -⟩ := stage j t ht
    · exact absurd ended (never reason)
    · rw [state] at ended
      obtain ⟨because, few⟩ := e.reasons j s reason hs ended
      refine ⟨because, fun relay => ?_⟩
      rw [still (by omega) (u.ended hs ended).2]
      exact few relay
  · obtain ⟨⟨busy, -⟩⟩ | ⟨s, hs, state, loop, same⟩ := stage j t ht
    · exact absurd busy idle
    · rw [state, loop]
      exact e.complete j s hs (mt same.2 idle) later
  · obtain ⟨⟨busy, -⟩⟩ | ⟨s, hs, state, loop, same⟩ := stage j t ht
    · exact absurd busy exhausted.ended
    · exact e.exhausted j s hs
        ⟨mt same.2 exhausted.ended, state ▸ exhausted.state, loop ▸ exhausted.rounds⟩

theorem Ending.goes_on (e : Ending config n₀ n ops) (u : Underway config n₀.hub ops n)
    (laid : Planned config n₀) {s : Stage} {h : Hub} {loop : Loop}
    (found : n.stages.get? i = some s) (runs : s.thread = .running)
    (stages : n'.stages = n.stages.modify i (fun _ => s.after (.running h loop)))
    (leads : Leads config n₀ n' (ops ++ more)) : Ending config n₀ n' (ops ++ more) := by
  have working : n.Working i := ⟨s, found, .inr runs⟩
  refine e.same u laid (fun j => ?_) leads fun j t ht => ?_
  · rw [working_modify stages]
    by_cases here : j = i
    · subst here
      simp only [found, if_true]
      exact ⟨fun _ => working, fun _ => ⟨s, rfl, .inr runs⟩⟩
    · simp only [here, if_false, Network.Working]
  · rw [stages, Table.get?_modify] at ht
    split at ht
    · rename_i here
      subst here
      rw [found] at ht
      obtain rfl := Option.some.inj ht
      exact .inl ⟨.inr runs, fun reason state => (u.ended found state).1 (.inr runs)⟩
    · exact .inr ⟨t, ht, rfl, rfl, Iff.rfl⟩

theorem Ending.ends (e : Ending config n₀ n ops) (u : Underway config n₀.hub ops n)
    (laid : Planned config n₀) {s t : Stage} (ends : Ends config n₀ n (ops ++ more) i t)
    (found : n.stages.get? i = some s) (stages : n'.stages = n.stages.modify i (fun _ => t))
    (leads : Leads config n₀ n' (ops ++ more)) : Ending config n₀ n' (ops ++ more) := by
  have ended : ∀ j, ¬ n'.Working j ↔ j = i ∨ ¬ n.Working j := by
    intro j
    rw [working_modify stages]
    by_cases here : j = i
    · subst here
      simp [found, ends.idle]
    · simp [here, Network.Working]
  have still := fun {j : Nat} (hj : j < gateCount config + 3) (ended : ¬ n.Working j) =>
    u.count_ended laid hj ended more
  have stage : ∀ (j : Nat) u, n'.stages.get? j = some u →
      j = i ∧ u = t ∨ n.stages.get? j = some u := by
    intro j u hu
    rw [stages, Table.get?_modify] at hu
    split at hu
    · rename_i here
      obtain ⟨_, -, rfl⟩ := Option.map_eq_some_iff.1 hu
      exact .inl ⟨here, rfl⟩
    · exact .inr hu
  refine ⟨leads, fun j relay gone few => ?_, fun gone => ?_, fun gone => ?_,
    fun j u reason hu state => ?_, fun j u hu idle later => ?_, fun j u hu exhausted => ?_⟩
  · simp only [ended]
    rcases (ended j).1 gone with rfl | gone
    · exact (ends.relay relay few).imp .inr fun listened first => .inr (listened first)
    · have before := e.relays j relay gone (still (by omega) gone ▸ few)
      exact before.imp .inr fun listened first => .inr (listened first)
  · rcases (ended _).1 gone with rfl | gone
    · exact (ends.complete (Nat.lt_succ_self _)).2.2
    · exact (still (by omega) gone).trans (e.fire gone)
  · rw [ended]
    rcases (ended _).1 gone with rfl | gone
    · exact ⟨.inr (ends.sink rfl), (ends.complete (by omega)).2.2⟩
    · exact ⟨.inr (e.sink gone).1, (still (by omega) gone).trans (e.sink gone).2⟩
  · rcases stage j u hu with ⟨rfl, rfl⟩ | before
    · exact ends.reason reason state
    · obtain ⟨because, few⟩ := e.reasons j u reason before state
      refine ⟨because, fun relay => ?_⟩
      rw [still (by omega) (Underway.ended ‹_› before state).2]
      exact few relay
  · rcases stage j u hu with ⟨rfl, rfl⟩ | before
    · exact ⟨(ends.complete later).1, (ends.complete later).2.1⟩
    · exact e.complete j u before idle later
  · rcases stage j u hu with ⟨rfl, rfl⟩ | before
    · exact ends.exhausted exhausted
    · exact e.exhausted j u before exhausted

theorem Ending.advance (e : Ending config n₀ n ops) (u : Underway config n₀.hub ops n)
    (laid : Planned config n₀) (pos : 0 < config.firingPeriod.toNat) (finite : config.steps ≠ 0)
    (gated : 0 < gateCount config)
    (attached : n.Working (gateCount config + 2) →
      .dropSubscription (2 * gateCount config + 2) ∉ ops)
    {s : Stage} {counters : Counters} {log : List Record} (found : n.stages.get? i = some s)
    (runs : s.thread = .running) (moves : s.loop.advance n.hub ≠ .blocked)
    (stages : n'.stages = n.stages.modify i (fun _ => s.after (s.loop.advance n.hub)))
    (u' : Underway config n₀.hub (ops ++ (s.asks n.hub ++ [.tally counters log])) n') :
    Ending config n₀ n' (ops ++ (s.asks n.hub ++ [.tally counters log])) := by
  have leads := e.leads.advance u laid pos finite gated found runs moves stages u'
  cases progress : s.loop.advance n.hub with
  | blocked => exact absurd progress moves
  | running h loop => exact e.goes_on u laid found runs (progress ▸ stages) leads
  | stopped h reason =>
    have stops := u.stops laid pos finite e gated counters log found runs progress
      fun sink => attached (sink ▸ ⟨s, found, .inr runs⟩)
    exact e.ends u laid stops found (progress ▸ stages) leads
  | faulted h fault =>
    have faults := u.faults laid pos finite e gated counters log found runs progress
    exact e.ends u laid faults found (progress ▸ stages) leads

end BufferFlow.Pipeline
