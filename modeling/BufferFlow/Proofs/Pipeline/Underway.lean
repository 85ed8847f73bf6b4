import BufferFlow.Proofs.Pipeline.DataPath
import BufferFlow.Proofs.Pipeline.Outset

set_option autoImplicit false

/-! # A pipeline underway

Whichever stage takes the next step, a pipeline stays orderly, and no stage faults before a count of
its rounds runs out. What a stage has published by then is determined by how many buffers it has
published. -/

namespace BufferFlow

namespace Loop

variable {h₀ h h' : Hub} {l : Loop} {ops : List Operation}

/-- The loop's function changes no extent. -/
def Preserving : Loop → Prop
  | relay l => ∀ step old, (l.fill step old).payload.extent = old.extent
  | aggregator l => ∀ calls source old, (l.transform calls source old).payload.extent = old.extent

/-- The loop's function never faults, except where it cannot count its calls any further. -/
def Faultless : Loop → Prop
  | relay l => ∀ step old, (l.fill step old).fault = none
  | aggregator l => ∀ calls source old fault,
      (l.transform calls source old).fault = some fault → Checked.overrun? calls = some fault

theorem preserving_reset (l : Loop) : l.reset.Preserving ↔ l.Preserving := by cases l <;> rfl

theorem faultless_reset (l : Loop) : l.reset.Faultless ↔ l.Faultless := by cases l <;> rfl

theorem recorded_reset (l : Loop) (h₀ : Hub) (ops : List Operation) :
    l.reset.Recorded h₀ ops ↔ l.Recorded h₀ ops := by
  cases l <;> rfl

theorem requests_fit (keeps : Hub.Keeps h₀ h)
    (rooted : ∀ b, l.blank? = some b → h₀.poolOf? l.publisher = some b.pool)
    (preserving : l.Preserving) : ∀ op ∈ l.requests h, op.Fits h₀ := by
  have written : ∀ {b : SlotRef} {old payload : Payload} {w : Written} {fault : Option Fault},
      h.payload? b = some old → w = ⟨payload, fault⟩ → w.payload.extent = old.extent →
      ∃ v, h₀.payload? b = some v ∧ payload.extent = v.extent := by
    rintro b old payload w fault shown rfl same
    obtain ⟨v, there, before⟩ := keeps b old shown
    exact ⟨v, there, same.trans before⟩
  cases l with
  | relay l =>
    have turn := l.advance_turn h
    rw [requests]
    generalize l.advance h = progress at turn
    generalize l.requests h = asked at turn ⊢
    intro op hop
    cases turn with
    | starves =>
      obtain ⟨pool, -, rfl⟩ := Option.map_eq_some_iff.1 (Option.mem_toList.1 hop)
      trivial
    | acquires =>
      obtain rfl := List.mem_singleton.1 hop
      trivial
    | lacks => exact absurd hop List.not_mem_nil
    | fills phase shown filled =>
      obtain rfl := List.mem_singleton.1 hop
      exact written shown filled (preserving _ _)
    | faults phase shown filled =>
      rcases List.mem_pair.1 hop with rfl | rfl
      · exact written shown filled (preserving _ _)
      · trivial
    | publishes phase | overruns phase | unheard phase =>
      obtain rfl := List.mem_singleton.1 hop
      exact rooted _ (by rw [blank?, phase]; rfl)
  | aggregator l =>
    have turn := l.advance_turn h
    rw [requests]
    generalize l.advance h = progress at turn
    generalize l.requests h = asked at turn ⊢
    intro op hop
    cases turn with
    | armed | waits | lacks => exact absurd hop List.not_mem_nil
    | arms | acquires =>
      obtain rfl := List.mem_singleton.1 hop
      trivial
    | abandons =>
      rcases List.mem_append.1 hop with hop | hop
      · rcases List.mem_cons.1 hop with rfl | hop
        · trivial
        · obtain ⟨s, -, rfl⟩ := List.mem_map.1 hop
          trivial
      · obtain ⟨cell, -, rfl⟩ := List.mem_map.1 hop
        trivial
    | takes =>
      rcases List.mem_cons.1 hop with rfl | hop
      · trivial
      · have empties := AggregatorLoop.takeRequests_empties op hop
        cases op with
        | takeCell | dropCell | release => trivial
        | _ => exact empties.elim
    | starves =>
      obtain ⟨pool, -, rfl⟩ := Option.map_eq_some_iff.1 (Option.mem_toList.1 hop)
      trivial
    | transforms phase read shown made =>
      rcases List.mem_pair.1 hop with rfl | rfl
      · exact written shown made (preserving _ _ _)
      · trivial
    | faults phase read shown made =>
      rcases List.mem_cons.1 hop with rfl | hop
      · exact written shown made (preserving _ _ _)
      · rcases List.mem_pair.1 hop with rfl | rfl <;> trivial
    | publishes phase | unheard phase =>
      obtain rfl := List.mem_singleton.1 hop
      exact rooted _ (by rw [blank?, phase]; rfl)

theorem closing_fit (l : Loop) : ∀ op ∈ l.closing, op.Fits h₀ := by
  intro op hop
  rcases closing_cases hop with rfl | ⟨s, -, rfl⟩ <;> trivial

theorem InRound.overrun (r : l.InRound h₀ ops) (faultless : l.Faultless) {fault : Fault}
    (step : l.advance (h₀.applyAll ops) = .faulted h' fault) :
    Checked.overrun? l.rounds = some fault := by
  cases l with
  | relay l =>
    rw [advance_relay] at step
    rcases RelayLoop.InRound.faulted r (Progress.map_eq_faulted step) with ⟨old, faults⟩ | ⟨overflow, -⟩
    · cases (faultless l.step.toNat old).symm.trans faults
    · exact overflow
  | aggregator l =>
    rw [advance_aggregator] at step
    obtain ⟨-, -, v, old, payload, -, -, -, made⟩ :=
      AggregatorLoop.advance_faulted (Progress.map_eq_faulted step)
    exact faultless l.calls v old fault (by rw [made])

end Loop

namespace Stage

/-- The stage's thread ended because it could not count a round, and nobody set its state. -/
structure Exhausted (s : Stage) : Prop where
  ended : ¬ s.Works
  state : s.state = .running
  rounds : 2 ^ 64 ≤ s.loop.rounds + 1

/-- The stage's state goes with its thread, which has not faulted unless it could not count a round.
-/
def Tells (s : Stage) : Prop :=
  match s.thread with
  | .unstarted => s.state = .idle
  | .running => s.state = .running
  | .ended reason => s.state = .terminated reason
  | .gone => s.state.isTerminated ∨ s.Exhausted
  | .faulted fault => s.state = .running ∧ Checked.overrun? s.loop.rounds = some fault

variable {s : Stage}

theorem Tells.unterminated (tells : s.Tells) (works : s.Works) : s.state.isTerminated = false := by
  rw [Tells] at tells
  rcases works with thread | thread <;> rw [thread] at tells <;>
    rw [show s.state = _ from tells] <;> rfl

theorem Tells.faulted {fault : Fault} (tells : s.Tells) (thread : s.thread = .faulted fault) :
    fault = .addOverflow ∧ s.Exhausted := by
  rw [Tells, thread] at tells
  obtain ⟨overflow, rfl⟩ := Checked.overrun?_eq_some.1 tells.2
  exact ⟨rfl, by simp [Works, thread], tells.1, overflow⟩

theorem Tells.ended (tells : s.Tells) (ended : ¬ s.Works) :
    s.state.isTerminated = true ∨ s.Exhausted := by
  cases thread : s.thread with
  | unstarted => exact absurd (.inl thread) ended
  | running => exact absurd (.inr thread) ended
  | ended reason =>
    rw [Tells, thread] at tells
    rw [show s.state = _ from tells]
    exact .inl rfl
  | gone =>
    rw [Tells, thread] at tells
    exact tells
  | faulted fault => exact .inr (tells.faulted thread).2

end Stage

namespace Network

variable {n n' : Network} {h₀ : Hub} {ops : List Operation} {i : Nat}

def Working (n : Network) (i : Nat) : Prop := ∃ s, n.stages.get? i = some s ∧ s.Works

theorem Orderly.retitle (o : n.Orderly h₀ ops) {f : Stage → Stage} {counters : Counters}
    {log : List Record} (hub : n'.hub = { n.hub with counters, log })
    (stages : n'.stages = n.stages.modify i f) (loop : ∀ s, (f s).loop = s.loop)
    (works : ∀ s, n.stages.get? i = some s → ((f s).Works ↔ s.Works)) :
    n'.Orderly h₀ (ops ++ [.tally counters log]) := by
  have counted : ∀ op ∈ [Operation.tally counters log], op.Within {} h₀ ops :=
    List.forall_mem_singleton.2 trivial
  have told := o.others counted fun i s _ _ => Kit.Apart.none (s.loop.kit h₀)
  have before : ∀ (j : Nat) t, n'.stages.get? j = some t → ∃ s, n.stages.get? j = some s ∧
      t.loop = s.loop ∧ (t.Works ↔ s.Works) := by
    intro j t ht
    rw [stages, Table.get?_modify] at ht
    split at ht
    · rename_i here
      obtain ⟨s, hs, rfl⟩ := Option.map_eq_some_iff.1 ht
      exact ⟨s, hs, loop s, works s (here ▸ hs)⟩
    · exact ⟨t, ht, rfl, Iff.rfl⟩
  refine .of_inOrder (hub.trans told.hub) (fun j t ht => ?_) fun j k t u hjk ht hu tw uw => ?_
  · obtain ⟨s, hs, same, sw⟩ := before j t ht
    exact (told.inOrder hs).congr same sw
  · obtain ⟨s, hs, same, sw⟩ := before j t ht
    obtain ⟨r, hr, same', rw'⟩ := before k u hu
    rw [same, same']
    exact told.apart j k s r hjk hs hr (sw.1 tw) (rw'.1 uw)

end Network

namespace Pipeline

variable {config : PipelineConfig} {n₀ n n' : Network} {ops more : List Operation} {i j s : Nat}

theorem preserving_loopOf (config : PipelineConfig) (i : Nat) : (loopOf config i).Preserving := by
  rw [loopOf]
  split
  · exact fillExchange_extent _
  · split
    · exact fillGate_extent config
    · split
      · exact deriveFire_extent
      · exact collectFire_extent

theorem faultless_loopOf (pos : 0 < config.firingPeriod.toNat) (i : Nat) :
    (loopOf config i).Faultless := by
  rw [loopOf]
  split
  · exact fillExchange_fault pos
  · split
    · exact fillGate_fault config
    · split
      · exact fun _ _ _ _ => deriveFire_fault
      · intro calls source old fault faults
        cases (collectFire_fault calls source old).symm.trans faults

/-- What holds of a pipeline between two steps of anybody, after a run of its hub. -/
structure Underway (config : PipelineConfig) (h₀ : Hub) (ops : List Operation) (n : Network) :
    Prop where
  orderly : n.Orderly h₀ ops
  fits : ∀ op ∈ ops, op.Fits h₀
  closed : ∀ p erased, .subscribe p erased ∉ ops
  within : ∀ (i : Nat) s, n.stages.get? i = some s → i < gateCount config + 3
  stage : ∀ i < gateCount config + 3, ∃ s, n.stages.get? i = some s ∧
    s.loop.reset = loopOf config i ∧ s.nameFault? = none ∧ s.Tells

theorem Laid.underway (laid : Planned config n₀) : Underway config n₀.hub [] n₀ := by
  refine ⟨laid.orderly, fun op hop => absurd hop List.not_mem_nil, fun _ _ => List.not_mem_nil,
    fun i s found => laid.stageCount ▸ Table.get?_lt found, fun i hi => ?_⟩
  obtain ⟨name, proper, found⟩ := laid.stage i hi
  exact ⟨_, found, reset_loopOf config i, Stage.nameFault?_eq_none proper, rfl⟩

namespace Underway

theorem keeps (u : Underway config n₀.hub ops n) : Hub.Keeps n₀.hub n.hub := by
  rw [u.orderly.hub]
  exact Hub.keeps_applyAll u.fits (.refl _)

theorem reset (u : Underway config n₀.hub ops n) {s : Stage} (found : n.stages.get? i = some s) :
    s.loop.reset = loopOf config i := by
  obtain ⟨t, ht, same, -⟩ := u.stage i (u.within i s found)
  obtain rfl := Option.some.inj (found.symm.trans ht)
  exact same

theorem publisher (u : Underway config n₀.hub ops n) {s : Stage}
    (found : n.stages.get? i = some s) : s.loop.publisher = i := by
  rw [← s.loop.publisher_reset, u.reset found, publisher_loopOf]

theorem sources (u : Underway config n₀.hub ops n) {s : Stage} (found : n.stages.get? i = some s) :
    s.loop.sources = sourcesOf config i := by
  rw [← s.loop.sources_reset, u.reset found]

theorem closed_append (u : Underway config n₀.hub ops n) {a : Kit}
    (within : ∀ op ∈ more, op.Within a n₀.hub ops) (p : Nat) (erased : Bool) :
    .subscribe p erased ∉ ops ++ more :=
  fun hop => (List.mem_append.1 hop).elim (u.closed p erased) (within _)

theorem others (u : Underway config n₀.hub ops n) {a : Kit}
    (within : ∀ op ∈ more, op.Within a n₀.hub ops) (fits : ∀ op ∈ more, op.Fits n₀.hub)
    (apart : ∀ (i : Nat) s, n.stages.get? i = some s → s.Works → a.Apart (s.loop.kit n₀.hub)) :
    Underway config n₀.hub (ops ++ more) (n.withHub (n.hub.applyAll more)) :=
  ⟨u.orderly.others within apart, fun op hop => (List.mem_append.1 hop).elim (u.fits op) (fits op),
    u.closed_append within, u.within, u.stage⟩

theorem retitle (u : Underway config n₀.hub ops n) {f : Stage → Stage} {counters : Counters}
    {log : List Record} (hub : n'.hub = { n.hub with counters, log })
    (stages : n'.stages = n.stages.modify i f)
    (same : ∀ s, (f s).loop = s.loop ∧ (f s).name = s.name)
    (works : ∀ s, n.stages.get? i = some s → ((f s).Works ↔ s.Works))
    (tells : ∀ s, n.stages.get? i = some s → (f s).Tells) :
    Underway config n₀.hub (ops ++ [.tally counters log]) n' := by
  refine ⟨u.orderly.retitle hub stages (fun s => (same s).1) works, fun op hop => ?_,
    u.closed_append (a := {}) (List.forall_mem_singleton.2 trivial), fun j s hs => ?_, fun j hj => ?_⟩
  · rcases List.mem_append.1 hop with hop | hop
    · exact u.fits op hop
    · obtain rfl := List.mem_singleton.1 hop
      trivial
  · rw [stages, Table.get?_modify] at hs
    split at hs
    · obtain ⟨t, ht, -⟩ := Option.map_eq_some_iff.1 hs
      exact u.within j t ht
    · exact u.within j s hs
  · obtain ⟨s, hs, reset, name, thread⟩ := u.stage j hj
    rw [stages, Table.get?_modify]
    split
    · rename_i here
      obtain ⟨loop, title⟩ := same s
      refine ⟨f s, by rw [hs]; rfl, loop ▸ reset, ?_, tells s (here ▸ hs)⟩
      rw [Stage.nameFault?, title]
      exact name
    · exact ⟨s, hs, reset, name, thread⟩

theorem advance (u : Underway config n₀.hub ops n) (pos : 0 < config.firingPeriod.toNat) {s : Stage}
    {counters : Counters} {log : List Record} (found : n.stages.get? i = some s)
    (runs : s.thread = .running) (moves : s.loop.advance n.hub ≠ .blocked)
    (stages : n'.stages = n.stages.modify i (fun _ => s.after (s.loop.advance n.hub)))
    (hub : n'.hub = n.hub.applyAll (s.asks n.hub ++ [.tally counters log])) :
    Underway config n₀.hub (ops ++ (s.asks n.hub ++ [.tally counters log])) n' := by
  have reset := u.reset found
  have r := u.orderly.working i s found (.inr runs)
  have rooted := (u.orderly.seated i s found).rooted
  have faultless : s.loop.Faultless := by
    rw [← Loop.faultless_reset, reset]
    exact faultless_loopOf pos i
  refine ⟨u.orderly.advance found runs moves stages hub, fun op hop => ?_,
    u.closed_append (u.orderly.asks_within counters log found (.inr runs)), fun j t ht => ?_,
    fun j hj => ?_⟩
  · rcases List.mem_append.1 hop with hop | hop
    · exact u.fits op hop
    rcases List.mem_append.1 hop with hop | hop
    · rw [Stage.asks] at hop
      rcases List.mem_append.1 hop with hop | hop
      · refine Loop.requests_fit u.keeps rooted ?_ op hop
        rw [← Loop.preserving_reset, reset]
        exact preserving_loopOf config i
      · split at hop
        · exact absurd hop List.not_mem_nil
        · exact absurd hop List.not_mem_nil
        · exact s.loop.closing_fit op hop
        · exact s.loop.closing_fit op hop
    · obtain rfl := List.mem_singleton.1 hop
      trivial
  · rw [stages, Table.get?_modify] at ht
    split at ht
    · obtain ⟨t, ht, -⟩ := Option.map_eq_some_iff.1 ht
      exact u.within j t ht
    · exact u.within j t ht
  · obtain ⟨t, ht, treset, name, thread⟩ := u.stage j hj
    rw [stages, Table.get?_modify]
    split
    · rename_i here
      subst here
      obtain rfl := Option.some.inj (found.symm.trans ht)
      have state : s.state = .running := by
        rw [Stage.Tells, runs] at thread
        exact thread
      refine ⟨_, by rw [ht]; rfl, ?_⟩
      cases progress : s.loop.advance n.hub with
      | blocked => exact absurd progress moves
      | running h loop =>
        refine ⟨(Loop.advance_reset progress).trans treset, name, ?_⟩
        rw [Stage.Tells, show (s.after (.running h loop)).thread = .running from runs]
        exact state
      | stopped h reason => exact ⟨treset, name, rfl⟩
      | faulted h fault =>
        exact ⟨treset, name, state, r.overrun faultless (u.orderly.hub ▸ progress)⟩
    · exact ⟨t, ht, treset, name, thread⟩

end Underway

end Pipeline

end BufferFlow
