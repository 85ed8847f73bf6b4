import BufferFlow.Network.Action
import BufferFlow.Stage.Function
import BufferFlow.Proofs.Building
import BufferFlow.Proofs.Hub.Events
import BufferFlow.Proofs.Stage.Loops
import BufferFlow.Proofs.Stage.Names

set_option autoImplicit false

namespace BufferFlow

inductive Ending
  | stopped (reason : Termination)
  | faulted (fault : Fault)

namespace Ending

def state : Ending → StageState
  | stopped reason => .terminated reason
  | faulted _ => .running

def thread : Ending → Thread
  | stopped reason => .ended reason
  | faulted fault => .faulted fault

def isFaulted : Ending → Bool
  | stopped _ => false
  | faulted _ => true

end Ending

def Progress.ending? {α : Type} : Progress α → Option Ending
  | .stopped _ reason => some (.stopped reason)
  | .faulted _ fault => some (.faulted fault)
  | .blocked | .running .. => none

namespace Network

def started? (n : Network) : Action → Option Nat
  | .start stage => (n.state? stage).bind fun state => if state = .idle then some stage else none
  | _ => none

def ended? (n : Network) : Action → Option (Nat × Ending)
  | .advance stage => do
    let s ← n.running? stage
    return (stage, ← (s.loop.advance n.hub).ending?)
  | _ => none

def starts (n : Network) : List Action → List Nat
  | [] => []
  | a :: actions => (n.started? a).toList ++ (n.act a).starts actions

def endings (n : Network) : List Action → List (Nat × Ending)
  | [] => []
  | a :: actions => (n.ended? a).toList ++ (n.act a).endings actions

def underway (S : List Nat) (E : List (Nat × Ending)) : Nat :=
  S.countP fun i => i ∉ E.map Prod.fst

/-- The name can be given to a thread, and nobody else counts. -/
def Action.Proper : Action → Prop
  | hub op => ∀ counters log, op ≠ .tally counters log
  | newRelay name .. | newAggregator name .. | newSink name .. =>
    ∀ c ∈ name.toList, c ≠ '\x00'
  | _ => True

end Network

theorem Stage.nameFault?_congr {s u : Stage} (name : u.name = s.name) :
    u.nameFault? = s.nameFault? := by
  rw [Stage.nameFault?, name, Stage.nameFault?]

/-! ## Loops count no stages -/

/-- Whether the operation is one that a loop may ask for in its rounds, before it ends. -/
def Operation.OfRounds : Operation → Prop
  | tally .. | dropPublisher _ | dropSubscription _ => False
  | _ => True

theorem Operation.OfRounds.untallied {op : Operation} (rounds : op.OfRounds) (counters : Counters)
    (log : List Record) : op ≠ .tally counters log := by
  rintro rfl
  exact rounds

theorem Operation.OfRounds.of_empties {op : Operation} (empties : op.Empties) : op.OfRounds := by
  cases op with
  | takeCell | dropCell | release => trivial
  | _ => exact empties.elim

theorem RelayLoop.requests_ofRounds (l : RelayLoop) (h : Hub) : ∀ op ∈ l.requests h, op.OfRounds := by
  have turn := l.advance_turn h
  generalize l.advance h = progress at turn
  generalize l.requests h = asked at turn ⊢
  intro op hop
  cases turn with
  | starves =>
    obtain ⟨pool, -, rfl⟩ := Option.map_eq_some_iff.1 (Option.mem_toList.1 hop)
    trivial
  | lacks => exact absurd hop List.not_mem_nil
  | faults => rcases List.mem_pair.1 hop with rfl | rfl <;> trivial
  | _ =>
    obtain rfl := List.mem_singleton.1 hop
    trivial

theorem AggregatorLoop.requests_ofRounds (l : AggregatorLoop) (h : Hub) :
    ∀ op ∈ l.requests h, op.OfRounds := by
  have turn := l.advance_turn h
  generalize l.advance h = progress at turn
  generalize l.requests h = asked at turn ⊢
  intro op hop
  cases turn with
  | armed | waits | lacks => exact absurd hop List.not_mem_nil
  | abandons =>
    rcases List.mem_append.1 hop with hop | hop
    · rcases List.mem_cons.1 hop with rfl | hop
      · trivial
      · obtain ⟨s, -, rfl⟩ := List.mem_map.1 hop
        trivial
    · obtain ⟨cell, -, rfl⟩ := List.mem_map.1 hop
      trivial
  | takes =>
    rcases List.mem_cons.1 hop with rfl | hop
    · trivial
    · exact .of_empties (takeRequests_empties op hop)
  | starves =>
    obtain ⟨pool, -, rfl⟩ := Option.map_eq_some_iff.1 (Option.mem_toList.1 hop)
    trivial
  | transforms => rcases List.mem_pair.1 hop with rfl | rfl <;> trivial
  | faults =>
    rcases List.mem_cons.1 hop with rfl | hop
    · trivial
    · rcases List.mem_pair.1 hop with rfl | rfl <;> trivial
  | _ =>
    obtain rfl := List.mem_singleton.1 hop
    trivial

namespace Loop

variable {l : Loop} {h h' : Hub}

theorem requests_ofRounds (l : Loop) (h : Hub) : ∀ op ∈ l.requests h, op.OfRounds := by
  cases l with
  | relay l => exact l.requests_ofRounds h
  | aggregator l => exact l.requests_ofRounds h

theorem ofStages_advance (step : (l.advance h).hub? = some h') :
    h'.counters.ofStages = h.counters.ofStages := by
  cases l with
  | relay l =>
    rw [advance_relay, Progress.hub?_map] at step
    rw [RelayLoop.advance_hub? step]
    exact Hub.ofStages_applyAll fun op mine => (l.requests_ofRounds h op mine).untallied
  | aggregator l =>
    rw [advance_aggregator, Progress.hub?_map] at step
    rcases AggregatorLoop.advance_asks step with asked | ⟨source, -, armed⟩
    · rw [asked]
      exact Hub.ofStages_applyAll fun op mine => (l.requests_ofRounds h op mine).untallied
    · rw [armed, Hub.counters_arm]

theorem ofStages_close (l : Loop) (h : Hub) :
    (l.close h).counters.ofStages = h.counters.ofStages := by
  rw [close_hub]
  exact Hub.ofStages_applyAll l.closing_untallied

end Loop

/-- What a stage says of itself, where those in `S` were started and the threads in `E` ended. -/
inductive Stage.Shows (S : List Nat) (E : List (Nat × Ending)) (i : Nat) (s : Stage) : Prop
  | idle (new : i ∉ S) (state : s.state = .idle) (thread : s.thread = .unstarted)
  | running (started : i ∈ S) (going : i ∉ E.map Prod.fst) (state : s.state = .running)
    (thread : s.thread = .running)
  | past {e : Ending} (ended : (i, e) ∈ E) (state : s.state = e.state)
    (thread : s.thread = e.thread ∨ s.thread = .gone)

/-- A stage is started once, and its thread ends once. -/
structure Booked (S : List Nat) (E : List (Nat × Ending)) : Prop where
  startedOnce : S.Nodup
  endedOnce : (E.map Prod.fst).Nodup
  began : ∀ i ∈ E.map Prod.fst, i ∈ S

namespace Booked

variable {S : List Nat} {E : List (Nat × Ending)} {i : Nat}

theorem start (b : Booked S E) (new : i ∉ S) : Booked (S ++ [i]) E :=
  ⟨b.startedOnce.append (List.nodup_singleton i) (by simpa using new), b.endedOnce,
    fun j member => List.mem_append_left _ (b.began j member)⟩

theorem stop (b : Booked S E) (started : i ∈ S) (going : i ∉ E.map Prod.fst) (e : Ending) :
    Booked S (E ++ [(i, e)]) := by
  refine ⟨b.startedOnce, ?_, fun j member => ?_⟩ <;> rw [List.map_append] at *
  · exact b.endedOnce.append (List.nodup_singleton i) (by simpa using going)
  · rcases List.mem_append.1 member with old | new
    · exact b.began j old
    · obtain rfl := List.mem_singleton.1 new
      exact started

theorem underway_add (b : Booked S E) : Network.underway S E + E.length = S.length := by
  have ended : S.countP (· ∈ E.map Prod.fst) = E.length := by
    have named : (E.map Prod.fst).length = E.length := List.length_map Prod.fst
    rw [List.countP_eq_length_filter, ← named]
    refine List.Perm.length_eq ((List.perm_ext_iff_of_nodup (b.startedOnce.filter _)
      b.endedOnce).2 fun i => ?_)
    rw [List.mem_filter, decide_eq_true_iff]
    exact ⟨And.right, fun ended => ⟨b.began i ended, ended⟩⟩
  rw [Network.underway, ← ended, S.length_eq_countP_add_countP (· ∈ E.map Prod.fst), Nat.add_comm]
  simp

end Booked

namespace Network

variable {n n' : Network} {S S' : List Nat} {E E' : List (Nat × Ending)} {i : Nat} {s : Stage}
  {a : Action} {actions : List Action}

/-! ## What holds after each action -/

/-- What the stages and the counters say. -/
structure Told (n : Network) (S : List Nat) (E : List (Nat × Ending)) : Prop where
  booked : Booked S E
  known : ∀ i ∈ S, i < n.stages.next
  kept : ∀ i ∈ S, i ∉ E.map Prod.fst → n.stages.contains i
  named : ∀ (i : Nat) s, n.stages.get? i = some s → s.nameFault? = none
  tells : ∀ (i : Nat) s, n.stages.get? i = some s → s.Shows S E i
  counted : n.hub.counters.ofStages =
    (.ofNat S.length, .ofNat S.length - .ofNat (E.countP (!·.2.isFaulted)),
      .ofNat (E.countP (!·.2.isFaulted)))

theorem ofStages_eq_iff {c : Counters} {begun running past : UInt64} :
    c.ofStages = (begun, running, past) ↔
      c.stagesStarted = begun ∧ c.stagesRunning = running ∧ c.stagesTerminated = past := by
  simp [Counters.ofStages]

theorem ofStages_terminated {c d : Counters} (same : c.ofStages = d.ofStages) :
    (c.record .stageTerminated).ofStages = (d.record .stageTerminated).ofStages := by
  obtain ⟨begun, running, past⟩ := ofStages_eq_iff.1 same
  exact ofStages_eq_iff.2 ⟨begun, congrArg (· - 1) running, congrArg (· + 1) past⟩

namespace Told

theorem quiet (t : n.Told S E) (stages : n'.stages = n.stages)
    (counters : n'.hub.counters.ofStages = n.hub.counters.ofStages) : n'.Told S E := by
  refine ⟨t.booked, ?_, ?_, ?_, ?_, counters.trans t.counted⟩ <;> rw [stages]
  · exact t.known
  · exact t.kept
  · exact t.named
  · exact t.tells

theorem change (t : n.Told S E) (i : Nat) (booked : Booked S' E')
    (started : ∀ j, j ≠ i → (j ∈ S' ↔ j ∈ S))
    (ended : ∀ j, j ≠ i → ∀ e, (j, e) ∈ E' ↔ (j, e) ∈ E)
    (others : ∀ (j : Nat), j ≠ i → n'.stages.get? j = n.stages.get? j)
    (next : n.stages.next ≤ n'.stages.next)
    (known : i ∈ S' → i < n'.stages.next)
    (kept : i ∈ S' → i ∉ E'.map Prod.fst → n'.stages.contains i)
    (here : ∀ u, n'.stages.get? i = some u → u.nameFault? = none ∧ u.Shows S' E' i)
    (counted : n'.hub.counters.ofStages =
      (.ofNat S'.length, .ofNat S'.length - .ofNat (E'.countP (!·.2.isFaulted)),
        .ofNat (E'.countP (!·.2.isFaulted)))) : n'.Told S' E' := by
  have past : ∀ j, j ≠ i → (j ∈ E'.map Prod.fst ↔ j ∈ E.map Prod.fst) := by
    intro j other
    simp only [List.mem_map, Prod.exists, exists_and_right, exists_eq_right]
    exact exists_congr (ended j other)
  refine ⟨booked, fun j member => ?_, fun j member going => ?_, fun j u found => ?_,
    fun j u found => ?_, counted⟩ <;> by_cases same : j = i
  · exact same ▸ known (same ▸ member)
  · exact Nat.lt_of_lt_of_le (t.known j ((started j same).1 member)) next
  · exact same ▸ kept (same ▸ member) (same ▸ going)
  · rw [Table.contains, others j same]
    exact t.kept j ((started j same).1 member) (mt (past j same).2 going)
  · exact (here u (same ▸ found)).1
  · exact t.named j u (others j same ▸ found)
  · exact same ▸ (here u (same ▸ found)).2
  · cases t.tells j u (others j same ▸ found) with
    | idle new state thread => exact .idle (mt (started j same).1 new) state thread
    | running began going state thread =>
      exact .running ((started j same).2 began) (mt (past j same).1 going) state thread
    | past finished state thread => exact .past ((ended j same _).2 finished) state thread

theorem build (t : n.Told S E) (stages : n'.stages = (n.stages.insert s).2)
    (counters : n'.hub.counters.ofStages = n.hub.counters.ofStages) (named : s.nameFault? = none)
    (state : s.state = .idle) (thread : s.thread = .unstarted) : n'.Told S E := by
  have new : n.stages.next ∉ S := fun member => Nat.lt_irrefl _ (t.known _ member)
  refine t.change n.stages.next t.booked (fun _ _ => Iff.rfl) (fun _ _ _ => Iff.rfl)
    (fun j other => ?_) ?_ (fun member => absurd member new) (fun member => absurd member new)
    (fun u found => ?_) (counters.trans t.counted)
  · rw [stages, Table.get?_insert, if_neg other]
  · rw [stages]
    exact Nat.le_succ _
  · rw [stages, Table.get?_insert, if_pos rfl] at found
    obtain rfl := Option.some.inj found
    exact ⟨named, .idle new state thread⟩

theorem of_running (t : n.Told S E) (found : n.stages.get? i = some s) (runs : s.thread = .running) :
    i ∈ S ∧ i ∉ E.map Prod.fst ∧ s.state = .running := by
  cases t.tells i s found with
  | idle _ _ thread => exact nomatch thread.symm.trans runs
  | running started going state _ => exact ⟨started, going, state⟩
  | @past e _ _ thread =>
    rcases thread with ended | gone
    · cases e <;> exact nomatch ended.symm.trans runs
    · exact nomatch gone.symm.trans runs

theorem of_idle (t : n.Told S E) (found : n.stages.get? i = some s) (idle : s.state = .idle) :
    i ∉ S := by
  cases t.tells i s found with
  | idle new _ _ => exact new
  | running _ _ state _ => exact nomatch idle.symm.trans state
  | @past e _ state _ => cases e <;> exact nomatch idle.symm.trans state

theorem modify (t : n.Told S E) {f : Stage → Stage} (found : n.stages.get? i = some s)
    (booked : Booked S' E') (started : ∀ j, j ≠ i → (j ∈ S' ↔ j ∈ S))
    (ended : ∀ j, j ≠ i → ∀ e, (j, e) ∈ E' ↔ (j, e) ∈ E)
    (stages : n'.stages = n.stages.modify i f) (name : (f s).name = s.name)
    (here : (f s).Shows S' E' i)
    (counted : n'.hub.counters.ofStages =
      (.ofNat S'.length, .ofNat S'.length - .ofNat (E'.countP (!·.2.isFaulted)),
        .ofNat (E'.countP (!·.2.isFaulted)))) : n'.Told S' E' := by
  have there : n'.stages.get? i = some (f s) := by
    rw [stages, Table.get?_modify, if_pos rfl, found]
    rfl
  refine t.change i booked started ended (fun j other => ?_) ?_ (fun _ => Table.get?_lt there)
    (fun _ _ => ?_) (fun u found' => ?_) counted
  · rw [stages, Table.get?_modify, if_neg other]
  · rw [stages]
    exact Nat.le_refl _
  · rw [Table.contains, there]
    rfl
  · obtain rfl := Option.some.inj (there.symm.trans found')
    exact ⟨Stage.nameFault?_congr name ▸ t.named i s found, here⟩

theorem start (t : n.Told S E) (found : n.stages.get? i = some s) (idle : s.state = .idle)
    (stages : n'.stages = n.stages.modify i ({ · with state := .running, thread := .running }))
    (counters : n'.hub.counters = n.hub.counters.record .stageStarted) : n'.Told (S ++ [i]) E := by
  have new := t.of_idle found idle
  have going : i ∉ E.map Prod.fst := mt (t.booked.began i) new
  refine t.modify found (t.booked.start new) (fun j other => by simp [other])
    (fun _ _ _ => Iff.rfl) stages rfl (.running (by simp) going rfl rfl) ?_
  obtain ⟨begun, running, past⟩ := ofStages_eq_iff.1 t.counted
  refine ofStages_eq_iff.2 ?_
  rw [counters, List.length_append, List.length_singleton, UInt64.ofNat_add]
  refine ⟨congrArg (· + 1) begun, ?_, past⟩
  change n.hub.counters.stagesRunning + 1 = _
  rw [running]
  grind

theorem stop (t : n.Told S E) (found : n.stages.get? i = some s) (runs : s.thread = .running)
    (e : Ending)
    (stages : n'.stages = n.stages.modify i ({ · with state := e.state, thread := e.thread }))
    (counters : n'.hub.counters.ofStages =
      (if e.isFaulted then n.hub.counters else n.hub.counters.record .stageTerminated).ofStages) :
    n'.Told S (E ++ [(i, e)]) := by
  obtain ⟨started, going, -⟩ := t.of_running found runs
  refine t.modify found (t.booked.stop started going e) (fun _ _ => Iff.rfl)
    (fun j other _ => by simp [other]) stages rfl (.past (by simp) rfl (.inl rfl)) ?_
  refine counters.trans ?_
  rw [List.countP_append, UInt64.ofNat_add]
  cases e with
  | faulted fault => exact t.counted.trans (by simp [Ending.isFaulted])
  | stopped reason =>
    obtain ⟨begun, running, past⟩ := ofStages_eq_iff.1 t.counted
    refine ofStages_eq_iff.2 ⟨begun, ?_, congrArg (· + 1) past⟩
    change n.hub.counters.stagesRunning - 1 = _
    rw [running]
    simp [Ending.isFaulted]
    grind

theorem advance (t : n.Told S E) (found : n.stages.get? i = some s) {loop : Loop}
    (stages : n'.stages = n.stages.modify i ({ · with loop }))
    (counters : n'.hub.counters.ofStages = n.hub.counters.ofStages) : n'.Told S E := by
  refine t.modify found t.booked (fun _ _ => Iff.rfl) (fun _ _ _ => Iff.rfl) stages rfl ?_
    (counters.trans t.counted)
  cases t.tells i s found with
  | idle new state thread => exact .idle new state thread
  | running started going state thread => exact .running started going state thread
  | past ended state thread => exact .past ended state thread

theorem join (t : n.Told S E) (found : n.stages.get? i = some s) {e : Ending}
    (thread : s.thread = e.thread)
    (stages : n'.stages = n.stages.modify i ({ · with thread := .gone }))
    (counters : n'.hub.counters.ofStages = n.hub.counters.ofStages) : n'.Told S E := by
  refine t.modify found t.booked (fun _ _ => Iff.rfl) (fun _ _ _ => Iff.rfl) stages rfl ?_
    (counters.trans t.counted)
  cases t.tells i s found with
  | idle _ _ fresh => cases e <;> exact nomatch fresh.symm.trans thread
  | running _ _ _ runs => cases e <;> exact nomatch runs.symm.trans thread
  | past ended state _ => exact .past ended state (.inr rfl)

theorem drop (t : n.Told S E) (found : n.stages.get? i = some s) (idle : s.thread ≠ .running)
    (stages : n'.stages = n.stages.erase i)
    (counters : n'.hub.counters.ofStages = n.hub.counters.ofStages) : n'.Told S E := by
  have gone : n'.stages.get? i = none := by rw [stages, Table.get?_erase, if_pos rfl]
  refine t.change i t.booked (fun _ _ => Iff.rfl) (fun _ _ _ => Iff.rfl) (fun j other => ?_) ?_
    (fun _ => ?_) (fun started going => ?_) (fun u found' => ?_) (counters.trans t.counted)
  · rw [stages, Table.get?_erase, if_neg other]
  · rw [stages]
    exact Nat.le_refl _
  · rw [stages, Table.erase_next]
    exact Table.get?_lt found
  · cases t.tells i s found with
    | idle new _ _ => exact absurd started new
    | running _ _ _ runs => exact absurd runs idle
    | past ended _ _ => exact absurd (List.mem_map_of_mem ended) going
  · exact nomatch gone.symm.trans found'

end Told

/-! ## Actions that are about no thread -/

theorem ofStages_letGo (n : Network) (primary : Nat) (gates : List Nat) :
    (n.letGo primary gates).hub.counters.ofStages = n.hub.counters.ofStages := by
  have dropped : ∀ (l : List Nat) (h : Hub),
      (l.foldl Hub.dropSubscription h).counters.ofStages = h.counters.ofStages := by
    intro l
    induction l with
    | nil => exact fun _ => rfl
    | cons s l ih =>
      intro h
      have kept : (h.apply (.dropSubscription s)).counters.ofStages = h.counters.ofStages :=
        Hub.ofStages_apply nofun
      exact (ih _).trans kept
  exact dropped _ n.hub

theorem newAggregator_refused {name : String} {capacity primary : Nat} {gates : List Nat}
    {factory : Payload.Factory} {transform : Transform} {failure : Failure}
    (refused : n.newAggregator name capacity factory primary gates transform =
      (.error failure, n')) : n' = n.letGo primary gates := by
  rw [newAggregator] at refused
  split at refused
  · exact (Prod.mk.inj refused).2.symm
  · cases refused

theorem newSink_refused {name : String} {description : Description} {buffers source : Nat}
    {dependents : List Nat} {collect : Transform} {failure : Failure}
    (refused : n.newSink name description buffers source dependents collect =
      (.error failure, n')) :
    ∃ log, n' = letGo { n with hub := { n.hub with log } } source dependents := by
  rw [newSink] at refused
  split at refused
  · exact ⟨n.hub.log, (Prod.mk.inj refused).2.symm⟩
  split at refused
  · exact ⟨_, (Prod.mk.inj refused).2.symm⟩
  split at refused
  · exact ⟨_, (Prod.mk.inj refused).2.symm⟩
  split at refused
  · rename_i again
    obtain ⟨-, rfl⟩ := Prod.mk.inj refused
    exact ⟨n.hub.log, newAggregator_refused again⟩
  · cases refused

theorem Told.newStage (t : n.Told S E) {name : String} {outlet : Nat} {loop : Loop} {hub : Hub}
    (named : ∀ c ∈ name.toList, c ≠ '\x00') (counters : hub.counters = n.hub.counters) :
    Told ⟨hub, (n.stages.insert { name, outlet, loop }).2⟩ S E :=
  t.build rfl (congrArg Counters.ofStages counters) (Stage.nameFault?_eq_none named) rfl rfl

theorem running?_eq_some :
    n.running? i = some s ↔ n.stages.get? i = some s ∧ s.thread = .running := by
  simp only [running?, bind, Option.bind_eq_some_iff]
  constructor
  · rintro ⟨u, found, same⟩
    split at same
    · rename_i runs
      obtain rfl := Option.some.inj same
      exact ⟨found, runs⟩
    · exact nomatch same
  · rintro ⟨found, runs⟩
    exact ⟨s, found, by rw [runs]⟩

theorem advanceStage?_eq_none (idle : n.running? i = none) : n.advanceStage? i = none := by
  rw [advanceStage?]
  cases found : n.stages.get? i with
  | none => rfl
  | some s =>
    dsimp only
    split
    · rename_i runs
      rw [running?_eq_some.2 ⟨found, runs⟩] at idle
      exact nomatch idle
    · rfl

/-! ## What is about one stage leaves the others as they are -/

section Others

variable {j : Nat} (apart : j ≠ i)

include apart

theorem start_other (n : Network) : (n.start i).2.stages.get? j = n.stages.get? j := by
  rw [start]
  split
  · rfl
  · split
    · split <;> exact (Table.get?_modify _ _ _ _).trans (if_neg apart)
    · rfl

theorem join_other (n : Network) : (n.join i).2.stages.get? j = n.stages.get? j := by
  rw [join]
  split
  · rfl
  · dsimp only
    split <;> first | rfl | exact (Table.get?_modify _ _ _ _).trans (if_neg apart)

theorem dropStage_other (n : Network) : (n.dropStage i).stages.get? j = n.stages.get? j := by
  rw [dropStage]
  split
  · rfl
  · dsimp only
    split <;> exact (Table.get?_erase _ _ _).trans (if_neg apart)

theorem advanceStage?_other (step : n.advanceStage? i = some n') :
    n'.stages.get? j = n.stages.get? j := by
  rw [advanceStage?] at step
  split at step
  · cases step
  · split at step
    · split at step <;> cases step <;> exact (Table.get?_modify _ _ _ _).trans (if_neg apart)
    · cases step

end Others

/-! ## Actions that start, end and drop threads -/

theorem Told.act_start (t : n.Told S E) (stage : Nat) :
    (n.act (.start stage)).Told (S ++ (n.started? (.start stage)).toList) E := by
  rw [Network.act, Network.start]
  simp only [started?, state?]
  cases found : n.stages.get? stage with
  | none => simpa using t
  | some s =>
    dsimp only [Option.map_some, Option.bind_some]
    split
    · rename_i idle
      rw [t.named stage s found]
      exact t.start found idle rfl rfl
    · exact (List.append_nil S).symm ▸ t.quiet rfl rfl

theorem Told.act_join (t : n.Told S E) (stage : Nat) : (n.act (.join stage)).Told S E := by
  rw [Network.act, Network.join]
  cases found : n.stages.get? stage with
  | none => exact t
  | some s =>
    cases thread : s.thread with
    | unstarted | gone | running => simpa only [thread] using t
    | ended reason =>
      simp only [thread]
      exact t.join found (e := .stopped reason) thread rfl rfl
    | faulted fault =>
      simp only [thread]
      exact t.join found (e := .faulted fault) thread rfl rfl

theorem Told.act_dropStage (t : n.Told S E) (stage : Nat) :
    (n.act (.dropStage stage)).Told S E := by
  rw [Network.act]
  split
  · exact t
  · rename_i unjoined
    rw [Network.dropStage]
    cases found : n.stages.get? stage with
    | none => exact t
    | some s =>
      have ended : s.thread ≠ .running := fun runs =>
        unjoined (by rw [running?_eq_some.2 ⟨found, runs⟩]; rfl)
      refine t.drop found ended ?_ ?_
      · dsimp only
        split <;> rfl
      · dsimp only
        split
        · exact s.loop.ofStages_close n.hub
        · rfl
        · rfl

theorem Told.act_advance (t : n.Told S E) (stage : Nat) :
    (n.act (.advance stage)).Told S (E ++ (n.ended? (.advance stage)).toList) := by
  rw [Network.act, ended?]
  cases runs : n.running? stage with
  | none =>
    rw [advanceStage?_eq_none runs]
    exact (List.append_nil E).symm ▸ t
  | some s =>
    obtain ⟨found, thread⟩ := running?_eq_some.1 runs
    have kept : ∀ h', (s.loop.advance n.hub).hub? = some h' →
        h'.counters.ofStages = n.hub.counters.ofStages := fun _ => s.loop.ofStages_advance
    have closed : ∀ h', (s.loop.advance n.hub).hub? = some h' →
        (s.loop.close h').counters.ofStages = n.hub.counters.ofStages := fun h' step =>
      (s.loop.ofStages_close h').trans (kept h' step)
    simp only [advanceStage?, found, thread, bind, Option.bind]
    cases progress : s.loop.advance n.hub with
    | blocked => exact (List.append_nil E).symm ▸ t
    | running h' loop =>
      rw [progress] at kept
      exact (List.append_nil E).symm ▸ t.advance found rfl (kept h' rfl)
    | stopped h' reason =>
      rw [progress] at closed
      exact t.stop found thread (.stopped reason) rfl (ofStages_terminated (closed h' rfl))
    | faulted h' fault =>
      rw [progress] at closed
      have stays : n.stages.modify stage ({ · with thread := .faulted fault }) =
          n.stages.modify stage ({ · with state := .running, thread := .faulted fault }) := by
        refine Table.modify_congr fun u here => ?_
        obtain rfl := Option.some.inj (found.symm.trans here)
        rw [← (t.of_running found thread).2.2]
      exact t.stop found thread (.faulted fault) stays (closed h' rfl)

theorem Told.act (t : n.Told S E) (proper : a.Proper) :
    (n.act a).Told (S ++ (n.started? a).toList) (E ++ (n.ended? a).toList) := by
  cases a with
  | hub op =>
    simp only [started?, ended?, Option.toList_none, List.append_nil]
    exact t.quiet rfl (Hub.ofStages_apply proper)
  | newRelay name capacity factory fill =>
    simp only [started?, ended?, Option.toList_none, List.append_nil]
    rw [Network.act]
    split
    · exact t
    · rename_i made
      obtain ⟨pool, log, -, -, rfl⟩ := newRelay_eq_ok made
      exact t.newStage proper rfl
  | newAggregator name capacity factory primary gates transform =>
    simp only [started?, ended?, Option.toList_none, List.append_nil]
    rw [Network.act]
    rcases made : n.newAggregator name capacity factory primary gates transform with ⟨_ | _, n'⟩
    · obtain rfl := newAggregator_refused made
      exact t.quiet rfl (ofStages_letGo n primary gates)
    · obtain ⟨pool, log, -, -, rfl⟩ := newAggregator_eq_ok made
      exact t.newStage proper rfl
  | newSink name description buffers source dependents collect =>
    simp only [started?, ended?, Option.toList_none, List.append_nil]
    rw [Network.act]
    rcases made : n.newSink name description buffers source dependents collect with ⟨_ | _, n'⟩
    · obtain ⟨log, rfl⟩ := newSink_refused made
      exact t.quiet rfl (ofStages_letGo _ source dependents)
    · obtain ⟨pool, log, -, -, rfl⟩ := newSink_eq_ok made
      exact t.newStage proper rfl
  | subscribe stage erased =>
    simp only [started?, ended?, Option.toList_none, List.append_nil]
    have kept : ∀ op : Operation, (∀ counters log, op ≠ .tally counters log) →
        (n.hub.apply op).counters.ofStages = n.hub.counters.ofStages := fun op untallied =>
      Hub.ofStages_apply untallied
    refine t.quiet rfl ?_
    rw [Network.act, Network.subscribe]
    cases n.stages.get? stage with
    | none => exact kept (.subscribeDetached erased) nofun
    | some s => exact kept (.subscribe s.outlet erased) nofun
  | start stage =>
    simp only [ended?, Option.toList_none, List.append_nil]
    exact t.act_start stage
  | join stage =>
    simp only [started?, ended?, Option.toList_none, List.append_nil]
    exact t.act_join stage
  | dropStage stage =>
    simp only [started?, ended?, Option.toList_none, List.append_nil]
    exact t.act_dropStage stage
  | advance stage =>
    simp only [started?, Option.toList_none, List.append_nil]
    exact t.act_advance stage

theorem Told.actAll (t : n.Told S E) (proper : ∀ a ∈ actions, a.Proper) :
    (n.actAll actions).Told (S ++ n.starts actions) (E ++ n.endings actions) := by
  induction actions generalizing n S E with
  | nil =>
    rw [starts, endings, List.append_nil, List.append_nil]
    exact t
  | cons a actions ih =>
    rw [starts, endings, ← List.append_assoc, ← List.append_assoc]
    exact ih (t.act (proper a List.mem_cons_self)) fun b member =>
      proper b (List.mem_cons_of_mem _ member)

theorem Told.empty : ({} : Network).Told [] [] where
  booked := ⟨List.nodup_nil, List.nodup_nil, fun _ => nofun⟩
  known _ := nofun
  kept _ := nofun
  named _ _ found := by simp at found
  tells _ _ found := by simp at found
  counted := rfl

theorem told_actAll (proper : ∀ a ∈ actions, a.Proper) :
    (({} : Network).actAll actions).Told (({} : Network).starts actions)
      (({} : Network).endings actions) := by
  simpa using Told.empty.actAll proper

/-! ## After a run -/

/-- A thread that has ended is not said to run, and as many are said to run as have not ended. -/
def Reflected (n : Network) (S : List Nat) (E : List (Nat × Ending)) : Prop :=
  (∀ i ∈ E.map Prod.fst, n.state? i ≠ some .running) ∧
    n.hub.counters.stagesRunning = .ofNat (underway S E)

/-- A stage whose thread runs is in state running, and one that stopped tells its termination. A
stage whose function faulted stays in state running and in the gauge of running stages for good.
Without a fault both are exact. -/
theorem running_counts_faulted (actions : List Action) (proper : ∀ a ∈ actions, a.Proper) :
    let n := ({} : Network).actAll actions
    let S := ({} : Network).starts actions
    let E := ({} : Network).endings actions
    (∀ i ∈ S, i ∉ E.map Prod.fst → n.state? i = some .running) ∧
    (∀ i reason, (i, .stopped reason) ∈ E →
      ∀ state, n.state? i = some state → state = .terminated reason) ∧
    (∀ i fault, (i, .faulted fault) ∈ E → ∀ state, n.state? i = some state → state = .running) ∧
    n.hub.counters.stagesRunning = .ofNat (underway S E + E.countP (·.2.isFaulted)) ∧
    ((∀ x ∈ E, ¬ x.2.isFaulted) → n.Reflected S E) := by
  intro n S E
  have t : n.Told S E := told_actAll proper
  have told : ∀ i e, (i, e) ∈ E → ∀ state, n.state? i = some state → state = e.state := by
    intro i e ended state shown
    obtain ⟨s, found, rfl⟩ := Option.map_eq_some_iff.1 shown
    have past : i ∈ E.map Prod.fst := List.mem_map_of_mem ended
    cases t.tells i s found with
    | idle new _ _ => exact absurd (t.booked.began i past) new
    | running _ going _ _ => exact absurd past going
    | past ended' state _ =>
      have same := List.inj_on_of_nodup_map t.booked.endedOnce ended ended' rfl
      rw [state, (Prod.mk.inj same).2]
  have counted : n.hub.counters.stagesRunning =
      .ofNat (underway S E + E.countP (·.2.isFaulted)) := by
    have stops : E.length = E.countP (·.2.isFaulted) + E.countP (!·.2.isFaulted) := by
      simpa using E.length_eq_countP_add_countP (·.2.isFaulted)
    rw [(ofStages_eq_iff.1 t.counted).2.1, ← t.booked.underway_add, stops, ← Nat.add_assoc,
      UInt64.ofNat_add, UInt64.add_sub_cancel]
  refine ⟨fun i started going => ?_, fun i reason ended => told i _ ended,
    fun i fault ended => told i _ ended, counted, fun sane => ⟨fun i past running => ?_, ?_⟩⟩
  · obtain ⟨s, found⟩ := Option.isSome_iff_exists.1 (t.kept i started going)
    rw [state?, found]
    cases t.tells i s found with
    | idle new _ _ => exact absurd started new
    | running _ _ state _ => exact congrArg some state
    | past ended _ _ => exact absurd (List.mem_map_of_mem ended) going
  · obtain ⟨⟨_, e⟩, ended, rfl⟩ := List.mem_map.1 past
    have state := told _ e ended _ running
    cases e with
    | stopped reason => exact nomatch state
    | faulted fault => exact sane _ ended rfl
  · rw [counted, List.countP_eq_zero.2 sane, Nat.add_zero]

def faultingRelay : List Action :=
  [.newRelay "camera" 1 Payload.Shape.signal.factory (Filler.idle.faultAt (some 0)), .start 0,
    .advance 0, .advance 0]

theorem proper_faultingRelay : ∀ a ∈ faultingRelay, a.Proper := by
  simp only [faultingRelay, List.forall_mem_cons, Action.Proper]
  exact ⟨by simp, trivial, trivial, trivial, nofun⟩

/-- The thread of the relay has ended, and its state and the gauge say that it runs. -/
theorem unreflected_after_fault :
    (∀ a ∈ faultingRelay, a.Proper) ∧ ¬ (({} : Network).actAll faultingRelay).Reflected
      (({} : Network).starts faultingRelay) (({} : Network).endings faultingRelay) := by
  refine ⟨proper_faultingRelay, fun reflected => ?_⟩
  have running : (({} : Network).actAll faultingRelay).state? 0 = some .running := by decide +kernel
  have ended : 0 ∈ (({} : Network).endings faultingRelay).map Prod.fst := by decide +kernel
  exact reflected.1 0 ended running

/-- Beside the relay that faulted another one runs, and the gauge counts two. -/
theorem running_counts_faulted_beside : ∃ actions : List Action,
    actions = faultingRelay ++ [.newRelay "door" 1 Payload.Shape.signal.factory Filler.idle, .start 1] ∧
    (∀ a ∈ actions, a.Proper) ∧
    underway (({} : Network).starts actions) (({} : Network).endings actions) = 1 ∧
    (({} : Network).actAll actions).hub.counters.stagesRunning = 2 ∧
    (({} : Network).actAll actions).state? 0 = some .running := by
  have proper : ∀ a ∈ faultingRelay ++
      [.newRelay "door" 1 Payload.Shape.signal.factory Filler.idle, .start 1], a.Proper := by
    rw [List.forall_mem_append]
    refine ⟨proper_faultingRelay, ?_⟩
    simp only [List.forall_mem_cons, Action.Proper]
    exact ⟨by simp, trivial, nofun⟩
  obtain ⟨-, -, -, counted, -⟩ := running_counts_faulted _ proper
  refine ⟨_, rfl, proper, by decide +kernel, counted.trans (by decide +kernel), by decide +kernel⟩

end Network

end BufferFlow
