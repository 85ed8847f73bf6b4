import BufferFlow.Proofs.Stage.Kit
import BufferFlow.Stage

set_option autoImplicit false

namespace BufferFlow

namespace AggregatorLoop

variable {h₀ h h' : Hub} {l l' : AggregatorLoop} {ops : List Operation}

/-- Everything that was published so far is derived from the sources, in order. -/
def Recorded (l : AggregatorLoop) (h₀ : Hub) (ops : List Operation) : Prop :=
  ∀ (j : Nat) pub, (h₀.publishedBy l.publisher ops)[j]? = some pub →
    l.Derived h₀ ops j pub.payload

theorem Recorded.mono {more : List Operation} (recorded : l.Recorded h₀ ops)
    (quiet : h₀.publishedBy l.publisher (ops ++ more) = h₀.publishedBy l.publisher ops) :
    l.Recorded h₀ (ops ++ more) := by
  intro j pub hpub
  rw [quiet] at hpub
  exact (recorded j pub hpub).mono more

theorem requests_quiet (unready : ∀ blank, l.phase ≠ .publishing blank) :
    ∀ op ∈ l.requests h, ∀ p blank, op ≠ .publish p blank := by
  have turn := l.advance_turn h
  generalize l.advance h = progress at turn
  generalize l.requests h = asked at turn ⊢
  rintro op hop p blank rfl
  cases turn with
  | armed | waits | lacks => exact absurd hop List.not_mem_nil
  | arms | acquires => simp at hop
  | abandons => simp at hop
  | takes =>
    rcases List.mem_cons.1 hop with heq | hop
    · exact Operation.noConfusion heq
    · exact False.elim (takeRequests_empties _ hop)
  | starves => simp at hop
  | transforms | faults => simp at hop
  | publishes phase | unheard phase => exact unready _ phase

theorem stopped_quiet {reason : Termination} (step : l.advance h = .stopped h' reason)
    (heard : reason ≠ .noListeners) : ∀ op ∈ l.requests h, ∀ p blank, op ≠ .publish p blank := by
  refine requests_quiet fun blank publishing => ?_
  rcases advance_stopped step with ⟨_, _, phase, -⟩ | ⟨_, _, phase, -⟩ | ⟨_, -, -, unheard⟩
  · exact nomatch phase.symm.trans publishing
  · exact nomatch phase.symm.trans publishing
  · exact heard unheard

theorem InRound.calls_eq (r : l.InRound h₀ ops) {reason : Termination}
    (step : l.advance (h₀.applyAll ops) = .stopped h' reason) (heard : reason ≠ .noListeners) :
    l.calls = l.round h₀ ops := by
  have waiting : ∃ cells, l.phase = .waiting cells := by
    rcases advance_stopped step with ⟨_, _, phase, -⟩ | ⟨_, _, phase, -⟩ | ⟨_, -, -, unheard⟩
    · exact ⟨_, phase⟩
    · exact ⟨_, phase⟩
    · exact absurd unheard heard
  obtain ⟨cells, phase⟩ := waiting
  have prepared := r.prepared
  rw [phase] at prepared
  exact prepared.1.symm

theorem InRound.recorded_requests (r : l.InRound h₀ ops) :
    l.Recorded h₀ (ops ++ l.requests (h₀.applyAll ops)) := by
  cases phase : l.phase with
  | publishing blank =>
    rw [requests, phase]
    exact (r.published phase).1.derived
  | _ =>
    have recorded : l.Recorded h₀ ops := r.engaged.derived
    refine recorded.mono (Hub.publishedBy_quiet_all fun op hop => ?_)
    exact requests_quiet (by simp [phase]) op hop l.publisher

theorem advance_gains (step : l.advance h = .running h' l') :
    (∀ cell ∈ l'.phase.cells, cell ∈ l.phase.cells ∨ cell = h.cells.next) ∧
      ∀ b, l'.phase.blank? = some b →
        l.phase.blank? = some b ∨ h.poolOf? l.publisher = some b.pool := by
  have turn := l.advance_turn h
  generalize l.requests h = asked at turn
  generalize l.advance h = progress at step turn
  cases turn with
  | armed phase =>
    obtain ⟨-, rfl⟩ := Progress.running.inj step
    rw [phase]
    exact ⟨fun cell hc => .inl hc, fun b hb => by simp [AggregatorPhase.blank?] at hb⟩
  | @arms cells source phase next =>
    obtain ⟨-, rfl⟩ := Progress.running.inj step
    rw [phase]
    refine ⟨fun cell hc => ?_, fun b hb => by simp [AggregatorPhase.blank?] at hb⟩
    rcases List.mem_append.1 hc with hc | hc
    · exact .inl hc
    · have new : (h.arm source l.mailbox).1 = h.cells.next :=
        (Hub.arm_cases h source l.mailbox).1.trans (by rw [Hub.cells_cancel])
      exact .inr ((List.mem_singleton.1 hc).trans new)
  | takes =>
    obtain ⟨source, rfl⟩ := take_running step
    exact ⟨fun cell hc => absurd hc List.not_mem_nil, fun b hb => by
      simp [AggregatorPhase.blank?] at hb⟩
  | @acquires source blank pool g phase named taken =>
    obtain ⟨-, rfl⟩ := Progress.running.inj step
    refine ⟨fun cell hc => absurd hc List.not_mem_nil, fun b hb => .inr ?_⟩
    obtain rfl := Option.some.inj hb
    obtain ⟨p, free, -, -, same, -⟩ := Hub.acquire?_eq_some taken
    rw [named, same]
  | transforms phase =>
    obtain ⟨-, rfl⟩ := Progress.running.inj step
    rw [phase]
    exact ⟨fun cell hc => absurd hc List.not_mem_nil, fun b hb => .inl hb⟩
  | publishes =>
    obtain ⟨-, rfl⟩ := Progress.running.inj step
    exact ⟨fun cell hc => absurd hc List.not_mem_nil, fun b hb => by
      simp [AggregatorPhase.blank?] at hb⟩
  | _ => simp at step

end AggregatorLoop

namespace RelayLoop

variable {h₀ : Hub} {l : RelayLoop} {ops : List Operation}

theorem Filled.mono {more : List Operation} (filled : l.Filled h₀ ops)
    (quiet : h₀.publishedBy l.publisher (ops ++ more) = h₀.publishedBy l.publisher ops) :
    l.Filled h₀ (ops ++ more) := by
  rw [Filled, quiet]
  exact filled

theorem InRound.filled_requests (r : l.InRound h₀ ops) :
    l.Filled h₀ (ops ++ l.requests (h₀.applyAll ops)) := by
  obtain ⟨linked, prepared⟩ := r
  have turn := l.advance_turn (h₀.applyAll ops)
  generalize l.advance (h₀.applyAll ops) = progress at turn
  generalize l.requests (h₀.applyAll ops) = asked at turn ⊢
  cases turn with
  | publishes phase | overruns phase | unheard phase =>
    rw [phase] at prepared
    obtain ⟨owned, payload, old, shown, filled⟩ := prepared
    exact (linked.published owned shown filled).1
  | _ => exact linked.filled.mono (Hub.publishedBy_quiet_all fun op hop => by
      rintro blank rfl
      simp at hop)

end RelayLoop

namespace Progress

variable {α β : Type} {f : α → β} {p : Progress α} {h : Hub}

def map (f : α → β) : Progress α → Progress β
  | blocked => blocked
  | running h a => running h (f a)
  | stopped h reason => stopped h reason
  | faulted h fault => faulted h fault

theorem hub?_map (f : α → β) (p : Progress α) : (p.map f).hub? = p.hub? := by
  cases p <;> rfl

theorem map_eq_running {b : β} (eq : p.map f = running h b) : ∃ a, p = running h a ∧ b = f a := by
  cases p with
  | running h' a =>
    obtain ⟨rfl, rfl⟩ := running.inj eq
    exact ⟨a, rfl, rfl⟩
  | _ => simp [map] at eq

theorem map_eq_stopped {reason : Termination} (eq : p.map f = stopped h reason) :
    p = stopped h reason := by
  cases p with
  | stopped h' reason' =>
    obtain ⟨rfl, rfl⟩ := stopped.inj eq
    rfl
  | _ => simp [map] at eq

theorem map_eq_faulted {fault : Fault} (eq : p.map f = faulted h fault) : p = faulted h fault := by
  cases p with
  | faulted h' fault' =>
    obtain ⟨rfl, rfl⟩ := faulted.inj eq
    rfl
  | _ => simp [map] at eq

end Progress

namespace Loop

variable {h₀ h h' : Hub} {l l' : Loop} {ops more : List Operation} {a : Kit}

def publisher : Loop → Nat
  | relay l => l.publisher
  | aggregator l => l.publisher

def sources : Loop → List Nat
  | relay _ => []
  | aggregator l => l.sources

def rounds : Loop → Nat
  | relay l => l.step.toNat
  | aggregator l => l.calls

def cells : Loop → List Nat
  | relay _ => []
  | aggregator l => l.phase.cells

def blank? : Loop → Option SlotRef
  | relay l => l.phase.blank?
  | aggregator l => l.phase.blank?

def requests : Loop → Hub → List Operation
  | relay l, h => l.requests h
  | aggregator l, h => l.requests h

def closing : Loop → List Operation
  | relay l => l.closing
  | aggregator l => l.closing

def kit : Loop → Hub → Kit
  | relay l, h => l.kit h
  | aggregator l, h => l.kit h

def reset : Loop → Loop
  | relay l => relay { publisher := l.publisher, fill := l.fill }
  | aggregator l => aggregator
      { publisher := l.publisher, primary := l.primary, gates := l.gates, transform := l.transform,
        mailbox := l.mailbox }

def InRound (l : Loop) (h₀ : Hub) (ops : List Operation) : Prop :=
  match l with
  | relay l => l.InRound h₀ ops
  | aggregator l => l.InRound h₀ ops

def Recorded (l : Loop) (h₀ : Hub) (ops : List Operation) : Prop :=
  match l with
  | relay l => l.Filled h₀ ops
  | aggregator l => l.Recorded h₀ ops

/-- The loop's publisher was there from the start, and nothing was queued for it then. Its blank is
from its publisher's pool. -/
structure Seated (l : Loop) (h₀ : Hub) : Prop where
  known : h₀.publishers.contains l.publisher
  unqueued : ∀ s ∈ l.sources, h₀.queueOf s = []
  rooted : ∀ b, l.blank? = some b → h₀.poolOf? l.publisher = some b.pool

theorem advance_relay (l : RelayLoop) (h : Hub) :
    (relay l).advance h = (l.advance h).map relay := by
  rw [advance]
  cases l.advance h <;> rfl

theorem advance_aggregator (l : AggregatorLoop) (h : Hub) :
    (aggregator l).advance h = (l.advance h).map aggregator := by
  rw [advance]
  cases l.advance h <;> rfl

theorem close_hub (l : Loop) (h : Hub) : l.close h = h.applyAll l.closing := by
  cases l with
  | relay l => rfl
  | aggregator l => exact l.close_hub h

/-! ### Others -/

theorem InRound.others (r : l.InRound h₀ ops) (seated : l.Seated h₀) (apart : a.Apart (l.kit h₀))
    (within : ∀ op ∈ more, op.Within a h₀ ops) : l.InRound h₀ (ops ++ more) := by
  cases l with
  | relay l =>
    have spares : ∀ op ∈ more, l.Spares op := fun op hop =>
      RelayLoop.spares_of_within (within op hop) apart seated.rooted
    clear within
    induction more generalizing ops with
    | nil => rwa [List.append_nil]
    | cons op more ih =>
      have first : l.InRound h₀ (ops ++ [op]) := RelayLoop.InRound.other r (spares op List.mem_cons_self)
      have rest := ih first fun op hop => spares op (List.mem_cons_of_mem _ hop)
      rwa [List.append_assoc] at rest
  | aggregator l =>
    have spares : ∀ op ∈ more, ∀ h, l.Spares h op := fun op hop =>
      AggregatorLoop.InRound.spares_of_within r (within op hop) apart seated.unqueued seated.rooted
    clear within
    induction more generalizing ops with
    | nil => rwa [List.append_nil]
    | cons op more ih =>
      have first : l.InRound h₀ (ops ++ [op]) :=
        AggregatorLoop.InRound.other r (spares op List.mem_cons_self _)
      have rest := ih first fun op hop => spares op (List.mem_cons_of_mem _ hop)
      rwa [List.append_assoc] at rest

theorem Recorded.mono (recorded : l.Recorded h₀ ops)
    (quiet : h₀.publishedBy l.publisher (ops ++ more) = h₀.publishedBy l.publisher ops) :
    l.Recorded h₀ (ops ++ more) := by
  cases l with
  | relay l => exact RelayLoop.Filled.mono recorded quiet
  | aggregator l => exact AggregatorLoop.Recorded.mono recorded quiet

/-! ### Its own steps -/

theorem InRound.hub (r : l.InRound h₀ ops) (step : (l.advance (h₀.applyAll ops)).hub? = some h') :
    h' = h₀.applyAll (ops ++ l.requests (h₀.applyAll ops)) := by
  rw [Hub.applyAll_append]
  cases l with
  | relay l =>
    rw [advance_relay, Progress.hub?_map] at step
    exact RelayLoop.advance_hub? step
  | aggregator l =>
    rw [advance_aggregator, Progress.hub?_map] at step
    exact AggregatorLoop.advance_hub? (AggregatorLoop.InRound.engaged r).joining.contains_mailbox step

theorem InRound.own (r : l.InRound h₀ ops) (step : l.advance (h₀.applyAll ops) = .running h' l') :
    l'.InRound h₀ (ops ++ l.requests (h₀.applyAll ops)) := by
  cases l with
  | relay l =>
    rw [advance_relay] at step
    obtain ⟨k, own, rfl⟩ := Progress.map_eq_running step
    exact (RelayLoop.InRound.own r own).1
  | aggregator l =>
    rw [advance_aggregator] at step
    obtain ⟨k, own, rfl⟩ := Progress.map_eq_running step
    exact (AggregatorLoop.InRound.own r own).1

theorem InRound.recorded (r : l.InRound h₀ ops) : l.Recorded h₀ ops := by
  cases l with
  | relay l => exact (RelayLoop.InRound.linked r).filled
  | aggregator l => exact (AggregatorLoop.InRound.engaged r).derived

theorem InRound.recorded_requests (r : l.InRound h₀ ops) :
    l.Recorded h₀ (ops ++ l.requests (h₀.applyAll ops)) := by
  cases l with
  | relay l => exact RelayLoop.InRound.filled_requests r
  | aggregator l => exact AggregatorLoop.InRound.recorded_requests r

theorem InRound.requests_within (r : l.InRound h₀ ops) (seated : l.Seated h₀) :
    ∀ op ∈ l.requests (h₀.applyAll ops), op.Within (l.kit h₀) h₀ ops := by
  cases l with
  | relay l => exact RelayLoop.requests_within seated.rooted
  | aggregator l => exact AggregatorLoop.InRound.requests_within r seated.unqueued seated.rooted

theorem closing_within (l : Loop) : ∀ op ∈ l.closing, op.Within (l.kit h₀) h₀ ops := by
  cases l with
  | relay l => exact List.forall_mem_singleton.2 (List.mem_singleton.2 rfl)
  | aggregator l => exact AggregatorLoop.closing_within

theorem InRound.alive (r : l.InRound h₀ ops) :
    (h₀.applyAll ops).publishers.contains l.publisher := by
  cases l with
  | relay l => exact (RelayLoop.InRound.linked r).alive
  | aggregator l => exact (AggregatorLoop.InRound.engaged r).alive

theorem InRound.cells_given (r : l.InRound h₀ ops) :
    ∀ cell ∈ l.cells, cell < (h₀.applyAll ops).cells.next := by
  cases l with
  | relay l => exact fun cell hc => absurd hc List.not_mem_nil
  | aggregator l =>
    intro cell hc
    have there := (AggregatorLoop.InRound.engaged r).joining.contains_cell hc
    obtain ⟨o, ho⟩ := Option.isSome_iff_exists.1 there
    exact Table.get?_lt ho

theorem InRound.kept (r : l.InRound h₀ ops) : ∀ s ∈ l.sources, .dropSubscription s ∉ ops := by
  cases l with
  | relay l => exact fun s hs => absurd hs List.not_mem_nil
  | aggregator l => exact (AggregatorLoop.InRound.engaged r).kept

theorem publisher_reset (l : Loop) : l.reset.publisher = l.publisher := by
  cases l <;> rfl

theorem sources_reset (l : Loop) : l.reset.sources = l.sources := by
  cases l <;> rfl

theorem kit_reset (l : Loop) (h : Hub) : l.kit h = { l.reset.kit h with cells := l.cells } := by
  cases l <;> rfl

theorem closing_eq (l : Loop) :
    l.closing = .dropPublisher l.publisher :: l.sources.map .dropSubscription := by
  cases l <;> rfl

theorem closing_cases {l : Loop} {op : Operation} (mine : op ∈ l.closing) :
    op = .dropPublisher l.publisher ∨ ∃ s ∈ l.sources, op = .dropSubscription s := by
  rw [closing_eq] at mine
  refine (List.mem_cons.1 mine).imp_right fun source => ?_
  obtain ⟨s, hs, rfl⟩ := List.mem_map.1 source
  exact ⟨s, hs, rfl⟩

theorem closing_untallied (l : Loop) :
    ∀ op ∈ l.closing, ∀ counters log, op ≠ .tally counters log := by
  intro op mine
  rcases closing_cases mine with rfl | ⟨s, -, rfl⟩ <;> exact nofun

theorem closed (given : l.publisher < h.publishers.next) :
    (h.applyAll l.closing).publishers.contains l.publisher = false := by
  rw [closing_eq, Hub.applyAll_cons]
  exact Hub.dead_applyAll (Hub.next_apply given _) (Hub.dead_dropPublisher h l.publisher) _

theorem advance_reset (step : l.advance h = .running h' l') : l'.reset = l.reset := by
  cases l with
  | relay l =>
    rw [advance_relay] at step
    obtain ⟨k, own, rfl⟩ := Progress.map_eq_running step
    obtain ⟨n, phase, rfl, -⟩ := RelayLoop.advance_keeps own
    rfl
  | aggregator l =>
    rw [advance_aggregator] at step
    obtain ⟨k, own, rfl⟩ := Progress.map_eq_running step
    obtain ⟨calls, phase, rfl⟩ := AggregatorLoop.advance_keeps own
    rfl

theorem advance_gains (step : l.advance h = .running h' l') :
    (∀ cell ∈ l'.cells, cell ∈ l.cells ∨ cell = h.cells.next) ∧
      ∀ b, l'.blank? = some b → l.blank? = some b ∨ h.poolOf? l.publisher = some b.pool := by
  cases l with
  | relay l =>
    rw [advance_relay] at step
    obtain ⟨k, own, rfl⟩ := Progress.map_eq_running step
    obtain ⟨n, phase, rfl, blank⟩ := RelayLoop.advance_keeps own
    exact ⟨fun cell hc => absurd hc List.not_mem_nil, blank⟩
  | aggregator l =>
    rw [advance_aggregator] at step
    obtain ⟨k, own, rfl⟩ := Progress.map_eq_running step
    exact AggregatorLoop.advance_gains own

theorem Seated.advance (seated : l.Seated h₀) (r : l.InRound h₀ ops)
    (step : l.advance (h₀.applyAll ops) = .running h' l') : l'.Seated h₀ := by
  have same := advance_reset step
  have publisher : l'.publisher = l.publisher := by
    rw [← l'.publisher_reset, same, l.publisher_reset]
  have sources : l'.sources = l.sources := by rw [← l'.sources_reset, same, l.sources_reset]
  obtain ⟨P, hP⟩ := Option.isSome_iff_exists.1 seated.known
  refine ⟨by rw [publisher]; exact seated.known, by rw [sources]; exact seated.unqueued,
    fun b hb => ?_⟩
  rw [publisher]
  rcases (advance_gains step).2 b hb with before | taken
  · exact seated.rooted b before
  · rw [← taken, Hub.poolOf?_applyAll (Table.get?_lt hP) r.alive]

end Loop

end BufferFlow
