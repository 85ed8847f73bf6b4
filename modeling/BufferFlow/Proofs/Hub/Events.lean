import BufferFlow.Proofs.Hub.Chaining

set_option autoImplicit false

namespace BufferFlow

def Move.events : Move → List Event
  | returned _ => [.bufferRecycled]
  | released _ | unchained .. => []

def Event.IsOfStage : Event → Prop
  | stageStarted | stageSpawnFailed | stageTerminated => True
  | _ => False

namespace Counters

def recordAll (c : Counters) (events : List Event) : Counters := events.foldl record c

theorem recordAll_append (c : Counters) (a b : List Event) :
    c.recordAll (a ++ b) = (c.recordAll a).recordAll b := List.foldl_append

/-- How many stages were started, are said to run, and are said to have ended. -/
def ofStages (c : Counters) : UInt64 × UInt64 × UInt64 :=
  (c.stagesStarted, c.stagesRunning, c.stagesTerminated)

theorem ofStages_recordAll {events : List Event} (others : ∀ e ∈ events, ¬ e.IsOfStage)
    (c : Counters) : (c.recordAll events).ofStages = c.ofStages := by
  induction events generalizing c with
  | nil => rfl
  | cons e events ih =>
    have same : (c.record e).ofStages = c.ofStages := by
      have other := others e List.mem_cons_self
      cases e with
      | stageStarted | stageSpawnFailed | stageTerminated => exact absurd trivial other
      | published fanOut =>
        rw [record]
        split <;> rfl
      | _ => rfl
    exact (ih (fun e member => others e (List.mem_cons_of_mem _ member)) _).trans same

end Counters

namespace Hub

variable {h h' : Hub} {op : Operation}

theorem counters_performAll (h : Hub) (ms : List Move) :
    (h.performAll ms).counters = h.counters.recordAll (ms.flatMap Move.events) := by
  induction ms generalizing h with
  | nil => rfl
  | cons m ms ih =>
    rw [List.flatMap_cons, Counters.recordAll_append]
    refine (ih (h.perform m)).trans (congrArg (Counters.recordAll · _) ?_)
    cases m <;> rfl

/-- What the operation counts besides what goes back in it. -/
def ownEvents (h : Hub) : Operation → List Event
  | .subscribe .. | .subscribeDetached _ => [.subscriptionOpened]
  | .dropSubscription s => if h.subscriptions.contains s then [.subscriptionClosed] else []
  | .acquire pool => if (h.acquire? pool).isSome then [.bufferAcquired] else []
  | .publish p blank =>
    if blank ∈ h.blanks then [.published (h.receivers p).length.toUInt64] else []
  | .wait mailbox =>
    match h.wait? mailbox with
    | none => []
    | some (verdict, _) => [if verdict then .joinCompleted else .joinFailed]
  | _ => []

def events (h : Hub) (op : Operation) : List Event := (h.moves op).flatMap Move.events ++ h.ownEvents op

theorem counters_cancel (h : Hub) (s : Nat) : (h.cancel s).counters = h.counters := by
  rcases cancel_cases h s with ⟨-, same⟩ | ⟨sub, a, -, -, same⟩ <;> rw [same]

theorem counters_push (h : Hub) (r : SlotRef) (serial s : Nat) :
    (h.push r serial s).counters = h.counters := by
  rcases push_cases h s r serial with
    ⟨-, same⟩ | ⟨sub, -, ⟨-, same⟩ | ⟨a, -, ⟨-, same⟩ | ⟨-, same⟩⟩⟩ <;> rw [same]

theorem counters_pushAll (h : Hub) (r : SlotRef) (serial : Nat) (l : List Nat) :
    (h.pushAll r serial l).counters = h.counters := by
  induction l generalizing h with
  | nil => rfl
  | cons s l ih => exact (ih (h.push r serial s)).trans (counters_push h r serial s)

theorem counters_arm (h : Hub) (s mailbox : Nat) : (h.arm s mailbox).2.counters = h.counters := by
  have cancelled := counters_cancel h s
  rcases arm_cases h s mailbox with
    ⟨-, ⟨-, same⟩ | ⟨sub, -, ⟨c, queue, -, same⟩ | ⟨-, -, same⟩ | ⟨-, -, same⟩⟩⟩ <;> rw [same] <;>
    exact cancelled

theorem counters_invalidate (h : Hub) (s : Nat) : (h.invalidate s).counters = h.counters := by
  rcases invalidate_cases h s with ⟨-, same⟩ | ⟨sub, a, -, -, same⟩ <;> rw [same]

theorem counters_dropPublisher (h : Hub) (p : Nat) :
    (h.dropPublisher p).counters = h.counters := by
  have invalidated : ∀ (l : List Nat) (g : Hub), (l.foldl invalidate g).counters = g.counters := by
    intro l
    induction l with
    | nil => exact fun _ => rfl
    | cons s l ih => exact fun g => (ih (g.invalidate s)).trans (counters_invalidate g s)
  rcases dropPublisher_cases h p with ⟨-, same⟩ | ⟨P, log, -, same⟩ <;> rw [same]
  exact invalidated _ h

theorem counters_detach (h : Hub) (s : Nat) : (h.detach s).counters = h.counters := by
  refine (counters_cancel (h.unsubscribe s) s).trans ?_
  rcases unsubscribe_cases h s with ⟨-, same⟩ | ⟨sub, p, -, -, same⟩ <;> rw [same]

theorem counters_apply (untallied : ∀ counters log, op ≠ .tally counters log) :
    (h.apply op).counters = h.counters.recordAll (h.events op) := by
  cases op with
  | newPool name capacity factory =>
    simp only [apply, newPool, bind, Except.bind]
    cases Pool.new name capacity factory <;> rfl
  | newPublisher | newMailbox | subscribeDetached => rfl
  | subscribe p erased =>
    rw [apply, subscribe]
    cases h.publishers.get? p with
    | none => rfl
    | some P => cases erased <;> rfl
  | acquire pool =>
    rw [apply, events, ownEvents]
    cases taken : h.acquire? pool with
    | none => rfl
    | some found =>
      obtain ⟨blank, h'⟩ := found
      obtain ⟨P, free, -, -, -, rfl⟩ := acquire?_eq_some taken
      rfl
  | write blank payload =>
    rw [apply, write]
    split <;> rfl
  | chain blank upstream =>
    simp only [apply, chain, events, ownEvents, moves, settling, List.append_nil]
    split
    · cases h.chainedAt blank with
      | none => rfl
      | some c => exact (congrArg counters (giveUpAll_eq _ [c])).trans (counters_performAll _ _)
    · rfl
  | publish p blank =>
    simp only [apply, events, ownEvents, moves, settling]
    rcases publish_cases h p blank with
      ⟨unowned, same⟩ | ⟨owned, -, ⟨nobody, same⟩ | ⟨somebody, same⟩⟩ <;> rw [same]
    · rw [if_neg fun both => unowned both.1, if_neg unowned]
      rfl
    · rw [if_pos ⟨owned, nobody⟩, if_pos owned, recycle_eq, Counters.recordAll_append, nobody]
      exact congrArg (·.record (.published 0)) (counters_performAll _ _)
    · rw [if_neg fun both => somebody both.2, if_pos owned]
      exact congrArg (Counters.record · (.published (h.receivers p).length.toUInt64))
        (counters_pushAll _ _ _ _)
  | dropBlank blank =>
    simp only [apply, dropBlank, events, ownEvents, moves, settling, List.append_nil]
    split
    · rw [recycle_eq]
      exact counters_performAll _ _
    · rfl
  | pull s =>
    rcases pull_cases h s with ⟨same, -⟩ | ⟨sub, c, queue, -, -, -, same⟩ <;> rw [apply, same] <;> rfl
  | arm s mailbox =>
    rw [apply]
    split
    · exact counters_arm h s mailbox
    · rfl
  | cancel s => exact counters_cancel h s
  | wait mailbox =>
    simp only [apply, events, ownEvents, wait?]
    cases h.mailboxes.get? mailbox with
    | none => rfl
    | some m =>
      cases verdict : m.verdict? <;> simp only [bind, Option.bind, verdict] <;> rfl
  | takeCell cell =>
    rcases takeCell_cases h cell with ⟨-, -, same⟩ | ⟨c, -, -, same⟩ <;> rw [apply, same] <;> rfl
  | dropCell cell =>
    simp only [apply, events, ownEvents, moves, settling, contents?, List.append_nil]
    rw [dropCell]
    cases (h.cells.get? cell).bind id with
    | none => rfl
    | some c => exact (congrArg counters (giveUpAll_eq _ [c])).trans (counters_performAll _ _)
  | erase c =>
    simp only [apply, erase]
    split <;> rfl
  | release c =>
    simp only [apply, release, events, ownEvents, moves, settling, List.append_nil]
    split
    · exact (congrArg counters (giveUpAll_eq _ [c])).trans (counters_performAll _ _)
    · rfl
  | dropSubscription s =>
    have given := counters_performAll ((h.detach s).note .trace "Subscription dropped"
      [("released", toString (h.queueOf s).length)])
    have detached := counters_detach h s
    simp only [apply, events, ownEvents, moves, settling, Counters.recordAll_append]
    cases hs : h.subscriptions.get? s with
    | none =>
      have known : ¬ h.subscriptions.contains s := by simp [Table.contains, hs]
      rw [dropSubscription, hs, queueOf, hs, if_neg known]
      rfl
    | some sub =>
      have known : h.subscriptions.contains s := by simp [Table.contains, hs]
      rw [dropSubscription, hs, if_pos known]
      simp only [queueOf, hs, Option.map_some, Option.getD_some] at given ⊢
      rw [giveUpAll_eq, ← detached]
      exact congrArg (Counters.record · .subscriptionClosed) (given _)
  | dropPublisher p => exact counters_dropPublisher h p
  | tally counters log => exact absurd rfl (untallied counters log)

theorem events_others : ∀ e ∈ h.events op, ¬ e.IsOfStage := by
  intro e member
  rcases List.mem_append.1 member with moved | own
  · obtain ⟨m, -, counted⟩ := List.mem_flatMap.1 moved
    cases m with
    | released | unchained => exact absurd counted List.not_mem_nil
    | returned =>
      obtain rfl := List.mem_singleton.1 counted
      exact id
  · cases op with
    | subscribe | subscribeDetached =>
      obtain rfl := List.mem_singleton.1 own
      exact id
    | dropSubscription | acquire | publish =>
      rw [ownEvents] at own
      split at own
      · obtain rfl := List.mem_singleton.1 own
        exact id
      · exact absurd own List.not_mem_nil
    | wait mailbox =>
      rw [ownEvents] at own
      split at own
      · exact absurd own List.not_mem_nil
      · obtain rfl := List.mem_singleton.1 own
        split <;> exact id
    | _ => exact absurd own List.not_mem_nil

theorem ofStages_apply (untallied : ∀ counters log, op ≠ .tally counters log) :
    (h.apply op).counters.ofStages = h.counters.ofStages := by
  rw [counters_apply untallied]
  exact Counters.ofStages_recordAll events_others _

theorem ofStages_applyAll {ops : List Operation}
    (untallied : ∀ op ∈ ops, ∀ counters log, op ≠ .tally counters log) :
    (h.applyAll ops).counters.ofStages = h.counters.ofStages := by
  induction ops generalizing h with
  | nil => rfl
  | cons op ops ih =>
    exact (ih fun later member => untallied later (List.mem_cons_of_mem _ member)).trans
      (ofStages_apply (untallied op List.mem_cons_self))

end Hub

end BufferFlow
