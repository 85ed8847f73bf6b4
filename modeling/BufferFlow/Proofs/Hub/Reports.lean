import BufferFlow.Proofs.Hub.Events
import BufferFlow.Proofs.Hub.Turnover

set_option autoImplicit false

namespace BufferFlow

namespace Event

def fanOut? : Event → Option UInt64
  | published fanOut => some fanOut
  | _ => none

def verdict? : Event → Option Bool
  | joinCompleted => some true
  | joinFailed => some false
  | _ => none

end Event

namespace Hub

variable {h : Hub} {op : Operation} {ops : List Operation}

def fanOut? (h : Hub) : Operation → Option Nat
  | .publish publisher blank =>
    if blank ∈ h.blanks then some (h.publish publisher blank).1 else none
  | _ => none

def verdict? (h : Hub) : Operation → Option Bool
  | .wait mailbox => (h.wait? mailbox).map (·.1)
  | _ => none

def fanOuts (h : Hub) : List Operation → List Nat
  | [] => []
  | op :: ops => (h.fanOut? op).toList ++ (h.apply op).fanOuts ops

def verdicts (h : Hub) : List Operation → List Bool
  | [] => []
  | op :: ops => (h.verdict? op).toList ++ (h.apply op).verdicts ops

def occurred (h : Hub) : List Operation → List Event
  | [] => []
  | op :: ops => h.events op ++ (h.apply op).occurred ops

def subscribed (h : Hub) : Nat := h.subscriptions.values.length

end Hub

/-- The events tell of these slots that were taken and put back, these fan-outs and these verdicts,
and lead from so many subscriptions to so many. -/
structure Reports (events : List Event) (taken back : List SlotRef) (fanOuts : List Nat)
    (verdicts : List Bool) (before after : Nat) : Prop where
  taken : events.count .bufferAcquired = taken.length
  back : events.count .bufferRecycled = back.length
  fanOuts : events.filterMap Event.fanOut? = fanOuts.map Nat.toUInt64
  verdicts : events.filterMap Event.verdict? = verdicts
  subscribed : before + events.count .subscriptionOpened = after + events.count .subscriptionClosed

namespace Reports

variable {events events' : List Event} {T T' B B' : List SlotRef} {F F' : List Nat}
  {V V' : List Bool} {before after later : Nat}

theorem nil (n : Nat) : Reports [] [] [] [] [] n n := ⟨rfl, rfl, rfl, rfl, rfl⟩

theorem append (a : Reports events T B F V before after)
    (b : Reports events' T' B' F' V' after later) :
    Reports (events ++ events') (T ++ T') (B ++ B') (F ++ F') (V ++ V') before later := by
  obtain ⟨taken, back, fanOuts, verdicts, subscribed⟩ := a
  obtain ⟨taken', back', fanOuts', verdicts', subscribed'⟩ := b
  refine ⟨?_, ?_, ?_, ?_, ?_⟩
  · rw [List.count_append, List.length_append, taken, taken']
  · rw [List.count_append, List.length_append, back, back']
  · rw [List.filterMap_append, List.map_append, fanOuts, fanOuts']
  · rw [List.filterMap_append, verdicts, verdicts']
  · rw [List.count_append, List.count_append]
    omega

theorem ofStage {e : Event} (stage : e.IsOfStage) (n : Nat) : Reports [e] [] [] [] [] n n := by
  cases e with
  | stageStarted | stageSpawnFailed | stageTerminated => exact ⟨rfl, rfl, rfl, rfl, rfl⟩
  | _ => exact stage.elim

theorem moves (ms : List Move) (n : Nat) :
    Reports (ms.flatMap Move.events) [] (ms.filterMap Move.back?) [] [] n n := by
  induction ms with
  | nil => exact nil n
  | cons m ms ih =>
    have first : Reports m.events [] m.back?.toList [] [] n n := by
      cases m <;> exact ⟨rfl, rfl, rfl, rfl, rfl⟩
    have both := first.append ih
    rw [List.filterMap_cons]
    cases m <;> exact both

end Reports

namespace Hub

variable {h : Hub}

theorem subscribed_modify (t : Table Subscription) (s : Nat) (f : Subscription → Subscription) :
    (t.modify s f).values.length = t.values.length := by
  simp [Table.values, Table.modify]

theorem subscribed_cancel (h : Hub) (s : Nat) : (h.cancel s).subscribed = h.subscribed := by
  rcases cancel_cases h s with ⟨-, same⟩ | ⟨sub, a, -, -, same⟩ <;> rw [same]
  exact subscribed_modify _ _ _

theorem subscribed_pushAll (h : Hub) (r : SlotRef) (serial : Nat) (l : List Nat) :
    (h.pushAll r serial l).subscribed = h.subscribed := by
  induction l generalizing h with
  | nil => rfl
  | cons s l ih =>
    refine (ih (h.push r serial s)).trans ?_
    rcases push_cases h s r serial with
      ⟨-, same⟩ | ⟨sub, -, ⟨-, same⟩ | ⟨a, -, ⟨-, same⟩ | ⟨-, same⟩⟩⟩ <;> rw [same] <;>
      exact subscribed_modify _ _ _

theorem subscribed_arm (h : Hub) (s mailbox : Nat) :
    (h.arm s mailbox).2.subscribed = h.subscribed := by
  refine Eq.trans ?_ (subscribed_cancel h s)
  rcases arm_cases h s mailbox with
    ⟨-, ⟨-, same⟩ | ⟨sub, -, ⟨c, queue, -, same⟩ | ⟨-, -, same⟩ | ⟨-, -, same⟩⟩⟩ <;> rw [same]
  · rfl
  · exact subscribed_modify _ _ _
  · exact subscribed_modify _ _ _
  · rfl

theorem subscribed_dropPublisher (h : Hub) (p : Nat) :
    (h.dropPublisher p).subscribed = h.subscribed := by
  have invalidated : ∀ (l : List Nat) (g : Hub), (l.foldl invalidate g).subscribed = g.subscribed := by
    intro l
    induction l with
    | nil => exact fun _ => rfl
    | cons s l ih =>
      intro g
      refine (ih (g.invalidate s)).trans ?_
      rcases invalidate_cases g s with ⟨-, same⟩ | ⟨sub, a, -, -, same⟩ <;> rw [same] <;>
        exact subscribed_modify _ _ _
  rcases dropPublisher_cases h p with ⟨-, same⟩ | ⟨P, log, -, same⟩ <;> rw [same]
  exact invalidated _ h

theorem subscribed_detach {s : Nat} {sub : Subscription} (found : h.subscriptions.get? s = some sub) :
    (h.detach s).subscribed + 1 = h.subscribed := by
  have same : ∀ t : Table Subscription, t.values.length = h.subscribed → t.contains s →
      (t.erase s).values.length + 1 = h.subscribed := by
    intro t length present
    obtain ⟨sub', found'⟩ := Option.isSome_iff_exists.1 present
    rw [← length, (Table.values_perm found').length_eq]
    rfl
  have there : ((h.unsubscribe s).cancel s).subscriptions.contains s ∧
      (h.unsubscribe s).subscribed = h.subscribed := by
    have kept : (h.unsubscribe s).subscriptions.contains s = true ∧
        (h.unsubscribe s).subscribed = h.subscribed := by
      rcases unsubscribe_cases h s with ⟨-, same⟩ | ⟨sub', p, -, -, same⟩ <;> rw [same]
      · exact ⟨by rw [Table.contains, found]; rfl, rfl⟩
      · exact ⟨by rw [Table.contains_modify, Table.contains, found]; rfl, subscribed_modify _ _ _⟩
    refine ⟨?_, kept.2⟩
    rcases cancel_cases (h.unsubscribe s) s with ⟨-, same⟩ | ⟨sub', a, -, -, same⟩ <;> rw [same]
    · exact kept.1
    · exact (Table.contains_modify _ _ _ _).trans kept.1
  exact same _ ((subscribed_cancel _ s).trans there.2) there.1

theorem subscribed_performAll (h : Hub) (ms : List Move) :
    (h.performAll ms).subscribed = h.subscribed := by
  induction ms generalizing h with
  | nil => rfl
  | cons m ms ih =>
    refine (ih (h.perform m)).trans ?_
    cases m <;> rfl

theorem subscribed_giveUpAll (h : Hub) (cs : List Copy) :
    (h.giveUpAll cs).subscribed = h.subscribed := by
  rw [giveUpAll_eq]
  exact subscribed_performAll h _

theorem subscribed_recycle (h : Hub) (r : SlotRef) : (h.recycle r).subscribed = h.subscribed := by
  rw [recycle_eq]
  exact subscribed_performAll h _

theorem reports_own (h : Hub) (op : Operation) :
    Reports (h.ownEvents op) (h.taken? op).toList [] (h.fanOut? op).toList (h.verdict? op).toList
      h.subscribed (h.apply op).subscribed := by
  have quiet : ∀ {n : Nat}, n = h.subscribed → Reports [] [] [] [] [] h.subscribed n := fun same =>
    same ▸ .nil _
  cases op with
  | newPool name capacity factory =>
    refine quiet ?_
    simp only [apply, newPool, bind, Except.bind]
    cases Pool.new name capacity factory <;> rfl
  | newPublisher | newMailbox | tally => exact quiet rfl
  | subscribe p erased =>
    refine ⟨rfl, rfl, rfl, rfl, ?_⟩
    rcases subscribe_cases h p erased with ⟨-, ⟨-, same⟩ | ⟨P, counters, log, -, same⟩⟩ <;>
      rw [apply, same] <;> rfl
  | subscribeDetached erased => exact ⟨rfl, rfl, rfl, rfl, rfl⟩
  | acquire pool =>
    rw [ownEvents, taken?, apply]
    cases acquired : h.acquire? pool with
    | none => exact quiet rfl
    | some found =>
      obtain ⟨p, free, -, -, -, same⟩ := acquire?_eq_some acquired
      refine ⟨rfl, rfl, rfl, rfl, ?_⟩
      simp only [same]
      rfl
  | write blank payload =>
    refine quiet ?_
    rw [apply, write]
    split <;> rfl
  | chain blank upstream =>
    refine quiet ?_
    simp only [apply, chain]
    split
    · cases h.chainedAt blank with
      | none => rfl
      | some c => exact subscribed_giveUpAll _ [c]
    · rfl
  | publish p blank =>
    rw [ownEvents, fanOut?, apply]
    rcases publish_cases h p blank with
      ⟨unowned, same⟩ | ⟨owned, count, ⟨nobody, same⟩ | ⟨somebody, same⟩⟩
    · rw [if_neg unowned, if_neg unowned, same]
      exact quiet rfl
    · rw [if_pos owned, if_pos owned, same, count]
      refine ⟨rfl, rfl, rfl, rfl, congrArg (· + 0) (Eq.symm ?_)⟩
      exact subscribed_recycle (h.spend blank) blank
    · rw [if_pos owned, if_pos owned, same, count]
      refine ⟨rfl, rfl, rfl, rfl, congrArg (· + 0) (Eq.symm ?_)⟩
      exact subscribed_pushAll ((h.spend blank).addCopies blank _) blank h.serial (h.receivers p)
  | dropBlank blank =>
    refine quiet ?_
    rw [apply, dropBlank]
    split
    · exact subscribed_recycle _ _
    · rfl
  | pull s =>
    refine quiet ?_
    rcases pull_cases h s with ⟨same, -⟩ | ⟨sub, c, queue, -, -, -, same⟩ <;> rw [apply, same]
    exact subscribed_modify _ _ _
  | arm s mailbox =>
    refine quiet ?_
    rw [apply]
    split
    · exact subscribed_arm h s mailbox
    · rfl
  | cancel s => exact quiet (subscribed_cancel h s)
  | wait mailbox =>
    rw [ownEvents, verdict?, apply]
    simp only [wait?]
    cases h.mailboxes.get? mailbox with
    | none => exact quiet rfl
    | some m =>
      cases verdict : m.verdict? with
      | none =>
        simp only [bind, Option.bind, verdict]
        exact quiet rfl
      | some done =>
        simp only [bind, Option.bind, verdict]
        cases done <;> exact ⟨rfl, rfl, rfl, rfl, rfl⟩
  | takeCell cell =>
    refine quiet ?_
    rcases takeCell_cases h cell with ⟨-, -, same⟩ | ⟨c, -, -, same⟩ <;> rw [apply, same]
    rfl
  | dropCell cell =>
    refine quiet ?_
    rw [apply, dropCell]
    cases (h.cells.get? cell).bind id with
    | none => rfl
    | some c => exact subscribed_giveUpAll _ [c]
  | erase c =>
    refine quiet ?_
    rw [apply, erase]
    dsimp only
    split <;> rfl
  | release c =>
    refine quiet ?_
    rw [apply, release]
    split
    · exact subscribed_giveUpAll _ [c]
    · rfl
  | dropSubscription s =>
    rw [ownEvents, apply]
    rcases dropSubscription_cases h s with ⟨absent, same⟩ | ⟨sub, log, found, same⟩
    · have unknown : ¬ h.subscriptions.contains s := by simp [Table.contains, absent]
      rw [if_neg unknown, same]
      exact quiet rfl
    · have known : h.subscriptions.contains s := by simp [Table.contains, found]
      rw [if_pos known, same]
      refine ⟨rfl, rfl, rfl, rfl, ?_⟩
      have given := subscribed_giveUpAll { h.detach s with log } sub.queue
      exact (subscribed_detach found).symm.trans (congrArg (· + 1) given.symm)
  | dropPublisher p => exact quiet (subscribed_dropPublisher h p)

theorem reports_apply (h : Hub) (op : Operation) :
    Reports (h.events op) (h.taken? op).toList ((h.moves op).filterMap Move.back?)
      (h.fanOut? op).toList (h.verdict? op).toList h.subscribed (h.apply op).subscribed := by
  have all := (Reports.moves (h.moves op) h.subscribed).append (h.reports_own op)
  rwa [List.append_nil] at all

theorem reports_applyAll (h : Hub) (ops : List Operation) :
    Reports (h.occurred ops) (h.takings ops) (h.putBacks ops) (h.fanOuts ops) (h.verdicts ops)
      h.subscribed (h.applyAll ops).subscribed := by
  induction ops generalizing h with
  | nil => exact .nil _
  | cons op ops ih =>
    rw [occurred, takings, putBacks_cons, fanOuts, verdicts]
    exact (h.reports_apply op).append (ih (h.apply op))

end Hub

end BufferFlow
