import BufferFlow.Proofs.Concurrent.Wiring

set_option autoImplicit false

namespace BufferFlow

namespace Hub

variable {h h' : Hub} {s t : Nat} {only : Option Nat}

def Gone (h : Hub) (s : Nat) : Prop := h.subscriptions.get? s = none ∧ s < h.subscriptions.next

/-- Nothing happens to subscriptions but to one of them, and some may be new. -/
structure Touches (h h' : Hub) (only : Option Nat) : Prop where
  others : ∀ t, only ≠ some t → h'.subscriptions.get? t = h.subscriptions.get? t ∨
    h.subscriptions.next ≤ t ∧ ∃ erased publisher,
      h'.subscriptions.get? t = some { erased, publisher }
  gone : ∀ t, h.Gone t → h'.Gone t

namespace Touches

theorem ofSame (same : h'.subscriptions = h.subscriptions) : Touches h h' only :=
  ⟨fun t _ => .inl (by rw [same]), fun t gone => by rwa [Gone, same]⟩

theorem modify (h : Hub) (s : Nat) (f : Subscription → Subscription)
    (publishers : Table Publisher) (mailboxes : Table Mailbox) (cells : Table (Option Copy))
    (held : List Copy) : Touches h { h with
      subscriptions := h.subscriptions.modify s f
      publishers
      mailboxes
      cells
      held } (some s) := by
  refine ⟨fun t other => .inl ?_, fun t gone => ⟨?_, gone.2⟩⟩
  · rw [Table.get?_modify, if_neg fun here => other (congrArg some here.symm)]
  · rw [Table.get?_modify, gone.1]
    split <;> rfl

theorem erase (same : h'.subscriptions = h.subscriptions.erase s) : Touches h h' (some s) := by
  refine ⟨fun t other => .inl ?_, fun t gone => ⟨?_, ?_⟩⟩
  · rw [same, Table.get?_erase, if_neg fun here => other (congrArg some here.symm)]
  · rw [same, Table.get?_erase, gone.1, ite_self]
  · rw [same, Table.erase_next]
    exact gone.2

theorem insert {erased : Bool} {publisher : Option Nat}
    (same : h'.subscriptions = (h.subscriptions.insert { erased, publisher }).2) :
    Touches h h' only := by
  refine ⟨fun t _ => ?_, fun t gone => ⟨?_, ?_⟩⟩
  · rw [same, Table.get?_insert]
    split
    · rename_i new
      exact .inr ⟨Nat.le_of_eq new.symm, erased, publisher, rfl⟩
    · exact .inl rfl
  · rw [same, Table.get?_insert, if_neg (Nat.ne_of_lt gone.2)]
    exact gone.1
  · rw [same, Table.insert_next]
    exact Nat.lt_succ_of_lt gone.2

theorem trans {h₁ h₂ h₃ : Hub} (a : Touches h₁ h₂ (some s)) (b : Touches h₂ h₃ (some s))
    (next : h₂.subscriptions.next = h₁.subscriptions.next) : Touches h₁ h₃ (some s) := by
  refine ⟨fun t other => ?_, fun t gone => b.gone t (a.gone t gone)⟩
  rcases b.others t other with same | new
  · rw [same]
    exact a.others t other
  · exact .inr (next ▸ new)

theorem queueOf (touches : Touches h h' only) (other : only ≠ some t) :
    h'.queueOf t = h.queueOf t := by
  rw [Hub.queueOf, Hub.queueOf]
  rcases touches.others t other with same | ⟨le, erased, publisher, new⟩
  · rw [same]
  · rw [new, Table.get?_of_le le]
    rfl

theorem armedOf? (touches : Touches h h' only) (other : only ≠ some t) :
    h'.armedOf? t = h.armedOf? t := by
  rw [Hub.armedOf?, Hub.armedOf?]
  rcases touches.others t other with same | ⟨le, erased, publisher, new⟩
  · rw [same]
  · rw [new, Table.get?_of_le le]
    rfl

end Touches

theorem Touches.cancel (h : Hub) (s : Nat) : Touches h (h.cancel s) (some s) := by
  rcases cancel_cases h s with ⟨-, same⟩ | ⟨sub, a, -, -, same⟩ <;> rw [same]
  · exact .ofSame rfl
  · exact .modify _ _ _ _ _ _ _

theorem next_cancel (h : Hub) (s : Nat) :
    (h.cancel s).subscriptions.next = h.subscriptions.next := by
  rcases cancel_cases h s with ⟨-, same⟩ | ⟨sub, a, -, -, same⟩ <;> rw [same]
  rfl

theorem Touches.arm (h : Hub) (s mailbox : Nat) : Touches h (h.arm s mailbox).2 (some s) := by
  refine (Touches.cancel h s).trans ?_ (next_cancel h s)
  rcases arm_cases h s mailbox with
    ⟨-, ⟨-, same⟩ | ⟨sub, -, ⟨y, queue, -, same⟩ | ⟨-, -, same⟩ | ⟨-, -, same⟩⟩⟩ <;> rw [same]
  · exact .ofSame rfl
  · exact .modify _ _ _ _ _ _ _
  · exact .modify _ _ _ _ _ _ _
  · exact .ofSame rfl

theorem Touches.pull (h : Hub) (s : Nat) : Touches h (h.pull s).2 (some s) := by
  rcases pull_cases h s with ⟨same, -⟩ | ⟨sub, y, queue, -, -, -, same⟩ <;> rw [same]
  · exact .ofSame rfl
  · exact .modify _ _ _ _ _ _ _

theorem Touches.push (h : Hub) (r : SlotRef) (serial s : Nat) :
    Touches h (h.push r serial s) (some s) := by
  rcases push_cases h s r serial with
    ⟨-, same⟩ | ⟨sub, -, ⟨-, same⟩ | ⟨a, -, ⟨-, same⟩ | ⟨-, same⟩⟩⟩ <;> rw [same]
  · exact .ofSame rfl
  · exact .modify _ _ _ _ _ _ _
  · exact .modify _ _ _ _ _ _ _
  · exact .modify _ _ _ _ _ _ _

theorem Touches.invalidate (h : Hub) (s : Nat) : Touches h (h.invalidate s) (some s) := by
  rcases invalidate_cases h s with ⟨-, same⟩ | ⟨sub, a, -, -, same⟩ <;> rw [same] <;>
    exact .modify _ _ _ _ _ _ _

theorem Touches.atomic (h : Hub) {op : Operation} (one : op.Atomic) :
    Touches h (h.apply op) op.owner? := by
  by_cases hop : op.OnBuffers
  · exact .ofSame (SameLinks.apply h hop).subscriptions
  cases op with
  | newMailbox | newPublisher => exact .ofSame rfl
  | subscribeDetached => exact .insert rfl
  | subscribe p erased =>
    rcases subscribe_cases h p erased with ⟨-, ⟨-, same⟩ | ⟨P, counters, log, -, same⟩⟩ <;>
      rw [apply, same] <;> exact .insert rfl
  | pull s => exact .pull h s
  | arm s mailbox =>
    rw [apply]
    split
    · exact .arm h s mailbox
    · exact .ofSame rfl
  | cancel s => exact .cancel h s
  | takeCell cell =>
    rcases takeCell_cases h cell with ⟨-, -, same⟩ | ⟨y, -, -, same⟩ <;> rw [apply, same] <;>
      exact .ofSame rfl
  | dropCell cell =>
    rcases dropCell_cases h cell with ⟨-, same⟩ | ⟨y, -, same⟩ <;> rw [apply, same]
    · exact .ofSame rfl
    · exact .ofSame (SamePeers.giveUp { h with cells := h.cells.erase cell } y).links.subscriptions
  | publish | dropSubscription | dropPublisher => exact one.elim
  | newPool | acquire | write | chain | dropBlank | wait | erase | release | tally =>
    exact absurd trivial hop

theorem Gone.congr (gone : h.Gone s) (same : h'.subscriptions = h.subscriptions) : h'.Gone s := by
  rwa [Gone, same]

theorem Gone.foldl {f : Hub → Nat → Hub} (each : ∀ g t, Touches g (f g t) (some t)) (l : List Nat)
    (gone : h.Gone s) : (l.foldl f h).Gone s := by
  induction l generalizing h with
  | nil => exact gone
  | cons t l ih => exact ih ((each h t).gone s gone)

theorem Gone.detach (gone : h.Gone s) (t : Nat) : (h.detach t).Gone s := by
  have unsubscribed : (h.unsubscribe t).Gone s := by
    rcases unsubscribe_cases h t with ⟨-, same⟩ | ⟨sub, p, -, -, same⟩ <;> rw [same]
    · exact gone
    · exact (Touches.modify h t ({ · with publisher := none }) _ _ _ _).gone s gone
  exact (Touches.erase rfl).gone s ((Touches.cancel (h.unsubscribe t) t).gone s unsubscribed)

theorem next_detach (h : Hub) (s : Nat) : (h.detach s).subscriptions.next = h.subscriptions.next := by
  refine (next_cancel (h.unsubscribe s) s).trans ?_
  rcases unsubscribe_cases h s with ⟨-, same⟩ | ⟨sub, p, -, -, same⟩ <;> rw [same]
  rfl

theorem Gone.dropped (known : h.subscriptions.contains s) : (h.apply (.dropSubscription s)).Gone s := by
  obtain ⟨sub, found⟩ := Option.isSome_iff_exists.1 known
  have detached : (h.detach s).Gone s := by
    refine ⟨?_, Nat.lt_of_lt_of_eq (Table.get?_lt found) (next_detach h s).symm⟩
    rw [Hub.detach, Table.get?_erase, if_pos rfl]
  rcases dropSubscription_cases h s with ⟨absent, -⟩ | ⟨sub, log, -, same⟩
  · cases absent.symm.trans found
  · rw [Hub.apply, same]
    exact detached.congr (SamePeers.giveUpAll { h.detach s with log } sub.queue).links.subscriptions

theorem Gone.apply (gone : h.Gone s) (op : Operation) : (h.apply op).Gone s := by
  by_cases one : op.Atomic
  · exact (Touches.atomic h one).gone s gone
  cases op with
  | publish p blank =>
    rcases publish_cases h p blank with ⟨-, same⟩ | ⟨-, -, ⟨-, same⟩ | ⟨-, same⟩⟩ <;>
      rw [Hub.apply, same]
    · exact gone
    · exact gone.congr (SamePeers.recycle (h.spend blank) blank).links.subscriptions
    · exact Gone.foldl (f := fun g t => g.push blank h.serial t)
        (fun g t => .push g blank h.serial t) (h.receivers p) gone
  | dropSubscription t =>
    rcases dropSubscription_cases h t with ⟨-, same⟩ | ⟨sub, log, -, same⟩ <;> rw [Hub.apply, same]
    · exact gone
    · exact (gone.detach t).congr
        (SamePeers.giveUpAll { h.detach t with log } sub.queue).links.subscriptions
  | dropPublisher p =>
    rcases dropPublisher_cases h p with ⟨-, same⟩ | ⟨P, log, -, same⟩ <;> rw [Hub.apply, same]
    · exact gone
    · exact Gone.foldl Touches.invalidate P.receivers gone
  | _ => exact absurd trivial one

theorem Gone.applyAll (gone : h.Gone s) (ops : List Operation) : (h.applyAll ops).Gone s := by
  induction ops generalizing h with
  | nil => exact gone
  | cons op ops ih => exact ih (gone.apply op)

end Hub

namespace Concurrent

open Hub

variable {c : Concurrent} {x : Step} {s t : Nat} {id : Nat} {call : Call}

def subject? (c : Concurrent) : Step → Option Nat
  | .start (.dropSubscription s) => some s
  | .start op => op.owner?
  | .resume id =>
    match c.calls.get? id with
    | some (.pushing _ _ _ _ (s :: _)) | some (.draining s) | some (.releasing s []) => some s
    | some (.invalidating p _) => (c.hub.receivers p).head?
    | _ => none

theorem subject?_atomic {op : Operation} (one : op.Atomic) :
    c.subject? (.start op) = op.owner? := by
  cases op with
  | dropSubscription => exact one.elim
  | _ => rfl

theorem subject?_invalidated {p n s : Nat} {P : Publisher} {rest : List Nat}
    (found : c.calls.get? id = some (.invalidating p n))
    (there : c.hub.publishers.get? p = some P) (first : P.receivers = s :: rest) :
    c.subject? (.resume id) = some s := by
  simp only [subject?, found, receivers_eq there, first, List.head?_cons]

theorem touches_step (c : Concurrent) (x : Step) :
    Touches c.hub (c.step x).hub (c.subject? x) := by
  have moved := step_transition c x
  generalize c.step x = c' at moved ⊢
  cases moved with
  | idle => exact .ofSame rfl
  | atomic one =>
    rw [subject?_atomic one]
    exact .atomic c.hub one
  | published | closed => exact .ofSame rfl
  | left => exact .modify _ _ _ _ _ _ _
  | pushed found =>
    simp only [subject?, found]
    exact .push c.hub _ _ _
  | recycled found =>
    rename_i r _
    exact .ofSame (SamePeers.recycle c.hub r).links.subscriptions
  | drained found =>
    simp only [subject?, found]
    exact .modify _ _ _ _ _ _ _
  | withdrawn log found =>
    rename_i armed
    refine .ofSame ?_
    cases armed <;> rfl
  | released found =>
    rename_i y _
    exact .ofSame (SamePeers.giveUp c.hub y).links.subscriptions
  | ended found =>
    simp only [subject?, found]
    exact .erase rfl
  | invalidated found there first =>
    rename_i p n s P rest
    rw [subject?_invalidated found there first]
    let tailed := { c.hub with publishers := c.hub.publishers.modify p (·.tail) }
    have same : Touches c.hub tailed (some s) := .ofSame rfl
    exact same.trans (.invalidate tailed s) rfl
  | unheard | counted | unlocked | delisted | tornDown | lost => exact .ofSame rfl

theorem get?_others (found : c.calls.get? id = some call) (other : x ≠ .resume id) :
    (c.step x).calls.get? id = some call := by
  have moved := step_transition c x
  generalize c.step x = c' at moved ⊢
  have apart : ∀ {i}, Step.resume i ≠ .resume id → id ≠ i := fun hne same => hne (same ▸ rfl)
  cases moved with
  | idle | atomic => exact found
  | published | closed => exact found_begin found
  | left => exact found_begin found
  | unheard at_ | counted at_ | pushed at_ | delisted at_ | drained at_ | withdrawn _ at_
  | released at_ | invalidated at_ =>
    rw [get?_proceed at_, if_neg (apart other)]
    exact found
  | unlocked | recycled | ended | tornDown | lost =>
    rw [get?_finish, if_neg (apart other)]
    exact found

end Concurrent

end BufferFlow
