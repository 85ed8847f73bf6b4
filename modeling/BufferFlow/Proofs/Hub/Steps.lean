import BufferFlow.Hub.Operation
import BufferFlow.Proofs.Table

set_option autoImplicit false

namespace BufferFlow.Hub

variable (h : Hub) (s mailbox cell : Nat)

theorem cancel_cases :
    ((∀ sub, h.subscriptions.get? s = some sub → sub.armed = none) ∧ h.cancel s = h) ∨
    ∃ sub a, h.subscriptions.get? s = some sub ∧ sub.armed = some a ∧
      h.cancel s = { h with
        subscriptions := h.subscriptions.modify s ({ · with armed := none })
        mailboxes := h.mailboxes.modify a.mailbox (·.discount) } := by
  rw [cancel]
  split
  · rename_i unarmed
    exact .inl ⟨fun sub hs => by simpa [hs] using unarmed, rfl⟩
  · rename_i a armed
    obtain ⟨sub, hs, ha⟩ := Option.bind_eq_some_iff.1 armed
    exact .inr ⟨sub, a, hs, ha, rfl⟩

theorem push_cases (r : SlotRef) (serial : Nat) :
    (h.subscriptions.get? s = none ∧ h.push r serial s = h) ∨
    ∃ sub, h.subscriptions.get? s = some sub ∧
      ((sub.armed = none ∧ h.push r serial s = { h with
          subscriptions := h.subscriptions.modify s fun sub =>
            { sub with queue := sub.queue ++ [⟨r, serial, sub.erased⟩] } }) ∨
      ∃ a, sub.armed = some a ∧
        ((h.cells.get? a.cell = some none ∧ h.push r serial s = { h with
            subscriptions := h.subscriptions.modify s ({ · with armed := none })
            mailboxes := h.mailboxes.modify a.mailbox (·.discount)
            cells := h.cells.modify a.cell fun _ => some ⟨r, serial, sub.erased⟩ }) ∨
        (h.cells.get? a.cell ≠ some none ∧ h.push r serial s = { h with
            subscriptions := h.subscriptions.modify s fun sub =>
              { sub with armed := none, queue := sub.queue ++ [⟨r, serial, sub.erased⟩] }
            mailboxes := h.mailboxes.modify a.mailbox (·.discount) }))) := by
  rw [push]
  cases hs : h.subscriptions.get? s with
  | none => exact .inl ⟨rfl, rfl⟩
  | some sub =>
    refine .inr ⟨sub, rfl, ?_⟩
    dsimp only
    cases ha : sub.armed with
    | none =>
      refine .inl ⟨rfl, ?_⟩
      simp only [enqueue, modifySubscription]
      congr 1
      refine Table.modify_congr fun t ht => ?_
      obtain rfl : sub = t := by simpa [hs] using ht
      rfl
    | some a =>
      refine .inr ⟨a, rfl, ?_⟩
      dsimp only
      split
      · rename_i empty
        exact .inl ⟨empty, rfl⟩
      · rename_i full
        refine .inr ⟨full, ?_⟩
        simp only [enqueue, modifySubscription, disarm, modifyMailbox, Table.modify_modify]
        congr 1
        refine Table.modify_congr fun t ht => ?_
        obtain rfl : sub = t := by simpa [hs] using ht
        rfl

/-- Before anything else arming takes the cell back that is armed so far. Then the new cell gets
what is queued first, or waits, or fails its mailbox because nothing will come. -/
theorem arm_cases :
    (h.arm s mailbox).1 = (h.cancel s).cells.next ∧
    (((h.cancel s).subscriptions.get? s = none ∧
      (h.arm s mailbox).2 = { h.cancel s with cells := ((h.cancel s).cells.insert none).2 }) ∨
    ∃ sub, (h.cancel s).subscriptions.get? s = some sub ∧
      ((∃ c queue, sub.queue = c :: queue ∧ (h.arm s mailbox).2 = { h.cancel s with
          subscriptions := (h.cancel s).subscriptions.modify s ({ · with queue })
          cells := ((h.cancel s).cells.insert (some c)).2 }) ∨
      (sub.queue = [] ∧ sub.isActive = true ∧ (h.arm s mailbox).2 = { h.cancel s with
          subscriptions := (h.cancel s).subscriptions.modify s
            ({ · with armed := some ⟨(h.cancel s).cells.next, mailbox⟩ })
          mailboxes := (h.cancel s).mailboxes.modify mailbox (·.expect)
          cells := ((h.cancel s).cells.insert none).2 }) ∨
      (sub.queue = [] ∧ sub.isActive = false ∧ (h.arm s mailbox).2 = { h.cancel s with
          mailboxes := (h.cancel s).mailboxes.modify mailbox (·.fail false)
          cells := ((h.cancel s).cells.insert none).2 }))) := by
  simp only [arm]
  split
  · rename_i absent
    exact ⟨rfl, .inl ⟨absent, rfl⟩⟩
  · rename_i sub hs
    split
    · rename_i c queue hq
      exact ⟨rfl, .inr ⟨sub, hs, .inl ⟨c, queue, hq, rfl⟩⟩⟩
    · rename_i hq
      simp only [newCell]
      split
      · rename_i active
        exact ⟨rfl, .inr ⟨sub, hs, .inr (.inl ⟨hq, active, rfl⟩)⟩⟩
      · rename_i gone
        exact ⟨rfl, .inr ⟨sub, hs, .inr (.inr ⟨hq, by simpa using gone, rfl⟩)⟩⟩

theorem pull_cases :
    ((h.pull s).2 = h ∧ ∀ c, (h.pull s).1 ≠ .ready c) ∨
    ∃ sub c queue, h.subscriptions.get? s = some sub ∧ sub.queue = c :: queue ∧
      (h.pull s).1 = .ready c ∧ (h.pull s).2 = { h with
        subscriptions := h.subscriptions.modify s ({ · with queue })
        held := c :: h.held } := by
  rw [pull]
  split
  · exact .inl ⟨rfl, fun _ => nofun⟩
  · rename_i sub hs
    split
    · rename_i c queue hq
      exact .inr ⟨sub, c, queue, hs, hq, rfl, rfl⟩
    · refine .inl ⟨rfl, fun c => ?_⟩
      dsimp only
      split <;> exact nofun

theorem takeCell_cases :
    ((∀ c, h.cells.get? cell ≠ some (some c)) ∧ (h.takeCell cell).1 = none ∧
      (h.takeCell cell).2 = h) ∨
    ∃ c, h.cells.get? cell = some (some c) ∧ (h.takeCell cell).1 = some c ∧
      (h.takeCell cell).2 = { h with
        cells := h.cells.modify cell fun _ => none
        held := c :: h.held } := by
  rw [takeCell]
  split
  · rename_i empty
    exact .inl ⟨fun c hc => by simp [hc] at empty, rfl, rfl⟩
  · rename_i c full
    obtain ⟨contents, hc, rfl⟩ := Option.bind_eq_some_iff.1 full
    exact .inr ⟨c, hc, rfl, rfl⟩

theorem dropCell_cases :
    ((∀ c, h.cells.get? cell ≠ some (some c)) ∧
      h.dropCell cell = { h with cells := h.cells.erase cell }) ∨
    ∃ c, h.cells.get? cell = some (some c) ∧
      h.dropCell cell = { h with cells := h.cells.erase cell }.giveUp c := by
  simp only [dropCell]
  split
  · rename_i empty
    exact .inl ⟨fun c hc => by simp [hc] at empty, rfl⟩
  · rename_i c full
    obtain ⟨contents, hc, rfl⟩ := Option.bind_eq_some_iff.1 full
    exact .inr ⟨c, hc, rfl⟩

theorem wait_cases : ∃ counters, h.apply (.wait mailbox) = { h with counters } := by
  simp only [apply]
  split
  · exact ⟨h.counters, rfl⟩
  · rename_i waited
    obtain ⟨m, -, rest⟩ := Option.bind_eq_some_iff.1 waited
    obtain ⟨verdict, -, rest⟩ := Option.bind_eq_some_iff.1 rest
    obtain ⟨-, rfl⟩ := Prod.mk.inj (Option.some.inj rest)
    exact ⟨_, rfl⟩

theorem invalidate_cases :
    ((∀ sub, h.subscriptions.get? s = some sub → sub.armed = none) ∧
      h.invalidate s = { h with
        subscriptions := h.subscriptions.modify s ({ · with publisher := none, armed := none }) }) ∨
    ∃ sub a, h.subscriptions.get? s = some sub ∧ sub.armed = some a ∧
      h.invalidate s = { h with
        subscriptions := h.subscriptions.modify s ({ · with publisher := none, armed := none })
        mailboxes := h.mailboxes.modify a.mailbox (·.fail true) } := by
  rw [invalidate]
  split
  · rename_i unarmed
    have none_armed : ∀ sub, h.subscriptions.get? s = some sub → sub.armed = none :=
      fun sub hs => by simpa [hs] using unarmed
    refine .inl ⟨none_armed, ?_⟩
    simp only [modifySubscription]
    congr 1
    refine Table.modify_congr fun t ht => ?_
    simp only [none_armed t ht]
  · rename_i a armed
    obtain ⟨sub, hs, ha⟩ := Option.bind_eq_some_iff.1 armed
    exact .inr ⟨sub, a, hs, ha, rfl⟩

def spend (h : Hub) (blank : SlotRef) : Hub := { h.takeBlank blank with serial := h.serial + 1 }

def pushAll (h : Hub) (r : SlotRef) (serial : Nat) (l : List Nat) : Hub :=
  l.foldl (fun h s => h.push r serial s) h

theorem publish_cases (p : Nat) (blank : SlotRef) :
    (blank ∉ h.blanks ∧ h.publish p blank = (0, h)) ∨
    (blank ∈ h.blanks ∧ (h.publish p blank).1 = (h.receivers p).length ∧
      ((h.receivers p = [] ∧
        (h.publish p blank).2 = ((h.spend blank).recycle blank).count (.published 0)) ∨
      (h.receivers p ≠ [] ∧ (h.publish p blank).2 =
        (((h.spend blank).addCopies blank (h.receivers p).length).pushAll blank h.serial
          (h.receivers p)).count (.published (h.receivers p).length.toUInt64)))) := by
  simp only [publish]
  split
  · rename_i owned
    refine .inr ⟨owned, rfl, ?_⟩
    by_cases nobody : h.receivers p = []
    · refine .inl ⟨nobody, ?_⟩
      simp only [nobody, List.isEmpty_nil, ↓reduceIte, spend]
      rfl
    · refine .inr ⟨nobody, ?_⟩
      simp only [List.isEmpty_eq_false_iff.2 nobody, Bool.false_eq_true, ↓reduceIte, spend, pushAll]
  · rename_i foreign
    exact .inl ⟨foreign, rfl⟩

def attach (P : Publisher) (erased : Bool) (s : Nat) : Publisher :=
  if erased then { P with observers := P.observers ++ [s] } else { P with typed := P.typed ++ [s] }

theorem attach_receivers (P : Publisher) (erased : Bool) :
    (attach P erased s).receivers.Perm (s :: P.receivers) := by
  cases erased
  · simp only [attach, Publisher.receivers, Bool.false_eq_true, ↓reduceIte, List.append_assoc,
      List.singleton_append]
    exact List.perm_middle
  · simp only [attach, Publisher.receivers, ↓reduceIte, ← List.append_assoc]
    exact List.perm_append_singleton _ _

theorem subscribe_cases (p : Nat) (erased : Bool) :
    (h.subscribe p erased).1 = h.subscriptions.next ∧
    ((h.publishers.get? p = none ∧ h.subscribe p erased = h.subscribeDetached erased) ∨
    ∃ P counters log, h.publishers.get? p = some P ∧ (h.subscribe p erased).2 = { h with
      subscriptions := (h.subscriptions.insert { erased, publisher := some p }).2
      publishers := h.publishers.modify p fun _ => attach P erased h.subscriptions.next
      counters
      log }) := by
  simp only [subscribe]
  split
  · rename_i gone
    exact ⟨rfl, .inl ⟨gone, rfl⟩⟩
  · rename_i P hP
    cases erased
    · exact ⟨rfl, .inr ⟨P, _, _, hP, rfl⟩⟩
    · exact ⟨rfl, .inr ⟨P, _, _, hP, rfl⟩⟩

theorem unsubscribe_cases :
    ((∀ sub, h.subscriptions.get? s = some sub → sub.publisher = none) ∧ h.unsubscribe s = h) ∨
    ∃ sub p, h.subscriptions.get? s = some sub ∧ sub.publisher = some p ∧
      h.unsubscribe s = { h with
        subscriptions := h.subscriptions.modify s ({ · with publisher := none })
        publishers := h.publishers.modify p fun P =>
          { P with
            typed := P.typed.filter (· ≠ s)
            observers := P.observers.filter (· ≠ s) } } := by
  rw [unsubscribe]
  split
  · rename_i detached
    exact .inl ⟨fun sub hs => by simpa [hs] using detached, rfl⟩
  · rename_i p named
    obtain ⟨sub, hs, hp⟩ := Option.bind_eq_some_iff.1 named
    exact .inr ⟨sub, p, hs, hp, rfl⟩

/-- The hub in which the subscription is gone and what it had queued is still to be given up. -/
def detach (h : Hub) (s : Nat) : Hub :=
  { (h.unsubscribe s).cancel s with
    subscriptions := ((h.unsubscribe s).cancel s).subscriptions.erase s }

theorem dropSubscription_cases :
    (h.subscriptions.get? s = none ∧ h.dropSubscription s = h) ∨
    ∃ sub log, h.subscriptions.get? s = some sub ∧
      h.dropSubscription s =
        ({ h.detach s with log }.giveUpAll sub.queue).count .subscriptionClosed := by
  rw [dropSubscription]
  split
  · rename_i absent
    exact .inl ⟨absent, rfl⟩
  · rename_i sub hs
    exact .inr ⟨sub, _, hs, rfl⟩

theorem dropPublisher_cases (p : Nat) :
    (h.publishers.get? p = none ∧ h.dropPublisher p = h) ∨
    ∃ P log, h.publishers.get? p = some P ∧ h.dropPublisher p =
      { P.receivers.foldl invalidate h with
        publishers := (P.receivers.foldl invalidate h).publishers.erase p
        log } := by
  rw [dropPublisher]
  split
  · rename_i absent
    exact .inl ⟨absent, rfl⟩
  · rename_i P hP
    exact .inr ⟨P, _, hP, rfl⟩

end BufferFlow.Hub
