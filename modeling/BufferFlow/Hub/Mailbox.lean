import BufferFlow.Hub.Buffer

set_option autoImplicit false

/-! # Joins

A consumer arms one cell per subscription against a mailbox and waits once for all of them. The
mailbox counts the cells that are still empty; it fails for good when an armed source goes away. -/

namespace BufferFlow

namespace Mailbox

def expect (m : Mailbox) : Mailbox := { m with pending := m.pending + 1 }

def discount (m : Mailbox) : Mailbox := { m with pending := m.pending - 1 }

/-- A source is gone; `counted` when a cell of it was still to be filled. -/
def fail (m : Mailbox) (counted : Bool) : Mailbox :=
  ⟨if counted then m.pending - 1 else m.pending, true⟩

/-- What waiting returns, or nothing while it blocks. -/
def verdict? (m : Mailbox) : Option Bool :=
  if m.failed then some false else if m.pending = 0 then some true else none

end Mailbox

namespace Hub

def newMailbox (h : Hub) : Nat × Hub :=
  let (id, mailboxes) := h.mailboxes.insert {}
  (id, { h with mailboxes })

def modifyMailbox (h : Hub) (mailbox : Nat) (f : Mailbox → Mailbox) : Hub :=
  { h with mailboxes := h.mailboxes.modify mailbox f }

def newCell (h : Hub) (contents : Option Copy) : Nat × Hub :=
  let (id, cells) := h.cells.insert contents
  (id, { h with cells })

def disarm (h : Hub) (s : Nat) : Hub := h.modifySubscription s ({ · with armed := none })

def cancel (h : Hub) (s : Nat) : Hub :=
  match (h.subscriptions.get? s).bind (·.armed) with
  | none => h
  | some a => (h.disarm s).modifyMailbox a.mailbox (·.discount)

/-- Arms a new cell for the next delivery. What is queued fills it at once, and a source that is
gone fails the mailbox. -/
def arm (h : Hub) (s : Nat) (mailbox : Nat) : Nat × Hub :=
  let h := h.cancel s
  match h.subscriptions.get? s with
  | none => h.newCell none
  | some sub =>
    match sub.queue with
    | c :: queue => (h.modifySubscription s ({ · with queue })).newCell (some c)
    | [] =>
      let (cell, h) := h.newCell none
      if sub.isActive then
        (cell, (h.modifyMailbox mailbox (·.expect)).modifySubscription s
          ({ · with armed := some ⟨cell, mailbox⟩ }))
      else (cell, h.modifyMailbox mailbox (·.fail false))

def isFilled (h : Hub) (cell : Nat) : Bool := ((h.cells.get? cell).bind id).isSome

def takeCell (h : Hub) (cell : Nat) : Option Copy × Hub :=
  match (h.cells.get? cell).bind id with
  | none => (none, h)
  | some c => (some c, { h with cells := h.cells.modify cell fun _ => none }.hold c)

def dropCell (h : Hub) (cell : Nat) : Hub :=
  let contents := (h.cells.get? cell).bind id
  let h := { h with cells := h.cells.erase cell }
  match contents with
  | none => h
  | some c => h.giveUp c

def wait? (h : Hub) (mailbox : Nat) : Option (Bool × Hub) := do
  let verdict ← (← h.mailboxes.get? mailbox).verdict?
  return (verdict, h.count (if verdict then .joinCompleted else .joinFailed))

end Hub

end BufferFlow
