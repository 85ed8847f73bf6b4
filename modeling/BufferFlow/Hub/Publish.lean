import BufferFlow.Hub.Mailbox

set_option autoImplicit false

namespace BufferFlow.Hub

def newPublisher (h : Hub) (name : String) (pool : Nat) : Nat × Hub :=
  let (id, publishers) := h.publishers.insert { name, pool }
  (id, { h with publishers })

/-- A subscription to nobody: its end is reached from the start. -/
def subscribeDetached (h : Hub) (erased : Bool) : Nat × Hub :=
  let (id, subscriptions) := h.subscriptions.insert { erased, publisher := none }
  (id, { h with subscriptions }.count .subscriptionOpened)

def subscribe (h : Hub) (publisher : Nat) (erased : Bool) : Nat × Hub :=
  match h.publishers.get? publisher with
  | none => h.subscribeDetached erased
  | some p =>
    let (id, subscriptions) := h.subscriptions.insert { erased, publisher := some publisher }
    let attached : Publisher :=
      if erased then { p with observers := p.observers ++ [id] }
      else { p with typed := p.typed ++ [id] }
    let h := { h with
      subscriptions
      publishers := h.publishers.modify publisher fun _ => attached }
    let h := h.count .subscriptionOpened
    (id,
      if erased then
        h.note .trace "Observer attached"
          [("publisher", p.name), ("observers", toString attached.observers.length)]
      else
        h.note .trace "Subscribed"
          [("publisher", p.name), ("subscribers", toString attached.typed.length)])

def enqueue (h : Hub) (s : Nat) (c : Copy) : Hub :=
  h.modifySubscription s fun sub => { sub with queue := sub.queue ++ [c] }

/-- Delivers one copy. A cell whose owner let go of it does not take the copy, which then waits in
the queue. -/
def push (h : Hub) (r : SlotRef) (serial : Nat) (s : Nat) : Hub :=
  match h.subscriptions.get? s with
  | none => h
  | some sub =>
    let c : Copy := ⟨r, serial, sub.erased⟩
    match sub.armed with
    | none => h.enqueue s c
    | some a =>
      let h := (h.disarm s).modifyMailbox a.mailbox (·.discount)
      match h.cells.get? a.cell with
      | some none => { h with cells := h.cells.modify a.cell fun _ => some c }
      | _ => h.enqueue s c

/-- Counts all copies before the first is pushed, so that no early release finds the last one. -/
def addCopies (h : Hub) (r : SlotRef) (n : Nat) : Hub :=
  h.modifySlot r fun s => { s with copies := s.copies + n }

def receivers (h : Hub) (publisher : Nat) : List Nat :=
  ((h.publishers.get? publisher).map (·.receivers)).getD []

/-- Pushes the blank to every receiver and tells how many there were. With nobody listening the
buffer goes straight back to its pool. -/
def publish (h : Hub) (publisher : Nat) (blank : SlotRef) : Nat × Hub :=
  if blank ∈ h.blanks then
    let receivers := h.receivers publisher
    let serial := h.serial
    let h := { h.takeBlank blank with serial := serial + 1 }
    let h :=
      if receivers.isEmpty then h.recycle blank
      else receivers.foldl (fun h s => h.push blank serial s) (h.addCopies blank receivers.length)
    (receivers.length, h.count (.published receivers.length.toUInt64))
  else (0, h)

def invalidate (h : Hub) (s : Nat) : Hub :=
  match (h.subscriptions.get? s).bind (·.armed) with
  | none => h.modifySubscription s ({ · with publisher := none })
  | some a =>
    (h.modifySubscription s ({ · with publisher := none, armed := none })).modifyMailbox a.mailbox
      (·.fail true)

def dropPublisher (h : Hub) (publisher : Nat) : Hub :=
  match h.publishers.get? publisher with
  | none => h
  | some p =>
    let h := p.receivers.foldl invalidate h
    { h with publishers := h.publishers.erase publisher }.note .debug "Publisher torn down"
      [("publisher", p.name), ("invalidated", toString p.fanOut)]

def unsubscribe (h : Hub) (s : Nat) : Hub :=
  match (h.subscriptions.get? s).bind (·.publisher) with
  | none => h
  | some publisher =>
    let without (ids : List Nat) := ids.filter (· ≠ s)
    { h.modifySubscription s ({ · with publisher := none }) with
      publishers := h.publishers.modify publisher fun p =>
        { p with typed := without p.typed, observers := without p.observers } }

/-- Detaches first, so that nothing is pushed any more, and then gives up what is queued. -/
def dropSubscription (h : Hub) (s : Nat) : Hub :=
  match h.subscriptions.get? s with
  | none => h
  | some sub =>
    let h := (h.unsubscribe s).cancel s
    let h := { h with subscriptions := h.subscriptions.erase s }
    let h := h.note .trace "Subscription dropped" [("released", toString sub.queue.length)]
    (h.giveUpAll sub.queue).count .subscriptionClosed

inductive Pulled
  | ready (copy : Copy)
  | gone
  | empty
  deriving DecidableEq

def pull (h : Hub) (s : Nat) : Pulled × Hub :=
  match h.subscriptions.get? s with
  | none => (.gone, h)
  | some sub =>
    match sub.queue with
    | c :: queue => (.ready c, (h.modifySubscription s ({ · with queue })).hold c)
    | [] => (if sub.isActive then .empty else .gone, h)

end BufferFlow.Hub
