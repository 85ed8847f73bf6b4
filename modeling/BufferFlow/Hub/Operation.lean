import BufferFlow.Hub.Publish

set_option autoImplicit false

namespace BufferFlow

inductive Operation
  | newPool (name : String) (capacity : Nat) (factory : Payload.Factory)
  | newPublisher (name : String) (pool : Nat)
  | newMailbox
  | subscribe (publisher : Nat) (erased : Bool)
  | subscribeDetached (erased : Bool)
  | acquire (pool : Nat)
  | write (blank : SlotRef) (payload : Payload)
  | chain (blank : SlotRef) (upstream : Copy)
  | publish (publisher : Nat) (blank : SlotRef)
  | dropBlank (blank : SlotRef)
  | pull (subscription : Nat)
  | arm (subscription mailbox : Nat)
  | cancel (subscription : Nat)
  | wait (mailbox : Nat)
  | takeCell (cell : Nat)
  | dropCell (cell : Nat)
  | erase (copy : Copy)
  | release (copy : Copy)
  | dropSubscription (subscription : Nat)
  | dropPublisher (publisher : Nat)
  | tally (counters : Counters) (log : List Record)

namespace Hub

/-- The hub after one operation. One that is refused or would block leaves it as it is. -/
def apply (h : Hub) : Operation → Hub
  | .newPool name capacity factory =>
    match h.newPool name capacity factory with
    | .error _ => h
    | .ok (_, h) => h
  | .newPublisher name pool => (h.newPublisher name pool).2
  | .newMailbox => h.newMailbox.2
  | .subscribe publisher erased => (h.subscribe publisher erased).2
  | .subscribeDetached erased => (h.subscribeDetached erased).2
  | .acquire pool =>
    match h.acquire? pool with
    | none => h
    | some (_, h) => h
  | .write blank payload => h.write blank payload
  | .chain blank upstream => h.chain blank upstream
  | .publish publisher blank => (h.publish publisher blank).2
  | .dropBlank blank => h.dropBlank blank
  | .pull subscription => (h.pull subscription).2
  | .arm subscription mailbox =>
    if h.mailboxes.contains mailbox then (h.arm subscription mailbox).2 else h
  | .cancel subscription => h.cancel subscription
  | .wait mailbox =>
    match h.wait? mailbox with
    | none => h
    | some (_, h) => h
  | .takeCell cell => (h.takeCell cell).2
  | .dropCell cell => h.dropCell cell
  | .erase copy => (h.erase copy).2
  | .release copy => h.release copy
  | .dropSubscription subscription => h.dropSubscription subscription
  | .dropPublisher publisher => h.dropPublisher publisher
  | .tally counters log => { h with counters, log }

def applyAll (h : Hub) (ops : List Operation) : Hub := ops.foldl apply h

def Reachable (h : Hub) : Prop := ∃ ops, h = ({} : Hub).applyAll ops

end Hub

end BufferFlow
