import BufferFlow.Hub.Operation

set_option autoImplicit false

/-! # Several threads on one hub

Publishing, dropping a subscription and tearing a publisher down go through several critical sections
one after the other, and other threads go on in between. A call is such an operation underway. All
other operations are one critical section each. -/

namespace BufferFlow

namespace Publisher

def tail (p : Publisher) : Publisher :=
  match p.typed with
  | _ :: typed => { p with typed }
  | [] => { p with observers := p.observers.tail }

end Publisher

namespace Hub

def delist (h : Hub) (publisher s : Nat) : Hub :=
  { h with publishers := h.publishers.modify publisher fun p =>
      { p with
        typed := p.typed.filter (· ≠ s)
        observers := p.observers.filter (· ≠ s) } }

def withdraw (h : Hub) : Option Armed → Hub
  | none => h
  | some a => h.modifyMailbox a.mailbox (·.discount)

end Hub

/-- What is still to be done of an operation, and what it has in hand meanwhile. A publish and a
teardown keep the publisher's list locked. -/
inductive Call
  | counting (publisher : Nat) (blank : SlotRef) (serial : Nat) (receivers : List Nat)
  /-- All copies are counted, and the `rest` are still to be pushed to. -/
  | pushing (publisher : Nat) (blank : SlotRef) (serial fanOut : Nat) (rest : List Nat)
  /-- Nobody listened, and the list is unlocked again. -/
  | recycling (blank : SlotRef) (serial : Nat)
  /-- The subscription has given up its publisher, which may list it still. -/
  | unsubscribing (subscription publisher : Nat)
  | draining (subscription : Nat)
  | withdrawing (subscription : Nat) (drained : List Copy) (armed : Option Armed)
  | releasing (subscription : Nat) (drained : List Copy)
  | invalidating (publisher invalidated : Nat)
  deriving DecidableEq

namespace Call

def locks : Call → Option Nat
  | counting p .. | pushing p .. | invalidating p _ => some p
  | _ => none

def drops : Call → Option Nat
  | unsubscribing s _ | draining s | withdrawing s .. | releasing s _ => some s
  | _ => none

end Call

structure Concurrent where
  hub : Hub := {}
  calls : Table Call := {}

namespace Concurrent

def locked (c : Concurrent) (publisher : Nat) : Bool :=
  c.calls.values.any (·.locks = some publisher)

def dropping (c : Concurrent) (subscription : Nat) : Bool :=
  c.calls.values.any (·.drops = some subscription)

def begin (c : Concurrent) (hub : Hub) (call : Call) : Concurrent := ⟨hub, (c.calls.insert call).2⟩

def proceed (c : Concurrent) (id : Nat) (hub : Hub) (call : Call) : Concurrent :=
  ⟨hub, c.calls.modify id fun _ => call⟩

def finish (c : Concurrent) (id : Nat) (hub : Hub) : Concurrent := ⟨hub, c.calls.erase id⟩

/-- A thread starts an operation. It waits for a list that is locked, and a subscription that is
being dropped is nobody else's any more. -/
def start (c : Concurrent) : Operation → Concurrent
  | .publish p blank =>
    if blank ∈ c.hub.blanks ∧ ¬ c.locked p then
      c.begin { c.hub.takeBlank blank with serial := c.hub.serial + 1 }
        (.counting p blank c.hub.serial (c.hub.receivers p))
    else c
  | .dropSubscription s =>
    match c.hub.subscriptions.get? s with
    | none => c
    | some sub =>
      if c.dropping s then c
      else c.begin (c.hub.modifySubscription s ({ · with publisher := none }))
        (match sub.publisher with
          | none => .draining s
          | some p => .unsubscribing s p)
  | .dropPublisher p =>
    match c.hub.publishers.get? p with
    | none => c
    | some P => if c.locked p then c else c.begin c.hub (.invalidating p P.fanOut)
  | .subscribe p erased =>
    if c.locked p then c else { c with hub := c.hub.apply (.subscribe p erased) }
  | .pull s => if c.dropping s then c else { c with hub := c.hub.apply (.pull s) }
  | .arm s mailbox => if c.dropping s then c else { c with hub := c.hub.apply (.arm s mailbox) }
  | .cancel s => if c.dropping s then c else { c with hub := c.hub.apply (.cancel s) }
  | op => { c with hub := c.hub.apply op }

/-- The next critical section of a call. -/
def advance (c : Concurrent) (id : Nat) : Call → Concurrent
  | .counting _ blank serial [] => c.proceed id c.hub (.recycling blank serial)
  | .counting p blank serial (s :: rest) =>
    c.proceed id (c.hub.addCopies blank (s :: rest).length)
      (.pushing p blank serial (s :: rest).length (s :: rest))
  | .pushing p blank serial fanOut (s :: rest) =>
    c.proceed id (c.hub.push blank serial s) (.pushing p blank serial fanOut rest)
  | .pushing _ _ _ fanOut [] => c.finish id (c.hub.count (.published fanOut.toUInt64))
  | .recycling blank _ => c.finish id ((c.hub.recycle blank).count (.published 0))
  | .unsubscribing s p => if c.locked p then c else c.proceed id (c.hub.delist p s) (.draining s)
  | .draining s =>
    match c.hub.subscriptions.get? s with
    | none => c.finish id c.hub
    | some sub =>
      c.proceed id (c.hub.modifySubscription s ({ · with queue := [], armed := none }))
        (.withdrawing s sub.queue sub.armed)
  | .withdrawing s drained armed =>
    c.proceed id ((c.hub.withdraw armed).note .trace "Subscription dropped"
      [("released", toString drained.length)]) (.releasing s drained)
  | .releasing s (x :: drained) => c.proceed id (c.hub.giveUp x) (.releasing s drained)
  | .releasing s [] =>
    c.finish id ({ c.hub with subscriptions := c.hub.subscriptions.erase s }.count
      .subscriptionClosed)
  | .invalidating p invalidated =>
    match c.hub.publishers.get? p with
    | none => c.finish id c.hub
    | some P =>
      match P.receivers with
      | s :: _ =>
        c.proceed id ({ c.hub with
          publishers := c.hub.publishers.modify p (·.tail) }.invalidate s) (.invalidating p invalidated)
      | [] =>
        c.finish id ({ c.hub with publishers := c.hub.publishers.erase p }.note .debug
          "Publisher torn down" [("publisher", P.name), ("invalidated", toString invalidated)])

def resume (c : Concurrent) (id : Nat) : Concurrent :=
  match c.calls.get? id with
  | none => c
  | some call => c.advance id call

inductive Step
  | start (op : Operation)
  | resume (id : Nat)

def step (c : Concurrent) : Step → Concurrent
  | .start op => c.start op
  | .resume id => c.resume id

def run (c : Concurrent) (steps : List Step) : Concurrent := steps.foldl step c

end Concurrent

end BufferFlow
