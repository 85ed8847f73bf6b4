import BufferFlow.Counters
import BufferFlow.Pool
import BufferFlow.Record
import BufferFlow.Table

set_option autoImplicit false

/-! # The hub

All pools, publishers, subscriptions and mailboxes of a program as one value, together with the
blanks and copies that are in somebody's hands. A copy exists in exactly one place: in a queue, in a
cell that an armed pull filled, chained to another slot, or in hand. -/

namespace BufferFlow

/-- Publishers list their subscriptions in the order in which they were taken, typed ones apart
from observers. -/
structure Publisher where
  name : String
  pool : Nat
  typed : List Nat := []
  observers : List Nat := []

namespace Publisher

def receivers (p : Publisher) : List Nat := p.typed ++ p.observers

def fanOut (p : Publisher) : Nat := p.receivers.length

end Publisher

/-- Where the next delivery goes instead of the queue. -/
structure Armed where
  cell : Nat
  mailbox : Nat
  deriving DecidableEq

structure Subscription where
  erased : Bool
  publisher : Option Nat
  queue : List Copy := []
  armed : Option Armed := none

namespace Subscription

def isActive (s : Subscription) : Bool := s.publisher.isSome

end Subscription

/-- Armed pulls still to arrive, and whether an armed source is gone. -/
structure Mailbox where
  pending : Nat := 0
  failed : Bool := false
  deriving DecidableEq

structure Hub where
  pools : Table Pool := {}
  publishers : Table Publisher := {}
  subscriptions : Table Subscription := {}
  mailboxes : Table Mailbox := {}
  /-- Destinations of armed pulls; a cell is gone once its owner let go of it. -/
  cells : Table (Option Copy) := {}
  blanks : List SlotRef := []
  held : List Copy := []
  serial : Nat := 0
  counters : Counters := {}
  log : List Record := []

namespace Hub

def count (h : Hub) (e : Event) : Hub := { h with counters := h.counters.record e }

def note (h : Hub) (level : Level) (message : String) (fields : List (String × String)) : Hub :=
  { h with log := ⟨level, message, fields⟩ :: h.log }

def modifyPool (h : Hub) (pool : Nat) (f : Pool → Pool) : Hub :=
  { h with pools := h.pools.modify pool f }

def modifySlot (h : Hub) (r : SlotRef) (f : BufferSlot → BufferSlot) : Hub :=
  h.modifyPool r.pool (·.modifySlot r.slot f)

def modifySubscription (h : Hub) (s : Nat) (f : Subscription → Subscription) : Hub :=
  { h with subscriptions := h.subscriptions.modify s f }

def slot? (h : Hub) (r : SlotRef) : Option BufferSlot := do
  (← h.pools.get? r.pool).slots[r.slot]?

def payload? (h : Hub) (r : SlotRef) : Option Payload := (h.slot? r).map (·.payload)

def copiesAt (h : Hub) (r : SlotRef) : Nat := ((h.slot? r).map (·.copies)).getD 0

def chainedAt (h : Hub) (r : SlotRef) : Option Copy := (h.slot? r).bind (·.chained)

def poolName (h : Hub) (pool : Nat) : String := ((h.pools.get? pool).map (·.name)).getD ""

def poolOf? (h : Hub) (publisher : Nat) : Option Nat :=
  (h.publishers.get? publisher).map (·.pool)

def poolStats? (h : Hub) (pool : Nat) : Option PoolStats := (h.pools.get? pool).map (·.stats)

def kind? (h : Hub) (pool : Nat) : Option Payload.Kind := (h.pools.get? pool).bind (·.kind?)

end Hub

end BufferFlow
