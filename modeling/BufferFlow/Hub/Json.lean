import BufferFlow.Hub.State
import BufferFlow.Json.Value

set_option autoImplicit false

namespace BufferFlow

def PoolStats.toJson (s : PoolStats) : Json :=
  .array [.integer s.capacity, .integer s.available, .integer s.inFlight, .ofWord s.acquires,
    .ofWord s.recycles]

def Pool.toJson (p : Pool) : Json :=
  .ofFields [("name", .ofText p.name), ("capacity", .integer p.capacity)]

def Publisher.toJson (p : Publisher) : Json :=
  .ofFields [("name", .ofText p.name), ("subscribers", .integer p.typed.length),
    ("observers", .integer p.observers.length), ("fan_out", .integer p.fanOut)]

def Subscription.toJson (s : Subscription) : Json :=
  .array [.bool s.isActive, .integer s.queue.length, .bool s.armed.isSome]

def Mailbox.toJson (m : Mailbox) : Json := .array [.integer m.pending, .bool m.failed]

def Counters.toJson (c : Counters) : Json :=
  .array (c.toFields.map fun (_, n) => .ofWord n)

def Record.toJson (r : Record) : Json :=
  .ofFields [("level", .ofText r.level.name), ("message", .ofText r.message),
    ("fields", .ofFields (r.fields.map fun (name, text) => (name, .ofText text)))]

namespace Hub

def orNull {α : Type} (toJson : α → Json) : Option α → Json
  | none => .null
  | some a => toJson a

def poolJson (h : Hub) (pool : Nat) : Json := orNull Pool.toJson (h.pools.get? pool)

def publisherJson (h : Hub) (publisher : Nat) : Json :=
  orNull Publisher.toJson (h.publishers.get? publisher)

def subscriptionJson (h : Hub) (subscription : Nat) : Json :=
  orNull Subscription.toJson (h.subscriptions.get? subscription)

def mailboxJson (h : Hub) (mailbox : Nat) : Json :=
  orNull Mailbox.toJson (h.mailboxes.get? mailbox)

def statsJson (h : Hub) (pool : Nat) : Json := orNull PoolStats.toJson (h.poolStats? pool)

end Hub

end BufferFlow
