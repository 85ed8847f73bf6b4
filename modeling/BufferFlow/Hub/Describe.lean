import BufferFlow.Hub.State
import BufferFlow.Text.Quoted

set_option autoImplicit false

namespace BufferFlow.Hub

def describeFields (name : String) (fields : List (String × String)) : String :=
  name ++ " \x7b " ++ ", ".intercalate (fields.map fun (key, text) => key ++ ": " ++ text) ++ " \x7d"

def boolText (b : Bool) : String := if b then "true" else "false"

def describePool? (h : Hub) (pool : Nat) : Option String :=
  (h.pools.get? pool).map fun p =>
    describeFields "Pool" [("name", Text.quoted p.name), ("capacity", toString p.capacity)]

def describePublisher? (h : Hub) (publisher : Nat) : Option String :=
  (h.publishers.get? publisher).map fun p =>
    describeFields "Publisher" [("name", Text.quoted p.name), ("fan_out", toString p.fanOut)]

def describeSubscription? (h : Hub) (subscription : Nat) : Option String :=
  (h.subscriptions.get? subscription).map fun s =>
    describeFields "Subscription" [("active", boolText s.isActive),
      ("queued", toString s.queue.length), ("armed", boolText s.armed.isSome)]

def describeCopy (h : Hub) (c : Copy) : String :=
  describeFields (if c.erased then "Handle" else "Delivery")
    [("pool", Text.quoted (h.poolName c.ref.pool)), ("slot", toString c.ref.slot)]

end BufferFlow.Hub
