import BufferFlow.Hub.State

set_option autoImplicit false

namespace BufferFlow.Hub

def newPool (h : Hub) (name : String) (capacity : Nat) (factory : Payload.Factory) :
    Except Failure (Nat × Hub) := do
  let pool ← Pool.new name capacity factory
  let (id, pools) := h.pools.insert pool
  return (id, { h with pools }.note .debug "Buffer pool allocated"
    [("pool", name), ("capacity", toString capacity)])

def acquire? (h : Hub) (pool : Nat) : Option (SlotRef × Hub) := do
  let (slot, rest) ← (← h.pools.get? pool).take?
  let blank : SlotRef := ⟨pool, slot⟩
  return (blank,
    { h.modifyPool pool (fun _ => rest) with blanks := blank :: h.blanks }.count .bufferAcquired)

def write (h : Hub) (blank : SlotRef) (payload : Payload) : Hub :=
  if blank ∈ h.blanks then h.modifySlot blank ({ · with payload }) else h

def putBack (h : Hub) (r : SlotRef) : Hub :=
  (h.modifyPool r.pool (·.put r.slot)).count .bufferRecycled

def unchain (h : Hub) (r : SlotRef) : Hub := h.modifySlot r ({ · with chained := none })

def discount (h : Hub) (r : SlotRef) : Hub := h.modifyPool r.pool (·.discount r.slot)

/-- Recycles at most `fuel` slots, each holding a copy of the next. -/
def recycleWith : Nat → Hub → SlotRef → Hub
  | 0, h, _ => h
  | fuel + 1, h, r =>
    match h.chainedAt r with
    | none => h.putBack r
    | some c =>
      let h := h.unchain r
      if h.copiesAt c.ref = 1 then (recycleWith fuel (h.discount c.ref) c.ref).putBack r
      else (h.discount c.ref).putBack r

def slotCount (h : Hub) : Nat := (h.pools.values.map (·.capacity)).foldr (· + ·) 0

/-- No slot is recycled twice in one go, so there are never more to recycle than slots. -/
def recycle (h : Hub) (r : SlotRef) : Hub := recycleWith h.slotCount h r

def giveUp (h : Hub) (c : Copy) : Hub :=
  if h.copiesAt c.ref = 1 then (h.discount c.ref).recycle c.ref else h.discount c.ref

def giveUpAll (h : Hub) (cs : List Copy) : Hub := cs.foldl giveUp h

def hold (h : Hub) (c : Copy) : Hub := { h with held := c :: h.held }

def letGo (h : Hub) (c : Copy) : Hub := { h with held := h.held.erase c }

def release (h : Hub) (c : Copy) : Hub :=
  if c ∈ h.held then (h.letGo c).giveUp c else h

def read? (h : Hub) (c : Copy) : Option Payload := if c ∈ h.held then h.payload? c.ref else none

def erase (h : Hub) (c : Copy) : Copy × Hub :=
  let erased := { c with erased := true }
  (erased, if c ∈ h.held then (h.letGo c).hold erased else h)

/-- Holds on to `upstream` until the blank's slot is recycled; what was held so far is given up. -/
def chain (h : Hub) (blank : SlotRef) (upstream : Copy) : Hub :=
  if blank ∈ h.blanks ∧ upstream ∈ h.held then
    let previous := h.chainedAt blank
    let h := (h.letGo upstream).modifySlot blank
      ({ · with chained := some { upstream with erased := true } })
    match previous with
    | none => h
    | some c => h.giveUp c
  else h

def takeBlank (h : Hub) (blank : SlotRef) : Hub := { h with blanks := h.blanks.erase blank }

def dropBlank (h : Hub) (blank : SlotRef) : Hub :=
  if blank ∈ h.blanks then (h.takeBlank blank).recycle blank else h

end BufferFlow.Hub
