import BufferFlow.Error
import BufferFlow.Payload

set_option autoImplicit false

/-! # Buffer pools

A pool owns a fixed number of buffer slots and a stack of the free ones; the slot that came back
last is taken first. A slot in use counts the copies of its buffer that are alive, and may hold one
copy of another buffer until it is recycled. -/

namespace BufferFlow

structure SlotRef where
  pool : Nat
  slot : Nat
  deriving DecidableEq

/-- One subscriber's share of a published buffer. Publications are numbered over all publishers,
and `erased` copies do not show the type of their payload. -/
structure Copy where
  ref : SlotRef
  serial : Nat
  erased : Bool
  deriving DecidableEq

structure BufferSlot where
  payload : Payload
  copies : Nat := 0
  chained : Option Copy := none

/-- What a pool expects of its users and finds broken: that no copy is given up which is not
counted, and that no slot comes back while all are free. -/
inductive Misuse
  | releasedTooOften
  | overRecycled
  deriving DecidableEq

structure Pool where
  name : String
  slots : Array BufferSlot
  free : List Nat
  acquires : UInt64 := 0
  recycles : UInt64 := 0
  misuses : List Misuse := []

structure PoolStats where
  capacity : Nat
  available : Nat
  inFlight : Nat
  acquires : UInt64
  recycles : UInt64
  deriving DecidableEq

namespace Pool

def payloadFor (name : String) (factory : Payload.Factory) (i : Nat) : Except Failure Payload :=
  match factory.make i with
  | .error fault => .error (.faulted fault)
  | .ok payload =>
    if payload.byteSize = 0 then .error (.refused (.emptyPayload name)) else .ok payload

def addSlots (name : String) (factory : Payload.Factory) :
    Nat → Nat → Array BufferSlot → Except Failure (Array BufferSlot)
  | 0, _, slots => .ok slots
  | count + 1, i, slots =>
    match payloadFor name factory i with
    | .error failure => .error failure
    | .ok payload => addSlots name factory count (i + 1) (slots.push { payload })

def room (bytes : Nat) : Except Failure Unit :=
  match Memory.reserve bytes with
  | .error fault => .error (.faulted fault)
  | .ok _ => .ok ()

/-- A pool with all slots free, the first on top. The factory is not asked for anything when no
slots are wanted or too many payloads, and for nothing more once it gave an empty payload. The
payloads become slots, and the numbers of the free slots are listed, when all payloads are there. -/
def new (name : String) (capacity : Nat) (factory : Payload.Factory) : Except Failure Pool :=
  if capacity = 0 then .error (.refused (.invalidCapacity capacity))
  else do
    room (capacity * factory.kind.width)
    let slots ← addSlots name factory capacity 0 #[]
    room (capacity * factory.kind.slotWidth)
    room (capacity * 8)
    return { name, slots, free := List.range capacity }

def capacity (p : Pool) : Nat := p.slots.size

def stats (p : Pool) : PoolStats :=
  ⟨p.capacity, p.free.length, p.capacity - p.free.length, p.acquires, p.recycles⟩

def kind? (p : Pool) : Option Payload.Kind := (p.slots[0]?).map (·.payload.kind)

def take? (p : Pool) : Option (Nat × Pool) :=
  match p.free with
  | [] => none
  | slot :: free => some (slot, { p with free, acquires := p.acquires + 1 })

def expect (p : Pool) (holds : Bool) (misuse : Misuse) : Pool :=
  if holds then p else { p with misuses := misuse :: p.misuses }

def put (p : Pool) (slot : Nat) : Pool :=
  { p.expect (p.free.length < p.slots.size) .overRecycled with
    free := slot :: p.free
    recycles := p.recycles + 1 }

def modifySlot (p : Pool) (slot : Nat) (f : BufferSlot → BufferSlot) : Pool :=
  { p with slots := p.slots.modify slot f }

def discount (p : Pool) (slot : Nat) : Pool :=
  (p.expect (p.slots[slot]?.any (0 < ·.copies)) .releasedTooOften).modifySlot slot fun s =>
    { s with copies := s.copies - 1 }

end Pool

end BufferFlow
