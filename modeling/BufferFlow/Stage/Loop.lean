import BufferFlow.Hub.Publish

set_option autoImplicit false

/-! # Rounds of a stage

A relay fills its own buffers and publishes them. An aggregator joins a primary source with gates:
each round takes one buffer from every source and publishes a derived one only if all gates are
open. Both run in small steps, so that others may act in between, and both end by themselves. -/

namespace BufferFlow

inductive Termination
  | noListeners
  | sourceGone
  | gateClosed
  deriving DecidableEq

def Termination.name : Termination → String
  | .noListeners => "NoListeners"
  | .sourceGone => "SourceGone"
  | .gateClosed => "GateClosed"

/-- What a stage's function leaves in the buffer, and the fault that stopped it there, if any. -/
structure Written where
  payload : Payload
  fault : Option Fault := none

/-- Fills a blank for a step; also told what the blank holds so far. -/
abbrev Filler := Nat → Payload → Written

/-- Derives a payload from a source; told how often it was called before and what the blank holds
so far. -/
abbrev Transform := Nat → Payload → Payload → Written

inductive Progress (α : Type)
  | blocked
  | running (hub : Hub) (loop : α)
  | stopped (hub : Hub) (reason : Termination)
  | faulted (hub : Hub) (fault : Fault)

inductive RelayPhase
  | acquiring
  | filling (blank : SlotRef)
  | publishing (blank : SlotRef)

structure RelayLoop where
  publisher : Nat
  fill : Filler
  step : UInt64 := 0
  phase : RelayPhase := .acquiring

namespace Hub

def acquireFor? (h : Hub) (publisher : Nat) : Option (SlotRef × Hub) := do
  h.acquire? (← h.poolOf? publisher)

end Hub

namespace RelayLoop

def advance (l : RelayLoop) (h : Hub) : Progress RelayLoop :=
  match l.phase with
  | .acquiring =>
    match h.acquireFor? l.publisher with
    | none => .blocked
    | some (blank, h) => .running h { l with phase := .filling blank }
  | .filling blank =>
    match h.payload? blank with
    | none => .blocked
    | some old =>
      let written := l.fill l.step.toNat old
      let h := h.write blank written.payload
      match written.fault with
      | none => .running h { l with phase := .publishing blank }
      | some fault => .faulted (h.dropBlank blank) fault
  | .publishing blank =>
    let (fanOut, h) := h.publish l.publisher blank
    -- the step is counted before the listeners are looked at
    match Checked.add l.step 1 with
    | .error fault => .faulted h fault
    | .ok step =>
      if fanOut = 0 then .stopped h .noListeners
      else .running h { l with step, phase := .acquiring }

def close (l : RelayLoop) (h : Hub) : Hub := h.dropPublisher l.publisher

end RelayLoop

inductive AggregatorPhase
  /-- The cells of the sources armed so far, the primary first. -/
  | arming (cells : List Nat)
  | waiting (cells : List Nat)
  | acquiring (source : Copy)
  | transforming (source : Copy) (blank : SlotRef)
  | publishing (blank : SlotRef)

structure AggregatorLoop where
  publisher : Nat
  primary : Nat
  gates : List Nat
  transform : Transform
  calls : Nat := 0
  mailbox : Nat
  phase : AggregatorPhase := .arming []

namespace AggregatorLoop

def sources (l : AggregatorLoop) : List Nat := l.primary :: l.gates

/-- Takes the signal out of a gate's cell and gives it up; tells whether it was there and open. -/
def takeGate (h : Hub) (cell : Nat) : Bool × Hub :=
  match h.takeCell cell with
  | (none, h) => (false, h.dropCell cell)
  | (some c, h) => (((h.read? c).map (·.isOpen)).getD false, (h.release c).dropCell cell)

def takeGates (h : Hub) (cells : List Nat) : Bool × Hub :=
  cells.foldl (fun (isOpen, h) cell => (isOpen && (takeGate h cell).1, (takeGate h cell).2))
    (true, h)

/-- Takes one buffer from each source after a completed join. -/
def take (l : AggregatorLoop) (h : Hub) (cells : List Nat) : Progress AggregatorLoop :=
  match cells with
  | [] => .stopped h .sourceGone
  | primary :: gates =>
    let (isOpen, h) := takeGates h gates
    match h.takeCell primary with
    | (none, h) => .stopped (h.dropCell primary) .sourceGone
    | (some source, h) =>
      let h := h.dropCell primary
      if isOpen then .running h { l with phase := .acquiring source }
      else .stopped (h.release source) .gateClosed

/-- Disarms all sources after a failed join and gives up what had arrived. -/
def abandon (l : AggregatorLoop) (h : Hub) (cells : List Nat) : Hub :=
  cells.foldl Hub.dropCell (l.sources.foldl Hub.cancel h)

def advance (l : AggregatorLoop) (h : Hub) : Progress AggregatorLoop :=
  match l.phase with
  | .arming cells =>
    match l.sources[cells.length]? with
    | none => .running h { l with phase := .waiting cells }
    | some source =>
      let (cell, h) := h.arm source l.mailbox
      .running h { l with phase := .arming (cells ++ [cell]) }
  | .waiting cells =>
    match h.wait? l.mailbox with
    | none => .blocked
    | some (true, h) => l.take h cells
    | some (false, h) => .stopped (l.abandon h cells) .sourceGone
  | .acquiring source =>
    match h.acquireFor? l.publisher with
    | none => .blocked
    | some (blank, h) => .running h { l with phase := .transforming source blank }
  | .transforming source blank =>
    match h.read? source, h.payload? blank with
    | some payload, some old =>
      let written := l.transform l.calls payload old
      let h := h.write blank written.payload
      match written.fault with
      | none =>
        .running (h.chain blank source)
          { l with calls := l.calls + 1, phase := .publishing blank }
      | some fault => .faulted ((h.dropBlank blank).release source) fault
    | _, _ => .blocked
  | .publishing blank =>
    let (fanOut, h) := h.publish l.publisher blank
    if fanOut = 0 then .stopped h .noListeners
    else .running h { l with phase := .arming [] }

def close (l : AggregatorLoop) (h : Hub) : Hub :=
  l.sources.foldl Hub.dropSubscription (h.dropPublisher l.publisher)

end AggregatorLoop

end BufferFlow
