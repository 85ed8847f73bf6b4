import BufferFlow.Payload.Shape
import BufferFlow.Stage

set_option autoImplicit false

/-! # Networks

A hub together with the stages that work on it. One step of a network is one step of some stage; a
network is settled when every running stage waits for somebody else. -/

namespace BufferFlow

structure Network where
  hub : Hub := {}
  stages : Table Stage := {}

namespace Network

def modifyStage (n : Network) (stage : Nat) (f : Stage → Stage) : Network :=
  { n with stages := n.stages.modify stage f }

def addStage (n : Network) (hub : Hub) (name : String) (outlet : Nat) (loop : Loop) :
    Nat × Network :=
  let (id, stages) := n.stages.insert { name, outlet, loop }
  (id, { n with hub, stages })

/-! ## Building stages -/

def newPublisher (h : Hub) (name : String) (capacity : Nat)
    (factory : Payload.Factory) : Except Failure (Nat × Hub) := do
  let (pool, h) ← h.newPool name capacity factory
  return h.newPublisher name pool

def newRelay (n : Network) (name : String) (capacity : Nat)
    (factory : Payload.Factory) (fill : Filler) : Except Failure (Nat × Network) := do
  let (publisher, hub) ← newPublisher n.hub name capacity factory
  return n.addStage hub name publisher (.relay { publisher, fill })

def letGo (n : Network) (primary : Nat) (gates : List Nat) : Network :=
  { n with hub := (gates ++ [primary]).foldl Hub.dropSubscription n.hub }

def newAggregator (n : Network) (name : String) (capacity : Nat)
    (factory : Payload.Factory) (primary : Nat) (gates : List Nat) (transform : Transform) : Except Failure Nat × Network :=
  match newPublisher n.hub name capacity factory with
  | .error failure => (.error failure, n.letGo primary gates)
  | .ok (publisher, hub) =>
    let hub := hub.note .debug "Aggregator created"
      [("stage", name), ("gates", toString gates.length)]
    let (mailbox, hub) := hub.newMailbox
    let (stage, n) := n.addStage hub name publisher
      (.aggregator { publisher, primary, gates, transform, mailbox })
    (.ok stage, n)

def note (n : Network) (level : Level) (message : String) (fields : List (String × String)) :
    Network :=
  { n with hub := n.hub.note level message fields }

/-- An aggregator that collects into buffers of the given description. A description without data
is refused before anything else. -/
def newSink (n : Network) (name : String) (description : Description) (buffers : Nat)
    (source : Nat) (dependents : List Nat) (collect : Transform) : Except Failure Nat × Network :=
  match description.byteSize with
  | .error fault => (.error (.faulted fault), n.letGo source dependents)
  | .ok size =>
    if size = 0 then
      (.error (.refused (.emptyPayload name)),
        (n.note .warn "No data is actually collected in this sink" [("stage", name)]).letGo
          source dependents)
    else if buffers = 0 then
      (.error (.refused (.invalidCapacity buffers)),
        (n.note .warn "Sink needs at least one buffer" [("stage", name)]).letGo source dependents)
    else
      match n.newAggregator name buffers (Payload.Shape.sink description).factory source dependents
          collect with
      | (.error failure, n) => (.error failure, n)
      | (.ok stage, n) =>
        (.ok stage, n.note .debug "Sink created"
          [("stage", name), ("real", toString description.real.toNat),
            ("padding", toString description.padding.toNat)])

/-! ## Using stages -/

def subscribe (n : Network) (stage : Nat) (erased : Bool) : Nat × Network :=
  let (id, hub) :=
    match n.stages.get? stage with
    | none => n.hub.subscribeDetached erased
    | some s => n.hub.subscribe s.outlet erased
  (id, { n with hub })

def state? (n : Network) (stage : Nat) : Option StageState := (n.stages.get? stage).map (·.state)

def poolStats? (n : Network) (stage : Nat) : Option PoolStats := do
  n.hub.poolStats? (← n.hub.poolOf? (← n.stages.get? stage).outlet)

/-- Starts the stage. Only the first start succeeds. If the thread cannot be named the stage counts
as started all the same, and its loop lets go of everything at once. -/
def start (n : Network) (stage : Nat) : Except Failure Unit × Network :=
  match n.stages.get? stage with
  | none => (.ok (), n)
  | some s =>
    if s.state = .idle then
      let n := { n with hub := n.hub.count .stageStarted }
      match s.nameFault? with
      | some fault =>
        let n := { n with hub := s.loop.close n.hub }
        (.error (.faulted fault),
          n.modifyStage stage ({ · with state := .running, thread := .gone }))
      | none =>
        let n := n.modifyStage stage ({ · with state := .running, thread := .running })
        (.ok (), n.note .info "Stage started" [("stage", s.name)])
    else
      (.error (.refused (.alreadyStarted s.name)),
        n.note .warn "Stage already started" [("stage", s.name)])

inductive Joined
  | nothing
  | blocked
  | ended (reason : Termination)
  | faulted (fault : Fault)

def join (n : Network) (stage : Nat) : Joined × Network :=
  match n.stages.get? stage with
  | none => (.nothing, n)
  | some s =>
    let joined := n.modifyStage stage ({ · with thread := .gone })
    match s.thread with
    | .unstarted => (.nothing, n)
    | .gone => (.nothing, n)
    | .running => (.blocked, n)
    | .ended reason => (.ended reason, joined)
    | .faulted fault => (.faulted fault, joined)

/-- Drops the stage. One that was never started lets go of what its loop would have owned; of one
that faulted without being joined the log is told. -/
def dropStage (n : Network) (stage : Nat) : Network :=
  match n.stages.get? stage with
  | none => n
  | some s =>
    let n := { n with stages := n.stages.erase stage }
    match s.thread with
    | .unstarted => { n with hub := s.loop.close n.hub }
    | .faulted _ => n.note .warn "Stage thread panicked" [("stage", s.name)]
    | _ => n

/-! ## Running stages -/

/-- What happens on a stage's thread is not told to the log of the others. -/
def onThread (n : Network) (hub : Hub) : Network := { n with hub := { hub with log := n.hub.log } }

def advanceStage? (n : Network) (stage : Nat) : Option Network :=
  match n.stages.get? stage with
  | none => none
  | some s =>
    match s.thread with
    | .running =>
      match s.loop.advance n.hub with
      | .blocked => none
      | .running hub loop => some ((n.onThread hub).modifyStage stage ({ · with loop }))
      | .stopped hub reason =>
        some ((n.onThread ((s.loop.close hub).count .stageTerminated)).modifyStage stage
          ({ · with state := .terminated reason, thread := .ended reason }))
      | .faulted hub fault =>
        some ((n.onThread (s.loop.close hub)).modifyStage stage
          ({ · with thread := .faulted fault }))
    | _ => none

def advance? (n : Network) : Option Network := n.stages.ids.findSome? n.advanceStage?

def settleWith : Nat → Network → Network
  | 0, n => n
  | fuel + 1, n =>
    match n.advance? with
    | none => n
    | some n => settleWith fuel n

/-- More steps than a network can take by itself: every round of a stage leaves a buffer in somebody
else's hands or ends the stage, and no round has more steps than there are sources and phases. -/
def stepBound (n : Network) : Nat :=
  let stages := n.stages.entries.length
  let rounds := n.hub.slotCount + stages + 1
  4 * (stages + 1) * rounds * (n.hub.subscriptions.entries.length + 8)

def settle (n : Network) : Network := settleWith n.stepBound n

def withHub (n : Network) (hub : Hub) : Network := { n with hub }

/-! ## Repeated use -/

/-- Pulls up to `limit` copies and gives each up before the next. What was pulled is told together
with the hub in which it was still in hand. -/
def drain (subscription : Nat) : Nat → Network → List (Copy × Hub) × Network
  | 0, n => ([], n)
  | limit + 1, n =>
    match n.hub.pull subscription with
    | (.ready c, hub) =>
      let (rest, n) := drain subscription limit (n.withHub (hub.release c)).settle
      ((c, hub) :: rest, n)
    | _ => ([], n)

def churn (pool : Nat) : Nat → Network → Option Network
  | 0, n => some n
  | times + 1, n => do
    let (blank, hub) ← n.hub.acquire? pool
    churn pool times (n.withHub (hub.dropBlank blank)).settle

end Network

end BufferFlow
