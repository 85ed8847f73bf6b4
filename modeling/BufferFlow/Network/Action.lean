import BufferFlow.Hub.Operation
import BufferFlow.Network

set_option autoImplicit false

namespace BufferFlow.Network

inductive Action
  | hub (op : Operation)
  | newRelay (name : String) (capacity : Nat) (factory : Payload.Factory) (fill : Filler)
  | newAggregator (name : String) (capacity : Nat) (factory : Payload.Factory) (primary : Nat)
    (gates : List Nat) (transform : Transform)
  | newSink (name : String) (description : Description) (buffers source : Nat)
    (dependents : List Nat) (collect : Transform)
  | subscribe (stage : Nat) (erased : Bool)
  | start (stage : Nat)
  | join (stage : Nat)
  | dropStage (stage : Nat)
  | advance (stage : Nat)

def running? (n : Network) (stage : Nat) : Option Stage := do
  let s ← n.stages.get? stage
  match s.thread with
  | .running => some s
  | _ => none

def act (n : Network) : Action → Network
  | .hub op => n.withHub (n.hub.apply op)
  | .newRelay name capacity factory fill =>
    match n.newRelay name capacity factory fill with
    | .error _ => n
    | .ok (_, n) => n
  | .newAggregator name capacity factory primary gates transform =>
    (n.newAggregator name capacity factory primary gates transform).2
  | .newSink name description buffers source dependents collect =>
    (n.newSink name description buffers source dependents collect).2
  | .subscribe stage erased => (n.subscribe stage erased).2
  | .start stage => (n.start stage).2
  | .join stage => (n.join stage).2
  | .dropStage stage => if (n.running? stage).isSome then n else n.dropStage stage
  | .advance stage => (n.advanceStage? stage).getD n

def actAll (n : Network) (actions : List Action) : Network := actions.foldl act n

end BufferFlow.Network
