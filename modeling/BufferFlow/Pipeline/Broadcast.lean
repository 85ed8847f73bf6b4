import BufferFlow.Pipeline.Schedule

set_option autoImplicit false

/-! # Broadcasts of a pipeline

Whoever reads the reports need not stay until their source is gone. A listener starts the stages and
gives up each report before it pulls the next; it may let go of its subscription at any moment, and
gives up the report in its hand after that. A broadcast is what the stages and such a listener have
made of a pipeline, in whatever order they took their steps. -/

namespace BufferFlow.Pipeline

structure Listener where
  toStart : List Nat
  attached : Bool := true
  report : Option Copy := none

namespace Listener

def leave? (p : Parts) (n : Network) (l : Listener) : Option (Listener × Network) :=
  if l.attached then
    some ({ l with attached := false }, n.withHub (n.hub.dropSubscription p.reports))
  else none

/-- One step of the listener, unless it waits for a report or is through. It stays as long as there
may be reports. -/
def advance? (p : Parts) (n : Network) (l : Listener) : Option (Listener × Network) :=
  match l.toStart, l.report with
  | stage :: rest, _ => some ({ l with toStart := rest }, (n.start stage).2)
  | [], some c => some ({ l with report := none }, n.withHub (n.hub.release c))
  | [], none =>
    if l.attached then
      match n.hub.pull p.reports with
      | (.empty, _) => none
      | (.gone, _) => l.leave? p n
      | (.ready c, hub) => some ({ l with report := some c }, n.withHub hub)
    else none

end Listener

/-- Whose turn it is: a step of the listener or of a stage, or that the listener leaves early. -/
inductive Turn
  | listener
  | leaving
  | stage (stage : Nat)

structure Broadcast where
  network : Network
  listener : Listener

namespace Broadcast

def start (p : Parts) (n : Network) : Broadcast := ⟨n, { toStart := p.starts }⟩

def advance? (p : Parts) (b : Broadcast) : Turn → Option Broadcast
  | .listener => (b.listener.advance? p b.network).map fun (listener, n) => ⟨n, listener⟩
  | .leaving => (b.listener.leave? p b.network).map fun (listener, n) => ⟨n, listener⟩
  | .stage stage => (b.network.advanceStage? stage).map fun network => { b with network }

def follow? (p : Parts) : List Turn → Broadcast → Option Broadcast
  | [], b => some b
  | turn :: rest, b => (b.advance? p turn).bind (follow? p rest)

end Broadcast

end BufferFlow.Pipeline
