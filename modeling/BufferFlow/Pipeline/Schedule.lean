import BufferFlow.Pipeline

set_option autoImplicit false

/-! # Schedules of a pipeline

The reader as a party of its own: it starts the stages, reads reports until their source is gone, lets
go of its subscription and joins the stages from the bottom up. A schedule says who takes the next
step, the reader or one of the stages, and a session is what some schedule has made of a pipeline. -/

namespace BufferFlow.Pipeline

/-- How far the reader is; what it has still to start or to join comes in its order. -/
inductive Reader
  | starting (rest : List Nat)
  | reading (report : RunReport)
  | counting (report : RunReport) (copy : Copy)
  | leaving (report : RunReport)
  | joining (report : RunReport) (rest : List Nat)
  | done (report : RunReport)
  | failed (failure : Failure)

/-- The report with how a stage ended. Of the gates it says nothing. -/
def RunReport.join (r : RunReport) (p : Parts) (stage : Nat) (ended : Option Termination) :
    RunReport :=
  if stage = p.sink then { r with sink := ended }
  else if stage = p.fire then { r with fire := ended }
  else if stage = p.exchange then { r with exchange := ended }
  else r

/-- Every stage, in the order in which the reader starts them. -/
def Parts.starts (p : Parts) : List Nat := p.exchange :: p.gates ++ [p.fire, p.sink]

def Parts.joins (p : Parts) : List Nat := p.sink :: p.fire :: p.gates ++ [p.exchange]

def Reader.advance? (p : Parts) (n : Network) : Reader → Option (Reader × Network)
  | .starting [] => some (.reading {}, n)
  | .starting (stage :: rest) =>
    match n.start stage with
    | (.ok (), n) => some (.starting rest, n)
    | (.error failure, n) => some (.failed failure, n)
  | .reading r =>
    match n.hub.pull p.reports with
    | (.empty, _) => none
    | (.gone, _) => some (.leaving r, n)
    | (.ready c, hub) => some (.counting r c, n.withHub hub)
  | .counting r c =>
    match n.hub.read? c with
    | none => none
    | some payload =>
      match r.add payload with
      | .error fault => some (.failed (.faulted fault), n)
      | .ok r => some (.reading r, n.withHub (n.hub.release c))
  | .leaving r => some (.joining r p.joins, n.withHub (n.hub.dropSubscription p.reports))
  | .joining r [] => some (.done r, n)
  | .joining r (stage :: rest) =>
    match n.join stage with
    | (.blocked, _) => none
    | (.nothing, n) => some (.joining (r.join p stage none) rest, n)
    | (.ended reason, n) => some (.joining (r.join p stage (some reason)) rest, n)
    | (.faulted fault, n) => some (.failed (.faulted fault), n)
  | .done _ | .failed _ => none

inductive Party
  | reader
  | stage (stage : Nat)

structure Session where
  network : Network
  reader : Reader

namespace Session

def start (p : Parts) (n : Network) : Session := ⟨n, .starting p.starts⟩

def advance? (p : Parts) (s : Session) : Party → Option Session
  | .reader => (s.reader.advance? p s.network).map fun (reader, network) => ⟨network, reader⟩
  | .stage stage => (s.network.advanceStage? stage).map fun network => { s with network }

def follow? (p : Parts) : List Party → Session → Option Session
  | [], s => some s
  | party :: rest, s => (s.advance? p party).bind (follow? p rest)

end Session

end BufferFlow.Pipeline
