import BufferFlow.Config
import BufferFlow.Network
import BufferFlow.Stage.Function

set_option autoImplicit false

namespace BufferFlow

namespace Pipeline

def fillExchange (period : Nat) : Filler := Filler.every period

def fillGate (config : PipelineConfig) : Filler :=
  Filler.onSignal fun step => config.gateOpen step.toUInt64

/-- Takes the source's bits over, numbers the result by the calls so far, and counts the call. -/
def deriveFire : Transform := fun calls source old =>
  match source, old with
  | .exchange v, .fire out =>
    ⟨.fire { out.setFireBits v.words with step := calls.toUInt64 }, Checked.overrun? calls⟩
  | _, other => ⟨other, none⟩

def collectFire : Transform := fun _ source old =>
  match source, old with
  | .fire v, .sink out => ⟨.sink { out.writeWords v.words.toList with step := v.step }, none⟩
  | _, other => ⟨other, none⟩

/-- The stages of a pipeline and the subscription of its reader. -/
structure Parts where
  reports : Nat
  sink : Nat
  fire : Nat
  gates : List Nat
  exchange : Nat

def addGate (config : PipelineConfig) (added : List Nat × Network) (i : Nat) :
    Except Failure (List Nat × Network) := do
  let (gate, n) ← added.2.newRelay s!"gate-{i}" config.buffers.toNat
    Payload.Shape.signal.factory (fillGate config)
  return (added.1 ++ [gate], n)

def addGates (config : PipelineConfig) (n : Network) (indices : List Nat) :
    Except Failure (List Nat × Network) :=
  indices.foldlM (addGate config) ([], n)

def subscribeNext (added : List Nat × Network) (stage : Nat) : List Nat × Network :=
  let (sub, n) := added.2.subscribe stage false
  (added.1 ++ [sub], n)

def subscribeAll (n : Network) (stages : List Nat) : List Nat × Network :=
  stages.foldl subscribeNext ([], n)

/-- The largest pieces of memory that a pipeline claims, in order: its exchange vectors, the words
of one of them, the slots of the exchange vectors, and those of its sink buffers. -/
def pieces (config : PipelineConfig) : List Nat :=
  let buffers := config.buffers.toNat
  [buffers * Payload.Kind.exchange.width, Bits.numWords config.vectorSize.toNat * 8,
    buffers * Payload.Kind.exchange.slotWidth, buffers * Payload.Kind.sink.slotWidth]

def build (config : PipelineConfig) : Except Failure (Parts × Network) := do
  let size := config.vectorSize.toNat
  let buffers := config.buffers.toNat
  let (exchange, n) ← Network.newRelay {} "exchange" buffers
    (Payload.Shape.exchange size).factory (fillExchange config.firingPeriod.toNat)
  let (gates, n) ← addGates config n (List.range config.gates.toNat)
  let (source, n) := n.subscribe exchange false
  let (signals, n) := subscribeAll n gates
  let (fire, n) := n.newAggregator "fire" buffers (Payload.Shape.fire size).factory source signals
    deriveFire
  let fire ← fire
  let (source, n) := n.subscribe fire false
  let (signals, n) := subscribeAll n gates
  let (sink, n) := n.newSink "report" ⟨.bit, config.vectorSize, 0⟩ buffers source signals
    collectFire
  let sink ← sink
  let (reports, n) := n.subscribe sink false
  return (⟨reports, sink, fire, gates, exchange⟩, n)

structure RunReport where
  steps : UInt64 := 0
  fired : UInt64 := 0
  sink : Option Termination := none
  fire : Option Termination := none
  exchange : Option Termination := none
  deriving DecidableEq

inductive RunFailure
  | faulted (fault : Fault)
  | unfinished
  deriving DecidableEq

def RunReport.add (r : RunReport) (collected : Payload) : Except Fault RunReport :=
  match collected with
  | .sink b => do
    return { r with
      steps := ← Checked.add r.steps 1
      fired := ← Checked.add r.fired (← b.countOnes).toUInt64 }
  | _ => .ok r

/-- Reads reports until their source is gone, letting the stages run in between. -/
def readReports (reports : Nat) : Nat → Network → RunReport → Except RunFailure (RunReport × Network)
  | 0, _, _ => .error .unfinished
  | fuel + 1, n, r =>
    let n := n.settle
    match n.hub.pull reports with
    | (.empty, _) => .error .unfinished
    | (.gone, _) => .ok (r, n)
    | (.ready c, hub) =>
      match hub.read? c with
      | none => .error .unfinished
      | some payload =>
        match r.add payload with
        | .error fault => .error (.faulted fault)
        | .ok r => readReports reports fuel { n with hub := hub.release c } r

def joinStage (n : Network) (stage : Nat) : Except RunFailure (Option Termination × Network) :=
  match n.join stage with
  | (.nothing, n) => .ok (none, n)
  | (.blocked, _) => .error .unfinished
  | (.ended reason, n) => .ok (some reason, n)
  | (.faulted fault, _) => .error (.faulted fault)

def startAll (n : Network) (stages : List Nat) : Network :=
  stages.foldl (fun n stage => (n.start stage).2) n

def joinAll (n : Network) (stages : List Nat) : Except RunFailure Network :=
  stages.foldlM (fun n stage => do return (← joinStage n stage).2) n

/-- Starts every stage, reads at most `reads` times, and joins the stages from the bottom up. -/
def run (reads : Nat) (p : Parts) (n : Network) : Except RunFailure RunReport := do
  let n := startAll n (p.exchange :: p.gates ++ [p.fire, p.sink])
  let (r, n) ← readReports p.reports reads n {}
  let n := { n with hub := n.hub.dropSubscription p.reports }.settle
  let (sink, n) ← joinStage n p.sink
  let (fire, n) ← joinStage n p.fire
  let n ← joinAll n p.gates
  let (exchange, _) ← joinStage n p.exchange
  return { r with sink, fire, exchange }

end Pipeline

end BufferFlow
