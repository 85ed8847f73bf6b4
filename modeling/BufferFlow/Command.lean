import BufferFlow.Config.Reader
import BufferFlow.Listening
import BufferFlow.LogFilter
import BufferFlow.Pipeline
import BufferFlow.Stats
import BufferFlow.Text.Blank

set_option autoImplicit false

namespace BufferFlow.Command

def defaultPath : String := "relaypool.toml"

def target : String := "relaypool"

inductive Problem
  | unloaded (path : String)
  | invalidLevel (level : String)
  | tornLevel
  | unknownFormat (format : String)
  | exporterUnbound (address : SocketAddress)
  | statsUnbound (address : SocketAddress)
  | unbuilt
  | broken (fault : Fault)
  | faulted (fault : Fault)
  | unfinished
  deriving DecidableEq

namespace Problem

def message : Problem → String
  | .unloaded path => s!"Failed to load config from {Text.quoted path}"
  | .invalidLevel level => s!"Invalid log level: {level}"
  | .tornLevel => "A name in the log level begins or ends inside a character"
  | .unknownFormat format => s!"Unknown log format: {format}"
  | .exporterUnbound address => s!"Failed to start Prometheus exporter on {address.render}"
  | .statsUnbound address => s!"Failed to bind stats API on {address.render}"
  | .unbuilt => "Failed to build pipeline"
  | .broken fault => fault.message
  | .faulted fault => fault.message
  | .unfinished => "The pipeline does not end"

/-- What is written about the problem. A fault is reported behind an empty line, unless it is that
memory ran out. -/
def report (p : Problem) : String :=
  match p with
  | .broken (.outOfMemory _) => s!"{p.message}\n"
  | .tornLevel => s!"\n{p.message}\n"
  | .broken _ => s!"\n{p.message}\n"
  | .faulted _ => s!"\n{p.message}\n"
  | _ => s!"Error: {p.message}\n"

/-- A run that is out of memory is killed and has no code. -/
def exitCode : Problem → Option Nat
  | .broken (.outOfMemory _) => none
  | .tornLevel => some 101
  | .broken _ => some 101
  | _ => some 1

end Problem

structure Outcome where
  records : List Record
  problem : Option Problem := none

def Outcome.exitCode (o : Outcome) : Option Nat := (o.problem.map (·.exitCode)).getD (some 0)

def Outcome.errorLine (o : Outcome) : Option String :=
  o.problem.map fun p => String.ofList (Text.firstLine p.report.toList)

def filter? (logging : LoggingConfig) : Except Problem LogFilter :=
  match LogFilter.parse logging.level with
  | .error .malformed => .error (.invalidLevel logging.level)
  | .error .torn => .error .tornLevel
  | .ok filter =>
    if logging.format == "json" || logging.format == "pretty" then .ok filter
    else .error (.unknownFormat logging.format)

def starting (path : String) : Record :=
  ⟨.info, "Starting relaypool",
    [("version", version), ("config_path", Text.quoted path)]⟩

def endpointsStarted (c : MetricsConfig) : Record :=
  ⟨.info, "Metrics endpoints started",
    [("bind_addr", c.bindAddress.render), ("api_addr", c.statsAddress.render)]⟩

def unbound? (c : MetricsConfig) : Option Problem :=
  if !c.bindAddress.canListen then some (.exporterUnbound c.bindAddress)
  else if !c.statsAddress.canListen ∨ c.bindAddress.blocks c.statsAddress then
    some (.statsUnbound c.statsAddress)
  else none

def built (c : PipelineConfig) : Record :=
  ⟨.info, "Pipeline built",
    [("buffers", toString c.buffers.toNat), ("gates", toString c.gates.toNat),
      ("steps", toString c.steps.toNat)]⟩

def reasonText : Option Termination → String
  | none => "None"
  | some reason => s!"Some({reason.name})"

def stopped (r : Pipeline.RunReport) : Record :=
  ⟨.info, "Pipeline stopped",
    [("steps", toString r.steps.toNat), ("fired", toString r.fired.toNat),
      ("sink", reasonText r.sink), ("fire", reasonText r.fire),
      ("exchange", reasonText r.exchange)]⟩

/-- Runs the pipeline after the given records were written. Every step is read once, and one more
read finds the end. -/
def runPipeline (c : PipelineConfig) (records : List Record) : Outcome :=
  match (Pipeline.pieces c).forM Memory.claim with
  | .error fault => ⟨records, some (.broken fault)⟩
  | .ok () =>
    match Pipeline.build c with
    | .error (.faulted fault) => ⟨records, some (.broken fault)⟩
    | .error (.refused _) => ⟨records, some .unbuilt⟩
    | .ok (parts, network) =>
      let records := records ++ [built c]
      match Pipeline.run (c.steps.toNat + 1) parts network with
      | .error (.faulted fault) => ⟨records, some (.faulted fault)⟩
      | .error .unfinished => ⟨records, some .unfinished⟩
      | .ok report => ⟨records ++ [stopped report], none⟩

def runWith (config : Config) (records : List Record) : Outcome :=
  if config.metrics.enabled then
    match unbound? config.metrics with
    | some problem => ⟨records, some problem⟩
    | none => runPipeline config.pipeline (records ++ [endpointsStarted config.metrics])
  else runPipeline config.pipeline records

def shown (filter : LogFilter) (o : Outcome) : Outcome :=
  { o with records := o.records.filter (filter.shows target ·) }

def run (path : String) (contents : Option (List UInt8)) : Outcome :=
  match Config.load path contents with
  | .error _ => ⟨[], some (.unloaded path)⟩
  | .ok config =>
    match filter? config.logging with
    | .error problem => ⟨[], some problem⟩
    | .ok filter => shown filter (runWith config [starting path])

def pathOf (arguments : List String) : String := arguments.headD defaultPath

/-- The name of the file in the working directory that a path leads to. No file is named by the path
of a directory, nor by one that starts at the root. -/
def fileOf? (path : String) : Option String :=
  let parts := path.splitOn "/"
  let isStill (part : String) : Bool := part == "." || part == ""
  if parts.head? = some "" ∨ (parts.getLast?.map isStill).getD true then none
  else some ("/".intercalate (parts.filter (!isStill ·)))

def runAmong (files : List (String × String)) (arguments : List String) : Outcome :=
  let path := pathOf arguments
  let text? := (fileOf? path).bind fun name => files.lookup name
  run path (text?.map fun text => text.toUTF8.toList)

end BufferFlow.Command
