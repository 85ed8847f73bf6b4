import BufferFlow.Config
import BufferFlow.Text.Quoted
import BufferFlow.Text.Utf8
import BufferFlow.Toml.Reader

set_option autoImplicit false

namespace BufferFlow.Config

open Toml (Value Members)

/-- The fields of a section, found by name or by place. -/
inductive Section
  | named (members : Members)
  | listed (items : List Value)

namespace Section

/-- A time is a section without any known field. -/
def ofValue? : Value → Option Section
  | .table _ members => some (.named members)
  | .array items => some (.listed items)
  | .tables elements => some (.listed (elements.map (.table .header)))
  | .datetime _ => some (.named [])
  | _ => none

def find? : Section → String → Nat → Option Value
  | .named members, key, _ => members.lookup key
  | .listed items, _, place => items[place]?

/-- A field, its default where there is none, and nothing where it has the wrong type. -/
def field {α : Type} (s : Section) (key : String) (place : Nat) (read : Value → Option α)
    (fallback : α) : Option α :=
  match s.find? key place with
  | none => some fallback
  | some v => read v

end Section

def word? : Value → Option UInt64
  | .integer n => if 0 ≤ n ∧ n.toNat < UInt64.size then some n.toNat.toUInt64 else none
  | _ => none

def flag? : Value → Option Bool
  | .boolean b => some b
  | _ => none

def text? : Value → Option String
  | .string s => some s
  | _ => none

def address? (v : Value) : Option SocketAddress := (text? v).bind SocketAddress.parse?

def pipeline? (s : Section) : Option PipelineConfig := do
  let defaults : PipelineConfig := {}
  return {
    buffers := ← s.field "buffers" 0 word? defaults.buffers
    vectorSize := ← s.field "vector_size" 1 word? defaults.vectorSize
    gates := ← s.field "gates" 2 word? defaults.gates
    steps := ← s.field "steps" 3 word? defaults.steps
    firingPeriod := ← s.field "firing_period" 4 word? defaults.firingPeriod }

def metrics? (s : Section) : Option MetricsConfig := do
  let defaults : MetricsConfig := {}
  return {
    enabled := ← s.field "enabled" 0 flag? defaults.enabled
    bindAddress := ← s.field "bind_addr" 1 address? defaults.bindAddress
    statsAddress := ← s.field "api_addr" 2 address? defaults.statsAddress }

def logging? (s : Section) : Option LoggingConfig := do
  let defaults : LoggingConfig := {}
  return {
    level := ← s.field "level" 0 text? defaults.level
    format := ← s.field "format" 1 text? defaults.format }

def ofMembers? (members : Members) : Option Config := do
  let section? (key : String) : Option (Option Section) :=
    match members.lookup key with
    | none => some none
    | some v => (Section.ofValue? v).map some
  let pipeline ← pipeline? (← ← section? "pipeline")
  let metrics ← metrics? ((← section? "metrics").getD (.named []))
  let logging ← logging? ((← section? "logging").getD (.named []))
  return { pipeline, metrics, logging }

def parse (text : String) : Except ConfigError Config :=
  match (Toml.parse? text).bind ofMembers? with
  | none => .error .malformed
  | some config =>
    match config.validate with
    | .error e => .error e
    | .ok () => .ok config

def load (path : String) (contents : Option (List UInt8)) : Except ConfigError Config :=
  match contents.bind Text.Utf8.decode? with
  | none => .error (.unreadable (Text.quoted path))
  | some cs => parse (String.ofList cs)

end BufferFlow.Config
