import BufferFlow.Error
import BufferFlow.SocketAddress

set_option autoImplicit false

namespace BufferFlow

structure PipelineConfig where
  buffers : UInt64 := 4
  vectorSize : UInt64 := 1024
  gates : UInt64 := 1
  /-- Steps for which the gates stay open; zero means for ever. -/
  steps : UInt64 := 1000
  /-- On each step one element in so many fires. -/
  firingPeriod : UInt64 := 7
  deriving DecidableEq

namespace PipelineConfig

def gateOpen (c : PipelineConfig) (step : UInt64) : Bool := c.steps == 0 || step < c.steps

def validate (c : PipelineConfig) : Except Error Unit :=
  if c.buffers = 0 then .error (.invalidConfig "pipeline.buffers must be > 0")
  else if c.vectorSize = 0 then .error (.invalidConfig "pipeline.vector_size must be > 0")
  else if c.firingPeriod = 0 then .error (.invalidConfig "pipeline.firing_period must be > 0")
  else .ok ()

end PipelineConfig

structure MetricsConfig where
  enabled : Bool := false
  bindAddress : SocketAddress := .v4 ⟨127, 0, 0, 1⟩ 9090
  statsAddress : SocketAddress := .v4 ⟨127, 0, 0, 1⟩ 9091
  deriving DecidableEq

structure LoggingConfig where
  level : String := "info"
  format : String := "pretty"
  deriving DecidableEq

structure Config where
  pipeline : PipelineConfig
  metrics : MetricsConfig := {}
  logging : LoggingConfig := {}
  deriving DecidableEq

inductive ConfigError
  | unreadable (quotedPath : String)
  | malformed
  | refused (error : Error)
  | sharedAddress
  deriving DecidableEq

def ConfigError.name : ConfigError → String
  | .unreadable _ => "Io"
  | .malformed => "Toml"
  | .refused e => e.name
  | .sharedAddress => "Invalid"

def ConfigError.message : ConfigError → String
  | .unreadable quotedPath => s!"Failed to read config file: {quotedPath}"
  | .malformed => "Failed to parse config file"
  | .refused error => error.message
  | .sharedAddress => "metrics.bind_addr and metrics.api_addr must differ"

/-- Both endpoints are served only when metrics are enabled, so only then must they differ. -/
def Config.validate (c : Config) : Except ConfigError Unit :=
  match c.pipeline.validate with
  | .error error => .error (.refused error)
  | .ok () =>
    if c.metrics.enabled ∧ c.metrics.bindAddress = c.metrics.statsAddress then
      .error .sharedAddress
    else .ok ()

end BufferFlow
