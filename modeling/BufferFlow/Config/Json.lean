import BufferFlow.Config
import BufferFlow.Json.Value

set_option autoImplicit false

namespace BufferFlow

def PipelineConfig.toJson (c : PipelineConfig) : Json :=
  .ofFields [("buffers", .ofWord c.buffers), ("vector_size", .ofWord c.vectorSize),
    ("gates", .ofWord c.gates), ("steps", .ofWord c.steps),
    ("firing_period", .ofWord c.firingPeriod)]

def MetricsConfig.toJson (c : MetricsConfig) : Json :=
  .ofFields [("enabled", .bool c.enabled), ("bind_addr", .ofText c.bindAddress.render),
    ("api_addr", .ofText c.statsAddress.render)]

def LoggingConfig.toJson (c : LoggingConfig) : Json :=
  .ofFields [("level", .ofText c.level), ("format", .ofText c.format)]

def Config.toJson (c : Config) : Json :=
  .ofFields [("pipeline", c.pipeline.toJson), ("metrics", c.metrics.toJson),
    ("logging", c.logging.toJson)]

end BufferFlow
