set_option autoImplicit false

namespace BufferFlow

inductive Level
  | trace
  | debug
  | info
  | warn
  | error
  deriving DecidableEq

def Level.name : Level → String
  | .trace => "TRACE"
  | .debug => "DEBUG"
  | .info => "INFO"
  | .warn => "WARN"
  | .error => "ERROR"

structure Record where
  level : Level
  message : String
  fields : List (String × String)
  deriving DecidableEq

end BufferFlow
