import BufferFlow.Device
import BufferFlow.Fault

set_option autoImplicit false

namespace BufferFlow

inductive Error
  | invalidCapacity (capacity : Nat)
  | emptyPayload (pool : String)
  | duplicateProducer (product typeName : String) (device : Device)
  | missingProducer (product typeName : String) (device : Device)
  | duplicateInstantiator (product typeName : String)
  | alreadyStarted (stage : String)
  | spawn (stage source : String)
  | invalidConfig (message : String)
  deriving DecidableEq

def Error.name : Error → String
  | .invalidCapacity _ => "InvalidCapacity"
  | .emptyPayload _ => "EmptyPayload"
  | .duplicateProducer _ _ _ => "DuplicateProducer"
  | .missingProducer _ _ _ => "MissingProducer"
  | .duplicateInstantiator _ _ => "DuplicateInstantiator"
  | .alreadyStarted _ => "AlreadyStarted"
  | .spawn _ _ => "Spawn"
  | .invalidConfig _ => "InvalidConfig"

def Error.message : Error → String
  | .invalidCapacity capacity =>
    s!"invalid pool capacity {capacity}: must be greater than 0"
  | .emptyPayload pool => s!"payload for pool '{pool}' has a byte size of zero"
  | .duplicateProducer product typeName device =>
    s!"a {device.label} {product} producer for type '{typeName}' has already been registered"
  | .missingProducer product typeName device =>
    s!"no {device.label} {product} producer registered for type '{typeName}'"
  | .duplicateInstantiator product typeName =>
    s!"{product} instantiator for type '{typeName}' has already been registered"
  | .alreadyStarted stage => s!"stage '{stage}' already started"
  | .spawn stage source => s!"failed to spawn stage '{stage}': {source}"
  | .invalidConfig message => s!"invalid configuration: {message}"

/-- Why a part was not built: it was refused, or building it faulted. -/
inductive Failure
  | refused (error : Error)
  | faulted (fault : Fault)
  deriving DecidableEq

end BufferFlow
