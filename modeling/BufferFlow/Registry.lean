import BufferFlow.Error
import BufferFlow.Record

set_option autoImplicit false

/-! # The registry

Producers of one product by type name and device, and instantiators by type name. The first that is
registered under a key stays; a second is refused and changes nothing. -/

namespace BufferFlow

structure Registry (π ι : Type) where
  product : String
  producers : List ((String × Device) × π) := []
  instantiators : List (String × ι) := []

namespace Registry

variable {π ι : Type}

def size (r : Registry π ι) : Nat := r.producers.length

def isEmpty (r : Registry π ι) : Bool := r.producers.isEmpty

def producer? (r : Registry π ι) (typeName : String) (device : Device) : Option π :=
  r.producers.lookup (typeName, device)

def require (r : Registry π ι) (typeName : String) (device : Device) : Except Error π :=
  match r.producer? typeName device with
  | none => .error (.missingProducer r.product typeName device)
  | some p => .ok p

def register (r : Registry π ι) (typeName : String) (device : Device) (p : π) :
    Except Error (Registry π ι) :=
  if (r.producer? typeName device).isSome then
    .error (.duplicateProducer r.product typeName device)
  else .ok { r with producers := r.producers ++ [((typeName, device), p)] }

def instantiator? (r : Registry π ι) (typeName : String) : Option ι :=
  r.instantiators.lookup typeName

def registerInstantiator (r : Registry π ι) (typeName : String) (i : ι) :
    Except Error (Registry π ι) :=
  if (r.instantiator? typeName).isSome then
    .error (.duplicateInstantiator r.product typeName)
  else .ok { r with instantiators := r.instantiators ++ [(typeName, i)] }

def types (r : Registry π ι) (device : Device) : List String :=
  ((r.producers.filter (·.1.2 == device)).map (·.1.1)).mergeSort fun a b => decide (a ≤ b)

def producerFields (r : Registry π ι) (typeName : String) (device : Device) :
    List (String × String) :=
  [("product", r.product), ("type_name", typeName), ("device", device.label)]

def instantiatorFields (r : Registry π ι) (typeName : String) : List (String × String) :=
  [("product", r.product), ("type_name", typeName)]

def registerRecord (r : Registry π ι) (typeName : String) (device : Device) : Record :=
  if (r.producer? typeName device).isSome then
    ⟨.warn, "Producer already registered", r.producerFields typeName device⟩
  else ⟨.debug, "Producer registered", r.producerFields typeName device⟩

/-- What looking for a producer tells the log: something only where there is none. -/
def producerRecord? (r : Registry π ι) (typeName : String) (device : Device) : Option Record :=
  if (r.producer? typeName device).isSome then none
  else some ⟨.warn, "Producer was not registered", r.producerFields typeName device⟩

def registerInstantiatorRecord (r : Registry π ι) (typeName : String) : Record :=
  if (r.instantiator? typeName).isSome then
    ⟨.warn, "Instantiator already registered", r.instantiatorFields typeName⟩
  else ⟨.debug, "Instantiator registered", r.instantiatorFields typeName⟩

def instantiatorRecord? (r : Registry π ι) (typeName : String) : Option Record :=
  if (r.instantiator? typeName).isSome then none
  else some ⟨.warn, "Instantiator was not registered", r.instantiatorFields typeName⟩

end Registry

end BufferFlow
