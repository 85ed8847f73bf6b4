import BufferFlow.Hub.Operation

set_option autoImplicit false

namespace BufferFlow

structure Publication where
  publisher : Nat
  ref : SlotRef
  serial : Nat
  payload : Payload
  deriving DecidableEq

def Publication.copy (p : Publication) (erased : Bool) : Copy := ⟨p.ref, p.serial, erased⟩

namespace Hub

/-- What the operation publishes. Without a blank or without the publisher it is nothing. -/
def publication? (h : Hub) : Operation → Option Publication
  | .publish publisher blank =>
    if blank ∈ h.blanks ∧ h.publishers.contains publisher then
      (h.payload? blank).map fun payload => ⟨publisher, blank, h.serial, payload⟩
    else none
  | _ => none

def history (h : Hub) : List Operation → List Publication
  | [] => []
  | op :: ops => (h.publication? op).toList ++ (h.apply op).history ops

def publishedBy (h : Hub) (publisher : Nat) (ops : List Operation) : List Publication :=
  (h.history ops).filter (·.publisher = publisher)

end Hub

end BufferFlow
