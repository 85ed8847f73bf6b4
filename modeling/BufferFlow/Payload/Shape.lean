import BufferFlow.Payload

set_option autoImplicit false

namespace BufferFlow.Payload

inductive Shape
  | signal
  | exchange (bits : Nat)
  | fire (bits : Nat)
  | sink (description : Description)
  | bytes (sizes : List Nat)

namespace Shape

def kind : Shape → Kind
  | .signal => .signal
  | .exchange _ => .exchange
  | .fire _ => .fire
  | .sink _ => .sink
  | .bytes _ => .bytes

def make : Shape → Nat → Except Fault Payload
  | .signal, _ => .ok (.signal .closed)
  | .exchange bits, _ => .ok (.exchange (.new bits))
  | .fire bits, _ => .ok (.fire (.new bits))
  | .sink description, _ => (SinkBuffer.new description).map .sink
  | .bytes sizes, i => do
    let size ← Memory.reserve (sizes.getD (i % sizes.length) 0)
    return .bytes (List.replicate size 0)

def factory (s : Shape) : Factory := ⟨s.kind, s.make⟩

end Shape

end BufferFlow.Payload
