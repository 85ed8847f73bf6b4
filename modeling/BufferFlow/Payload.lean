import BufferFlow.Payload.SinkBuffer
import BufferFlow.Payload.Vector

set_option autoImplicit false

namespace BufferFlow

structure Signal where
  status : Bool
  deriving DecidableEq

namespace Signal

def closed : Signal := ⟨false⟩

def byteSize (_ : Signal) : Nat := 1

end Signal

inductive Payload
  | signal (value : Signal)
  | exchange (value : ExchangeVector)
  | fire (value : FireVector)
  | sink (value : SinkBuffer)
  | bytes (value : List UInt8)
  deriving DecidableEq

namespace Payload

inductive Kind
  | signal
  | exchange
  | fire
  | sink
  | bytes
  deriving DecidableEq

def Kind.named : List (String × Kind) :=
  [("signal", .signal), ("exchange", .exchange), ("fire", .fire), ("sink", .sink),
    ("bytes", .bytes)]

/-- Bytes that a sequence of payloads takes for each of them, besides what they point to. -/
def Kind.width : Kind → Nat
  | .signal => 1
  | .exchange => 32
  | .fire => 32
  | .sink => 56
  | .bytes => 24

/-- Bytes that a sequence of buffer slots takes for each of them: the lock of the payload in one word
and the payload in whole words, the count of copies in one word, and the chained copy with its lock
in four. -/
def Kind.slotWidth (kind : Kind) : Nat :=
  8 * (1 + (kind.width + 7) / 8 + 1 + 4)

def kind : Payload → Kind
  | .signal _ => .signal
  | .exchange _ => .exchange
  | .fire _ => .fire
  | .sink _ => .sink
  | .bytes _ => .bytes

def byteSize : Payload → Nat
  | .signal s => s.byteSize
  | .exchange v => v.byteSize
  | .fire v => v.byteSize
  | .sink b => b.byteSize
  | .bytes data => data.length

def isOpen : Payload → Bool
  | .signal s => s.status
  | _ => false

/-- Makes payloads of one kind, given how many it made before. -/
structure Factory where
  kind : Kind
  make : Nat → Except Fault Payload

end Payload

end BufferFlow
