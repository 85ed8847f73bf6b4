import BufferFlow.Description
import BufferFlow.Memory

set_option autoImplicit false

namespace BufferFlow

structure SinkBuffer where
  description : Description
  data : List UInt8
  step : UInt64
  deriving DecidableEq

namespace SinkBuffer

def new (description : Description) : Except Fault SinkBuffer := do
  let size ← Memory.reserve (← description.byteSize).toNat
  return ⟨description, List.replicate size 0, 0⟩

def byteSize (b : SinkBuffer) : Nat := b.data.length

def fitted (n : Nat) (bytes : List UInt8) : List UInt8 :=
  bytes.take n ++ List.replicate (n - bytes.length) 0

/-- Overwrites everything with the words' bytes, lowest byte first. -/
def writeWords (b : SinkBuffer) (words : List UInt64) : SinkBuffer :=
  { b with data := fitted b.data.length (words.flatMap Bits.littleEndian) }

def overwrite (b : SinkBuffer) (offset : Nat) (bytes : List UInt8) : SinkBuffer :=
  let written := b.data.take offset ++ bytes ++ b.data.drop (offset + bytes.length)
  { b with data := written.take b.data.length }

def countOnes (b : SinkBuffer) : Except Fault UInt32 :=
  Checked.sum32 (b.data.map Bits.byteOnes)

end SinkBuffer

end BufferFlow
