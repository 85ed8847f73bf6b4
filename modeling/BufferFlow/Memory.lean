import BufferFlow.Fault

set_option autoImplicit false

/-! # Memory

Memory is claimed in one piece for all items of a sequence. No piece has more bytes than a signed
64-bit offset reaches; a smaller piece can still be more than there is, but that is seen only where
the bytes are used. -/

namespace BufferFlow.Memory

def largestPiece : Nat := Nat.pow 2 63 - 1

/-- As many bytes as one piece may have before a pipeline gives up. -/
def available : Nat := Nat.pow 2 34

def reserve (bytes : Nat) : Except Fault Nat :=
  if largestPiece < bytes then .error .capacityOverflow else .ok bytes

/-- A piece that is going to be used as a whole. -/
def claim (bytes : Nat) : Except Fault Unit := do
  let bytes ← reserve bytes
  if available < bytes then .error (.outOfMemory bytes)

end BufferFlow.Memory
