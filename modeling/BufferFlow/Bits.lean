set_option autoImplicit false

namespace BufferFlow.Bits

def perWord : Nat := 64

def numWords (bits : Nat) : Nat := (bits + (perWord - 1)) / perWord

/-- The word that holds bit `i`, and the mask that selects it there. -/
def locate (i : Nat) : Nat × UInt64 := (i / perWord, 1 <<< (i % perWord).toUInt64)

def ones (w : UInt64) : Nat := (List.range perWord).countP w.toNat.testBit

def byteOnes (b : UInt8) : Nat := (List.range 8).countP b.toNat.testBit

def littleEndian (w : UInt64) : List UInt8 :=
  (List.range 8).map fun k => (w >>> (8 * k).toUInt64).toUInt8

end BufferFlow.Bits
