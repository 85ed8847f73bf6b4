import BufferFlow.Bits
import BufferFlow.Fault

set_option autoImplicit false

namespace BufferFlow

inductive ElementType
  | bit
  | u32
  | f32
  | f64
  deriving DecidableEq

namespace ElementType

def all : List ElementType := [.bit, .u32, .f32, .f64]

def name : ElementType → String
  | .bit => "bit"
  | .u32 => "u32"
  | .f32 => "f32"
  | .f64 => "f64"

def ofName? (text : String) : Option ElementType := all.find? (·.name == text)

/-- Bits are packed into whole words. -/
def numBytes : ElementType → UInt64 → Except Fault UInt64
  | .bit, count => Checked.mul (Bits.numWords count.toNat).toUInt64 8
  | .u32, count => Checked.mul count 4
  | .f32, count => Checked.mul count 4
  | .f64, count => Checked.mul count 8

end ElementType

structure Description where
  elementType : ElementType
  real : UInt64
  padding : UInt64 := 0
  deriving DecidableEq

namespace Description

def total (d : Description) : Except Fault UInt64 := Checked.add d.real d.padding

def byteSize (d : Description) : Except Fault UInt64 := do
  d.elementType.numBytes (← d.total)

end Description

end BufferFlow
