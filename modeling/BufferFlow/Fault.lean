set_option autoImplicit false

namespace BufferFlow

inductive Fault
  | addOverflow
  | mulOverflow
  | remainderByZero
  | instantOverflow
  | capacityOverflow
  | outOfMemory (bytes : Nat)
  | nulInName (bytes : List UInt8)
  | raised (text : String)
  deriving DecidableEq

def Fault.bytesText (bytes : List UInt8) : String :=
  "[" ++ ", ".intercalate (bytes.map fun b => toString b.toNat) ++ "]"

def Fault.message : Fault → String
  | .addOverflow => "attempt to add with overflow"
  | .mulOverflow => "attempt to multiply with overflow"
  | .remainderByZero => "attempt to calculate the remainder with a divisor of zero"
  | .instantOverflow => "overflow when adding duration to instant"
  | .capacityOverflow => "capacity overflow"
  | .outOfMemory bytes => s!"memory allocation of {bytes} bytes failed"
  | .nulInName bytes =>
    s!"thread name may not contain interior null bytes: NulError({bytes.idxOf 0}, "
      ++ s!"{bytesText bytes})"
  | .raised text => text

namespace Checked

def add (a b : UInt64) : Except Fault UInt64 :=
  if a.toNat + b.toNat < UInt64.size then .ok (a + b) else .error .addOverflow

def mul (a b : UInt64) : Except Fault UInt64 :=
  if a.toNat * b.toNat < UInt64.size then .ok (a * b) else .error .mulOverflow

def add32 (total : UInt32) (n : Nat) : Except Fault UInt32 :=
  if total.toNat + n < UInt32.size then .ok (total + n.toUInt32) else .error .addOverflow

/-- A moment later by a duration, both in nanoseconds. The seconds of a moment are kept in 64 bits
with a sign. -/
def later (now duration : Nat) : Except Fault Nat :=
  if (now + duration) / 1000000000 < Nat.pow 2 63 then .ok (now + duration) else .error .instantOverflow

/-- What stops a 64-bit count of rounds from going up after so many, if anything does. -/
def overrun? (rounds : Nat) : Option Fault :=
  if rounds + 1 < UInt64.size then none else some .addOverflow

/-- The running total is kept in 32 bits, so the sum faults as soon as it no longer fits. -/
def sum32 (ns : List Nat) : Except Fault UInt32 := ns.foldlM add32 0

end Checked

end BufferFlow
