import BufferFlow.Bits
import BufferFlow.Fault

set_option autoImplicit false

namespace BufferFlow

structure ExchangeVector where
  bits : Nat
  words : Array UInt64
  deriving DecidableEq

namespace ExchangeVector

def new (bits : Nat) : ExchangeVector := ⟨bits, Array.replicate (Bits.numWords bits) 0⟩

def isEmpty (v : ExchangeVector) : Bool := v.bits == 0

def byteSize (v : ExchangeVector) : Nat := Bits.numWords v.bits * 8

def clear (v : ExchangeVector) : ExchangeVector :=
  { v with words := Array.replicate v.words.size 0 }

def set (v : ExchangeVector) (i : Nat) : Bool × ExchangeVector :=
  if i < v.bits then
    (true, { v with words := v.words.modify (Bits.locate i).1 (· ||| (Bits.locate i).2) })
  else (false, v)

def get (v : ExchangeVector) (i : Nat) : Bool :=
  match v.words[(Bits.locate i).1]? with
  | some w => w &&& (Bits.locate i).2 != 0
  | none => false

def setNext (sets : List Bool × ExchangeVector) (i : Nat) : List Bool × ExchangeVector :=
  ((sets.2.set i).1 :: sets.1, (sets.2.set i).2)

def setAll (v : ExchangeVector) (is : List Nat) : List Bool × ExchangeVector :=
  is.foldl setNext ([], v)
  |> fun (done, v) => (done.reverse, v)

def indicesFrom (length offset period : Nat) : List Nat :=
  List.range' offset ((length - offset + (period - 1)) / period) period

/-- Sets every index that leaves the same remainder as the step, and no other. Without a period the
vector is cleared and the remainder faults. -/
def setEvery (v : ExchangeVector) (period step : Nat) : ExchangeVector × Option Fault :=
  if period = 0 then (v.clear, some .remainderByZero)
  else ((v.clear.setAll (indicesFrom v.bits (step % period) period)).2, none)

end ExchangeVector

structure FireVector where
  words : Array UInt64
  step : UInt64
  deriving DecidableEq

namespace FireVector

def new (bits : Nat) : FireVector := ⟨Array.replicate (Bits.numWords bits) 0, 0⟩

def byteSize (v : FireVector) : Nat := v.words.size * 8

/-- Takes the words over, cutting them or filling with zeros to the size that is there. -/
def setFireBits (v : FireVector) (source : Array UInt64) : FireVector :=
  let taken := source.extract 0 v.words.size
  { v with words := taken ++ Array.replicate (v.words.size - taken.size) 0 }

def countOnes (v : FireVector) : Except Fault UInt32 :=
  Checked.sum32 (v.words.toList.map Bits.ones)

end FireVector

end BufferFlow
