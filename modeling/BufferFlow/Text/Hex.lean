set_option autoImplicit false

namespace BufferFlow.Text.Hex

def digit? (c : Char) : Option Nat :=
  if '0' ≤ c ∧ c ≤ '9' then some (c.toNat - '0'.toNat)
  else if 'a' ≤ c ∧ c ≤ 'f' then some (c.toNat - 'a'.toNat + 10)
  else if 'A' ≤ c ∧ c ≤ 'F' then some (c.toNat - 'A'.toNat + 10)
  else none

def digits? (text : String) : Option (List Nat) := text.toList.mapM digit?

def pairUp? : List Nat → Option (List UInt8)
  | [] => some []
  | high :: low :: rest => (pairUp? rest).map ((high * 16 + low).toUInt8 :: ·)
  | _ => none

def bytes? (text : String) : Option (List UInt8) := (digits? text).bind pairUp?

def word? (text : String) : Option UInt64 := do
  let digits ← digits? text
  let n := digits.foldl (fun n d => n * 16 + d) 0
  if digits.isEmpty ∨ UInt64.size ≤ n then none else return n.toUInt64

def ofByte (b : UInt8) : List Char :=
  [Nat.digitChar (b.toNat / 16), Nat.digitChar (b.toNat % 16)]

def ofBytes (bytes : List UInt8) : String := String.ofList (bytes.flatMap ofByte)

def ofWord (n : UInt64) : String :=
  let digits := Nat.toDigits 16 n.toNat
  String.ofList (List.replicate (16 - digits.length) '0' ++ digits)

end BufferFlow.Text.Hex
