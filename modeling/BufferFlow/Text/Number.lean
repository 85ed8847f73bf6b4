set_option autoImplicit false

namespace BufferFlow.Text

def ofDigits (digits : List Char) : Nat :=
  digits.foldl (fun n c => n * 10 + (c.toNat - '0'.toNat)) 0

def dropPlus : List Char → List Char
  | '+' :: cs => cs
  | cs => cs

def dropSign : List Char → List Char
  | '-' :: cs => cs
  | cs => dropPlus cs

def isDigits (cs : List Char) : Bool := !cs.isEmpty && cs.all Char.isDigit

/-- A number that a plus sign may precede. -/
def natural? (cs : List Char) : Option Nat :=
  let digits := dropPlus cs
  if isDigits digits then some (ofDigits digits) else none

def isExponent : List Char → Bool
  | [] => true
  | c :: cs => (c == 'e' || c == 'E') && isDigits (dropSign cs)

/-- Digits with a point among or around them, and an exponent. -/
def isFinite (cs : List Char) : Bool :=
  let whole := cs.takeWhile Char.isDigit
  match cs.drop whole.length with
  | '.' :: rest =>
    let fraction := rest.takeWhile Char.isDigit
    (!whole.isEmpty || !fraction.isEmpty) && isExponent (rest.drop fraction.length)
  | rest => !whole.isEmpty && isExponent rest

def isReal (cs : List Char) : Bool :=
  let number := dropSign cs
  isFinite number || ["inf", "infinity", "nan"].contains (String.ofList (number.map Char.toLower))

end BufferFlow.Text
