import BufferFlow.Json.Value

set_option autoImplicit false

namespace BufferFlow.Json

def hexPad (n : Nat) : List Char :=
  let digits := Nat.toDigits 16 n
  List.replicate (4 - digits.length) '0' ++ digits

def escaped (c : Char) : List Char :=
  if c = '"' ∨ c = '\\' then ['\\', c]
  else if c = '\n' then ['\\', 'n']
  else if c = '\r' then ['\\', 'r']
  else if c = '\t' then ['\\', 't']
  else if c.toNat = 8 then ['\\', 'b']
  else if c.toNat = 12 then ['\\', 'f']
  else if c.toNat < 32 then ['\\', 'u'] ++ hexPad c.toNat
  else [c]

def quoted (cs : List Char) : List Char := '"' :: cs.flatMap escaped ++ ['"']

/-- A string without a text is written as the empty one. -/
def textOf (text : Option String) : List Char := quoted (text.getD "").toList

def scalar : Json → List Char
  | .null => "null".toList
  | .bool true => "true".toList
  | .bool false => "false".toList
  | .integer n => (toString n).toList
  | .decimal text => text.toList
  | .string text => textOf text
  | .array _ => []
  | .object _ => []

def divided (separator : List Char) : List (List Char) → List Char
  | [] => []
  | [item] => item
  | item :: items => item ++ separator ++ divided separator items

mutual

def compact : Json → List Char
  | .array items => '[' :: divided [','] (compactItems items) ++ [']']
  | .object members => '\x7b' :: divided [','] (compactMembers members) ++ ['\x7d']
  | .null => scalar .null
  | .bool b => scalar (.bool b)
  | .integer n => scalar (.integer n)
  | .decimal text => scalar (.decimal text)
  | .string text => scalar (.string text)

def compactItems : List Json → List (List Char)
  | [] => []
  | item :: items => compact item :: compactItems items

def compactMembers : List (Option String × Json) → List (List Char)
  | [] => []
  | (key, value) :: members => (textOf key ++ ':' :: compact value) :: compactMembers members

end

def lineAt (depth : Nat) (text : List Char) : List Char :=
  '\n' :: List.replicate (2 * depth) ' ' ++ text

def block (depth : Nat) (left right : Char) (items : List (List Char)) : List Char :=
  if items.isEmpty then [left, right]
  else left :: divided [','] (items.map (lineAt (depth + 1))) ++ lineAt depth [right]

mutual

def prettyAt (depth : Nat) : Json → List Char
  | .array items => block depth '[' ']' (prettyItems (depth + 1) items)
  | .object members => block depth '\x7b' '\x7d' (prettyMembers (depth + 1) members)
  | .null => scalar .null
  | .bool b => scalar (.bool b)
  | .integer n => scalar (.integer n)
  | .decimal text => scalar (.decimal text)
  | .string text => scalar (.string text)

def prettyItems (depth : Nat) : List Json → List (List Char)
  | [] => []
  | item :: items => prettyAt depth item :: prettyItems depth items

def prettyMembers (depth : Nat) : List (Option String × Json) → List (List Char)
  | [] => []
  | (key, value) :: members =>
    (textOf key ++ ':' :: ' ' :: prettyAt depth value) :: prettyMembers depth members

end

def render (j : Json) : String := String.ofList (compact j)

def pretty (j : Json) : String := String.ofList (prettyAt 0 j)

end BufferFlow.Json
