import BufferFlow.Json.Value

set_option autoImplicit false

namespace BufferFlow.Json

def text? : Json → Option String
  | .string s => s
  | _ => none

def flag? : Json → Option Bool
  | .bool b => some b
  | _ => none

def natural? (j : Json) : Option Nat := j.word?.map (·.toNat)

def int64? : Json → Option Int
  | .integer n => if Int64.minValue.toInt ≤ n ∧ n ≤ Int64.maxValue.toInt then some n else none
  | _ => none

def items? : Json → Option (List Json)
  | .array items => some items
  | _ => none

def list? {α : Type} (item? : Json → Option α) (j : Json) : Option (List α) :=
  j.items?.bind (·.mapM item?)

def isTrue : Json → Bool
  | .bool true => true
  | _ => false

/-- Of two members of one name the last counts. -/
def field? (j : Json) (key : String) : Option Json :=
  match j with
  | .object members =>
    match members.reverse.find? (·.1 == some key) with
    | none => none
    | some (_, .null) => none
    | some (_, value) => some value
  | _ => none

def field (j : Json) (key : String) : Json := (j.field? key).getD .null

end BufferFlow.Json
