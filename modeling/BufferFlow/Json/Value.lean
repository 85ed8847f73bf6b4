set_option autoImplicit false

namespace BufferFlow

inductive Json
  | null
  | bool (value : Bool)
  | integer (value : Int)
  | decimal (text : String)
  | string (text : Option String)
  | array (items : List Json)
  | object (members : List (Option String × Json))

namespace Json

def word? : Json → Option UInt64
  | .integer n => if 0 ≤ n ∧ n.toNat < UInt64.size then some n.toNat.toUInt64 else none
  | _ => none

def ofWord (n : UInt64) : Json := .integer n.toNat

def ofText (text : String) : Json := .string (some text)

def ofFields (fields : List (String × Json)) : Json :=
  .object (fields.map fun (key, value) => (some key, value))

end Json

end BufferFlow
