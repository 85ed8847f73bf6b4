import BufferFlow.Text.Quoted

set_option autoImplicit false

namespace BufferFlow

inductive Generator
  | int (value : Int)
  | double (bits : UInt64)
  | string (value : String)
  | parameters (typeName : String) (members : List (String × Generator))
  | plain

/-- Generators for the parameters of one model type, one for each name. -/
structure ModelParameters where
  typeName : String
  members : List (String × Generator)

namespace ModelParameters

def new (typeName : String) : ModelParameters := ⟨typeName, []⟩

def insert (p : ModelParameters) (name : String) (g : Generator) : ModelParameters :=
  { p with members := (p.members.filter (·.1 != name)) ++ [(name, g)] }

def get? (p : ModelParameters) (name : String) : Option Generator := p.members.lookup name

def size (p : ModelParameters) : Nat := p.members.length

def isEmpty (p : ModelParameters) : Bool := p.members.isEmpty

def names (p : ModelParameters) : List String :=
  (p.members.map Prod.fst).mergeSort fun a b => decide (a ≤ b)

def describe (p : ModelParameters) : String :=
  "ModelParameters \x7b type_name: " ++ Text.quoted p.typeName ++ ", parameters: "
    ++ Text.quotedList p.names ++ " \x7d"

def toGenerator (p : ModelParameters) : Generator := .parameters p.typeName p.members

end ModelParameters

inductive Capability
  | strings
  | integers
  | doubles
  | parameters
  deriving DecidableEq

def Capability.name : Capability → String
  | .strings => "strings"
  | .integers => "integers"
  | .doubles => "doubles"
  | .parameters => "parameters"

structure Unsupported where
  generator : String
  capability : Capability
  deriving DecidableEq

def Unsupported.message (u : Unsupported) : String :=
  s!"{u.generator} cannot generate {u.capability.name}"

namespace Generator

def name : Generator → String
  | .int _ => "ExactInteger"
  | .double _ => "ExactDouble"
  | .string _ => "ExactString"
  | .parameters _ _ => "ExactParameters"
  | .plain => "Unknown"

def unsupported {α : Type} (g : Generator) (c : Capability) : Except Unsupported α :=
  .error ⟨g.name, c⟩

def generateString : Generator → Except Unsupported String
  | .string value => .ok value
  | g => g.unsupported .strings

def generateInt : Generator → Except Unsupported Int
  | .int value => .ok value
  | g => g.unsupported .integers

def generateDouble : Generator → Except Unsupported UInt64
  | .double bits => .ok bits
  | g => g.unsupported .doubles

def generateParameters : Generator → Except Unsupported ModelParameters
  | .parameters typeName members => .ok ⟨typeName, members⟩
  | g => g.unsupported .parameters

def generateList (g : Generator) : List Generator := [g]

/-- Follows names through parameter sets, as long as there is one of that name. -/
def follow? (g : Generator) : List String → Except Unsupported (Option Generator)
  | [] => .ok (some g)
  | name :: path =>
    match g.generateParameters with
    | .error e => .error e
    | .ok p =>
      match p.get? name with
      | none => .ok none
      | some g => g.follow? path

end Generator

end BufferFlow
