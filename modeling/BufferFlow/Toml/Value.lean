set_option autoImplicit false

namespace BufferFlow.Toml

inductive Origin
  | inline
  | header
  | implied
  | dotted
  deriving DecidableEq

inductive Value
  | string (text : String)
  | integer (n : Int)
  | float (text : String)
  | boolean (b : Bool)
  | datetime (text : String)
  | array (items : List Value)
  | table (origin : Origin) (members : List (String × Value))
  | tables (elements : List (List (String × Value)))

abbrev Members := List (String × Value)

namespace Members

def replace (ms : Members) (key : String) (v : Value) : Members :=
  ms.map fun m => if m.1 = key then (key, v) else m

def add? (ms : Members) (key : String) (v : Value) : Option Members :=
  if (ms.lookup key).isSome then none else some (ms ++ [(key, v)])

/-- Follows the path from a table of the given origin and changes the table at its end. Tables that
are missing on the way are made; an array of tables stands for its last element. -/
def update (dotted : Bool) (f : Origin → Members → Option Members) :
    List String → Origin → Members → Option Members
  | [], origin, ms => f origin ms
  | key :: path, _, ms =>
    match ms.lookup key with
    | none => do
      let origin := if dotted then Origin.dotted else .implied
      return ms ++ [(key, .table origin (← update dotted f path origin []))]
    | some (.table origin sub) =>
      if origin = .inline ∨ (dotted ∧ origin = .header) then none
      else do return replace ms key (.table origin (← update dotted f path origin sub))
    | some (.tables elements) =>
      match elements.getLast? with
      | none => none
      | some sub => do
        return replace ms key
          (.tables (elements.dropLast ++ [← update dotted f path .header sub]))
    | some _ => none

/-- Adds a value under a key with dots. Tables that the dots go through belong to dotted keys
alone. -/
def insert? (ms : Members) (path : List String) (key : String) (v : Value) : Option Members :=
  update true
    (fun origin ms => if path.isEmpty ∨ origin = .dotted then add? ms key v else none)
    path .header ms

end Members

end BufferFlow.Toml
