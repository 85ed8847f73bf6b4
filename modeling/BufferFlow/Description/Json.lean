import BufferFlow.Description
import BufferFlow.Device
import BufferFlow.Json.Reader
import BufferFlow.Json.Writer

set_option autoImplicit false

namespace BufferFlow

namespace Json

def name? : Json → Option String
  | .string text => text
  | .object [(some key, .null)] => some key
  | _ => none

def keys? (members : List (Option String × Json)) : Option (List String) :=
  members.mapM Prod.fst

/-- The member of that name; nothing where the name repeats. -/
def member? (members : List (Option String × Json)) (key : String) : Option (Option Json) :=
  match members.filter (·.1 == some key) with
  | [] => some none
  | [(_, value)] => some (some value)
  | _ => none

end Json

def ElementType.ofJson? (j : Json) : Option ElementType := j.name?.bind ElementType.ofName?

def ElementType.parseJson? (text : String) : Option ElementType :=
  (Json.parse? text).bind ElementType.ofJson?

def Device.ofJson? (j : Json) : Option Device := j.name?.bind Device.ofName?

def Device.parseJson? (text : String) : Option Device :=
  (Json.parse? text).bind Device.ofJson?

namespace Description

def ofFields? (elementType real : Json) (padding : Option Json) : Option Description := do
  return {
    elementType := ← ElementType.ofJson? elementType
    real := ← real.word?
    padding := ← match padding with
      | none => some 0
      | some p => p.word? }

def ofJson? : Json → Option Description
  | .object members => do
    let _ ← Json.keys? members
    let elementType ← Json.member? members "data_type"
    let real ← Json.member? members "real_elements"
    let padding ← Json.member? members "padding_elements"
    ofFields? (← elementType) (← real) padding
  | .array [elementType, real] => ofFields? elementType real none
  | .array [elementType, real, padding] => ofFields? elementType real (some padding)
  | _ => none

def parseJson? (text : String) : Option Description := (Json.parse? text).bind ofJson?

def toJson (d : Description) : Json :=
  .ofFields [("data_type", .ofText d.elementType.name), ("real_elements", .ofWord d.real),
    ("padding_elements", .ofWord d.padding)]

def renderJson (d : Description) : String := d.toJson.render

end Description

end BufferFlow
