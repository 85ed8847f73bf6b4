import BufferFlow.LogFilter.Directive

set_option autoImplicit false

namespace BufferFlow

structure LogFilter where
  directives : List Directive

namespace LogFilter

def parts : List Char → List (List Char)
  | [] => [[]]
  | c :: cs =>
    match parts cs with
    | [] => [[c]]
    | part :: rest => if c = ',' then [] :: part :: rest else (c :: part) :: rest

def parse (text : String) : Except LogFilterError LogFilter := do
  return ⟨← ((parts text.toList).filter (!·.isEmpty)).mapM Directive.parse⟩

def stronger (best : Option Directive) (d : Directive) : Option Directive :=
  match best with
  | none => some d
  | some b => if b.outranks d then some b else some d

/-- The message of a record counts as one of its fields. -/
def fieldsOf (r : Record) : List (List Char) :=
  "message".toList :: r.fields.map fun (name, _) => name.toList

/-- Whether a record of that target is shown. Without any directive errors are. -/
def shows (f : LogFilter) (target : String) (r : Record) : Bool :=
  if f.directives.isEmpty then (Threshold.atLeast .error).shows r.level
  else
    match (f.directives.filter (·.covers target.toList (fieldsOf r))).foldl stronger none with
    | none => false
    | some d => d.threshold.shows r.level

end LogFilter

end BufferFlow
