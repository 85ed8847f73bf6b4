import BufferFlow.Pattern
import BufferFlow.Record
import BufferFlow.Text.Number

set_option autoImplicit false

/-! # Directives of a log filter

A directive says how much is shown of the records it is about. It names a level, or a target that a
level may follow; a span and a field of the record in brackets may stand behind the target. -/

namespace BufferFlow

def Level.rank : Level → Nat
  | .error => 1
  | .warn => 2
  | .info => 3
  | .debug => 4
  | .trace => 5

inductive Threshold
  | off
  | atLeast (level : Level)
  deriving DecidableEq

namespace Threshold

def shows (t : Threshold) (level : Level) : Bool :=
  match t with
  | .off => false
  | .atLeast least => level.rank ≤ least.rank

def ofRank? : Nat → Option Threshold
  | 0 => some .off
  | 1 => some (.atLeast .error)
  | 2 => some (.atLeast .warn)
  | 3 => some (.atLeast .info)
  | 4 => some (.atLeast .debug)
  | 5 => some (.atLeast .trace)
  | _ => none

def ofText? (text : List Char) : Option Threshold :=
  let word := String.ofList (text.map Char.toLower)
  if word == "off" then some .off
  else if word == "error" then some (.atLeast .error)
  else if word == "warn" then some (.atLeast .warn)
  else if word == "info" then some (.atLeast .info)
  else if word == "debug" then some (.atLeast .debug)
  else if word == "trace" then some (.atLeast .trace)
  else (Text.natural? text).bind ofRank?

end Threshold

/-- A field that a record must have; `hasValue` if its value matters too. -/
structure FieldMatch where
  name : List Char
  hasValue : Bool
  deriving DecidableEq

structure Directive where
  target : Option (List Char) := none
  span : Option (List Char) := none
  field : Option FieldMatch := none
  threshold : Threshold := .atLeast .trace
  deriving DecidableEq

/-- Why a filter cannot be read: its text is no filter, or a name in it would begin or end inside a
character. -/
inductive LogFilterError
  | malformed
  | torn
  deriving DecidableEq

/-! ## Slices

Places in a text are counted in bytes. -/

namespace Directive

def dropBytes? : Nat → List Char → Option (List Char)
  | 0, cs => some cs
  | _ + 1, [] => none
  | n, c :: cs => if c.utf8Size ≤ n then dropBytes? (n - c.utf8Size) cs else none

def takeBytes? : Nat → List Char → Option (List Char)
  | 0, _ => some []
  | _ + 1, [] => none
  | n, c :: cs =>
    if c.utf8Size ≤ n then (takeBytes? (n - c.utf8Size) cs).map (c :: ·) else none

def orTorn {α : Type} : Option α → Except LogFilterError α
  | none => .error .torn
  | some a => .ok a

def orMalformed {α : Type} : Option α → Except LogFilterError α
  | none => .error .malformed
  | some a => .ok a

def slice (text : List Char) (start stop : Nat) : Except LogFilterError (List Char) :=
  orTorn ((dropBytes? start text).bind (takeBytes? (stop - start)))

def sliceFrom (text : List Char) (start : Nat) : Except LogFilterError (List Char) :=
  orTorn (dropBytes? start text)

/-! ## Fields -/

def halves (cs : List Char) : List Char × Option (List Char) :=
  let name := cs.takeWhile (· != '=')
  match cs.drop name.length with
  | [] => (name, none)
  | _ :: rest => (name, some (rest.takeWhile (· != '=')))

def isValue (cs : List Char) : Bool := Text.isReal cs || Pattern.isWellFormed cs

def field? (cs : List Char) : Option FieldMatch :=
  match cs, halves cs with
  | [], _ => none
  | _, (name, none) => some ⟨name, false⟩
  | _, (name, some value) => if isValue value then some ⟨name, true⟩ else none

/-! ## Reading -/

/-- What is being read, with the place where it began. -/
inductive Place
  | start
  | word (start : Nat)
  | span (start : Nat)
  | field (start : Nat)
  | fieldEnd
  | spanEnd
  | level (start : Nat)
  deriving DecidableEq

def isStart (c : Char) : Bool := c == '-' || c == ':' || c == '_' || Text.isAlphanumeric c

def step (text : List Char) (place : Place) (d : Directive) (i : Nat) (c : Char) :
    Except LogFilterError (Place × Directive) := do
  match place with
  | .start =>
    if c = '[' then return (.span (i + 1), d)
    else if isStart c then return (.word i, d)
    else .error .malformed
  | .word start =>
    if c = '=' then return (.level (i + 1), { d with target := ← slice text start i })
    else if c = '[' then return (.span (i + 1), { d with target := ← slice text start i })
    else return (place, d)
  | .span start =>
    if c = ']' then return (.spanEnd, { d with span := ← slice text start i })
    else if c = '\x7b' then
      let name ← slice text start i
      return (.field (i + 1), { d with span := if name.isEmpty then none else some name })
    else return (place, d)
  | .field start =>
    if c = '\x7d' then
      return (.fieldEnd, { d with field := ← orMalformed (field? (← slice text start i)) })
    else return (place, d)
  | .fieldEnd => if c = ']' then return (.spanEnd, d) else .error .malformed
  | .spanEnd => if c = '=' then return (.level (i + 1), d) else .error .malformed
  | .level _ => return (place, d)

def steps (text : List Char) : Nat → Place → Directive → List Char →
    Except LogFilterError (Place × Directive)
  | _, place, d, [] => .ok (place, d)
  | i, place, d, c :: cs => do
    let (place, d) ← step text place d i c
    steps text (i + c.utf8Size) place d cs

/-- At the end a word that is no level is a target. Everything is shown where no level is given. -/
def finish (text : List Char) (place : Place) (d : Directive) : Except LogFilterError Directive := do
  match place with
  | .word start =>
    let word ← sliceFrom text start
    match Threshold.ofText? word with
    | some threshold => return { d with threshold }
    | none => return { d with target := some word }
  | .level start =>
    let level ← sliceFrom text start
    if level.isEmpty then return d
    else return { d with threshold := ← orMalformed (Threshold.ofText? level) }
  | .spanEnd => return d
  | _ => .error .malformed

/-- Reads the characters between the blanks around a text. Their places are counted from the first
of them, but lead into the text with its blanks. -/
def parse (text : List Char) : Except LogFilterError Directive := do
  let (place, d) ← steps text 0 .start {} (Text.trimmed text)
  finish text place d

/-! ## Meaning -/

def isStatic (d : Directive) : Bool :=
  d.span.isNone && (d.field.map fun f => !f.hasValue).getD true

def covers (d : Directive) (target : List Char) (fields : List (List Char)) : Bool :=
  d.isStatic && (d.target.map (·.isPrefixOf target)).getD true
    && (d.field.map fun f => fields.contains f.name).getD true

def byteLength (cs : List Char) : Nat := (cs.map (·.utf8Size)).foldr (· + ·) 0

def targetLength (d : Directive) : Nat := (d.target.map fun cs => byteLength cs + 1).getD 0

/-- Of two directives about one record, whether the first is the more specific: its target is
longer, or as long and only it names a field, or its field's name is the greater one. -/
def outranks (d e : Directive) : Bool :=
  if d.targetLength != e.targetLength then e.targetLength < d.targetLength
  else
    match d.field, e.field with
    | some f, some g => decide (g.name < f.name)
    | some _, none => true
    | none, _ => false

end Directive

end BufferFlow
