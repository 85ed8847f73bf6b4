import BufferFlow.Pattern.Bracket
import BufferFlow.Text.Alphanumeric

set_option autoImplicit false

/-! # Patterns

Which texts are regular expressions that values can be matched against. A pattern may nest only so
deep: a group, brackets, a repetition, two or more parts in a row and two or more alternatives each
count as one level. A repetition by a count cannot be written, since a closing brace ends the text
that holds the pattern. -/

namespace BufferFlow.Pattern

def depthLimit : Nat := 250

/-! ## What was read so far -/

/-- The parts of one alternative. The last of them may be repeated if its depth is given. -/
structure Parts where
  size : Nat := 0
  deepest : Nat := 0
  last : Option Nat := none

namespace Parts

def push (p : Parts) (depth : Nat) : Parts := ⟨p.size + 1, max p.deepest depth, some depth⟩

def pushSwitch (p : Parts) : Parts := ⟨p.size + 1, p.deepest, none⟩

def repeated? (p : Parts) : Option Parts :=
  p.last.map fun depth => ⟨p.size, max p.deepest (depth + 1), some (depth + 1)⟩

def depth (p : Parts) : Nat := if 2 ≤ p.size then p.deepest + 1 else p.deepest

end Parts

/-- The alternatives of one group: the depth of those that are complete, and the current one. -/
structure Alternatives where
  complete : Option Nat := none
  current : Parts := {}

namespace Alternatives

def next (a : Alternatives) : Alternatives :=
  ⟨some (max (a.complete.getD 0) a.current.depth), {}⟩

def depth (a : Alternatives) : Nat :=
  match a.complete with
  | none => a.current.depth
  | some d => max d a.current.depth + 1

def push (a : Alternatives) (depth : Nat) : Alternatives :=
  { a with current := a.current.push depth }

end Alternatives

/-! ## Groups -/

/-- How a parenthesis goes on: it changes the mode of what follows, or it opens a group with a mode
of its own, which may have a name. -/
inductive Opening
  | switch (mode : Mode)
  | group (mode : Mode) (name : Option (List Char))

def isNameStart (c : Char) : Bool := c == '_' || Text.isAlphabetic c

def isNamePart (c : Char) : Bool :=
  c == '_' || c == '.' || c == '[' || c == ']' || Text.isAlphanumeric c

def readName (names : List (List Char)) (cs : List Char) : Option (List Char × List Char) :=
  let name := cs.takeWhile (· != '>')
  match name, cs.drop name.length with
  | c :: others, _ :: rest =>
    if isNameStart c && others.all isNamePart && !names.contains name then some (name, rest)
    else none
  | _, _ => none

def Mode.set (m : Mode) (flag : Char) (on : Bool) : Mode :=
  if flag = 'i' then { m with ignoreCase := on }
  else if flag = 'u' then { m with unicode := on }
  else if flag = 'x' then { m with spaced := on }
  else m

def flags : List Char := ['i', 'm', 's', 'U', 'u', 'R', 'x', '-']

/-- Flags, of which those behind a hyphen are switched off. No flag comes twice, and something is
behind the hyphen. The flags read so far come first, the last one in front. -/
def readFlags (seen : List Char) (m : Mode) : List Char → Option (Opening × List Char)
  | [] => none
  | c :: cs =>
    if c = ':' ∨ c = ')' then
      if seen.head? = some '-' then none
      else if c = ':' then some (.group m none, cs)
      else if seen.isEmpty then none
      else some (.switch m, cs)
    else if flags.contains c ∧ ¬ seen.contains c then
      readFlags (c :: seen) (m.set c (!seen.contains '-')) cs
    else none

def readOpening (m : Mode) (names : List (List Char)) (cs : List Char) :
    Option (Opening × List Char) :=
  let named (cs : List Char) :=
    (readName names cs).map fun (name, rest) => (Opening.group m (some name), rest)
  match cs with
  | '?' :: '<' :: '=' :: _ => none
  | '?' :: '<' :: '!' :: _ => none
  | '?' :: '<' :: rest => named rest
  | '?' :: 'P' :: '<' :: rest => named rest
  | '?' :: rest => readFlags [] m rest
  | rest => some (.group m none, rest)

/-! ## Reading -/

def isRepetition (c : Char) : Bool := c == '*' || c == '+' || c == '?'

def skipLazy : List Char → List Char
  | '?' :: cs => cs
  | cs => cs

/-- Reads the alternatives of a group up to its closing parenthesis or the end, and gives their
depth, the names of all groups so far and the text from there on. -/
def read : Nat → Mode → List (List Char) → Alternatives → List Char →
    Option (Nat × List (List Char) × List Char)
  | 0, _, _, _, _ => none
  | fuel + 1, m, names, a, cs =>
    match m.skip cs with
    | [] => some (a.depth, names, [])
    | ')' :: rest => some (a.depth, names, ')' :: rest)
    | '|' :: rest => read fuel m names a.next rest
    | '{' :: _ => none
    | '[' :: rest => do
      let (depth, rest) ← Bracket.read m rest
      read fuel m names (a.push depth) rest
    | '(' :: rest => do
      match ← readOpening m names (m.skip rest) with
      | (.switch m, rest) => read fuel m names { a with current := a.current.pushSwitch } rest
      | (.group inner name, rest) =>
        match ← read fuel inner (name.toList ++ names) {} rest with
        | (depth, names, ')' :: rest) => read fuel m names (a.push (depth + 1)) rest
        | _ => none
    | c :: rest =>
      if isRepetition c then do
        let parts ← a.current.repeated?
        read fuel m names { a with current := parts } (skipLazy rest)
      else do
        let (atom, rest) ← readAtom m (c :: rest)
        if m.admits atom then read fuel m names (a.push 0) rest else none

def isWellFormed (text : List Char) : Bool :=
  match read (text.length + 1) {} [] {} text with
  | some (depth, _, []) => depth ≤ depthLimit
  | _ => false

end BufferFlow.Pattern
