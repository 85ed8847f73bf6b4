import BufferFlow.Pattern.Atom

set_option autoImplicit false

namespace BufferFlow.Pattern

/-- The items of one list so far: how many there are, and how deep the deepest of them nests. -/
structure Listing where
  size : Nat := 0
  deepest : Nat := 0

namespace Listing

def push (l : Listing) (depth : Nat) : Listing := ⟨l.size + 1, max l.deepest depth⟩

/-- Two or more items nest one deeper than the deepest of them. -/
def depth (l : Listing) : Nat := if 2 ≤ l.size then l.deepest + 1 else l.deepest

def depthAfter (before : Option Nat) (l : Listing) : Nat :=
  match before with
  | none => l.depth
  | some d => max d l.depth + 1

end Listing

namespace Bracket

def classNames : List String :=
  ["alnum", "alpha", "ascii", "blank", "cntrl", "digit", "graph", "lower", "print", "punct",
    "space", "upper", "word", "xdigit"]

def readNamed? (cs : List Char) : Option (Bool × List Char) :=
  match cs with
  | ':' :: cs =>
    let negated := cs.head? == some '^'
    let cs := if negated then cs.tail else cs
    let name := cs.takeWhile (· != ':')
    match cs.drop name.length with
    | ':' :: ']' :: rest =>
      if classNames.contains (String.ofList name) then some (negated, rest) else none
    | _ => none
  | _ => none

def admitsNamed (m : Mode) (negated : Bool) : Bool := m.matchesLiterally && (m.unicode || !negated)

def readHyphens (m : Mode) : Nat → List Char → Nat × List Char
  | 0, cs => (0, cs)
  | fuel + 1, cs =>
    match cs with
    | '-' :: rest =>
      let (n, rest) := readHyphens m fuel (m.skip rest)
      (n + 1, rest)
    | _ => (0, cs)

/-- What may stand for itself only at the front, behind the opening bracket: hyphens, or else one
closing bracket. A circumflex before it negates the list. -/
def readFront (m : Mode) (cs : List Char) : Option (Listing × List Char) :=
  let cs := m.skip cs
  let negated := cs.head? == some '^'
  let cs := if negated then m.skip cs.tail else cs
  let (hyphens, rest) := readHyphens m cs.length cs
  let (size, rest) :=
    match hyphens, rest with
    | 0, ']' :: rest => (1, m.skip rest)
    | n, rest => (n, rest)
  if (negated && !m.unicode) || (0 < size && !m.matchesLiterally) then none
  else some (⟨size, 0⟩, rest)

/-- The character that decides whether a hyphen makes a range. A number sign and blanks are looked
through where blanks mean nothing. -/
def peek (m : Mode) (cs : List Char) : Option Char :=
  if m.spaced then
    match cs.dropWhile Text.isBlank with
    | '#' :: cs => (cs.dropWhile Text.isBlank).head?
    | cs => cs.head?
  else cs.head?

def readListed (m : Mode) : List Char → Option (Atom × List Char)
  | [] => none
  | c :: cs => if c = '\\' then readEscape m cs else some (.literal c false, cs)

/-- The second character of a range, which is none before the first. -/
def readRangeEnd (m : Mode) (first : Char) (cs : List Char) : Option (List Char) := do
  let (atom, rest) ← readListed m (m.skip cs)
  match atom with
  | .literal last _ => if first ≤ last ∧ m.admitsListed last then some rest else none
  | _ => none

def readItem (m : Mode) (cs : List Char) : Option (List Char) := do
  let (atom, rest) ← readListed m cs
  let rest := m.skip rest
  let isRange :=
    match rest with
    | '-' :: behind => peek m behind != some ']' && peek m behind != some '-'
    | _ => false
  match atom with
  | .literal c _ =>
    if !m.admitsListed c then none
    else if isRange then readRangeEnd m c rest.tail
    else some rest
  | .shorthand negated => if m.admits (.shorthand negated) ∧ !isRange then some rest else none
  | _ => none

def startsOperator : List Char → Bool
  | '&' :: '&' :: _ => true
  | '-' :: '-' :: _ => true
  | '~' :: '~' :: _ => true
  | _ => false

def readItems (m : Mode) : Nat → Option Nat → Listing → List Char → Option (Nat × List Char)
  | 0, _, _, _ => none
  | fuel + 1, before, l, cs =>
    match m.skip cs with
    | [] => none
    | ']' :: rest => some (l.depthAfter before, rest)
    | '[' :: rest =>
      match readNamed? rest with
      | some (negated, rest) =>
        if admitsNamed m negated then readItems m fuel before (l.push 0) rest else none
      | none => do
        let (front, rest) ← readFront m rest
        let (depth, rest) ← readItems m fuel none front rest
        readItems m fuel before (l.push (depth + 1)) rest
    | c :: rest =>
      if startsOperator (c :: rest) then
        readItems m fuel (some (l.depthAfter before)) {} (rest.drop 1)
      else do
        let rest ← readItem m (c :: rest)
        readItems m fuel before (l.push 0) rest

def read (m : Mode) (cs : List Char) : Option (Nat × List Char) := do
  let (front, rest) ← readFront m cs
  let (depth, rest) ← readItems m (rest.length + 1) none front rest
  return (depth + 1, rest)

end Bracket

end BufferFlow.Pattern
