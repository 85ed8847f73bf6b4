import BufferFlow.Text.Blank
import BufferFlow.Text.Hex

set_option autoImplicit false

namespace BufferFlow.Pattern

structure Mode where
  ignoreCase : Bool := false
  unicode : Bool := true
  /-- Blanks and comments between the parts of the pattern mean nothing. -/
  spaced : Bool := false

/-- The text behind blanks and comments. The first argument tells whether a comment is open. -/
def skipBlanks : Bool → List Char → List Char
  | _, [] => []
  | true, c :: cs => skipBlanks (c != '\n') cs
  | false, c :: cs =>
    if Text.isBlank c then skipBlanks false cs
    else if c = '#' then skipBlanks true cs
    else c :: cs

def Mode.skip (m : Mode) (cs : List Char) : List Char :=
  if m.spaced then skipBlanks false cs else cs

inductive Atom
  /-- One character; `isByte` if it was written as two hexadecimal digits. -/
  | literal (c : Char) (isByte : Bool)
  | shorthand (negated : Bool)
  | edge
  /-- A place where a word begins or ends, or does not. -/
  | wordEdge
  | dot

namespace Mode

def matchesLiterally (m : Mode) : Bool := !(m.ignoreCase && m.unicode)

def admits (m : Mode) : Atom → Bool
  | .literal c isByte => m.matchesLiterally && (m.unicode || !isByte || c.toNat < 128)
  | .shorthand negated => !m.unicode && !negated
  | .edge => true
  | .wordEdge => !m.unicode
  | .dot => m.unicode

def admitsListed (m : Mode) (c : Char) : Bool :=
  m.matchesLiterally && (m.unicode || c.toNat < 128)

end Mode

def readHex (m : Mode) : Nat → Nat → List Char → Option (Nat × List Char)
  | 0, value, cs => some (value, cs)
  | _ + 1, _, [] => none
  | n + 1, value, c :: cs =>
    (Text.Hex.digit? c).bind fun digit => readHex m n (value * 16 + digit) (m.skip cs)

def readNumbered (m : Mode) (digits : Nat) (cs : List Char) : Option (Char × List Char) := do
  let (n, rest) ← readHex m digits 0 (m.skip cs)
  if n.isValidChar then return (Char.ofNat n, rest) else none

def control? : Char → Option Char
  | 'a' => some (Char.ofNat 7)
  | 't' => some '\t'
  | 'n' => some '\n'
  | 'v' => some (Char.ofNat 11)
  | 'f' => some (Char.ofNat 12)
  | 'r' => some '\r'
  | _ => none

def standsForItself (c : Char) : Bool :=
  c.toNat < 128 && !c.isAlphanum && c != '<' && c != '>'

def escape? (c : Char) : Option Atom :=
  if standsForItself c then some (.literal c false)
  else if c = 'd' ∨ c = 's' ∨ c = 'w' then some (.shorthand false)
  else if c = 'D' ∨ c = 'S' ∨ c = 'W' then some (.shorthand true)
  else if c = 'A' ∨ c = 'z' then some .edge
  else if c = 'b' ∨ c = 'B' ∨ c = '<' ∨ c = '>' then some .wordEdge
  else (control? c).map fun c => .literal c false

def readEscape (m : Mode) : List Char → Option (Atom × List Char)
  | [] => none
  | c :: cs =>
    if c = 'x' then (readNumbered m 2 cs).map fun (c, cs) => (.literal c true, cs)
    else if c = 'u' then (readNumbered m 4 cs).map fun (c, cs) => (.literal c false, cs)
    else if c = 'U' then (readNumbered m 8 cs).map fun (c, cs) => (.literal c false, cs)
    else (escape? c).map fun atom => (atom, cs)

def ofChar (c : Char) : Atom :=
  if c = '.' then .dot else if c = '^' ∨ c = '$' then .edge else .literal c false

def readAtom (m : Mode) : List Char → Option (Atom × List Char)
  | [] => none
  | c :: cs => if c = '\\' then readEscape m cs else some (ofChar c, cs)

end BufferFlow.Pattern
