import BufferFlow.Toml.Scalar

set_option autoImplicit false

/-! # Reading TOML

A document is a list of sections, each a header with the keys below it. Lists and keys may not be
nested deeper than a fixed limit. -/

namespace BufferFlow.Toml

def depthLimit : Nat := 80

/-! ## Keys -/

def isKeyChar (c : Char) : Bool :=
  isDigit c || ('a' ≤ c && c ≤ 'z') || ('A' ≤ c && c ≤ 'Z') || c == '_' || c == '-'

def readKeyPart (cs : List Char) : Option (String × List Char) :=
  match cs with
  | [] => none
  | c :: rest =>
    if c = '"' then (readBasic 0 rest).map fun (cs, rest) => (String.ofList cs, rest)
    else if c = apostrophe then (readLiteral rest).map fun (cs, rest) => (String.ofList cs, rest)
    else
      let word := cs.takeWhile isKeyChar
      if word.isEmpty then none else some (String.ofList word, cs.dropWhile isKeyChar)

def readKeyParts : Nat → List Char → Option (List String × List Char)
  | 0, _ => none
  | fuel + 1, cs =>
    match readKeyPart (skipBlanks cs) with
    | none => none
    | some (part, rest) =>
      match skipBlanks rest with
      | '.' :: rest => (readKeyParts fuel rest).map fun (parts, rest) => (part :: parts, rest)
      | rest => some ([part], rest)

def readKey (cs : List Char) : Option (List String × List Char) := readKeyParts (depthLimit - 1) cs

/-! ## Values -/

def skipComment (cs : List Char) : List Char :=
  cs.dropWhile fun c => isPlain c

def skipLines : Nat → List Char → List Char
  | 0, cs => cs
  | fuel + 1, cs =>
    match skipBlanks cs with
    | '#' :: rest => skipLines fuel (skipComment rest)
    | '\n' :: rest => skipLines fuel rest
    | '\r' :: '\n' :: rest => skipLines fuel rest
    | rest => rest

def skipGap (cs : List Char) : List Char := skipLines (cs.length + 1) cs

mutual

def readValue : Nat → Nat → List Char → Option (Value × List Char)
  | 0, _, _ => none
  | fuel + 1, depth, '[' :: rest =>
    if depth + 1 < depthLimit then
      (readItems fuel (depth + 1) rest).map fun (items, rest) => (.array items, rest)
    else none
  | fuel + 1, depth, '\x7b' :: rest =>
    if depth + 1 < depthLimit then
      match skipBlanks rest with
      | '\x7d' :: rest => some (.table .inline [], rest)
      | rest =>
        (readPairs fuel (depth + 1) [] rest).map fun (members, rest) =>
          (.table .inline members, rest)
    else none
  | _ + 1, _, cs => readScalar cs

/-- Values divided by commas, over as many lines as it takes; a comma may be last. -/
def readItems : Nat → Nat → List Char → Option (List Value × List Char)
  | 0, _, _ => none
  | fuel + 1, depth, cs =>
    match skipGap cs with
    | ']' :: rest => some ([], rest)
    | rest =>
      match readValue fuel depth rest with
      | none => none
      | some (item, rest) =>
        match skipGap rest with
        | ']' :: rest => some ([item], rest)
        | ',' :: rest =>
          (readItems fuel depth rest).map fun (items, rest) => (item :: items, rest)
        | _ => none

def readPairs : Nat → Nat → Members → List Char → Option (Members × List Char)
  | 0, _, _, _ => none
  | fuel + 1, depth, members, cs =>
    match readKey cs with
    | some (path, '=' :: rest) =>
      match readValue fuel depth (skipBlanks rest) with
      | none => none
      | some (value, rest) =>
        match Members.insert? members path.dropLast (path.getLastD "") value with
        | none => none
        | some members =>
          match skipBlanks rest with
          | '\x7d' :: rest => some (members, rest)
          | ',' :: rest => readPairs fuel depth members rest
          | _ => none
    | _ => none

end

/-! ## Documents -/

structure Pair where
  path : List String
  value : Value

/-- A header: the path of a table, or of an array that gets one more table. -/
structure Header where
  path : List String
  isArray : Bool

inductive Line
  | blank
  | pair (pair : Pair)
  | header (header : Header)

def readLineEnd (cs : List Char) : Option (List Char) :=
  let cs := skipBlanks cs
  let cs := if cs.head? = some '#' then skipComment cs else cs
  if cs.isEmpty then some [] else readNewline cs

def readHeader (isArray : Bool) (cs : List Char) : Option (Line × List Char) := do
  let (path, cs) ← readKey cs
  let cs ← readChar (· == ']') cs
  let cs ← if isArray then readChar (· == ']') cs else some cs
  return (.header ⟨path, isArray⟩, cs)

def readPair (cs : List Char) : Option (Line × List Char) := do
  let (path, cs) ← readKey cs
  let cs ← readChar (· == '=') cs
  let (value, cs) ← readValue (2 * cs.length + 2) 0 (skipBlanks cs)
  return (.pair ⟨path, value⟩, cs)

def readLine (cs : List Char) : Option (Line × List Char) :=
  match skipBlanks cs with
  | [] => some (.blank, [])
  | '[' :: '[' :: rest => readHeader true rest
  | '[' :: rest => readHeader false rest
  | c :: rest =>
    if c = '#' ∨ c = '\n' ∨ c = '\r' then some (.blank, c :: rest) else readPair (c :: rest)

def readDocument : Nat → List Char → Option (List Line)
  | 0, _ => none
  | _ + 1, [] => some []
  | fuel + 1, cs => do
    let (line, rest) ← readLine cs
    return line :: (← readDocument fuel (← readLineEnd rest))

structure Section where
  header : Header
  pairs : List Pair

def sections : List Line → List Pair × List Section
  | [] => ([], [])
  | .blank :: lines => sections lines
  | .pair pair :: lines => (pair :: (sections lines).1, (sections lines).2)
  | .header header :: lines => ([], ⟨header, (sections lines).1⟩ :: (sections lines).2)

def addPairs (members : Members) (pairs : List Pair) : Option Members :=
  pairs.foldlM (fun ms p => ms.insert? p.path.dropLast (p.path.getLastD "") p.value) members

/-- Adds the table of a section. A table has one header, and an array of tables only headers of
its kind. -/
def addSection (root : Members) (s : Section) : Option Members :=
  let key := s.header.path.getLastD ""
  let add (_ : Origin) (ms : Members) : Option Members :=
    match ms.lookup key with
    | none => do
      let table ← addPairs [] s.pairs
      return ms ++ [(key, if s.header.isArray then .tables [table] else .table .header table)]
    | some (.tables elements) =>
      if s.header.isArray then do
        return ms.replace key (.tables (elements ++ [← addPairs [] s.pairs]))
      else none
    | some (.table .implied members) =>
      if s.header.isArray then none
      else do return ms.replace key (.table .header (← addPairs members s.pairs))
    | some _ => none
  Members.update false add s.header.path.dropLast .header root

def ofLines (lines : List Line) : Option Members := do
  let (pairs, rest) := sections lines
  rest.foldlM addSection (← addPairs [] pairs)

/-- The members of a document, which may start with a byte order mark. -/
def parse? (text : String) : Option Members := do
  let cs := text.toList
  let cs := if cs.head? = some '\ufeff' then cs.tail else cs
  ofLines (← readDocument (cs.length + 1) cs)

end BufferFlow.Toml
