import BufferFlow.Toml.Value

set_option autoImplicit false

namespace BufferFlow.Toml

def isBlank (c : Char) : Bool := c == ' ' || c == '\t'

def skipBlanks (cs : List Char) : List Char := cs.dropWhile isBlank

def readNewline : List Char → Option (List Char)
  | '\n' :: rest => some rest
  | '\r' :: '\n' :: rest => some rest
  | _ => none

def isPlain (c : Char) : Bool := c == '\t' || (32 ≤ c.toNat && c.toNat != 127)

def isDigit (c : Char) : Bool := '0' ≤ c && c ≤ '9'

def digit? (radix : Nat) (c : Char) : Option Nat :=
  let value? :=
    if isDigit c then some (c.toNat - '0'.toNat)
    else if 'a' ≤ c ∧ c ≤ 'f' then some (c.toNat - 'a'.toNat + 10)
    else if 'A' ≤ c ∧ c ≤ 'F' then some (c.toNat - 'A'.toNat + 10)
    else none
  value?.filter (· < radix)

def ofDigits (radix : Nat) (cs : List Char) : Nat :=
  cs.foldl (fun n c => n * radix + (digit? radix c).getD 0) 0

def apostrophe : Char := Char.ofNat 0x27

def simpleEscape? : Char → Option Char
  | '"' => some '"'
  | '\\' => some '\\'
  | 'b' => some (Char.ofNat 8)
  | 'f' => some (Char.ofNat 12)
  | 'n' => some '\n'
  | 'r' => some '\r'
  | 't' => some '\t'
  | _ => none

def scalar? (n : Nat) : Option Char :=
  if n < 0xD800 ∨ (0xE000 ≤ n ∧ n < 0x110000) then some (Char.ofNat n) else none

def readNumbered (digits : List Char) : Option Char :=
  if digits.all fun c => (digit? 16 c).isSome then scalar? (ofDigits 16 digits) else none

/-- One escape behind its backslash, as a character and the number of characters it takes. -/
def readEscape : List Char → Option (Char × Nat)
  | [] => none
  | e :: rest =>
    if e = 'u' ∨ e = 'U' then
      let width := if e = 'u' then 4 else 8
      if rest.length < width then none
      else (readNumbered (rest.take width)).map fun c => (c, width + 1)
    else (simpleEscape? e).map fun c => (c, 1)

/-- A string on one line up to its closing quote. `skip` characters belong to an escape that was
read already. -/
def readBasic : Nat → List Char → Option (List Char × List Char)
  | _, [] => none
  | skip + 1, _ :: rest => readBasic skip rest
  | 0, c :: rest =>
    if c = '"' then some ([], rest)
    else if c = '\\' then
      match readEscape rest with
      | none => none
      | some (d, skip) => (readBasic skip rest).map fun (cs, rest) => (d :: cs, rest)
    else if isPlain c then (readBasic 0 rest).map fun (cs, rest) => (c :: cs, rest)
    else none

def readLiteral : List Char → Option (List Char × List Char)
  | [] => none
  | c :: rest =>
    if c = apostrophe then some ([], rest)
    else if isPlain c then (readLiteral rest).map fun (cs, rest) => (c :: cs, rest)
    else none

/-- How many quotes in a row end a string of several lines: three, and up to two of its own before
them. -/
def closing (quote : Char) (cs : List Char) : Option Nat :=
  let n := (cs.takeWhile (· == quote)).length
  if n < 3 then none else some (min n 5)

def newlineLength : List Char → Nat
  | '\n' :: _ => 1
  | '\r' :: '\n' :: _ => 2
  | _ => 0

def blankLength : List Char → Nat
  | [] => 0
  | '\r' :: '\n' :: rest => blankLength rest + 2
  | c :: rest => if isBlank c ∨ c = '\n' then blankLength rest + 1 else 0

/-- Length of a line end that a backslash hides, with all blanks and line ends behind it. -/
def hiddenLength (cs : List Char) : Option Nat :=
  let rest := skipBlanks cs
  if newlineLength rest = 0 then none else some (cs.length - rest.length + blankLength rest)

/-- A string of several lines up to its closing quotes. `skip` characters were read already. -/
def readMultiline (quote : Char) (escapes : Bool) : Nat → List Char → Option (List Char × List Char)
  | _, [] => none
  | skip + 1, _ :: rest => readMultiline quote escapes skip rest
  | 0, c :: rest =>
    if c = quote then
      match closing quote (c :: rest) with
      | some n => some (List.replicate (n - 3) quote, rest.drop (n - 1))
      | none => (readMultiline quote escapes 0 rest).map fun (cs, rest) => (c :: cs, rest)
    else if c = '\\' ∧ escapes then
      match hiddenLength rest with
      | some skip => readMultiline quote escapes skip rest
      | none =>
        match readEscape rest with
        | none => none
        | some (d, skip) =>
          (readMultiline quote escapes skip rest).map fun (cs, rest) => (d :: cs, rest)
    else if newlineLength (c :: rest) ≠ 0 then
      (readMultiline quote escapes (newlineLength (c :: rest) - 1) rest).map
        fun (cs, rest) => ('\n' :: cs, rest)
    else if isPlain c then
      (readMultiline quote escapes 0 rest).map fun (cs, rest) => (c :: cs, rest)
    else none

def readLines (quote : Char) (escapes : Bool) (cs : List Char) : Option (List Char × List Char) :=
  readMultiline quote escapes (newlineLength cs) cs

def readString : List Char → Option (String × List Char)
  | [] => none
  | c :: rest =>
    let read :=
      if c = '"' then
        if [c, c].isPrefixOf rest then readLines c true (rest.drop 2) else readBasic 0 rest
      else if c = apostrophe then
        if [c, c].isPrefixOf rest then readLines c false (rest.drop 2) else readLiteral rest
      else none
    read.map fun (cs, rest) => (String.ofList cs, rest)

def isDivided : Bool → List Char → Bool
  | after, [] => after
  | after, c :: cs => if c = '_' then after && isDivided false cs else isDivided true cs

def readDigits (radix : Nat) (cs : List Char) : Option (List Char × List Char) :=
  let run := cs.takeWhile fun c => c == '_' || (digit? radix c).isSome
  if isDivided false run then some (run.filter (· != '_'), cs.drop run.length) else none

def readSign : List Char → Option Char × List Char
  | c :: rest => if c = '+' ∨ c = '-' then (some c, rest) else (none, c :: rest)
  | [] => (none, [])

def readWhole (cs : List Char) : Option (List Char × List Char) := do
  let (digits, rest) ← readDigits 10 cs
  if 1 < digits.length ∧ digits.head? = some '0' then none else return (digits, rest)

def readFraction : List Char → Option (List Char × List Char)
  | '.' :: rest => readDigits 10 rest
  | cs => some ([], cs)

def readExponent : List Char → Option (Option Int × List Char)
  | [] => some (none, [])
  | e :: rest =>
    if e = 'e' ∨ e = 'E' then do
      let (sign, rest) := readSign rest
      let (digits, rest) ← readDigits 10 rest
      let n : Int := ofDigits 10 digits
      return (some (if sign = some '-' then -n else n), rest)
    else some (none, e :: rest)

def doubleLimit : Nat := Nat.pow 2 1024 - Nat.pow 2 970

/-- Whether the digits times that power of ten reach the limit. Far from it, the number of digits
alone decides. -/
def exceedsDouble (digits : List Char) (exponent : Int) : Bool :=
  let digits := digits.dropWhile (· == '0')
  let magnitude := (digits.length : Int) + exponent
  if digits.isEmpty || magnitude < 300 then false
  else if 320 < magnitude then true
  else if 0 ≤ exponent then doubleLimit ≤ ofDigits 10 digits * Nat.pow 10 exponent.toNat
  else doubleLimit * Nat.pow 10 (-exponent).toNat ≤ ofDigits 10 digits

def consumed (cs rest : List Char) : String := String.ofList (cs.take (cs.length - rest.length))

def integer? (n : Int) : Option Value :=
  if Int64.minValue.toInt ≤ n ∧ n ≤ Int64.maxValue.toInt then some (.integer n) else none

/-- A decimal number. It is a float as soon as it has a fraction or an exponent, and must then not
be so large that only infinity is left. -/
def readDecimal (cs : List Char) : Option (Value × List Char) := do
  let (sign, rest) := readSign cs
  let (whole, rest) ← readWhole rest
  let (fraction, rest) ← readFraction rest
  let (exponent, rest) ← readExponent rest
  if fraction.isEmpty ∧ exponent.isNone then
    let n : Int := ofDigits 10 whole
    return (← integer? (if sign = some '-' then -n else n), rest)
  else if sign ≠ some '-'
      ∧ exceedsDouble (whole ++ fraction) (exponent.getD 0 - (fraction.length : Int)) then none
  else return (.float (consumed cs rest), rest)

def readSpecial (cs : List Char) : Option (Value × List Char) :=
  let rest := (readSign cs).2
  if ['i', 'n', 'f'].isPrefixOf rest ∨ ['n', 'a', 'n'].isPrefixOf rest then
    some (.float (consumed cs (rest.drop 3)), rest.drop 3)
  else none

def readRadix (radix : Nat) (cs : List Char) : Option (Value × List Char) := do
  let (digits, rest) ← readDigits radix cs
  return (← integer? (ofDigits radix digits), rest)

def readNumber : List Char → Option (Value × List Char)
  | '0' :: 'x' :: rest => readRadix 16 rest
  | '0' :: 'o' :: rest => readRadix 8 rest
  | '0' :: 'b' :: rest => readRadix 2 rest
  | cs => (readSpecial cs).or (readDecimal cs)

def readFixed (n : Nat) (cs : List Char) : Option (Nat × List Char) :=
  let digits := cs.take n
  if digits.length = n ∧ digits.all isDigit then some (ofDigits 10 digits, cs.drop n) else none

def readChar (p : Char → Bool) : List Char → Option (List Char)
  | [] => none
  | c :: rest => if p c then some rest else none

def isLeap (year : Nat) : Bool := year % 4 == 0 && (year % 100 != 0 || year % 400 == 0)

def daysIn (year month : Nat) : Nat :=
  if month = 2 then if isLeap year then 29 else 28
  else if month = 4 ∨ month = 6 ∨ month = 9 ∨ month = 11 then 30
  else 31

def readDate (cs : List Char) : Option (List Char) := do
  let (year, cs) ← readFixed 4 cs
  let (month, cs) ← readFixed 2 (← readChar (· == '-') cs)
  let (day, cs) ← readFixed 2 (← readChar (· == '-') cs)
  if 1 ≤ month ∧ month ≤ 12 ∧ 1 ≤ day ∧ day ≤ daysIn year month then some cs else none

def readSubsecond : List Char → Option (List Char)
  | '.' :: rest => if (rest.head?.map isDigit).getD false then some (rest.dropWhile isDigit) else none
  | cs => some cs

def readHourMinute (cs : List Char) : Option (List Char) := do
  let (hour, cs) ← readFixed 2 cs
  let (minute, cs) ← readFixed 2 (← readChar (· == ':') cs)
  if hour < 24 ∧ minute < 60 then some cs else none

/-- The rest behind a time of the day, which may be a leap second. -/
def readTime (cs : List Char) : Option (List Char) := do
  let (second, cs) ← readFixed 2 (← readChar (· == ':') (← readHourMinute cs))
  if second ≤ 60 then readSubsecond cs else none

def readOffset : List Char → Option (List Char)
  | [] => some []
  | c :: rest =>
    if c = 'Z' ∨ c = 'z' then some rest
    else if c = '+' ∨ c = '-' then readHourMinute rest
    else some (c :: rest)

/-- A date may go on with a time and an offset. Behind a blank that is only tried. -/
def readDatetime (cs : List Char) : Option (Value × List Char) := do
  let rest ← (do
    let date ← readDate cs
    let timed := ((readChar (fun c => c == 'T' || c == 't' || c == ' ') date).bind readTime)
    match timed with
    | none => some date
    | some time => readOffset time).or (readTime cs)
  return (.datetime (consumed cs rest), rest)

def readWord (word : String) (v : Value) (cs : List Char) : Option (Value × List Char) :=
  if word.toList.isPrefixOf cs then some (v, cs.drop word.length) else none

def readScalar (cs : List Char) : Option (Value × List Char) :=
  match cs with
  | [] => none
  | c :: _ =>
    if c = '"' ∨ c = apostrophe then (readString cs).map fun (s, rest) => (.string s, rest)
    else if c = 't' then readWord "true" (.boolean true) cs
    else if c = 'f' then readWord "false" (.boolean false) cs
    else (readDatetime cs).or (readNumber cs)

end BufferFlow.Toml
