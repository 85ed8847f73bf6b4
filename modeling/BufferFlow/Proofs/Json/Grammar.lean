import BufferFlow.Json.Reader
import Mathlib.Data.List.DropRight
import Mathlib.Data.List.TakeWhile
import Mathlib.Data.String.Basic

set_option autoImplicit false

namespace BufferFlow.Json

def Blank (cs : List Char) : Prop := ∀ c ∈ cs, isBlank c

theorem blank_nil : Blank [] := by simp [Blank]

theorem Blank.append {before after : List Char} (blank : Blank before) (more : Blank after) :
    Blank (before ++ after) :=
  List.forall_mem_append.2 ⟨blank, more⟩

theorem blank_takeWhile (cs : List Char) : Blank (cs.takeWhile isBlank) :=
  fun _ taken => List.mem_takeWhile_imp taken

/-- The list begins with a character that is not blank. -/
def Solid (cs : List Char) : Prop := ∃ c rest, cs = c :: rest ∧ isBlank c = false

theorem skipBlanks_append {before : List Char} (blank : Blank before) (cs : List Char) :
    skipBlanks (before ++ cs) = skipBlanks cs :=
  List.dropWhile_append_of_pos blank

theorem skipBlanks_solid {cs : List Char} (solid : Solid cs) : skipBlanks cs = cs := by
  obtain ⟨c, rest, rfl, visible⟩ := solid
  simp [skipBlanks, visible]

theorem skipBlanks_blank {cs : List Char} (blank : Blank cs) : skipBlanks cs = [] := by
  simpa [skipBlanks] using skipBlanks_append blank []

theorem skipBlanks_skipBlanks (cs : List Char) : skipBlanks (skipBlanks cs) = skipBlanks cs :=
  List.dropWhile_idempotent isBlank cs

theorem Solid.append {cs : List Char} (solid : Solid cs) (more : List Char) : Solid (cs ++ more) := by
  obtain ⟨c, rest, rfl, visible⟩ := solid
  exact ⟨c, rest ++ more, rfl, visible⟩

theorem skipBlanks_split (cs : List Char) :
    ∃ before, Blank before ∧ cs = before ++ skipBlanks cs :=
  ⟨cs.takeWhile isBlank, blank_takeWhile cs, List.takeWhile_append_dropWhile.symm⟩

section

variable {α β : Type} {part : Option (α × List Char)} {f : α → β} {b : β} {rest : List Char}

theorem map_eq_some_part (read : (part.map fun (a, rest) => (f a, rest)) = some (b, rest)) :
    ∃ a, part = some (a, rest) ∧ b = f a := by
  obtain ⟨⟨a, _⟩, found, same⟩ := Option.map_eq_some_iff.1 read
  obtain ⟨rfl, rfl⟩ := Prod.mk.inj same
  exact ⟨a, found, rfl⟩

theorem bind_eq_some_part (read : (do let (a, rest) ← part; return (f a, rest)) = some (b, rest)) :
    ∃ a, part = some (a, rest) ∧ b = f a := by
  obtain ⟨⟨a, _⟩, found, same⟩ := Option.bind_eq_some_iff.1 read
  obtain ⟨rfl, rfl⟩ := Prod.mk.inj (Option.some.inj same)
  exact ⟨a, found, rfl⟩

end

/-- What stands between the quotes of a string, piece by piece. -/
inductive SpellsPieces : List Piece → List Char → Prop
  | nil : SpellsPieces [] []
  | char {ps : List Piece} {cs : List Char} {c : Char} (quote : c ≠ '"') (backslash : c ≠ '\\')
      (printed : 32 ≤ c.toNat) : SpellsPieces ps cs → SpellsPieces (.char c :: ps) (c :: cs)
  | escape {ps : List Piece} {cs : List Char} {e c : Char} (named : simpleEscape? e = some c) :
      SpellsPieces ps cs → SpellsPieces (.char c :: ps) ('\\' :: e :: cs)
  | unit {ps : List Piece} {cs : List Char} {a b c d : Char} {n : Nat}
      (digits : hexUnit? a b c d = some n) :
      SpellsPieces ps cs → SpellsPieces (.unit n :: ps) ('\\' :: 'u' :: a :: b :: c :: d :: cs)

theorem readPieces_spelled {ps : List Piece} {cs : List Char} (spelled : SpellsPieces ps cs)
    (rest : List Char) : readPieces (cs ++ '"' :: rest) = some (ps, rest) := by
  induction spelled with
  | nil => simp [readPieces]
  | char _ backslash printed _ ih => simp [readPieces, backslash, printed, ih]
  | @escape ps cs e c named _ ih =>
    have other : e ≠ 'u' := by
      rintro rfl
      cases named
    simp [readPieces, other, named, ih]
  | unit digits _ ih => simp [readPieces, digits, ih]

theorem spellsPieces_of_readPieces {cs : List Char} {ps : List Piece} {rest : List Char}
    (read : readPieces cs = some (ps, rest)) :
    ∃ body, SpellsPieces ps body ∧ cs = body ++ '"' :: rest := by
  fun_induction readPieces cs generalizing ps rest with
  | case1 => cases read
  | case2 behind =>
    cases read
    exact ⟨[], .nil, rfl⟩
  | case3 a b c d _ ih =>
    obtain ⟨n, digits, behind⟩ := Option.bind_eq_some_iff.1 read
    obtain ⟨more, inner, rfl⟩ := bind_eq_some_part behind
    obtain ⟨body, spelled, rfl⟩ := ih inner
    exact ⟨_, .unit digits spelled, rfl⟩
  | case4 e _ _ ih =>
    obtain ⟨c, named, behind⟩ := Option.bind_eq_some_iff.1 read
    obtain ⟨more, inner, rfl⟩ := bind_eq_some_part behind
    obtain ⟨body, spelled, rfl⟩ := ih inner
    exact ⟨_, .escape named spelled, rfl⟩
  | case5 => cases read
  | case6 c _ quote _ _ plain ih =>
    obtain ⟨more, inner, rfl⟩ := bind_eq_some_part read
    obtain ⟨body, spelled, rfl⟩ := ih inner
    rw [not_or] at plain
    exact ⟨_, .char quote plain.2 (Nat.not_lt.1 plain.1) spelled, rfl⟩

def SpellsString (text : Option String) (cs : List Char) : Prop :=
  ∃ ps body, SpellsPieces ps body ∧ text = (textOfPieces? ps).map String.ofList ∧
    cs = '"' :: (body ++ ['"'])

theorem readString_spelled {text : Option String} {body : List Char}
    (spelled : SpellsString text ('"' :: body)) (rest : List Char) :
    readString (body ++ rest) = some (text, rest) := by
  obtain ⟨ps, inner, pieces, rfl, same⟩ := spelled
  obtain rfl := List.tail_eq_of_cons_eq same
  simp [readString, readPieces_spelled pieces]

theorem spellsString_of_readString {cs rest : List Char} {text : Option String}
    (read : readString cs = some (text, rest)) :
    ∃ body, SpellsString text ('"' :: body) ∧ cs = body ++ rest := by
  obtain ⟨⟨ps, _⟩, pieces, same⟩ := Option.bind_eq_some_iff.1 read
  obtain ⟨rfl, rfl⟩ := Prod.mk.inj (Option.some.inj same)
  obtain ⟨inner, spelled, rfl⟩ := spellsPieces_of_readPieces pieces
  exact ⟨inner ++ ['"'], ⟨ps, inner, spelled, rfl, rfl⟩, by simp⟩

/-- What follows is not one of these characters. -/
def Stops (p : Char → Bool) (rest : List Char) : Prop := ∀ c ∈ rest.head?, p c = false

def Digits (cs : List Char) : Prop := cs ≠ [] ∧ ∀ c ∈ cs, isDigit c

def Whole (cs : List Char) : Prop := cs = ['0'] ∨ Digits cs ∧ cs.head? ≠ some '0'

inductive Fraction : List Char → Prop
  | absent : Fraction []
  | present {ds : List Char} : Digits ds → Fraction ('.' :: ds)

inductive Exponent : List Char → Prop
  | absent : Exponent []
  | present {e : Char} {sign ds : List Char} (letter : e = 'e' ∨ e = 'E')
      (signed : sign = [] ∨ sign = ['+'] ∨ sign = ['-']) :
      Digits ds → Exponent (e :: (sign ++ ds))

def minus (negative : Bool) : List Char := if negative then ['-'] else []

def SpellsNumber (j : Json) (cs : List Char) : Prop :=
  ∃ negative whole fraction exponent, Whole whole ∧ Fraction fraction ∧ Exponent exponent ∧
    j = numberOf negative whole (fraction ++ exponent) ∧
    cs = minus negative ++ (whole ++ (fraction ++ exponent))

/-- Whether a number may go on with the character. -/
def isNumeric (c : Char) : Bool := isDigit c || c == '.' || c == 'e' || c == 'E'

theorem Stops.digit {rest : List Char} (stops : Stops isNumeric rest) : Stops isDigit rest := by
  intro c first
  have := stops c first
  simp_all [isNumeric]

theorem Digits.head {ds : List Char} (digits : Digits ds) :
    ∃ c rest, ds = c :: rest ∧ isDigit c := by
  obtain ⟨nonempty, all⟩ := digits
  obtain ⟨c, rest, rfl⟩ := List.exists_cons_of_ne_nil nonempty
  exact ⟨c, rest, rfl, all c List.mem_cons_self⟩

theorem Whole.head {cs : List Char} (whole : Whole cs) : ∃ c rest, cs = c :: rest ∧ isDigit c := by
  obtain rfl | ⟨digits, -⟩ := whole
  · exact ⟨'0', [], rfl, rfl⟩
  · exact digits.head

theorem readDigits_spelled {ds rest : List Char} (digits : Digits ds) (stops : Stops isDigit rest) :
    readDigits (ds ++ rest) = some (ds, rest) := by
  have taken : rest.takeWhile isDigit = [] ∧ rest.dropWhile isDigit = rest := by
    cases rest with
    | nil => exact ⟨rfl, rfl⟩
    | cons c rest =>
      have := stops c rfl
      simp [this]
  simp [readDigits, List.takeWhile_append_of_pos digits.2, List.dropWhile_append_of_pos digits.2,
    taken, digits.1]

theorem digits_of_readDigits {cs ds rest : List Char} (read : readDigits cs = some (ds, rest)) :
    Digits ds ∧ cs = ds ++ rest := by
  simp only [readDigits, Option.ite_none_left_eq_some, Option.some.injEq, Prod.mk.injEq,
    List.isEmpty_iff] at read
  obtain ⟨nonempty, rfl, rfl⟩ := read
  exact ⟨⟨nonempty, fun _ taken => List.mem_takeWhile_imp taken⟩,
    List.takeWhile_append_dropWhile.symm⟩

theorem readWhole_spelled {ds rest : List Char} (whole : Whole ds) (stops : Stops isDigit rest) :
    readWhole (ds ++ rest) = some (ds, rest) := by
  obtain rfl | ⟨digits, leading⟩ := whole
  · cases rest with
    | nil => rfl
    | cons c rest =>
      have := stops c rfl
      simp [readWhole, this]
  · obtain ⟨c, more, rfl, -⟩ := digits.head
    have other : c ≠ '0' := by simpa using leading
    rw [← readDigits_spelled digits stops, List.cons_append, readWhole]
    simpa using other

theorem whole_of_readWhole {cs ds rest : List Char} (read : readWhole cs = some (ds, rest)) :
    Whole ds ∧ cs = ds ++ rest := by
  unfold readWhole at read
  split at read
  · rw [Option.ite_none_left_eq_some] at read
    obtain ⟨-, rfl, rfl⟩ := read
    exact ⟨.inl rfl, rfl⟩
  · rename_i other
    obtain ⟨digits, rfl⟩ := digits_of_readDigits read
    refine ⟨.inr ⟨digits, ?_⟩, rfl⟩
    obtain ⟨c, more, rfl, -⟩ := digits.head
    rintro ⟨rfl⟩
    exact other _ rfl

theorem Fraction.stops {fraction exponent rest : List Char} (isFraction : Fraction fraction)
    (isExponent : Exponent exponent) (stops : Stops isNumeric rest) :
    Stops isDigit (fraction ++ (exponent ++ rest)) := by
  cases isFraction with
  | present => simp [Stops, isDigit]
  | absent =>
    cases isExponent with
    | present letter => rcases letter with rfl | rfl <;> simp [Stops, isDigit]
    | absent => exact stops.digit

theorem readFraction_spelled {fraction exponent rest : List Char} (isFraction : Fraction fraction)
    (isExponent : Exponent exponent) (stops : Stops isNumeric rest) :
    readFraction (fraction ++ (exponent ++ rest)) = some (fraction, exponent ++ rest) := by
  have behind := Fraction.stops .absent isExponent stops
  cases isFraction with
  | present digits =>
    rw [List.nil_append] at behind
    simp [readFraction, readDigits_spelled digits behind]
  | absent =>
    cases isExponent with
    | present letter => rcases letter with rfl | rfl <;> rfl
    | absent =>
      rw [List.nil_append, List.nil_append]
      unfold readFraction
      split
      · cases stops '.' rfl
      · rfl

theorem fraction_of_readFraction {cs fraction rest : List Char}
    (read : readFraction cs = some (fraction, rest)) : Fraction fraction ∧ cs = fraction ++ rest := by
  unfold readFraction at read
  split at read
  · obtain ⟨ds, front, rfl⟩ := map_eq_some_part read
    obtain ⟨digits, rfl⟩ := digits_of_readDigits front
    exact ⟨.present digits, rfl⟩
  · cases read
    exact ⟨.absent, rfl⟩

theorem readSign_spelled {sign ds rest : List Char} (signed : sign = [] ∨ sign = ['+'] ∨ sign = ['-'])
    (digits : Digits ds) : readSign (sign ++ (ds ++ rest)) = (sign, ds ++ rest) := by
  obtain rfl | rfl | rfl := signed
  · obtain ⟨c, more, rfl, digit⟩ := digits.head
    rw [List.nil_append, List.cons_append]
    unfold readSign
    split
    · rename_i plus
      cases plus
      cases digit
    · rename_i minus
      cases minus
      cases digit
    · rfl
  · rfl
  · rfl

theorem sign_of_readSign {cs sign rest : List Char} (read : readSign cs = (sign, rest)) :
    (sign = [] ∨ sign = ['+'] ∨ sign = ['-']) ∧ cs = sign ++ rest := by
  unfold readSign at read
  split at read <;> cases read <;> simp

theorem readExponent_spelled {exponent rest : List Char} (isExponent : Exponent exponent)
    (stops : Stops isNumeric rest) : readExponent (exponent ++ rest) = some (exponent, rest) := by
  cases isExponent with
  | present letter signed digits =>
    simp [readExponent, letter, readSign_spelled signed digits,
      readDigits_spelled digits stops.digit]
  | absent =>
    cases rest with
    | nil => rfl
    | cons c rest =>
      have := stops c rfl
      simp_all [readExponent, isNumeric]

theorem exponent_of_readExponent {cs exponent rest : List Char}
    (read : readExponent cs = some (exponent, rest)) : Exponent exponent ∧ cs = exponent ++ rest := by
  unfold readExponent at read
  split at read
  · cases read
    exact ⟨.absent, rfl⟩
  · rename_i e behind
    split at read
    · rename_i letter
      rcases signs : readSign behind with ⟨sign, left⟩
      rw [signs] at read
      obtain ⟨ds, front, rfl⟩ := map_eq_some_part read
      obtain ⟨digits, rfl⟩ := digits_of_readDigits front
      obtain ⟨signed, rfl⟩ := sign_of_readSign signs
      exact ⟨.present letter signed digits, by simp⟩
    · cases read
      exact ⟨.absent, rfl⟩

theorem readMinus_spelled {whole : List Char} (isWhole : Whole whole) (negative : Bool)
    (rest : List Char) : readMinus (minus negative ++ (whole ++ rest)) = (negative, whole ++ rest) := by
  cases negative with
  | true => rfl
  | false =>
    obtain ⟨c, more, rfl, digit⟩ := isWhole.head
    rw [minus, if_neg Bool.false_ne_true, List.nil_append, List.cons_append]
    unfold readMinus
    split
    · rename_i minus
      cases minus
      cases digit
    · rfl

theorem minus_of_readMinus (cs : List Char) :
    cs = minus (readMinus cs).1 ++ (readMinus cs).2 := by
  unfold readMinus
  split <;> rfl

theorem readNumber_spelled {j : Json} {cs rest : List Char} (spelled : SpellsNumber j cs)
    (stops : Stops isNumeric rest) : readNumber (cs ++ rest) = some (j, rest) := by
  obtain ⟨negative, whole, fraction, exponent, isWhole, isFraction, isExponent, rfl, rfl⟩ := spelled
  have first := readWhole_spelled isWhole (isFraction.stops isExponent stops)
  have second := readFraction_spelled isFraction isExponent stops
  have third := readExponent_spelled isExponent stops
  simp [readNumber, readMinus_spelled isWhole, first, second, third]

theorem spellsNumber_of_readNumber {cs rest : List Char} {j : Json}
    (read : readNumber cs = some (j, rest)) : ∃ body, SpellsNumber j body ∧ cs = body ++ rest := by
  simp only [readNumber, Option.bind_eq_bind, Option.bind_eq_some_iff, Option.pure_def,
    Option.some.injEq, Prod.mk.injEq, Prod.exists] at read
  obtain ⟨whole, _, first, fraction, _, second, exponent, _, third, rfl, rfl⟩ := read
  obtain ⟨isWhole, behind⟩ := whole_of_readWhole first
  obtain ⟨isFraction, rfl⟩ := fraction_of_readFraction second
  obtain ⟨isExponent, rfl⟩ := exponent_of_readExponent third
  refine ⟨_, ⟨_, whole, fraction, exponent, isWhole, isFraction, isExponent, rfl, rfl⟩, ?_⟩
  have split := minus_of_readMinus cs
  rw [behind] at split
  rw [List.append_assoc, List.append_assoc, List.append_assoc]
  exact split

end BufferFlow.Json
