import BufferFlow.Proofs.Json.Grammar

set_option autoImplicit false

namespace BufferFlow.Json

/-- One or more of what `one` spells, divided by commas. -/
inductive Listed {α : Type} (one : α → List Char → Prop) : List α → List Char → Prop
  | last {a : α} {cs : List Char} : one a cs → Listed one [a] cs
  | more {a : α} {as : List α} {cs rest : List Char} : one a cs → Listed one as rest →
      Listed one (a :: as) (cs ++ ',' :: rest)

mutual

/-- The texts of a value, without blanks around them. -/
inductive Spells : Json → List Char → Prop
  | null : Spells .null "null".toList
  | yes : Spells (.bool true) "true".toList
  | no : Spells (.bool false) "false".toList
  | number {j : Json} {cs : List Char} : SpellsNumber j cs → Spells j cs
  | string {text : Option String} {cs : List Char} : SpellsString text cs → Spells (.string text) cs
  | emptyArray {gap : List Char} : Blank gap → Spells (.array []) ('[' :: (gap ++ [']']))
  | array {items : List Json} {cs : List Char} :
      Listed SpellsItem items cs → Spells (.array items) ('[' :: (cs ++ [']']))
  | emptyObject {gap : List Char} : Blank gap → Spells (.object []) ('\x7b' :: (gap ++ ['\x7d']))
  | object {members : List (Option String × Json)} {cs : List Char} :
      Listed SpellsMember members cs → Spells (.object members) ('\x7b' :: (cs ++ ['\x7d']))

inductive SpellsItem : Json → List Char → Prop
  | mk {j : Json} {before body after : List Char} : Blank before → Spells j body → Blank after →
      SpellsItem j (before ++ (body ++ after))

inductive SpellsMember : Option String × Json → List Char → Prop
  | mk {key : Option String} {value : Json} {before name gap cs : List Char} : Blank before →
      SpellsString key name → Blank gap → SpellsItem value cs →
      SpellsMember (key, value) (before ++ (name ++ (gap ++ ':' :: cs)))

end

/-! ## First characters -/

theorem isDigit_cases {c : Char} (digit : isDigit c) : isBlank c = false ∧ c ≠ ']' ∧ c ≠ '\x7d' ∧
    c ≠ '"' ∧ c ≠ '[' ∧ c ≠ '\x7b' ∧ c ≠ 'n' ∧ c ≠ 't' ∧ c ≠ 'f' := by
  refine ⟨?_, ?_, ?_, ?_, ?_, ?_, ?_, ?_, ?_⟩
  · rw [isBlank]
    by_contra blank
    simp only [Bool.not_eq_false, Bool.or_eq_true, beq_iff_eq] at blank
    obtain ((rfl | rfl) | rfl) | rfl := blank <;> cases digit
  all_goals
    rintro rfl
    cases digit

theorem SpellsNumber.head {j : Json} {cs : List Char} (spelled : SpellsNumber j cs) :
    ∃ c rest, cs = c :: rest ∧ (c = '-' ∨ isDigit c) := by
  obtain ⟨negative, whole, fraction, exponent, isWhole, -, -, -, rfl⟩ := spelled
  cases negative with
  | true => exact ⟨'-', _, rfl, .inl rfl⟩
  | false =>
    obtain ⟨c, rest, rfl, digit⟩ := isWhole.head
    exact ⟨c, _, rfl, .inr digit⟩

theorem Spells.head {j : Json} {body : List Char} (spelled : Spells j body) :
    ∃ c rest, body = c :: rest ∧ isBlank c = false ∧ c ≠ ']' := by
  cases spelled with
  | null => exact ⟨'n', _, rfl, rfl, by decide⟩
  | yes => exact ⟨'t', _, rfl, rfl, by decide⟩
  | no => exact ⟨'f', _, rfl, rfl, by decide⟩
  | number number =>
    obtain ⟨c, rest, rfl, rfl | digit⟩ := number.head
    · exact ⟨'-', rest, rfl, rfl, by decide⟩
    · exact ⟨c, rest, rfl, (isDigit_cases digit).1, (isDigit_cases digit).2.1⟩
  | string string =>
    obtain ⟨ps, inner, -, -, rfl⟩ := string
    exact ⟨'"', _, rfl, rfl, by decide⟩
  | emptyArray => exact ⟨'[', _, rfl, rfl, by decide⟩
  | array => exact ⟨'[', _, rfl, rfl, by decide⟩
  | emptyObject => exact ⟨'\x7b', _, rfl, rfl, by decide⟩
  | object => exact ⟨'\x7b', _, rfl, rfl, by decide⟩

theorem Spells.solid {j : Json} {body : List Char} (spelled : Spells j body) : Solid body := by
  obtain ⟨c, rest, same, visible, -⟩ := spelled.head
  exact ⟨c, rest, same, visible⟩

theorem stops_blank {gap rest : List Char} (blank : Blank gap) (stops : Stops isNumeric rest) :
    Stops isNumeric (gap ++ rest) := by
  cases gap with
  | nil => exact stops
  | cons c gap =>
    rintro _ ⟨rfl⟩
    have := blank c List.mem_cons_self
    simp only [isBlank, Bool.or_eq_true, beq_iff_eq] at this
    obtain ((rfl | rfl) | rfl) | rfl := this <;> rfl

/-! ## Steps of the reader -/

section

attribute [local simp] readValue readItems readMembers

theorem readValue_skipBlanks (fuel : Nat) (cs : List Char) :
    readValue fuel (skipBlanks cs) = readValue fuel cs := by
  cases fuel <;> simp [skipBlanks_skipBlanks]

theorem readItems_skipBlanks (fuel : Nat) (cs : List Char) :
    readItems fuel (skipBlanks cs) = readItems fuel cs := by
  cases fuel with
  | zero => simp
  | succ fuel => rw [readItems, readItems, readValue_skipBlanks]

theorem readMembers_skipBlanks (fuel : Nat) (cs : List Char) :
    readMembers fuel (skipBlanks cs) = readMembers fuel cs := by
  cases fuel <;> simp [skipBlanks_skipBlanks]

end

variable {fuel : Nat} {cs rest : List Char}

theorem readValue_quote (start : skipBlanks cs = '"' :: rest) :
    readValue (fuel + 1) cs = (readString rest).map fun (text, rest) => (.string text, rest) := by
  rw [readValue, start]
  rfl

theorem readValue_emptyArray {more : List Char} (start : skipBlanks cs = '[' :: rest)
    (close : skipBlanks rest = ']' :: more) : readValue (fuel + 1) cs = some (.array [], more) := by
  simp only [readValue, start, close]

theorem readValue_array (start : skipBlanks cs = '[' :: rest)
    (filled : ∀ more, skipBlanks rest ≠ ']' :: more) :
    readValue (fuel + 1) cs = (readItems fuel rest).map fun (items, rest) => (.array items, rest) := by
  simp only [readValue, start, readItems_skipBlanks]

theorem readValue_emptyObject {more : List Char} (start : skipBlanks cs = '\x7b' :: rest)
    (close : skipBlanks rest = '\x7d' :: more) :
    readValue (fuel + 1) cs = some (.object [], more) := by
  simp only [readValue, start, close]

theorem readValue_object (start : skipBlanks cs = '\x7b' :: rest)
    (filled : ∀ more, skipBlanks rest ≠ '\x7d' :: more) :
    readValue (fuel + 1) cs =
      (readMembers fuel rest).map fun (members, rest) => (.object members, rest) := by
  simp only [readValue, start, readMembers_skipBlanks]

theorem readValue_number {c : Char} (start : skipBlanks cs = c :: rest)
    (numeric : c = '-' ∨ isDigit c) : readValue (fuel + 1) cs = readNumber (c :: rest) := by
  rw [readValue, start]
  obtain rfl | digit := numeric
  · rfl
  · obtain ⟨-, -, -, quote, bracket, brace, n, t, f⟩ := isDigit_cases digit
    split <;> simp_all

/-! ## What is spelled is read -/

theorem skipBlanks_body {before body : List Char} (blank : Blank before) (solid : Solid body)
    (rest : List Char) : skipBlanks (before ++ (body ++ rest)) = body ++ rest := by
  rw [skipBlanks_append blank, skipBlanks_solid (solid.append rest)]

theorem skipBlanks_mark {gap : List Char} (blank : Blank gap) {c : Char} (visible : isBlank c = false)
    (rest : List Char) : skipBlanks (gap ++ c :: rest) = c :: rest :=
  skipBlanks_body blank ⟨c, [], rfl, visible⟩ rest

theorem SpellsString.head {text : Option String} {cs : List Char} (spelled : SpellsString text cs) :
    ∃ body, cs = '"' :: body := by
  obtain ⟨ps, body, -, -, rfl⟩ := spelled
  exact ⟨_, rfl⟩

theorem SpellsItem.head {j : Json} {cs : List Char} (spelled : SpellsItem j cs) (rest : List Char) :
    ∃ c more, skipBlanks (cs ++ rest) = c :: more ∧ c ≠ ']' := by
  cases spelled with
  | mk before value after =>
    obtain ⟨c, more, rfl, visible, other⟩ := value.head
    rw [List.append_assoc, List.append_assoc, skipBlanks_body before ⟨c, more, rfl, visible⟩]
    exact ⟨c, _, rfl, other⟩

theorem SpellsMember.head {m : Option String × Json} {cs : List Char} (spelled : SpellsMember m cs)
    (rest : List Char) : ∃ more, skipBlanks (cs ++ rest) = '"' :: more := by
  cases spelled with
  | mk before name =>
    obtain ⟨body, rfl⟩ := name.head
    rw [List.append_assoc, List.append_assoc, skipBlanks_body before ⟨'"', body, rfl, rfl⟩]
    exact ⟨_, rfl⟩

theorem Listed.first {α : Type} {one : α → List Char → Prop} {as : List α} {cs : List Char}
    (listed : Listed one as cs) : ∃ a first more, one a first ∧ cs = first ++ more := by
  cases listed with
  | last single => exact ⟨_, cs, [], single, (List.append_nil cs).symm⟩
  | more single => exact ⟨_, _, _, single, rfl⟩

/-- With this many steps the reader takes every value that has at least two steps for each of its
characters. -/
def ReadsValues (fuel : Nat) : Prop :=
  ∀ ⦃j : Json⦄ ⦃body before rest : List Char⦄, Spells j body → 2 * body.length ≤ fuel →
    Blank before → Stops isNumeric rest → readValue fuel (before ++ (body ++ rest)) = some (j, rest)

def ReadsItems (fuel : Nat) : Prop :=
  ∀ ⦃items : List Json⦄ ⦃body : List Char⦄ (rest : List Char), Listed SpellsItem items body →
    2 * body.length + 1 ≤ fuel → readItems fuel (body ++ ']' :: rest) = some (items, rest)

def ReadsMembers (fuel : Nat) : Prop :=
  ∀ ⦃members : List (Option String × Json)⦄ ⦃body : List Char⦄ (rest : List Char),
    Listed SpellsMember members body → 2 * body.length + 1 ≤ fuel →
      readMembers fuel (body ++ '\x7d' :: rest) = some (members, rest)

theorem ReadsItems.value (readsItems : ReadsItems fuel) (readsMembers : ReadsMembers fuel) :
    ReadsValues (fuel + 1) := by
  intro j body before rest spelled enough blank stops
  have start := skipBlanks_body blank spelled.solid rest
  cases spelled with
  | null => rw [readValue, start]; rfl
  | yes => rw [readValue, start]; rfl
  | no => rw [readValue, start]; rfl
  | number number =>
    obtain ⟨c, more, rfl, numeric⟩ := number.head
    rw [readValue_number start numeric]
    exact readNumber_spelled number stops
  | string string =>
    obtain ⟨body, rfl⟩ := string.head
    rw [List.cons_append] at start ⊢
    rw [readValue_quote start, readString_spelled string]
    rfl
  | emptyArray gap =>
    rw [List.cons_append, List.append_assoc] at start ⊢
    exact readValue_emptyArray start (skipBlanks_mark gap rfl rest)
  | array items =>
    obtain ⟨j, first, more, item, same⟩ := items.first
    obtain ⟨c, behind, inside, other⟩ := item.head (more ++ ']' :: rest)
    rw [← List.append_assoc, ← same] at inside
    rw [List.length_cons, List.length_append] at enough
    rw [List.cons_append, List.append_assoc, List.singleton_append] at start ⊢
    rw [readValue_array start (by simp [inside, other]), readsItems rest items (by omega)]
    rfl
  | emptyObject gap =>
    rw [List.cons_append, List.append_assoc] at start ⊢
    exact readValue_emptyObject start (skipBlanks_mark gap rfl rest)
  | object members =>
    obtain ⟨m, first, more, member, same⟩ := members.first
    obtain ⟨behind, inside⟩ := member.head (more ++ '\x7d' :: rest)
    rw [← List.append_assoc, ← same] at inside
    rw [List.length_cons, List.length_append] at enough
    rw [List.cons_append, List.append_assoc, List.singleton_append] at start ⊢
    rw [readValue_object start (by simp [inside]), readsMembers rest members (by omega)]
    rfl

theorem ReadsValues.item (reads : ReadsValues fuel) {j : Json} {body : List Char}
    (spelled : SpellsItem j body) (enough : 2 * body.length ≤ fuel) (mark : Char)
    (numeric : isNumeric mark = false) (visible : isBlank mark = false) (rest : List Char) :
    ∃ left, readValue fuel (body ++ mark :: rest) = some (j, left) ∧
      skipBlanks left = mark :: rest := by
  cases spelled with
  | mk blank value trail =>
    refine ⟨_, ?_, skipBlanks_mark trail visible rest⟩
    simp only [List.length_append] at enough
    rw [List.append_assoc, List.append_assoc]
    refine reads value (by omega) blank (stops_blank trail ?_)
    rintro _ ⟨rfl⟩
    exact numeric

theorem ReadsValues.items (reads : ReadsValues fuel) (readsItems : ReadsItems fuel) :
    ReadsItems (fuel + 1) := by
  intro items body rest spelled enough
  cases spelled with
  | last item =>
    obtain ⟨left, read, close⟩ := reads.item item (by omega) ']' rfl rfl rest
    simp only [readItems, read, close]
  | @more j items cs more item others =>
    simp only [List.length_append, List.length_cons] at enough
    have others := readsItems rest others (by omega)
    obtain ⟨left, read, comma⟩ := reads.item item (by omega) ',' rfl rfl (more ++ ']' :: rest)
    rw [List.append_assoc, List.cons_append]
    simp only [readItems, read, comma, others, Option.map_some]

theorem ReadsValues.member (reads : ReadsValues fuel) {m : Option String × Json} {body : List Char}
    (spelled : SpellsMember m body) (enough : 2 * body.length ≤ fuel) (mark : Char)
    (numeric : isNumeric mark = false) (visible : isBlank mark = false) (rest : List Char) :
    ∃ name behind colon left, skipBlanks (body ++ mark :: rest) = '"' :: name ∧
      readString name = some (m.1, behind) ∧ skipBlanks behind = ':' :: colon ∧
      readValue fuel colon = some (m.2, left) ∧ skipBlanks left = mark :: rest := by
  cases spelled with
  | mk blank key gap item =>
    obtain ⟨name, rfl⟩ := key.head
    simp only [List.length_append, List.length_cons] at enough
    obtain ⟨left, read, close⟩ := reads.item item (by omega) mark numeric visible rest
    refine ⟨_, _, _, left, ?_, readString_spelled key _, skipBlanks_mark gap rfl _, read, close⟩
    simp only [List.append_assoc, List.cons_append]
    exact skipBlanks_mark blank rfl _

theorem ReadsValues.members (reads : ReadsValues fuel) (readsMembers : ReadsMembers fuel) :
    ReadsMembers (fuel + 1) := by
  intro members body rest spelled enough
  cases spelled with
  | last member =>
    obtain ⟨name, behind, colon, left, start, key, gap, read, close⟩ :=
      reads.member member (by omega) '\x7d' rfl rfl rest
    simp only [readMembers, start, key, gap, read, close]
  | @more m members cs more member others =>
    simp only [List.length_append, List.length_cons] at enough
    have others := readsMembers rest others (by omega)
    obtain ⟨name, behind, colon, left, start, key, gap, read, comma⟩ :=
      reads.member member (by omega) ',' rfl rfl (more ++ '\x7d' :: rest)
    rw [List.append_assoc, List.cons_append]
    simp only [readMembers, start, key, gap, read, comma, others, Option.map_some]

theorem readers_complete (fuel : Nat) : ReadsValues fuel ∧ ReadsItems fuel ∧ ReadsMembers fuel := by
  induction fuel with
  | zero =>
    refine ⟨?_, ?_, ?_⟩
    · intro j body before rest spelled enough
      obtain ⟨c, more, rfl, -⟩ := spelled.head
      rw [List.length_cons] at enough
      omega
    · intro items body rest _ enough
      omega
    · intro members body rest _ enough
      omega
  | succ fuel ih =>
    obtain ⟨values, items, members⟩ := ih
    exact ⟨items.value members, values.items items, values.members members⟩

/-! ## What is read is spelled -/

/-- What the reader takes with this many steps is spelled, and it leaves what is behind. -/
def ValuesSpelled (fuel : Nat) : Prop :=
  ∀ ⦃j : Json⦄ ⦃cs rest : List Char⦄, readValue fuel cs = some (j, rest) →
    ∃ before body, Blank before ∧ Spells j body ∧ cs = before ++ (body ++ rest)

def ItemsSpelled (fuel : Nat) : Prop :=
  ∀ ⦃items : List Json⦄ ⦃cs rest : List Char⦄, readItems fuel cs = some (items, rest) →
    ∃ body, Listed SpellsItem items body ∧ cs = body ++ ']' :: rest

def MembersSpelled (fuel : Nat) : Prop :=
  ∀ ⦃members : List (Option String × Json)⦄ ⦃cs rest : List Char⦄,
    readMembers fuel cs = some (members, rest) →
      ∃ body, Listed SpellsMember members body ∧ cs = body ++ '\x7d' :: rest

theorem readWord_eq_some {word : String} {value j : Json} {cs rest : List Char}
    (read : readWord word value cs = some (j, rest)) : j = value ∧ cs = word.toList ++ rest := by
  rw [readWord] at read
  split at read
  · rename_i found
    obtain ⟨behind, rfl⟩ := List.isPrefixOf_iff_prefix.1 found
    cases read
    exact ⟨rfl, by simp [← String.length_toList]⟩
  · cases read

theorem ItemsSpelled.value (itemsSpelled : ItemsSpelled fuel) (membersSpelled : MembersSpelled fuel) :
    ValuesSpelled (fuel + 1) := by
  intro j cs rest read
  obtain ⟨before, blank, split⟩ := skipBlanks_split cs
  -- the blanks in front are taken off once, for every form of a value
  suffices ∃ body, Spells j body ∧ skipBlanks cs = body ++ rest by
    obtain ⟨body, spelled, same⟩ := this
    exact ⟨before, body, blank, spelled, same ▸ split⟩
  rw [readValue] at read
  split at read
  · cases read
  · rename_i behind start
    obtain ⟨text, string, rfl⟩ := map_eq_some_part read
    obtain ⟨body, spelled, rfl⟩ := spellsString_of_readString string
    exact ⟨_, .string spelled, start⟩
  · rename_i behind start
    obtain ⟨gap, gapBlank, inside⟩ := skipBlanks_split behind
    split at read
    · rename_i after close
      cases read
      rw [close] at inside
      exact ⟨_, .emptyArray gapBlank, by rw [start, inside]; simp⟩
    · rw [readItems_skipBlanks] at read
      obtain ⟨items, inner, rfl⟩ := map_eq_some_part read
      obtain ⟨body, spelled, rfl⟩ := itemsSpelled inner
      exact ⟨_, .array spelled, by rw [start]; simp⟩
  · rename_i behind start
    obtain ⟨gap, gapBlank, inside⟩ := skipBlanks_split behind
    split at read
    · rename_i after close
      cases read
      rw [close] at inside
      exact ⟨_, .emptyObject gapBlank, by rw [start, inside]; simp⟩
    · rw [readMembers_skipBlanks] at read
      obtain ⟨members, inner, rfl⟩ := map_eq_some_part read
      obtain ⟨body, spelled, rfl⟩ := membersSpelled inner
      exact ⟨_, .object spelled, by rw [start]; simp⟩
  · rename_i behind start
    obtain ⟨rfl, same⟩ := readWord_eq_some read
    exact ⟨_, .null, start.trans same⟩
  · rename_i behind start
    obtain ⟨rfl, same⟩ := readWord_eq_some read
    exact ⟨_, .yes, start.trans same⟩
  · rename_i behind start
    obtain ⟨rfl, same⟩ := readWord_eq_some read
    exact ⟨_, .no, start.trans same⟩
  · obtain ⟨body, spelled, same⟩ := spellsNumber_of_readNumber read
    exact ⟨body, .number spelled, same⟩

theorem ValuesSpelled.items (valuesSpelled : ValuesSpelled fuel) (itemsSpelled : ItemsSpelled fuel) :
    ItemsSpelled (fuel + 1) := by
  intro items cs rest read
  rw [readItems] at read
  split at read
  · cases read
  · rename_i item left value
    obtain ⟨before, body, blank, spelled, rfl⟩ := valuesSpelled value
    obtain ⟨after, trail, behind⟩ := skipBlanks_split left
    have item : SpellsItem item (before ++ (body ++ after)) := .mk blank spelled trail
    split at read
    · rename_i close
      cases read
      rw [close] at behind
      exact ⟨_, .last item, by rw [behind]; simp⟩
    · rename_i others comma
      obtain ⟨more, inner, rfl⟩ := map_eq_some_part read
      obtain ⟨rest, spelledMore, rfl⟩ := itemsSpelled inner
      rw [comma] at behind
      exact ⟨_, .more item spelledMore, by rw [behind]; simp⟩
    · cases read

theorem readMembers_cases {members : List (Option String × Json)}
    (read : readMembers (fuel + 1) cs = some (members, rest)) :
    ∃ name key behind colon value left, skipBlanks cs = '"' :: name ∧
      readString name = some (key, behind) ∧ skipBlanks behind = ':' :: colon ∧
      readValue fuel colon = some (value, left) ∧
      (skipBlanks left = '\x7d' :: rest ∧ members = [(key, value)] ∨
        ∃ comma others, skipBlanks left = ',' :: comma ∧
          readMembers fuel comma = some (others, rest) ∧ members = (key, value) :: others) := by
  rw [readMembers] at read
  split at read
  · rename_i name start
    split at read
    · cases read
    · rename_i key behind string
      split at read
      · rename_i colon mark
        split at read
        · cases read
        · rename_i value left found
          refine ⟨name, key, behind, colon, value, left, start, string, mark, found, ?_⟩
          split at read
          · rename_i close
            cases read
            exact .inl ⟨close, rfl⟩
          · rename_i comma more
            obtain ⟨others, inner, rfl⟩ := map_eq_some_part read
            exact .inr ⟨comma, others, more, inner, rfl⟩
          · cases read
      · cases read
  · cases read

theorem ValuesSpelled.members (valuesSpelled : ValuesSpelled fuel)
    (membersSpelled : MembersSpelled fuel) : MembersSpelled (fuel + 1) := by
  intro members cs rest read
  obtain ⟨name, key, behind, colon, value, left, start, string, mark, found, ends⟩ :=
    readMembers_cases read
  obtain ⟨before, blank, split⟩ := skipBlanks_split cs
  obtain ⟨name, spelledKey, rfl⟩ := spellsString_of_readString string
  obtain ⟨gap, gapBlank, inside⟩ := skipBlanks_split behind
  obtain ⟨lead, body, leadBlank, spelled, rfl⟩ := valuesSpelled found
  obtain ⟨after, trail, last⟩ := skipBlanks_split left
  have member := SpellsMember.mk blank spelledKey gapBlank (.mk leadBlank spelled trail)
  obtain ⟨close, rfl⟩ | ⟨comma, others, more, inner, rfl⟩ := ends
  · rw [close] at last
    exact ⟨_, .last member, by rw [split, start, inside, mark, last]; simp⟩
  · obtain ⟨rest, spelledMore, rfl⟩ := membersSpelled inner
    rw [more] at last
    exact ⟨_, .more member spelledMore, by rw [split, start, inside, mark, last]; simp⟩

theorem readers_sound (fuel : Nat) : ValuesSpelled fuel ∧ ItemsSpelled fuel ∧ MembersSpelled fuel := by
  induction fuel with
  | zero =>
    refine ⟨?_, ?_, ?_⟩
    · intro j cs rest read
      rw [readValue] at read
      cases read
    · intro items cs rest read
      rw [readItems] at read
      cases read
    · intro members cs rest read
      rw [readMembers] at read
      cases read
  | succ fuel ih =>
    obtain ⟨values, items, members⟩ := ih
    exact ⟨items.value members, values.items items, values.members members⟩

/-! ## Whole texts -/

theorem parse?_eq_some_iff {text : String} {j : Json} : parse? text = some j ↔
    ∃ before body after, Blank before ∧ Spells j body ∧ Blank after ∧
      text.toList = before ++ (body ++ after) := by
  rw [parse?]
  constructor
  · intro read
    split at read
    · rename_i value rest found
      rw [Option.ite_none_right_eq_some, List.isEmpty_iff] at read
      obtain ⟨empty, ⟨⟩⟩ := read
      obtain ⟨before, body, blank, spells, same⟩ := (readers_sound _).1 found
      obtain ⟨after, trail, left⟩ := skipBlanks_split rest
      rw [empty, List.append_nil] at left
      exact ⟨before, body, rest, blank, spells, left ▸ trail, same⟩
    · cases read
  · rintro ⟨before, body, after, blank, spells, trail, same⟩
    have room : 2 * body.length ≤ 2 * text.toList.length + 2 := by
      rw [same, List.length_append, List.length_append]
      omega
    have stops : Stops isNumeric (after ++ []) := stops_blank trail (by simp [Stops])
    rw [List.append_nil] at stops
    have read := (readers_complete _).1 spells room blank stops
    rw [← same] at read
    simp [read, skipBlanks_blank trail]

/-! ## Last characters -/

theorem Digits.last {ds : List Char} (digits : Digits ds) : ∃ rest c, ds = rest ++ [c] ∧ isDigit c :=
  ⟨ds.dropLast, ds.getLast digits.1, (List.dropLast_append_getLast digits.1).symm,
    digits.2 _ (List.getLast_mem digits.1)⟩

theorem SpellsNumber.last {j : Json} {cs : List Char} (spelled : SpellsNumber j cs) :
    ∃ rest c, cs = rest ++ [c] ∧ isDigit c := by
  obtain ⟨negative, whole, fraction, exponent, isWhole, isFraction, isExponent, -, rfl⟩ := spelled
  cases isExponent with
  | @present e sign ds letter signed digits =>
    obtain ⟨rest, c, rfl, digit⟩ := digits.last
    exact ⟨minus negative ++ (whole ++ (fraction ++ (e :: (sign ++ rest)))), c, by simp, digit⟩
  | absent =>
    cases isFraction with
    | present digits =>
      obtain ⟨rest, c, rfl, digit⟩ := digits.last
      exact ⟨minus negative ++ (whole ++ '.' :: rest), c, by simp, digit⟩
    | absent =>
      obtain rfl | ⟨digits, -⟩ := isWhole
      · exact ⟨minus negative, '0', rfl, rfl⟩
      · obtain ⟨rest, c, rfl, digit⟩ := digits.last
        exact ⟨minus negative ++ rest, c, by simp, digit⟩

theorem Spells.last {j : Json} {body : List Char} (spelled : Spells j body) :
    ∃ rest c, body = rest ++ [c] ∧ isBlank c = false := by
  cases spelled with
  | null => exact ⟨['n', 'u', 'l'], 'l', rfl, rfl⟩
  | yes => exact ⟨['t', 'r', 'u'], 'e', rfl, rfl⟩
  | no => exact ⟨['f', 'a', 'l', 's'], 'e', rfl, rfl⟩
  | number number =>
    obtain ⟨rest, c, rfl, digit⟩ := number.last
    exact ⟨rest, c, rfl, (isDigit_cases digit).1⟩
  | string string =>
    obtain ⟨ps, inner, -, -, rfl⟩ := string
    exact ⟨'"' :: inner, '"', rfl, rfl⟩
  | @emptyArray gap => exact ⟨'[' :: gap, ']', rfl, rfl⟩
  | @array _ cs => exact ⟨'[' :: cs, ']', rfl, rfl⟩
  | @emptyObject gap => exact ⟨'\x7b' :: gap, '\x7d', rfl, rfl⟩
  | @object _ cs => exact ⟨'\x7b' :: cs, '\x7d', rfl, rfl⟩

theorem Spells.behind {j : Json} {body before after cs trail : List Char} (spelled : Spells j body)
    (blank : Blank trail) (same : cs ++ trail = before ++ body ++ after) :
    ∃ rest, after = rest ++ trail ∧ cs = before ++ (body ++ rest) := by
  obtain ⟨surplus, whole, rfl⟩ | ⟨rest, rfl, rfl⟩ := List.append_eq_append_iff.1 same
  · obtain ⟨front, c, rfl, visible⟩ := spelled.last
    obtain rfl | ⟨more, d, rfl⟩ := List.eq_nil_or_concat surplus
    · exact ⟨[], rfl, by simpa using whole.symm⟩
    · -- the value would end with one of the blanks
      rw [← List.append_assoc, List.concat_eq_append, ← List.append_assoc] at whole
      obtain rfl := List.singleton_inj.1 (List.append_inj_right' whole rfl)
      have := blank c (by simp)
      rw [visible] at this
      cases this
  · exact ⟨rest, rfl, List.append_assoc ..⟩

/-! ## Blanks around a text -/

theorem parse?_blanks {lead trail : List Char} (leadBlank : Blank lead) (trailBlank : Blank trail)
    (text : String) : parse? (String.ofList (lead ++ (text.toList ++ trail))) = parse? text := by
  refine Option.ext fun j => ?_
  rw [parse?_eq_some_iff, parse?_eq_some_iff, String.toList_ofList]
  constructor
  · rintro ⟨before, body, after, blank, spells, behind, same⟩
    obtain ⟨front, frontBlank, split⟩ := skipBlanks_split (text.toList ++ trail)
    rw [← skipBlanks_append leadBlank, same, skipBlanks_body blank spells.solid,
      ← List.append_assoc] at split
    obtain ⟨rest, rfl, text⟩ := spells.behind trailBlank split
    exact ⟨front, body, rest, frontBlank, spells, fun c mem => behind c (List.mem_append_left _ mem),
      text⟩
  · rintro ⟨before, body, after, blank, spells, behind, same⟩
    exact ⟨lead ++ before, body, after ++ trail, leadBlank.append blank, spells,
      behind.append trailBlank, by rw [same]; simp⟩

end BufferFlow.Json
