import BufferFlow.Json.Writer
import BufferFlow.Proofs.Json.Reading
import Mathlib.Data.List.Forall2
import Mathlib.Tactic.SplitIfs

set_option autoImplicit false

namespace BufferFlow.Json

/-! ## Texts in quotes -/

theorem textOfPieces?_unit {n : Nat} (plain : n < 0xD800) (ps : List Piece) :
    textOfPieces? (.unit n :: ps) = (textOfPieces? ps).map (Char.ofNat n :: ·) := by
  have leading : isLeading n = false := by simp [isLeading, plain]
  have trailing : isTrailing n = false := by
    simp only [isTrailing, Bool.and_eq_false_iff, decide_eq_false_iff_not]
    omega
  cases ps with
  | nil => simp [textOfPieces?, leading, trailing]
  | cons p ps => cases p <;> simp [textOfPieces?, leading, trailing]

theorem hexPad_control : ∀ n < 32, ∃ a b c d, hexPad n = [a, b, c, d] ∧ hexUnit? a b c d = some n := by
  have digits : ∀ n < 32, hexPad n = ['0', '0', Nat.digitChar (n / 16), Nat.digitChar (n % 16)] ∧
      hexUnit? '0' '0' (Nat.digitChar (n / 16)) (Nat.digitChar (n % 16)) = some n := by decide
  exact fun n control => ⟨_, _, _, _, digits n control⟩

theorem spellsPieces_escape {c e : Char} (named : simpleEscape? e = some c) {ps : List Piece}
    {cs : List Char} (behind : SpellsPieces ps cs) :
    ∃ p, SpellsPieces (p :: ps) (['\\', e] ++ cs) ∧
      textOfPieces? (p :: ps) = (textOfPieces? ps).map (c :: ·) :=
  ⟨.char c, .escape named behind, rfl⟩

theorem spellsPieces_escaped (c : Char) {ps : List Piece} {cs : List Char} (behind : SpellsPieces ps cs) :
    ∃ p, SpellsPieces (p :: ps) (escaped c ++ cs) ∧
      textOfPieces? (p :: ps) = (textOfPieces? ps).map (c :: ·) := by
  have code : Char.ofNat c.toNat = c := Char.ofNat_toNat c
  unfold escaped
  split_ifs with marked line carriage tab backspace form control
  · obtain rfl | rfl := marked <;> exact spellsPieces_escape rfl behind
  · exact spellsPieces_escape (line ▸ rfl) behind
  · exact spellsPieces_escape (carriage ▸ rfl) behind
  · exact spellsPieces_escape (tab ▸ rfl) behind
  · rw [backspace] at code
    exact spellsPieces_escape (code ▸ rfl) behind
  · rw [form] at code
    exact spellsPieces_escape (code ▸ rfl) behind
  · obtain ⟨d, e, f, g, padded, digits⟩ := hexPad_control c.toNat control
    refine ⟨.unit c.toNat, ?_, ?_⟩
    · rw [padded]
      exact .unit digits behind
    · rw [textOfPieces?_unit (by omega), code]
  · rw [not_or] at marked
    exact ⟨.char c, .char marked.1 marked.2 (Nat.not_lt.1 control) behind, rfl⟩

theorem spellsString_textOf {text : String} : SpellsString (some text) (textOf (some text)) := by
  have spelled : ∀ cs : List Char, ∃ ps, SpellsPieces ps (cs.flatMap escaped) ∧
      textOfPieces? ps = some cs := by
    intro cs
    induction cs with
    | nil => exact ⟨[], .nil, rfl⟩
    | cons c cs ih =>
      obtain ⟨ps, behind, text⟩ := ih
      obtain ⟨p, spelled, same⟩ := spellsPieces_escaped c behind
      exact ⟨p :: ps, spelled, by rw [same, text, Option.map_some]⟩
  obtain ⟨ps, spelled, same⟩ := spelled text.toList
  exact ⟨ps, _, spelled, by simp [same], rfl⟩

/-! ## Digits -/

theorem ofDigits_toDigits (n : Nat) : ofDigits (Nat.toDigits 10 n) = n := by
  have same : ofDigits (Nat.toDigits 10 n) = Nat.ofDigitChars 10 (Nat.toDigits 10 n) 0 := by
    simp only [ofDigits, Nat.ofDigitChars_eq_foldl, Nat.mul_comm 10]
  rw [same, Nat.ofDigitChars_ten_toDigits]

theorem digits_toDigits (n : Nat) : Digits (Nat.toDigits 10 n) :=
  ⟨Nat.toDigits_ne_nil, fun _ mem => Nat.isDigit_of_mem_toDigits (by decide) (by decide) mem⟩

theorem head_toDigits {n : Nat} (positive : 0 < n) : (Nat.toDigits 10 n).head? ≠ some '0' := by
  induction n using Nat.strong_induction_on with
  | _ n ih =>
    by_cases small : n < 10
    · have nonzero : ∀ d < 10, 0 < d → d.digitChar ≠ '0' := by decide
      rw [Nat.toDigits_of_lt_base small]
      simpa using nonzero n small positive
    · rw [Nat.toDigits_of_base_le (by decide) (by omega),
        List.head?_append_of_ne_nil _ Nat.toDigits_ne_nil]
      exact ih (n / 10) (by omega) (by omega)

theorem whole_toDigits (n : Nat) : Whole (Nat.toDigits 10 n) := by
  obtain rfl | positive := Nat.eq_zero_or_pos n
  · exact .inl (Nat.toDigits_zero 10)
  · exact .inr ⟨digits_toDigits n, head_toDigits positive⟩

theorem spellsNumber_integer (n : Int) : SpellsNumber (.integer n) (toString n).toList := by
  cases n with
  | ofNat n =>
    refine ⟨false, Nat.toDigits 10 n, [], [], whole_toDigits n, .absent, .absent, ?_, ?_⟩
    · simp [numberOf, ofDigits_toDigits]
    · change n.repr.toList = _
      simp [Nat.repr_eq_ofList_toDigits, minus]
  | negSucc n =>
    refine ⟨true, Nat.toDigits 10 (n + 1), [], [], whole_toDigits _, .absent, .absent, ?_, ?_⟩
    · simp only [numberOf, ofDigits_toDigits, List.append_nil, List.isEmpty_nil]
      rfl
    · change ("-" ++ (n + 1).repr).toList = _
      simp [Nat.repr_eq_ofList_toDigits, minus]

/-! ## Lists -/

theorem SpellsItem.of_spells {j : Json} {body : List Char} (spelled : Spells j body) :
    SpellsItem j body := by
  simpa using SpellsItem.mk blank_nil spelled blank_nil

theorem SpellsItem.lead {j : Json} {cs gap : List Char} (blank : Blank gap)
    (spelled : SpellsItem j cs) : SpellsItem j (gap ++ cs) := by
  cases spelled with
  | mk before value after =>
    rw [← List.append_assoc]
    exact .mk (blank.append before) value after

theorem SpellsItem.trail {j : Json} {cs gap : List Char} (blank : Blank gap)
    (spelled : SpellsItem j cs) : SpellsItem j (cs ++ gap) := by
  cases spelled with
  | mk before value after =>
    rw [List.append_assoc, List.append_assoc]
    exact .mk before value (after.append blank)

theorem SpellsMember.lead {m : Option String × Json} {cs gap : List Char} (blank : Blank gap)
    (spelled : SpellsMember m cs) : SpellsMember m (gap ++ cs) := by
  cases spelled with
  | mk before key colon item =>
    rw [← List.append_assoc]
    exact .mk (blank.append before) key colon item

theorem SpellsMember.trail {m : Option String × Json} {cs gap : List Char} (blank : Blank gap)
    (spelled : SpellsMember m cs) : SpellsMember m (cs ++ gap) := by
  cases spelled with
  | mk before key colon item =>
    simp only [List.append_assoc, List.cons_append]
    exact .mk before key colon (item.trail blank)

theorem Listed.trail {α : Type} {one : α → List Char → Prop} {gap : List Char}
    (trail : ∀ a cs, one a cs → one a (cs ++ gap)) {as : List α} {cs : List Char}
    (listed : Listed one as cs) : Listed one as (cs ++ gap) := by
  induction listed with
  | last single => exact .last (trail _ _ single)
  | more single _ ih =>
    rw [List.append_assoc, List.cons_append]
    exact .more single ih

theorem divided_cons_cons (separator item next : List Char) (items : List (List Char)) :
    divided separator (item :: next :: items) =
      item ++ (separator ++ divided separator (next :: items)) := by
  simp [divided]

theorem listed_iff {α : Type} {one : α → List Char → Prop} {as : List α} {cs : List Char} :
    Listed one as cs ↔
      as ≠ [] ∧ ∃ texts, List.Forall₂ one as texts ∧ cs = divided [','] texts := by
  constructor
  · intro listed
    refine ⟨by cases listed <;> simp, ?_⟩
    induction listed with
    | last single => exact ⟨_, .cons single .nil, rfl⟩
    | more single others ih =>
      obtain ⟨texts, spelled, rfl⟩ := ih
      refine ⟨_ :: texts, .cons single spelled, ?_⟩
      cases spelled with
      | nil => cases others
      | cons => rw [divided_cons_cons]; rfl
  · rintro ⟨nonempty, texts, spelled, rfl⟩
    induction spelled with
    | nil => exact absurd rfl nonempty
    | cons single others ih =>
      cases others with
      | nil => exact .last single
      | cons next others =>
        rw [divided_cons_cons]
        exact .more single (ih (List.cons_ne_nil _ _))

theorem spells_array {items : List Json} {texts : List (List Char)}
    (spelled : List.Forall₂ SpellsItem items texts) :
    Spells (.array items) ('[' :: (divided [','] texts ++ [']'])) := by
  cases spelled with
  | nil => exact .emptyArray blank_nil
  | cons first others =>
    exact .array (listed_iff.2 ⟨List.cons_ne_nil _ _, _, .cons first others, rfl⟩)

theorem spells_object {members : List (Option String × Json)} {texts : List (List Char)}
    (spelled : List.Forall₂ SpellsMember members texts) :
    Spells (.object members) ('\x7b' :: (divided [','] texts ++ ['\x7d'])) := by
  cases spelled with
  | nil => exact .emptyObject blank_nil
  | cons first others =>
    exact .object (listed_iff.2 ⟨List.cons_ne_nil _ _, _, .cons first others, rfl⟩)

/-! ## Values with a text -/

mutual

/-- The value has a text of its own: no string of lone surrogates, no decimal of another text. -/
def Plain : Json → Prop
  | .decimal text => SpellsNumber (.decimal text) text.toList
  | .string text => text.isSome
  | .array items => PlainItems items
  | .object members => PlainMembers members
  | .null => True
  | .bool _ => True
  | .integer _ => True

def PlainItems : List Json → Prop
  | [] => True
  | j :: items => j.Plain ∧ PlainItems items

def PlainMembers : List (Option String × Json) → Prop
  | [] => True
  | (key, value) :: members => key.isSome ∧ value.Plain ∧ PlainMembers members

end

theorem SpellsMember.written {key : String} {value : Json} {gap body : List Char} (blank : Blank gap)
    (spelled : Spells value body) :
    SpellsMember (some key, value) (textOf (some key) ++ ':' :: (gap ++ body)) :=
  .mk blank_nil spellsString_textOf blank_nil ((SpellsItem.of_spells spelled).lead blank)

mutual

theorem spells_compact (j : Json) (plain : j.Plain) : Spells j (compact j) := by
  cases j with
  | null => exact .null
  | bool b => cases b <;> constructor
  | integer n => exact .number (spellsNumber_integer n)
  | decimal text => exact .number (by rw [compact, scalar]; simpa [Plain] using plain)
  | string text =>
    obtain ⟨text, rfl⟩ := Option.isSome_iff_exists.1 (by simpa [Plain] using plain)
    exact .string spellsString_textOf
  | array items => exact spells_array (spells_compactItems items (by simpa [Plain] using plain))
  | object members =>
    exact spells_object (spells_compactMembers members (by simpa [Plain] using plain))

theorem spells_compactItems (items : List Json) (plain : PlainItems items) :
    List.Forall₂ SpellsItem items (compactItems items) := by
  cases items with
  | nil => exact .nil
  | cons j items =>
    obtain ⟨first, others⟩ := plain
    exact .cons (.of_spells (spells_compact j first)) (spells_compactItems items others)

theorem spells_compactMembers (members : List (Option String × Json)) (plain : PlainMembers members) :
    List.Forall₂ SpellsMember members (compactMembers members) := by
  cases members with
  | nil => exact .nil
  | cons m members =>
    obtain ⟨key, value⟩ := m
    obtain ⟨named, first, others⟩ := plain
    obtain ⟨key, rfl⟩ := Option.isSome_iff_exists.1 named
    exact .cons (.written blank_nil (spells_compact value first))
      (spells_compactMembers members others)

end

/-! ## Lines -/

def indent (depth : Nat) : List Char := '\n' :: List.replicate (2 * depth) ' '

theorem blank_indent (depth : Nat) : Blank (indent depth) := by
  refine List.forall_mem_cons.2 ⟨rfl, fun c mem => ?_⟩
  rw [List.eq_of_mem_replicate mem]
  rfl

theorem lineAt_eq (depth : Nat) (text : List Char) : lineAt depth text = indent depth ++ text := rfl

theorem listed_block {α : Type} {one : α → List Char → Prop}
    (lead : ∀ a cs gap, Blank gap → one a cs → one a (gap ++ cs))
    (trail : ∀ a cs gap, Blank gap → one a cs → one a (cs ++ gap)) (depth : Nat) {a : α}
    {as : List α} {texts : List (List Char)} (spelled : List.Forall₂ one (a :: as) texts) :
    ∃ inner, Listed one (a :: as) inner ∧
      ∀ left right, block depth left right texts = left :: (inner ++ [right]) := by
  have lines : List.Forall₂ one (a :: as) (texts.map (lineAt (depth + 1))) := by
    rw [List.forall₂_map_right_iff]
    exact spelled.imp fun a cs single => lead a cs _ (blank_indent _) single
  have listed : Listed one (a :: as) (divided [','] (texts.map (lineAt (depth + 1)))) :=
    listed_iff.2 ⟨List.cons_ne_nil _ _, _, lines, rfl⟩
  refine ⟨_, listed.trail fun a cs single => trail a cs _ (blank_indent depth) single, ?_⟩
  cases spelled with
  | cons => simp [block, lineAt_eq]

theorem spells_arrayBlock (depth : Nat) {items : List Json} {texts : List (List Char)}
    (spelled : List.Forall₂ SpellsItem items texts) :
    Spells (.array items) (block depth '[' ']' texts) := by
  cases items with
  | nil =>
    cases spelled
    exact .emptyArray blank_nil
  | cons j items =>
    obtain ⟨inner, listed, same⟩ := listed_block (fun _ _ _ blank => SpellsItem.lead blank)
      (fun _ _ _ blank => SpellsItem.trail blank) depth spelled
    rw [same]
    exact .array listed

theorem spells_objectBlock (depth : Nat) {members : List (Option String × Json)}
    {texts : List (List Char)} (spelled : List.Forall₂ SpellsMember members texts) :
    Spells (.object members) (block depth '\x7b' '\x7d' texts) := by
  cases members with
  | nil =>
    cases spelled
    exact .emptyObject blank_nil
  | cons m members =>
    obtain ⟨inner, listed, same⟩ := listed_block (fun _ _ _ blank => SpellsMember.lead blank)
      (fun _ _ _ blank => SpellsMember.trail blank) depth spelled
    rw [same]
    exact .object listed

mutual

theorem spells_pretty (depth : Nat) (j : Json) (plain : j.Plain) : Spells j (prettyAt depth j) := by
  cases j with
  | null => exact .null
  | bool b => cases b <;> constructor
  | integer n => exact .number (spellsNumber_integer n)
  | decimal text => exact .number (by rw [prettyAt, scalar]; simpa [Plain] using plain)
  | string text =>
    obtain ⟨text, rfl⟩ := Option.isSome_iff_exists.1 (by simpa [Plain] using plain)
    exact .string spellsString_textOf
  | array items =>
    exact spells_arrayBlock depth (spells_prettyItems _ items (by simpa [Plain] using plain))
  | object members =>
    exact spells_objectBlock depth (spells_prettyMembers _ members (by simpa [Plain] using plain))

theorem spells_prettyItems (depth : Nat) (items : List Json) (plain : PlainItems items) :
    List.Forall₂ SpellsItem items (prettyItems depth items) := by
  cases items with
  | nil => exact .nil
  | cons j items =>
    obtain ⟨first, others⟩ := plain
    exact .cons (.of_spells (spells_pretty depth j first)) (spells_prettyItems depth items others)

theorem spells_prettyMembers (depth : Nat) (members : List (Option String × Json))
    (plain : PlainMembers members) : List.Forall₂ SpellsMember members (prettyMembers depth members) := by
  cases members with
  | nil => exact .nil
  | cons m members =>
    obtain ⟨key, value⟩ := m
    obtain ⟨named, first, others⟩ := plain
    obtain ⟨key, rfl⟩ := Option.isSome_iff_exists.1 named
    have blank : Blank [' '] := by simp [Blank, isBlank]
    exact .cons (.written blank (spells_pretty depth value first))
      (spells_prettyMembers depth members others)

end

/-! ## Round trips -/

theorem parse?_of_spells {j : Json} {body : List Char} (spelled : Spells j body) :
    parse? (String.ofList body) = some j :=
  parse?_eq_some_iff.2 ⟨[], body, [], blank_nil, spelled, blank_nil, by simp⟩

theorem parse?_render {j : Json} (plain : j.Plain) : parse? j.render = some j :=
  parse?_of_spells (spells_compact j plain)

theorem parse?_pretty {j : Json} (plain : j.Plain) : parse? j.pretty = some j :=
  parse?_of_spells (spells_pretty 0 j plain)

/-! ## Objects by their members -/

structure Member where
  entry : Option String × Json
  text : List Char
  spelled : SpellsMember entry text

def Member.compact (key : String) (value : Json) (plain : value.Plain) : Member where
  entry := (some key, value)
  text := textOf (some key) ++ ':' :: Json.compact value
  spelled := .written blank_nil (spells_compact value plain)

def objectText (ms : List Member) : List Char :=
  '\x7b' :: (divided [','] (ms.map (·.text)) ++ ['\x7d'])

theorem Member.spelledAll (ms : List Member) :
    List.Forall₂ SpellsMember (ms.map (·.entry)) (ms.map (·.text)) := by
  rw [List.forall₂_map_left_iff, List.forall₂_map_right_iff, List.forall₂_same]
  exact fun m _ => m.spelled

theorem parse?_objectText (ms : List Member) :
    parse? (String.ofList (objectText ms)) = some (.object (ms.map (·.entry))) :=
  parse?_of_spells (spells_object (Member.spelledAll ms))

theorem exists_members {entries : List (Option String × Json)} {texts : List (List Char)}
    (spelled : List.Forall₂ SpellsMember entries texts) :
    ∃ ms : List Member, ms.map (·.entry) = entries ∧ ms.map (·.text) = texts := by
  induction spelled with
  | nil => exact ⟨[], rfl, rfl⟩
  | cons first _ ih =>
    obtain ⟨ms, rfl, rfl⟩ := ih
    exact ⟨⟨_, _, first⟩ :: ms, rfl, rfl⟩

theorem exists_objectText {text : String} {entries : List (Option String × Json)}
    (read : parse? text = some (.object entries)) (nonempty : entries ≠ []) :
    ∃ lead ms trail, Blank lead ∧ Blank trail ∧ ms.map Member.entry = entries ∧
      text = String.ofList (lead ++ (objectText ms ++ trail)) := by
  obtain ⟨lead, body, trail, leadBlank, spelled, trailBlank, same⟩ := parse?_eq_some_iff.1 read
  cases spelled with
  | number number =>
    obtain ⟨negative, whole, fraction, exponent, -, -, -, wrong, -⟩ := number
    rw [numberOf] at wrong
    split at wrong <;> cases wrong
  | emptyObject => exact absurd rfl nonempty
  | object listed =>
    obtain ⟨-, texts, all, rfl⟩ := listed_iff.1 listed
    obtain ⟨ms, rfl, rfl⟩ := exists_members all
    exact ⟨lead, ms, trail, leadBlank, trailBlank, rfl,
      by rw [objectText, ← same, String.ofList_toList]⟩

end BufferFlow.Json
