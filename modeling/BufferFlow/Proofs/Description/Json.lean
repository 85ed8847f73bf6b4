import BufferFlow.Description.Json
import BufferFlow.Proofs.Json.Writing

set_option autoImplicit false

namespace BufferFlow

namespace Json

variable {ms ms' : List (Option String × Json)} {key : String}

theorem keys?_isSome_iff : (keys? ms).isSome ↔ ∀ m ∈ ms, m.1.isSome := by
  induction ms with
  | nil => simp [keys?]
  | cons m ms ih =>
    obtain ⟨_ | key, value⟩ := m
    · simp [keys?]
    · rw [List.forall_mem_cons, ← ih, keys?, List.mapM_cons]
      cases found : List.mapM Prod.fst ms <;> simp [keys?, found]

theorem member?_perm (perm : ms.Perm ms') (key : String) : member? ms key = member? ms' key := by
  have named := perm.filter (·.1 == some key)
  rw [member?, member?]
  generalize ms.filter (·.1 == some key) = found at named
  generalize ms'.filter (·.1 == some key) = found' at named
  match found, found' with
  | [], _ => rw [named.nil_eq]
  | [m], _ => rw [List.singleton_perm.1 named]
  | _ :: _ :: _, _ :: _ :: _ => rfl
  | _ :: _ :: _, [] => simp at named
  | _ :: _ :: _, [_] => simp at named

theorem member?_cons_other {m : Option String × Json} (other : m.1 ≠ some key) :
    member? (m :: ms) key = member? ms key := by
  rw [member?, member?, List.filter_cons_of_neg (by simpa using other)]

theorem member?_cons_new {value : Json} (new : ∀ m ∈ ms, m.1 ≠ some key) :
    member? ((some key, value) :: ms) key = some (some value) := by
  have none : ms.filter (·.1 == some key) = [] := List.filter_eq_nil_iff.2 (by simpa using new)
  rw [member?, List.filter_cons_of_pos (by simp), none]

theorem member?_absent (absent : ∀ m ∈ ms, m.1 ≠ some key) : member? ms key = some none := by
  have none : ms.filter (·.1 == some key) = [] := List.filter_eq_nil_iff.2 (by simpa using absent)
  rw [member?, none]

theorem word?_ofWord (n : UInt64) : (ofWord n).word? = some n := by
  have fits : n.toNat < UInt64.size := n.toNat_lt
  simp [word?, ofWord, fits]

end Json

namespace Description

/-- The members of a description in an object; padding may be left out where there is none. -/
def required (d : Description) : List (Option String × Json) :=
  [(some "data_type", .ofText d.elementType.name), (some "real_elements", .ofWord d.real)]

def members (d : Description) : List (Option String × Json) :=
  d.required ++ [(some "padding_elements", .ofWord d.padding)]

def memberNames : List String := ["data_type", "real_elements", "padding_elements"]

/-- A member with a name that no member of a description has. -/
def Foreign (m : Option String × Json) : Prop := ∃ name, m.1 = some name ∧ name ∉ memberNames

theorem ofJson?_name (t : ElementType) : ElementType.ofJson? (.ofText t.name) = some t := by
  cases t <;> decide

theorem ofJson?_object_congr {ms ms' : List (Option String × Json)}
    (keys : (∀ m ∈ ms, m.1.isSome) ↔ ∀ m ∈ ms', m.1.isSome)
    (same : ∀ name ∈ memberNames, Json.member? ms name = Json.member? ms' name) :
    ofJson? (.object ms) = ofJson? (.object ms') := by
  have elementType := same "data_type" (by decide)
  have real := same "real_elements" (by decide)
  have padding := same "padding_elements" (by decide)
  rw [← Json.keys?_isSome_iff, ← Json.keys?_isSome_iff] at keys
  rw [ofJson?, ofJson?, elementType, real, padding]
  -- of the keys it only matters whether all of them are texts
  cases texts : Json.keys? ms <;> cases texts' : Json.keys? ms' <;> simp_all

theorem ofJson?_perm {ms ms' : List (Option String × Json)} (perm : ms.Perm ms') :
    ofJson? (.object ms) = ofJson? (.object ms') := by
  refine ofJson?_object_congr ?_ fun name _ => Json.member?_perm perm name
  simp only [perm.mem_iff]

theorem ofJson?_foreign {m : Option String × Json} (foreign : Foreign m)
    (ms : List (Option String × Json)) : ofJson? (.object (m :: ms)) = ofJson? (.object ms) := by
  obtain ⟨name, same, other⟩ := foreign
  refine ofJson?_object_congr ?_ fun known mem => Json.member?_cons_other ?_
  · simp [same]
  · rw [same]
    rintro ⟨rfl⟩
    exact other mem

theorem ofJson?_foreigns {others : List (Option String × Json)} (foreign : ∀ m ∈ others, Foreign m)
    (ms : List (Option String × Json)) : ofJson? (.object (others ++ ms)) = ofJson? (.object ms) := by
  induction others with
  | nil => rfl
  | cons m others ih =>
    obtain ⟨first, rest⟩ := List.forall_mem_cons.1 foreign
    rw [List.cons_append, ofJson?_foreign first, ih rest]

theorem ofJson?_padding_absent {ms : List (Option String × Json)}
    (absent : ∀ m ∈ ms, m.1 ≠ some "padding_elements") :
    ofJson? (.object ((some "padding_elements", .integer 0) :: ms)) = ofJson? (.object ms) := by
  have keys : Json.keys? ((some "padding_elements", .integer 0) :: ms) =
      (Json.keys? ms).map ("padding_elements" :: ·) := by
    cases found : List.mapM Prod.fst ms <;> simp [Json.keys?, found]
  have zero : (Json.integer 0).word? = some 0 := by decide
  rw [ofJson?, ofJson?, keys, Json.member?_cons_other (by decide), Json.member?_cons_other (by decide),
    Json.member?_cons_new absent, Json.member?_absent absent]
  cases Json.keys? ms <;> simp [ofFields?, zero]

theorem fields_of_ofJson? {ms : List (Option String × Json)} {d : Description}
    (read : ofJson? (.object ms) = some d) : ∃ elementType real padding,
      Json.member? ms "data_type" = some (some elementType) ∧
      Json.member? ms "real_elements" = some (some real) ∧
      Json.member? ms "padding_elements" = some padding ∧ ofFields? elementType real padding = some d := by
  simp only [ofJson?, Option.bind_eq_bind, Option.bind_eq_some_iff] at read
  obtain ⟨-, -, _, first, _, second, padding, third, elementType, rfl, real, rfl, fields⟩ := read
  exact ⟨elementType, real, padding, first, second, third, fields⟩

theorem padding_of_absent {ms : List (Option String × Json)} {d : Description}
    (absent : ∀ m ∈ ms, m.1 ≠ some "padding_elements") (read : ofJson? (.object ms) = some d) :
    d.padding = 0 := by
  obtain ⟨elementType, real, padding, -, -, none, fields⟩ := fields_of_ofJson? read
  obtain rfl := Option.some.inj ((Json.member?_absent absent).symm.trans none)
  simp only [ofFields?, Option.bind_eq_bind, Option.bind_eq_some_iff] at fields
  obtain ⟨_, -, _, -, _, ⟨⟩, ⟨⟩⟩ := fields
  rfl

theorem ofJson?_members (d : Description) : ofJson? (.object d.members) = some d := by
  simp [ofJson?, members, required, Json.keys?, Json.member?, ofFields?, ofJson?_name, Json.word?_ofWord]

theorem ofJson?_required {d : Description} (unpadded : d.padding = 0) :
    ofJson? (.object d.required) = some d := by
  obtain ⟨elementType, real, padding⟩ := d
  obtain rfl : padding = 0 := unpadded
  rw [← ofJson?_padding_absent (by simp [required])]
  exact (ofJson?_perm (List.perm_append_singleton ..).symm).trans (ofJson?_members ⟨elementType, real, 0⟩)

theorem parseJson?_objectText (ms : List Json.Member) :
    parseJson? (String.ofList (Json.objectText ms)) = ofJson? (.object (ms.map (·.entry))) := by
  rw [parseJson?, Json.parse?_objectText, Option.bind_some]

theorem parseJson?_renderJson (d : Description) : parseJson? d.renderJson = some d := by
  have plain : d.toJson.Plain := by
    simp [toJson, Json.ofFields, Json.ofText, Json.ofWord, Json.Plain, Json.PlainMembers]
  rw [parseJson?, renderJson, Json.parse?_render plain, Option.bind_some]
  exact ofJson?_members d

theorem parseJson?_blanks {lead trail : List Char} (leadBlank : Json.Blank lead)
    (trailBlank : Json.Blank trail) (text : String) :
    parseJson? (String.ofList (lead ++ (text.toList ++ trail))) = parseJson? text := by
  rw [parseJson?, parseJson?, Json.parse?_blanks leadBlank trailBlank]

theorem renderJson_injective : Function.Injective renderJson := by
  intro d d' same
  have read := parseJson?_renderJson d
  rw [same, parseJson?_renderJson, Option.some_inj] at read
  exact read.symm

/-- The members of the description, in any order and with foreign ones between them. Padding may be
left out where there is none. -/
def ListedIn (d : Description) (ms : List Json.Member) : Prop :=
  ∃ others, (∀ m ∈ others, Foreign m) ∧
    ((ms.map (·.entry)).Perm (others ++ d.members) ∨
      d.padding = 0 ∧ (ms.map (·.entry)).Perm (others ++ d.required))

theorem parseJson?_listed {d : Description} {ms : List Json.Member} (listed : ListedIn d ms) :
    parseJson? (String.ofList (Json.objectText ms)) = some d := by
  obtain ⟨others, foreign, perm | ⟨unpadded, perm⟩⟩ := listed
  · rw [parseJson?_objectText, ofJson?_perm perm, ofJson?_foreigns foreign, ofJson?_members]
  · rw [parseJson?_objectText, ofJson?_perm perm, ofJson?_foreigns foreign, ofJson?_required unpadded]

theorem parseJson?_foreign {m : Json.Member} (foreign : Foreign m.entry) (ms ms' : List Json.Member) :
    parseJson? (String.ofList (Json.objectText (ms ++ m :: ms'))) =
      parseJson? (String.ofList (Json.objectText (ms ++ ms'))) := by
  rw [parseJson?_objectText, parseJson?_objectText, List.map_append, List.map_cons,
    ofJson?_perm List.perm_middle, ofJson?_foreign foreign, List.map_append]

theorem exists_objectText {text : String} {d : Description} (read : parseJson? text = some d) :
    (∃ items, Json.parse? text = some (.array items)) ∨
      ∃ lead ms trail, Json.Blank lead ∧ Json.Blank trail ∧
        text = String.ofList (lead ++ (Json.objectText ms ++ trail)) := by
  obtain ⟨value, parsed, read⟩ := Option.bind_eq_some_iff.1 read
  match value with
  | .array items => exact .inl ⟨items, parsed⟩
  | .object entries =>
    have nonempty : entries ≠ [] := by
      rintro rfl
      simp [ofJson?, Json.keys?, Json.member?] at read
    obtain ⟨lead, ms, trail, leadBlank, trailBlank, -, same⟩ := Json.exists_objectText parsed nonempty
    exact .inr ⟨lead, ms, trail, leadBlank, trailBlank, same⟩
  | .null => simp [ofJson?] at read
  | .bool _ => simp [ofJson?] at read
  | .integer _ => simp [ofJson?] at read
  | .decimal _ => simp [ofJson?] at read
  | .string _ => simp [ofJson?] at read

/-- A written description is read back, and it is the canonical form of every text that is read as
one. Blanks around values, the order of members and unknown members make no difference, and an
absent padding is zero. -/
theorem json_faithful :
    (∀ d, parseJson? d.renderJson = some d) ∧
    (∀ d ms, ListedIn d ms → parseJson? (String.ofList (Json.objectText ms)) = some d) ∧
    (∀ ms ms' : List Json.Member, (ms.map (·.entry)).Perm (ms'.map (·.entry)) →
      parseJson? (String.ofList (Json.objectText ms)) =
        parseJson? (String.ofList (Json.objectText ms'))) ∧
    (∀ lead trail text, Json.Blank lead → Json.Blank trail →
      parseJson? (String.ofList (lead ++ (text.toList ++ trail))) = parseJson? text) ∧
    (∀ (m : Json.Member) ms ms', Foreign m.entry →
      parseJson? (String.ofList (Json.objectText (ms ++ m :: ms'))) =
        parseJson? (String.ofList (Json.objectText (ms ++ ms')))) ∧
    (∀ ms : List Json.Member, (∀ m ∈ ms, m.entry.1 ≠ some "padding_elements") →
      (∀ d, parseJson? (String.ofList (Json.objectText ms)) = some d → d.padding = 0) ∧
      ∀ m : Json.Member, m.entry = (some "padding_elements", .integer 0) →
        parseJson? (String.ofList (Json.objectText (m :: ms))) =
          parseJson? (String.ofList (Json.objectText ms))) ∧
    (∀ text d, parseJson? text = some d → parseJson? d.renderJson = some d ∧
      ((∃ items, Json.parse? text = some (.array items)) ∨
        ∃ lead ms trail, Json.Blank lead ∧ Json.Blank trail ∧
          text = String.ofList (lead ++ (Json.objectText ms ++ trail)))) ∧
    Function.Injective renderJson := by
  refine ⟨parseJson?_renderJson, fun d ms => parseJson?_listed, fun ms ms' perm => ?_,
    fun lead trail text leadBlank trailBlank => parseJson?_blanks leadBlank trailBlank text,
    fun m ms ms' foreign => parseJson?_foreign foreign ms ms', fun ms absent => ?_,
    fun text d read => ⟨parseJson?_renderJson d, exists_objectText read⟩, renderJson_injective⟩
  · rw [parseJson?_objectText, parseJson?_objectText, ofJson?_perm perm]
  · simp only [parseJson?_objectText, List.map_cons]
    have absent : ∀ m ∈ ms.map (·.entry), m.1 ≠ some "padding_elements" :=
      List.forall_mem_map.2 absent
    exact ⟨fun d => padding_of_absent absent, fun m zero => by rw [zero, ofJson?_padding_absent absent]⟩

/-- A description with an unknown member, one with its members in another order and without a
padding, and one with a padding of zero. -/
theorem json_faithful_f32 :
    parseJson? "\x7b\"unit\":[\x7b\"a\":null\x7d],\"real_elements\":10,\"data_type\":\"f32\"\x7d" =
      some ⟨.f32, 10, 0⟩ ∧
    parseJson? "\x7b\"data_type\":\"f32\",\"unit\":[\x7b\"a\":null\x7d],\"real_elements\":10\x7d" =
      some ⟨.f32, 10, 0⟩ ∧
    parseJson? "\n\x7b\"data_type\":\"f32\",\"real_elements\":10\x7d \t" = some ⟨.f32, 10, 0⟩ ∧
    parseJson? "\x7b\"padding_elements\":0,\"data_type\":\"f32\",\"real_elements\":10\x7d" =
      some ⟨.f32, 10, 0⟩ ∧
    parseJson? (renderJson ⟨.f32, 10, 0⟩) = some ⟨.f32, 10, 0⟩ := by
  obtain ⟨-, listed, reordered, blanks, foreign, absent, canonical, -⟩ := json_faithful
  let unit := Json.Member.compact "unit" (.array [.object [(some "a", .null)]])
    (by simp [Json.Plain, Json.PlainItems, Json.PlainMembers])
  let word := Json.Member.compact "data_type" (.ofText "f32") (by simp [Json.ofText, Json.Plain])
  let real := Json.Member.compact "real_elements" (.ofWord 10) trivial
  let zero := Json.Member.compact "padding_elements" (.integer 0) trivial
  have strange : Foreign unit.entry := ⟨"unit", rfl, by decide⟩
  have first := listed ⟨.f32, 10, 0⟩ [unit, real, word]
    ⟨[unit.entry], by simpa using strange, .inr ⟨rfl, .cons _ (.swap ..)⟩⟩
  have second := (reordered [word, unit, real] [unit, real, word]
    (.trans (.swap ..) (.cons _ (.swap ..)))).trans first
  have known := (foreign unit [word] [real] strange).symm.trans second
  have third := (blanks ['\n'] [' ', '\t'] _ (by simp [Json.Blank, Json.isBlank])
    (by simp [Json.Blank, Json.isBlank])).trans known
  have fourth := ((absent [word, real] (by simp [word, real, Json.Member.compact])).2 zero rfl).trans known
  refine ⟨Eq.trans (congrArg parseJson? ?_) first, Eq.trans (congrArg parseJson? ?_) second,
    Eq.trans (congrArg parseJson? ?_) third, Eq.trans (congrArg parseJson? ?_) fourth,
    (canonical _ _ fourth).1⟩ <;> decide

end Description

end BufferFlow
