import BufferFlow.Proofs.Text.Utf8

set_option autoImplicit false

namespace BufferFlow.Http

open Text

structure Response where
  status : Nat
  reason : List UInt8
  fields : List (List UInt8 × List UInt8)
  body : List UInt8

def lineEnd : List UInt8 := [13, 10]

def statusDigits (n : Nat) : List UInt8 :=
  [UInt8.ofNat (48 + n / 100), UInt8.ofNat (48 + n / 10 % 10), UInt8.ofNat (48 + n % 10)]

def fieldLine (field : List UInt8 × List UInt8) : List UInt8 :=
  field.1 ++ 58 :: 32 :: (field.2 ++ lineEnd)

def Response.bytes (r : Response) : List UInt8 :=
  Utf8.bytes "HTTP/1.1 " ++ (statusDigits r.status ++ 32 :: (r.reason ++ lineEnd ++
    (r.fields.flatMap fieldLine ++ (lineEnd ++ r.body))))

/-- A letter, a digit, or one of the marks that a field name may have. -/
def isToken (b : UInt8) : Bool :=
  (48 ≤ b && b ≤ 57) || (65 ≤ b && b ≤ 90) || (97 ≤ b && b ≤ 122) ||
    (Utf8.bytes "!#$%&'*+-.^_`|~").contains b

def isVisible (b : UInt8) : Bool := 33 ≤ b && b != 127

def isText (b : UInt8) : Bool := isVisible b || b == 9 || b == 32

structure FieldFormed (field : List UInt8 × List UInt8) : Prop where
  named : field.1 ≠ []
  name : field.1.all isToken
  text : field.2.all isText
  ends : field.2.head?.all isVisible ∧ field.2.getLast?.all isVisible

def lowered (b : UInt8) : UInt8 := if 65 ≤ b && b ≤ 90 then b + 32 else b

/-- The values of the fields of that name. In names capitals are no other letters. -/
def Response.values (r : Response) (name : String) : List (List UInt8) :=
  (r.fields.filter fun field => field.1.map lowered == Utf8.bytes name).map Prod.snd

/-- The one length that is given is that of the body. -/
structure Response.WellFormed (r : Response) : Prop where
  status : 100 ≤ r.status ∧ r.status < 600
  reason : r.reason.all isText
  fields : ∀ field ∈ r.fields, FieldFormed field
  length : r.values "content-length" = [Utf8.bytes (toString r.body.length)]
  plain : r.values "transfer-encoding" = []

theorem FieldFormed.of_visible {name text : List UInt8} (named : name ≠ []) (token : name.all isToken)
    (visible : text.all isVisible) : FieldFormed (name, text) := by
  rw [List.all_eq_true] at visible
  refine ⟨named, token, List.all_eq_true.2 fun b mem => by simp [isText, visible b mem], ?_, ?_⟩
  · cases head : text.head? with
    | none => rfl
    | some b => exact visible b (List.mem_of_mem_head? head)
  · cases last : text.getLast? with
    | none => rfl
    | some b => exact visible b (List.mem_of_getLast? last)

theorem isVisible_digits (n : Nat) : (Utf8.bytes (toString n)).all isVisible := by
  rw [List.all_eq_true]
  intro b mem
  have digits : (toString n).toList = Nat.toDigits 10 n := by
    change n.repr.toList = _
    rw [Nat.repr_eq_ofList_toDigits, String.toList_ofList]
  rw [Utf8.bytes_eq, digits] at mem
  obtain ⟨c, digit, mem⟩ := List.mem_flatMap.1 mem
  have range : 48 ≤ c.toNat ∧ c.toNat ≤ 57 := by
    have digit := Nat.isDigit_of_mem_toDigits (by decide) (by decide) digit
    simpa [Char.isDigit, UInt32.le_iff_toNat_le] using digit
  rw [Utf8.utf8EncodeChar_ascii (by omega), List.mem_singleton] at mem
  obtain rfl := mem
  have visible : ∀ n < 58, 48 ≤ n → isVisible (UInt8.ofNat n) := by decide
  exact visible c.toNat (by omega) range.1

theorem append_cons_inj {α : Type} {a : α} {front front' behind behind' : List α} (other : a ∉ front)
    (other' : a ∉ front') (same : front ++ a :: behind = front' ++ a :: behind') :
    front = front' ∧ behind = behind' := by
  induction front generalizing front' with
  | nil =>
    cases front' with
    | nil => exact ⟨rfl, (List.cons.inj same).2⟩
    | cons b front' => exact absurd ((List.cons.inj same).1 ▸ List.mem_cons_self) other'
  | cons b front ih =>
    cases front' with
    | nil => exact absurd ((List.cons.inj same).1 ▸ List.mem_cons_self) other
    | cons b' front' =>
      obtain ⟨rfl, others⟩ := List.cons.inj same
      obtain ⟨rfl, rfl⟩ :=
        ih (List.not_mem_of_not_mem_cons other) (List.not_mem_of_not_mem_cons other') others
      exact ⟨rfl, rfl⟩

theorem statusDigits_inj {n m : Nat} (small : n < 600) (small' : m < 600)
    (same : statusDigits n = statusDigits m) : n = m := by
  simp only [statusDigits, List.cons.injEq, ← UInt8.toNat_inj, UInt8.toNat_ofNat', and_true] at same
  omega

theorem not_mem_of_all {p : UInt8 → Bool} {line : List UInt8} (all : line.all p) {b : UInt8}
    (other : p b = false) : b ∉ line := by
  intro mem
  rw [List.all_eq_true.1 all b mem] at other
  cases other

theorem line_inj {line line' behind behind' : List UInt8} (text : line.all isText)
    (text' : line'.all isText) (same : line ++ (lineEnd ++ behind) = line' ++ (lineEnd ++ behind')) :
    line = line' ∧ behind = behind' := by
  obtain ⟨rfl, others⟩ := append_cons_inj (not_mem_of_all text rfl) (not_mem_of_all text' rfl) same
  exact ⟨rfl, (List.cons.inj others).2⟩

theorem fieldLine_inj {field field' : List UInt8 × List UInt8} {behind behind' : List UInt8}
    (formed : FieldFormed field) (formed' : FieldFormed field')
    (same : fieldLine field ++ behind = fieldLine field' ++ behind') :
    field = field' ∧ behind = behind' := by
  simp only [fieldLine, List.append_assoc, List.cons_append] at same
  have colon : isToken 58 = false := by decide
  obtain ⟨name, others⟩ :=
    append_cons_inj (not_mem_of_all formed.name colon) (not_mem_of_all formed'.name colon) same
  obtain ⟨text, rfl⟩ := line_inj formed.text formed'.text (List.cons.inj others).2
  exact ⟨Prod.ext name text, rfl⟩

theorem fieldLine_ne {field : List UInt8 × List UInt8} (formed : FieldFormed field)
    (front behind : List UInt8) : fieldLine field ++ front ≠ lineEnd ++ behind := by
  obtain ⟨name, text⟩ := field
  cases name with
  | nil => exact absurd rfl formed.named
  | cons b name =>
    intro same
    have token := List.all_eq_true.1 formed.name b List.mem_cons_self
    rw [(List.cons.inj same).1] at token
    exact absurd token (by decide)

theorem fields_inj {fields fields' : List (List UInt8 × List UInt8)} {body body' : List UInt8}
    (formed : ∀ field ∈ fields, FieldFormed field) (formed' : ∀ field ∈ fields', FieldFormed field)
    (same : fields.flatMap fieldLine ++ (lineEnd ++ body) =
      fields'.flatMap fieldLine ++ (lineEnd ++ body')) : fields = fields' ∧ body = body' := by
  induction fields generalizing fields' with
  | nil =>
    cases fields' with
    | nil => exact ⟨rfl, List.append_cancel_left same⟩
    | cons field' fields' =>
      rw [List.flatMap_cons, List.append_assoc] at same
      exact absurd same.symm (fieldLine_ne (formed' field' List.mem_cons_self) _ _)
  | cons field fields ih =>
    obtain ⟨first, rest⟩ := List.forall_mem_cons.1 formed
    rw [List.flatMap_cons, List.append_assoc] at same
    cases fields' with
    | nil => exact absurd same (fieldLine_ne first _ _)
    | cons field' fields' =>
      obtain ⟨first', rest'⟩ := List.forall_mem_cons.1 formed'
      rw [List.flatMap_cons, List.append_assoc] at same
      obtain ⟨rfl, others⟩ := fieldLine_inj first first' same
      obtain ⟨rfl, rfl⟩ := ih rest rest' others
      exact ⟨rfl, rfl⟩

theorem Response.bytes_inj {r r' : Response} (formed : r.WellFormed) (formed' : r'.WellFormed)
    (same : r.bytes = r'.bytes) : r = r' := by
  simp only [bytes, List.append_assoc] at same
  obtain ⟨digits, others⟩ := List.append_inj (List.append_cancel_left same) rfl
  obtain ⟨reason, others⟩ := line_inj formed.reason formed'.reason (List.cons.inj others).2
  obtain ⟨fields, body⟩ := fields_inj formed.fields formed'.fields others
  have status := statusDigits_inj formed.status.2 formed'.status.2 digits
  cases r
  cases r'
  simp_all

end BufferFlow.Http
