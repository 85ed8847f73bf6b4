import BufferFlow.Text.Utf8
import Mathlib.Data.List.Infix
import Mathlib.Tactic.SplitIfs

set_option autoImplicit false

namespace BufferFlow.Text.Utf8

/-! ## What a first byte says -/

theorem lead?_none {b : UInt8} (none : lead? b = none) :
    0x80 ≤ b.toNat ∧ b.toNat < 0xC2 ∨ 0xF5 ≤ b.toNat := by
  simp only [lead?, UInt8.lt_iff_toNat_lt, ← UInt8.toNat_inj, UInt8.reduceToNat] at none
  grind

/-- The four lengths of a character. The range of the second byte leaves out what a shorter form can
say, surrogates, and what is no code point. -/
theorem lead?_some {b : UInt8} {l : Lead} (found : lead? b = some l) :
    (l.tails = 0 ∧ b.toNat < 0x80 ∧ l.bits = b.toNat ∧
      l.low.toNat = 0x80 ∧ l.high.toNat = 0xBF) ∨
    (l.tails = 1 ∧ 0xC2 ≤ b.toNat ∧ b.toNat < 0xE0 ∧ l.bits + 0xC0 = b.toNat ∧
      l.low.toNat = 0x80 ∧ l.high.toNat = 0xBF) ∨
    (l.tails = 2 ∧ l.bits < 16 ∧ l.bits + 0xE0 = b.toNat ∧
      (l.bits = 0 ∧ l.low.toNat = 0xA0 ∧ l.high.toNat = 0xBF ∨
        l.bits = 0xD ∧ l.low.toNat = 0x80 ∧ l.high.toNat = 0x9F ∨
        l.bits ≠ 0 ∧ l.bits ≠ 0xD ∧ l.low.toNat = 0x80 ∧ l.high.toNat = 0xBF)) ∨
    (l.tails = 3 ∧ l.bits < 5 ∧ l.bits + 0xF0 = b.toNat ∧
      (l.bits = 0 ∧ l.low.toNat = 0x90 ∧ l.high.toNat = 0xBF ∨
        l.bits = 4 ∧ l.low.toNat = 0x80 ∧ l.high.toNat = 0x8F ∨
        l.bits ≠ 0 ∧ l.bits ≠ 4 ∧ l.low.toNat = 0x80 ∧ l.high.toNat = 0xBF)) := by
  simp only [lead?, UInt8.lt_iff_toNat_lt, ← UInt8.toNat_inj, UInt8.reduceToNat] at found
  split_ifs at found <;> obtain rfl := Option.some.inj found <;>
    grind

/-- The bytes behind a first byte are in their ranges. -/
def Fits (low high : UInt8) : List UInt8 → Prop
  | [] => True
  | b :: bs => (low ≤ b ∧ b ≤ high) ∧ Fits 0x80 0xBF bs

def number (bits : Nat) (bs : List UInt8) : Nat :=
  bs.foldl (fun bits b => bits * 64 + (b.toNat - 0x80)) bits

theorem Fits.of_prefix {low high : UInt8} {bs cs : List UInt8} (fits : Fits low high cs)
    (front : bs <+: cs) : Fits low high bs := by
  induction bs generalizing low high cs with
  | nil => trivial
  | cons b bs ih =>
    obtain ⟨rest, rfl⟩ := front
    exact ⟨fits.1, ih fits.2 (List.prefix_append ..)⟩

theorem fits_replicate (n : Nat) : Fits 0x80 0xBF (List.replicate n 0x80) := by
  induction n with
  | zero => trivial
  | succ n ih => exact ⟨by decide, ih⟩

theorem Fits.complete {low high : UInt8} (range : low ≤ high) {bs : List UInt8} {n : Nat}
    (fits : Fits low high bs) (short : bs.length ≤ n) :
    ∃ more, (bs ++ more).length = n ∧ Fits low high (bs ++ more) := by
  induction bs generalizing low high n with
  | nil =>
    cases n with
    | zero => exact ⟨[], rfl, trivial⟩
    | succ n => exact ⟨low :: List.replicate n 0x80, by simp, ⟨UInt8.le_refl low, range⟩, fits_replicate n⟩
  | cons b bs ih =>
    cases n with
    | zero => simp at short
    | succ n =>
      obtain ⟨more, length, complete⟩ := ih (by decide) fits.2 (Nat.le_of_succ_le_succ short)
      exact ⟨more, congrArg (· + 1) length, fits.1, complete⟩

/-! ## How characters are written -/

theorem exists_lead {b : UInt8} (lead : b.toNat < 0x80 ∨ 0xC2 ≤ b.toNat ∧ b.toNat < 0xF5) :
    ∃ l, lead? b = some l := by
  cases found : lead? b with
  | none =>
    have := lead?_none found
    omega
  | some l => exact ⟨l, rfl⟩

theorem utf8EncodeChar_eq (c : Char) : ∃ b tails l, String.utf8EncodeChar c = b :: tails ∧
    lead? b = some l ∧ tails.length = l.tails ∧ Fits l.low l.high tails ∧
    number l.bits tails = c.toNat := by
  have valid : c.val.toNat < 0xD800 ∨ 0xDFFF < c.val.toNat ∧ c.val.toNat < 0x110000 := c.valid
  obtain ⟨b, tails, same, lead⟩ : ∃ b tails, String.utf8EncodeChar c = b :: tails ∧
      (b.toNat < 0x80 ∨ 0xC2 ≤ b.toNat ∧ b.toNat < 0xF5) := by
    rw [String.utf8EncodeChar]
    split_ifs <;> exact ⟨_, _, rfl, by rw [UInt8.toNat_ofNat']; omega⟩
  obtain ⟨l, found⟩ := exists_lead lead
  have shape := lead?_some found
  refine ⟨b, tails, l, same, found, ?_⟩
  rw [String.utf8EncodeChar] at same
  rw [← Char.toNat_val]
  split_ifs at same <;> obtain ⟨rfl, rfl⟩ := List.cons.inj same <;>
    rw [UInt8.toNat_ofNat'] at shape <;>
    simp only [UInt8.toNat_ofNat', UInt8.reduceToNat, UInt8.le_iff_toNat_le, Fits, number, and_true,
      true_and, List.length, List.foldl] <;>
    omega

theorem val_ofNat {v : Nat} (valid : v.isValidChar) : (Char.ofNat v).val.toNat = v := by
  rw [Char.ofNat, dif_pos valid]
  exact UInt32.toNat_ofNatLT ..

theorem exists_char {b : UInt8} {l : Lead} {tails : List UInt8} (found : lead? b = some l)
    (length : tails.length = l.tails) (fits : Fits l.low l.high tails) :
    ∃ c, String.utf8EncodeChar c = b :: tails := by
  -- in each length the ranges keep the number out of the shorter forms and of the surrogates
  obtain ⟨zero, lead⟩ | ⟨one, lead⟩ | ⟨two, lead⟩ | ⟨three, lead⟩ := lead?_some found
  · rw [zero] at length
    obtain rfl := List.length_eq_zero_iff.1 length
    refine ⟨Char.ofNat l.bits, ?_⟩
    rw [String.utf8EncodeChar, val_ofNat (.inl (by omega)), if_pos (by omega), lead.2.1,
      UInt8.ofNat_toNat]
  · rw [one] at length
    obtain ⟨t, rfl⟩ := List.length_eq_one_iff.1 length
    simp only [Fits, UInt8.le_iff_toNat_le, and_true] at fits
    refine ⟨Char.ofNat (l.bits * 64 + (t.toNat - 0x80)), ?_⟩
    rw [String.utf8EncodeChar, val_ofNat (.inl (by omega)), if_neg (by omega), if_pos (by omega)]
    simp only [List.cons.injEq, ← UInt8.toNat_inj, UInt8.toNat_ofNat', and_true]
    omega
  · rw [two] at length
    obtain ⟨t, u, rfl⟩ := List.length_eq_two.1 length
    simp only [Fits, UInt8.le_iff_toNat_le, UInt8.reduceToNat, and_true] at fits
    refine ⟨Char.ofNat ((l.bits * 64 + (t.toNat - 0x80)) * 64 + (u.toNat - 0x80)), ?_⟩
    rw [String.utf8EncodeChar, val_ofNat (by rw [Nat.isValidChar]; omega), if_neg (by omega),
      if_neg (by omega), if_pos (by omega)]
    simp only [List.cons.injEq, ← UInt8.toNat_inj, UInt8.toNat_ofNat', and_true]
    omega
  · rw [three] at length
    obtain ⟨t, u, w, rfl⟩ := List.length_eq_three.1 length
    simp only [Fits, UInt8.le_iff_toNat_le, UInt8.reduceToNat, and_true] at fits
    refine ⟨Char.ofNat (((l.bits * 64 + (t.toNat - 0x80)) * 64 + (u.toNat - 0x80)) * 64 +
      (w.toNat - 0x80)), ?_⟩
    rw [String.utf8EncodeChar, val_ofNat (.inr (by omega)), if_neg (by omega), if_neg (by omega),
      if_neg (by omega)]
    simp only [List.cons.injEq, ← UInt8.toNat_inj, UInt8.toNat_ofNat', and_true]
    omega

theorem lead?_range {b : UInt8} {l : Lead} (found : lead? b = some l) : l.low ≤ l.high := by
  have shape := lead?_some found
  rw [UInt8.le_iff_toNat_le]
  omega

/-! ## What the reader does -/

theorem readTails_cases (n : Nat) (low high : UInt8) (bits : Nat) (bs : List UInt8) :
    (∃ tails rest, bs = tails ++ rest ∧ tails.length = n ∧ Fits low high tails ∧
      readTails n low high bits bs = (some (number bits tails), rest)) ∨
    ∃ tails rest, bs = tails ++ rest ∧ tails.length < n ∧ Fits low high tails ∧
      (∀ run, run <+: bs → Fits low high run → run.length ≤ tails.length) ∧
      readTails n low high bits bs = (none, rest) := by
  induction n generalizing low high bits bs with
  | zero => exact .inl ⟨[], bs, rfl, rfl, trivial, by rw [readTails, number, List.foldl_nil]⟩
  | succ n ih =>
    cases bs with
    | nil => exact .inr ⟨[], [], rfl, Nat.succ_pos n, trivial, fun run front _ => front.length_le, rfl⟩
    | cons b bs =>
      rw [readTails]
      split_ifs with within
      · obtain ⟨tails, rest, rfl, length, fits, read⟩ | ⟨tails, rest, rfl, short, fits, last, read⟩ :=
          ih 0x80 0xBF (bits * 64 + (b.toNat - 0x80)) bs
        · refine .inl ⟨b :: tails, rest, rfl, congrArg (· + 1) length, ⟨within, fits⟩, ?_⟩
          rw [read, number, number, List.foldl_cons]
        · refine .inr ⟨b :: tails, rest, rfl, Nat.succ_lt_succ short, ⟨within, fits⟩, ?_, read⟩
          intro run front fits
          cases run with
          | nil => exact Nat.zero_le _
          | cons c run => exact Nat.succ_le_succ (last run (List.cons_prefix_cons.1 front).2 fits.2)
      · refine .inr ⟨[], b :: bs, rfl, Nat.succ_pos n, trivial, ?_, rfl⟩
        intro run front fits
        cases run with
        | nil => exact Nat.zero_le _
        | cons c run =>
          obtain rfl := (List.cons_prefix_cons.1 front).1
          exact absurd fits.1 within

/-- The bytes begin a character. -/
def Begins (run : List UInt8) : Prop := ∃ c, run <+: String.utf8EncodeChar c

theorem begins_cons_iff {b : UInt8} {l : Lead} {run : List UInt8} (found : lead? b = some l) :
    Begins (b :: run) ↔ run.length ≤ l.tails ∧ Fits l.low l.high run := by
  constructor
  · rintro ⟨c, front⟩
    obtain ⟨b', tails, l', same, found', length, fits, -⟩ := utf8EncodeChar_eq c
    rw [same, List.cons_prefix_cons] at front
    obtain ⟨rfl, front⟩ := front
    obtain rfl := Option.some.inj (found.symm.trans found')
    exact ⟨length ▸ front.length_le, fits.of_prefix front⟩
  · rintro ⟨short, fits⟩
    obtain ⟨more, length, fits⟩ := fits.complete (lead?_range found) short
    obtain ⟨c, same⟩ := exists_char found length fits
    exact ⟨c, more, same.symm⟩

theorem Begins.lead {b : UInt8} {run : List UInt8} (begins : Begins (b :: run)) :
    ∃ l, lead? b = some l := by
  obtain ⟨c, front⟩ := begins
  obtain ⟨b', tails, l, same, found, -⟩ := utf8EncodeChar_eq c
  rw [same, List.cons_prefix_cons] at front
  exact ⟨l, front.1 ▸ found⟩

/-- No character is in front of the rest: the bytes begin one that does not go on, and no more of
them do, or they are one byte that begins none. -/
structure Mistake (bytes rest : List UInt8) : Prop where
  nonempty : bytes ≠ []
  begun : bytes.length = 1 ∨ Begins bytes
  longest : ∀ run, run <+: bytes ++ rest → Begins run → run.length ≤ bytes.length
  wrong : ∀ c, ¬ String.utf8EncodeChar c <+: bytes ++ rest

theorem readChar_of_none {b : UInt8} (none : lead? b = none) (bs : List UInt8) :
    readChar b bs = (Option.none, bs) := by
  rw [readChar, none]

theorem readChar_of_some {b : UInt8} {l : Lead} (found : lead? b = some l) {bs rest : List UInt8}
    {bits : Option Nat} (read : readTails l.tails l.low l.high l.bits bs = (bits, rest)) :
    readChar b bs = (bits.map Char.ofNat, rest) := by
  simp only [readChar, found, read]

theorem Mistake.single {b : UInt8} (none : lead? b = none) (rest : List UInt8) : Mistake [b] rest := by
  have strange : ∀ run, run <+: [b] ++ rest → Begins run → run = [] := by
    intro run front begins
    cases run with
    | nil => rfl
    | cons c run =>
      obtain ⟨rfl, -⟩ := List.cons_prefix_cons.1 front
      obtain ⟨l, found⟩ := begins.lead
      simp [none] at found
  refine ⟨List.cons_ne_nil _ _, .inl rfl, fun run front begins => ?_, fun c front => ?_⟩
  · rw [strange run front begins]
    exact Nat.zero_le _
  · obtain ⟨b, tails, -, same, -⟩ := utf8EncodeChar_eq c
    have empty := strange _ front ⟨c, List.prefix_rfl⟩
    simp [same] at empty

theorem Mistake.broken {b : UInt8} {l : Lead} (found : lead? b = some l) {tails rest : List UInt8}
    (short : tails.length < l.tails) (fits : Fits l.low l.high tails)
    (last : ∀ run, run <+: tails ++ rest → Fits l.low l.high run → run.length ≤ tails.length) :
    Mistake (b :: tails) rest := by
  refine ⟨List.cons_ne_nil _ _, .inr ((begins_cons_iff found).2 ⟨short.le, fits⟩),
    fun run front begins => ?_, fun c front => ?_⟩
  · cases run with
    | nil => exact Nat.zero_le _
    | cons c run =>
      obtain ⟨rfl, behind⟩ := List.cons_prefix_cons.1 front
      exact Nat.succ_le_succ (last run behind ((begins_cons_iff found).1 begins).2)
  · obtain ⟨b', tails', l', same, found', length, fits', -⟩ := utf8EncodeChar_eq c
    rw [same] at front
    obtain ⟨rfl, behind⟩ := List.cons_prefix_cons.1 front
    obtain rfl := Option.some.inj (found.symm.trans found')
    have := last tails' behind fits'
    omega

theorem readChar_cases (b : UInt8) (bs : List UInt8) :
    (∃ c rest, b :: bs = String.utf8EncodeChar c ++ rest ∧ readChar b bs = (some c, rest)) ∨
    ∃ bytes rest, b :: bs = bytes ++ rest ∧ Mistake bytes rest ∧ readChar b bs = (none, rest) := by
  cases found : lead? b with
  | none => exact .inr ⟨[b], bs, rfl, .single found bs, readChar_of_none found bs⟩
  | some l =>
    obtain ⟨tails, rest, rfl, length, fits, read⟩ | ⟨tails, rest, rfl, short, fits, last, read⟩ :=
      readTails_cases l.tails l.low l.high l.bits bs
    · obtain ⟨c, same⟩ := exists_char found length fits
      obtain ⟨b', tails', l', same', found', -, -, code⟩ := utf8EncodeChar_eq c
      obtain ⟨rfl, rfl⟩ := List.cons.inj (same.symm.trans same')
      obtain rfl := Option.some.inj (found.symm.trans found')
      refine .inl ⟨c, rest, by rw [same]; rfl, ?_⟩
      rw [readChar_of_some found read, code, Option.map_some, Char.ofNat_toNat]
    · exact .inr ⟨b :: tails, rest, rfl, .broken found short fits last, readChar_of_some found read⟩

/-! ## The text of bytes -/

inductive Lossy : List UInt8 → List Char → Prop
  | nil : Lossy [] []
  | char {c : Char} {rest : List UInt8} {text : List Char} :
      Lossy rest text → Lossy (String.utf8EncodeChar c ++ rest) (c :: text)
  | mistake {bytes rest : List UInt8} {text : List Char} :
      Mistake bytes rest → Lossy rest text → Lossy (bytes ++ rest) ('\ufffd' :: text)

theorem lossy_decodeLossy (bs : List UInt8) : Lossy bs (decodeLossy bs) := by
  induction bs using chars.induct with
  | case1 =>
    rw [decodeLossy, chars]
    exact .nil
  | case2 b bs ih =>
    rw [decodeLossy] at ih
    rw [decodeLossy, chars, List.map_cons]
    obtain ⟨c, rest, same, read⟩ | ⟨bytes, rest, same, mistake, read⟩ := readChar_cases b bs
    · rw [read] at ih ⊢
      rw [same]
      exact .char ih
    · rw [read] at ih ⊢
      rw [same]
      exact .mistake mistake ih

theorem utf8EncodeChar_append_inj {c c' : Char} {rest rest' : List UInt8}
    (same : String.utf8EncodeChar c ++ rest = String.utf8EncodeChar c' ++ rest') :
    c = c' ∧ rest = rest' := by
  obtain ⟨b, tails, l, spelled, found, length, -, code⟩ := utf8EncodeChar_eq c
  obtain ⟨b', tails', l', spelled', found', length', -, code'⟩ := utf8EncodeChar_eq c'
  rw [spelled, spelled'] at same
  obtain ⟨rfl, behind⟩ := List.cons.inj same
  obtain rfl := Option.some.inj (found.symm.trans found')
  obtain ⟨rfl, rfl⟩ := List.append_inj behind (length.trans length'.symm)
  exact ⟨Char.toNat_inj.1 (code.symm.trans code'), rfl⟩

theorem Mistake.length_le {bytes bytes' rest rest' : List UInt8} (mistake : Mistake bytes rest)
    (mistake' : Mistake bytes' rest') (same : bytes ++ rest = bytes' ++ rest') :
    bytes.length ≤ bytes'.length := by
  obtain single | begins := mistake.begun
  · rw [single]
    exact List.length_pos_iff.2 mistake'.nonempty
  · exact mistake'.longest bytes (same ▸ List.prefix_append ..) begins

theorem Mistake.unique {bytes bytes' rest rest' : List UInt8} (mistake : Mistake bytes rest)
    (mistake' : Mistake bytes' rest') (same : bytes ++ rest = bytes' ++ rest') :
    rest = rest' :=
  (List.append_inj same
    (Nat.le_antisymm (mistake.length_le mistake' same) (mistake'.length_le mistake same.symm))).2

theorem Lossy.unique {bs : List UInt8} {text text' : List Char} (lossy : Lossy bs text)
    (lossy' : Lossy bs text') : text = text' := by
  -- by what the first text begins with; the bytes leave the second one no other beginning
  induction lossy generalizing text' with
  | nil =>
    generalize empty : [] = bs at lossy'
    cases lossy' with
    | nil => rfl
    | @char c rest =>
      obtain ⟨b, tails, -, spelled, -⟩ := utf8EncodeChar_eq c
      simp [spelled] at empty
    | mistake mistake => exact absurd (List.append_eq_nil_iff.1 empty.symm).1 mistake.nonempty
  | @char c rest text _ ih =>
    generalize same : String.utf8EncodeChar c ++ rest = bs at lossy'
    cases lossy' with
    | nil =>
      obtain ⟨b, tails, -, spelled, -⟩ := utf8EncodeChar_eq c
      simp [spelled] at same
    | char lossy' =>
      obtain ⟨rfl, rfl⟩ := utf8EncodeChar_append_inj same
      rw [ih lossy']
    | mistake mistake => exact absurd (same ▸ List.prefix_append ..) (mistake.wrong c)
  | @mistake bytes rest text mistake _ ih =>
    generalize same : bytes ++ rest = bs at lossy'
    cases lossy' with
    | nil => exact absurd (List.append_eq_nil_iff.1 same).1 mistake.nonempty
    | @char c => exact absurd (same ▸ List.prefix_append ..) (mistake.wrong c)
    | mistake mistake' lossy' =>
      obtain rfl := mistake.unique mistake' same
      rw [ih lossy']

theorem decodeLossy_eq_iff {bs : List UInt8} {text : List Char} :
    decodeLossy bs = text ↔ Lossy bs text := by
  refine ⟨?_, (lossy_decodeLossy bs).unique⟩
  rintro rfl
  exact lossy_decodeLossy bs

/-! ## The bytes of a text -/

def bytes (text : String) : List UInt8 := text.toUTF8.data.toList

theorem bytes_eq (text : String) : bytes text = text.toList.flatMap String.utf8EncodeChar := by
  rw [bytes, String.toUTF8, ← String.utf8Encode_toList, List.utf8Encode, List.toList_data_toByteArray]

theorem bytes_append (front behind : String) : bytes (front ++ behind) = bytes front ++ bytes behind := by
  rw [bytes_eq, bytes_eq, bytes_eq, String.toList_append, List.flatMap_append]

theorem length_bytes (text : String) : (bytes text).length = text.utf8ByteSize := by
  rw [bytes, Array.length_toList]
  rfl

theorem decodeLossy_bytes (text : String) : decodeLossy (bytes text) = text.toList := by
  rw [bytes_eq, decodeLossy_eq_iff]
  induction text.toList with
  | nil => exact .nil
  | cons c text ih =>
    rw [List.flatMap_cons]
    exact .char ih

theorem utf8EncodeChar_ascii {c : Char} (ascii : c.toNat < 0x80) :
    String.utf8EncodeChar c = [UInt8.ofNat c.toNat] := by
  rw [String.utf8EncodeChar, Char.toNat_val, if_pos (by omega)]

end BufferFlow.Text.Utf8
