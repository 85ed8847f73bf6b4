import BufferFlow.Text.Blank
import Mathlib.Data.List.TakeWhile

set_option autoImplicit false

namespace BufferFlow.Text

/-- The text is blanks and words, and behind a word comes a blank or nothing. -/
inductive Spaced : List Char → List (List Char) → Prop
  | nil : Spaced [] []
  | blank {c : Char} {cs : List Char} {ws : List (List Char)} :
      isBlank c → Spaced cs ws → Spaced (c :: cs) ws
  | word {w rest : List Char} {ws : List (List Char)} :
      w ≠ [] → (∀ c ∈ w, ¬ isBlank c) → (∀ c ∈ rest.head?, isBlank c) → Spaced rest ws →
      Spaced (w ++ rest) (w :: ws)

theorem wordsFrom_nil (read : List Char) :
    wordsFrom read [] = if read.isEmpty then [] else [read.reverse] := by
  cases read <;> rfl

theorem wordsFrom_cons (read : List Char) (c : Char) (cs : List Char) :
    wordsFrom read (c :: cs) =
      if isBlank c then if read.isEmpty then wordsFrom [] cs else read.reverse :: wordsFrom [] cs
      else wordsFrom (c :: read) cs := by
  cases read <;> rfl

theorem wordsFrom_append {w : List Char} (solid : ∀ c ∈ w, ¬ isBlank c) (read rest : List Char) :
    wordsFrom read (w ++ rest) = wordsFrom (w.reverse ++ read) rest := by
  induction w generalizing read with
  | nil => rfl
  | cons c w ih =>
    obtain ⟨first, others⟩ := List.forall_mem_cons.1 solid
    rw [List.cons_append, wordsFrom_cons, if_neg first, ih others]
    simp

theorem Spaced.words_eq {cs : List Char} {ws : List (List Char)} (spaced : Spaced cs ws) :
    words cs = ws := by
  induction spaced with
  | nil => rfl
  | blank blank _ ih =>
    rw [words, wordsFrom_cons, if_pos blank]
    exact ih
  | @word w rest ws nonempty solid behind _ ih =>
    rw [words, wordsFrom_append solid, List.append_nil, ← ih]
    cases rest with
    | nil => simp [wordsFrom_nil, words, nonempty]
    | cons c rest =>
      have blank : isBlank c := behind c rfl
      simp [wordsFrom_cons, words, blank, nonempty]

theorem exists_spaced (cs : List Char) : ∃ ws, Spaced cs ws := by
  induction cs with
  | nil => exact ⟨[], .nil⟩
  | cons c cs ih =>
    obtain ⟨ws, spaced⟩ := ih
    by_cases blank : isBlank c
    · exact ⟨ws, .blank blank spaced⟩
    have single : ∀ d ∈ [c], ¬ isBlank d := by simpa using blank
    cases spaced with
    | nil => exact ⟨[[c]], .word (List.cons_ne_nil _ _) single (by simp) .nil⟩
    | @blank d cs ws next spaced =>
      exact ⟨[c] :: ws, .word (List.cons_ne_nil _ _) single (by simpa using next) (.blank next spaced)⟩
    | @word w rest ws _ solid behind spaced =>
      -- the character lengthens the word that the rest of the text begins with
      exact ⟨(c :: w) :: ws, .word (List.cons_ne_nil _ _) (List.forall_mem_cons.2 ⟨blank, solid⟩)
        behind spaced⟩

theorem words_eq_iff {cs : List Char} {ws : List (List Char)} : words cs = ws ↔ Spaced cs ws := by
  refine ⟨?_, Spaced.words_eq⟩
  rintro rfl
  obtain ⟨ws, spaced⟩ := exists_spaced cs
  rwa [spaced.words_eq]

inductive FirstLine : List Char → List Char → Prop
  | whole {text : List Char} : '\n' ∉ text → FirstLine text text
  | feed {line rest : List Char} :
      '\n' ∉ line → line.getLast? ≠ some '\r' → FirstLine (line ++ '\n' :: rest) line
  | carriage {line rest : List Char} :
      '\n' ∉ line → FirstLine (line ++ '\r' :: '\n' :: rest) line

theorem unbroken_iff {line : List Char} : '\n' ∉ line ↔ ∀ c ∈ line, c != '\n' := by
  simp only [bne_iff_ne]
  exact ⟨fun unbroken c mem same => unbroken (same ▸ mem), fun other mem => other _ mem rfl⟩

theorem takeWhile_line {line : List Char} (unbroken : '\n' ∉ line) (rest : List Char) :
    (line ++ '\n' :: rest).takeWhile (· != '\n') = line := by
  rw [List.takeWhile_append_of_pos, List.takeWhile_cons_of_neg (by simp), List.append_nil]
  exact unbroken_iff.1 unbroken

theorem FirstLine.firstLine_eq {text line : List Char} (first : FirstLine text line) :
    firstLine text = line := by
  cases first with
  | whole unbroken =>
    have none : text.any (· == '\n') = false := by
      rw [List.any_eq_false]
      exact fun c mem same => unbroken (eq_of_beq same ▸ mem)
    have all : text.takeWhile (· != '\n') = text := by
      rw [List.takeWhile_eq_self_iff]
      exact unbroken_iff.1 unbroken
    simp [firstLine, none, all]
  | feed unbroken last => simp [firstLine, takeWhile_line unbroken, last]
  | @carriage line rest unbroken =>
    have behind : '\n' ∉ line ++ ['\r'] := by simpa using unbroken
    have taken := takeWhile_line behind rest
    rw [List.append_assoc, List.singleton_append] at taken
    simp [firstLine, taken]

theorem exists_firstLine (text : List Char) : ∃ line, FirstLine text line := by
  by_cases broken : '\n' ∈ text
  · obtain ⟨line, rest, rfl, unbroken⟩ := List.eq_append_cons_of_mem broken
    by_cases carriage : line.getLast? = some '\r'
    · obtain ⟨line, rfl⟩ := List.getLast?_eq_some_iff.1 carriage
      rw [List.append_assoc]
      exact ⟨line, .carriage fun mem => unbroken (List.mem_append_left _ mem)⟩
    · exact ⟨line, .feed unbroken carriage⟩
  · exact ⟨text, .whole broken⟩

theorem firstLine_eq_iff {text line : List Char} : firstLine text = line ↔ FirstLine text line := by
  refine ⟨?_, FirstLine.firstLine_eq⟩
  rintro rfl
  obtain ⟨line, first⟩ := exists_firstLine text
  rwa [first.firstLine_eq]

example : firstLine "GET\r\r\n/stats".toList = "GET\r".toList := by decide

end BufferFlow.Text
