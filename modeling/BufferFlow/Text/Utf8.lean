set_option autoImplicit false

/-! # UTF-8

Bytes are read character by character. Where no character can be read, the longest run of bytes
that begins one counts as one mistake. -/

namespace BufferFlow.Text.Utf8

/-- How a character begins: the bits of its first byte, the number of bytes that follow, and the
range of the next of them. -/
structure Lead where
  bits : Nat
  tails : Nat
  low : UInt8 := 0x80
  high : UInt8 := 0xBF

def lead? (b : UInt8) : Option Lead :=
  if b < 0x80 then some { bits := b.toNat, tails := 0 }
  else if b < 0xC2 then none
  else if b < 0xE0 then some { bits := b.toNat - 0xC0, tails := 1 }
  else if b = 0xE0 then some { bits := 0, tails := 2, low := 0xA0 }
  else if b = 0xED then some { bits := 0xD, tails := 2, high := 0x9F }
  else if b < 0xF0 then some { bits := b.toNat - 0xE0, tails := 2 }
  else if b = 0xF0 then some { bits := 0, tails := 3, low := 0x90 }
  else if b < 0xF4 then some { bits := b.toNat - 0xF0, tails := 3 }
  else if b = 0xF4 then some { bits := 4, tails := 3, high := 0x8F }
  else none

/-- Reads the bytes that follow, and gives back what is left behind them or behind the mistake. -/
def readTails : Nat → UInt8 → UInt8 → Nat → List UInt8 → Option Nat × List UInt8
  | 0, _, _, bits, rest => (some bits, rest)
  | _ + 1, _, _, _, [] => (none, [])
  | n + 1, low, high, bits, b :: rest =>
    if low ≤ b ∧ b ≤ high then readTails n 0x80 0xBF (bits * 64 + (b.toNat - 0x80)) rest
    else (none, b :: rest)

theorem readTails_length_le (n : Nat) (low high : UInt8) (bits : Nat) (bs : List UInt8) :
    (readTails n low high bits bs).2.length ≤ bs.length := by
  induction n generalizing low high bits bs with
  | zero => simp [readTails]
  | succ n ih =>
    cases bs with
    | nil => simp [readTails]
    | cons b rest =>
      rw [readTails]
      split
      · exact Nat.le_succ_of_le (ih ..)
      · simp

/-- One character behind its first byte, or nothing where the bytes are a mistake. -/
def readChar (b : UInt8) (rest : List UInt8) : Option Char × List UInt8 :=
  match lead? b with
  | none => (none, rest)
  | some l =>
    let (bits, rest) := readTails l.tails l.low l.high l.bits rest
    (bits.map Char.ofNat, rest)

theorem readChar_length_le (b : UInt8) (rest : List UInt8) :
    (readChar b rest).2.length ≤ rest.length := by
  unfold readChar
  split
  · simp
  · exact readTails_length_le ..

def chars : List UInt8 → List (Option Char)
  | [] => []
  | b :: rest => (readChar b rest).1 :: chars (readChar b rest).2
termination_by bs => bs.length
decreasing_by
  have := readChar_length_le b rest
  simp only [List.length_cons]
  omega

def decodeLossy (bs : List UInt8) : List Char := (chars bs).map (·.getD '\ufffd')

def decode? (bs : List UInt8) : Option (List Char) := (chars bs).mapM id

end BufferFlow.Text.Utf8
