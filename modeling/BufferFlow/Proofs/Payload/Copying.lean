import BufferFlow.Payload
import BufferFlow.Proofs.Bits

set_option autoImplicit false

namespace BufferFlow

section Ranges

variable {α : Type} {xs ys : List α} {a b : Nat}

def slice? (xs : List α) (a b : Nat) : Option (List α) :=
  if a ≤ b ∧ b ≤ xs.length then some ((xs.take b).drop a) else none

/-- The source in place of the target, if it has as many items. -/
def copyOver? (target source : List α) : Option (List α) :=
  if target.length = source.length then some source else none

theorem slice?_front (room : b ≤ xs.length) : slice? xs 0 b = some (xs.take b) :=
  if_pos ⟨Nat.zero_le b, room⟩

theorem slice?_back (room : a ≤ xs.length) : slice? xs a xs.length = some (xs.drop a) := by
  rw [slice?, if_pos ⟨room, Nat.le_refl _⟩, List.take_length]

theorem copyOver?_front (same : xs.length = b) (room : b ≤ ys.length) :
    (slice? ys 0 b).bind (copyOver? xs) = some (ys.take b) := by
  have length : xs.length = (ys.take b).length := by rw [List.length_take_of_le room, same]
  rw [slice?_front room, Option.bind_some, copyOver?, if_pos length]

end Ranges

namespace FireVector

/-- Takes the words over as far as both vectors go, and clears the rest. -/
def setFireBits? (v : FireVector) (source : Array UInt64) : Option FireVector := do
  let n := min v.words.size source.size
  let old ← slice? v.words.toList 0 n
  let taken ← (slice? source.toList 0 n).bind (copyOver? old)
  let rest ← slice? v.words.toList n v.words.toList.length
  return { v with words := (taken ++ rest.map fun _ => 0).toArray }

theorem setFireBits?_eq (v : FireVector) (source : Array UInt64) :
    v.setFireBits? source = some (v.setFireBits source) := by
  have old : min v.words.size source.size ≤ v.words.toList.length := Nat.min_le_left _ _
  have new : min v.words.size source.size ≤ source.toList.length := Nat.min_le_right _ _
  have taken : source.toList.take (min v.words.size source.size) =
      (source.extract 0 v.words.size).toList := by
    rw [Array.toList_extract, List.extract_eq_take_drop, Nat.sub_zero, List.drop_zero]
    exact List.take_eq_take_min.symm
  have rest : (v.words.toList.drop (min v.words.size source.size)).map (fun _ => (0 : UInt64)) =
      List.replicate (v.words.size - (source.extract 0 v.words.size).size) 0 := by
    rw [List.map_const', List.length_drop, Array.length_toList, Array.size_extract, Nat.sub_zero]
  unfold setFireBits?
  simp only [slice?_front old, slice?_back old, copyOver?_front (List.length_take_of_le old) new,
    Option.bind_eq_bind, Option.bind_some, taken, rest]
  refine congrArg some (congrArg (FireVector.mk · v.step) (Array.toList_inj.1 ?_))
  rw [Array.toList_append, Array.toList_replicate]

theorem size_setFireBits (v : FireVector) (source : Array UInt64) :
    (v.setFireBits source).words.size = v.words.size := by
  simp only [setFireBits, Array.size_append, Array.size_extract, Array.size_replicate]
  omega

theorem setFireBits_eq {v : FireVector} {source : Array UInt64}
    (same : source.size = v.words.size) : v.setFireBits source = { v with words := source } := by
  have whole : source.extract 0 v.words.size = source := by rw [← same, Array.extract_size]
  simp [setFireBits, whole, same]

theorem getElem?_setFireBits (v : FireVector) (source : Array UInt64) {k : Nat}
    (inside : k < v.words.size) :
    (v.setFireBits source).words[k]? = some (source[k]?.getD 0) := by
  have size : (source.extract 0 v.words.size).size = min v.words.size source.size := by
    rw [Array.size_extract, Nat.sub_zero]
  rw [setFireBits]
  dsimp only
  by_cases taken : k < source.size
  · have front : k < min v.words.size source.size - 0 := by omega
    rw [Array.getElem?_append_left (by omega), Array.getElem?_extract, if_pos front, Nat.zero_add,
      Array.getElem?_eq_getElem taken]
    rfl
  · rw [Array.getElem?_append_right (by omega), Array.getElem?_replicate, if_pos (by omega),
      Array.getElem?_eq_none (by omega)]
    rfl

theorem setFireBits_congr {v old : FireVector} (source : Array UInt64) (same : old.words.size = v.words.size) :
    (old.setFireBits source).words = (v.setFireBits source).words := by
  rw [setFireBits, setFireBits, same]

end FireVector

namespace SinkBuffer

/-- Writes a word over each chunk of eight bytes, or of as many as are left, and clears the chunks
that there is no word for. -/
def overwriteChunks? : List UInt64 → List UInt8 → Option (List UInt8)
  | [], data => some (data.map fun _ => 0)
  | w :: ws, data =>
    if data = [] then some []
    else do
      let chunk := data.take 8
      let written ← (slice? (Bits.littleEndian w) 0 chunk.length).bind (copyOver? chunk)
      return written ++ (← overwriteChunks? ws (data.drop 8))

def writeWords? (b : SinkBuffer) (words : List UInt64) : Option SinkBuffer :=
  (overwriteChunks? words b.data).map fun data => { b with data }

theorem fitted_nil (n : Nat) : fitted n [] = List.replicate n 0 := by
  rw [fitted, List.take_nil, List.nil_append, List.length_nil, Nat.sub_zero]

theorem fitted_append (n : Nat) (xs ys : List UInt8) :
    fitted n (xs ++ ys) = xs.take n ++ fitted (n - xs.length) ys := by
  rw [fitted, fitted, List.take_append, List.length_append, Nat.sub_add_eq, List.append_assoc]

theorem length_fitted (n : Nat) (bytes : List UInt8) : (fitted n bytes).length = n := by
  simp only [fitted, List.length_append, List.length_take, List.length_replicate]
  omega

theorem getElem?_fitted {n k : Nat} (bytes : List UInt8) (inside : k < n) :
    (fitted n bytes)[k]? = some (bytes[k]?.getD 0) := by
  have length : (bytes.take n).length = min n bytes.length := List.length_take
  rw [fitted]
  by_cases taken : k < bytes.length
  · rw [List.getElem?_append_left (by omega), List.getElem?_take_of_lt inside,
      List.getElem?_eq_getElem taken]
    rfl
  · rw [List.getElem?_append_right (by omega), List.getElem?_replicate, if_pos (by omega),
      List.getElem?_eq_none (by omega)]
    rfl

theorem overwriteChunks?_eq (ws : List UInt64) (data : List UInt8) :
    overwriteChunks? ws data = some (fitted data.length (ws.flatMap Bits.littleEndian)) := by
  induction ws generalizing data with
  | nil => rw [overwriteChunks?, List.flatMap_nil, fitted_nil, List.map_const']
  | cons w ws ih =>
    rw [overwriteChunks?]
    split
    · rename_i none
      subst none
      simp [fitted]
    · have word := Bits.length_littleEndian w
      have chunk : (data.take 8).length = min 8 data.length := List.length_take
      have room : (data.take 8).length ≤ (Bits.littleEndian w).length := by omega
      have written : (Bits.littleEndian w).take (data.take 8).length =
          (Bits.littleEndian w).take data.length := by
        rw [chunk, ← word, Nat.min_comm]
        exact List.take_eq_take_min.symm
      rw [List.flatMap_cons, fitted_append, word]
      simp only [copyOver?_front rfl room, ih (data.drop 8), List.length_drop, written,
        Option.bind_eq_bind, Option.bind_some]
      rfl

theorem writeWords?_eq (b : SinkBuffer) (words : List UInt64) :
    b.writeWords? words = some (b.writeWords words) := by
  rw [writeWords?, overwriteChunks?_eq]
  rfl

theorem writeWords_eq {b : SinkBuffer} {ws : List UInt64} (same : ws.length * 8 = b.data.length) :
    b.writeWords ws = { b with data := ws.flatMap Bits.littleEndian } := by
  have length := Bits.length_bytes ws
  simp only [writeWords, fitted, ← same, ← length, List.take_length, Nat.sub_self,
    List.replicate_zero, List.append_nil]

theorem getElem?_writeWords (b : SinkBuffer) (ws : List UInt64) {k : Nat} (inside : k < b.data.length) :
    ((b.writeWords ws).data[k]?).map UInt8.toNat =
      some ((ws[k / 8]?).elim 0 fun w => w.toNat / 256 ^ (k % 8) % 256) := by
  have place : k % 8 < 8 := Nat.mod_lt k (by decide)
  rw [writeWords, getElem?_fitted _ inside, Bits.getElem?_bytes]
  cases ws[k / 8]? with
  | none => rfl
  | some w =>
    rw [Option.bind_some, Bits.getElem?_littleEndian w place]
    exact congrArg some (Bits.toNat_byte_eq w place)

theorem readWords_writeWords {b : SinkBuffer} {ws : List UInt64} (room : ws.length ≤ b.data.length / 8) :
    Bits.readWords ws.length (b.writeWords ws).data = ws := by
  have fits : (ws.flatMap Bits.littleEndian).length ≤ b.data.length := by
    rw [Bits.length_bytes]
    omega
  rw [writeWords, fitted, List.take_of_length_le fits, Bits.readWords_bytes]

end SinkBuffer

/-- Every byte of a sink buffer becomes a byte of its word or zero, and every word of a fire vector
the source's word or zero, whatever they were before. Sizes stay as they are, no range is out of
bounds, and words that fit can be read back from the bytes. -/
theorem written_throughout (b : SinkBuffer) (ws : List UInt64) (v : FireVector)
    (source : Array UInt64) :
    (∃ data, b.writeWords? ws = some { b with data } ∧ b.writeWords ws = { b with data } ∧
      data.length = b.data.length ∧
      (∀ k < b.data.length, (data[k]?).map UInt8.toNat =
        some ((ws[k / 8]?).elim 0 fun w => w.toNat / 256 ^ (k % 8) % 256)) ∧
      (∀ old : SinkBuffer, old.data.length = b.data.length → (old.writeWords ws).data = data) ∧
      (ws.length ≤ b.data.length / 8 → Bits.readWords ws.length data = ws)) ∧
    ∃ words, v.setFireBits? source = some { v with words } ∧
      v.setFireBits source = { v with words } ∧ words.size = v.words.size ∧
      (∀ k < v.words.size, words[k]? = some (source[k]?.getD 0)) ∧
      ∀ old : FireVector, old.words.size = v.words.size →
        (old.setFireBits source).words = words := by
  refine ⟨⟨(b.writeWords ws).data, b.writeWords?_eq ws, rfl, SinkBuffer.length_fitted _ _,
    fun k inside => b.getElem?_writeWords ws inside, fun old same => ?_,
    SinkBuffer.readWords_writeWords⟩,
    (v.setFireBits source).words, v.setFireBits?_eq source, rfl, v.size_setFireBits source,
    fun k inside => v.getElem?_setFireBits source inside,
    fun old same => FireVector.setFireBits_congr source same⟩
  rw [SinkBuffer.writeWords, SinkBuffer.writeWords, same]

/-- Half of the second word fits and nothing of the third; the fire vector has one word more than
its source. -/
theorem written_throughout_short : ∃ data narrow words,
    (SinkBuffer.mk ⟨.u32, 3, 0⟩ (List.replicate 12 255) 7).writeWords
      [0x0807060504030201, 0x100F0E0D0C0B0A09, 5] = ⟨⟨.u32, 3, 0⟩, data, 7⟩ ∧
    data.length = 12 ∧ (data[3]?).map UInt8.toNat = some 4 ∧
    (data[10]?).map UInt8.toNat = some 11 ∧
    (SinkBuffer.mk ⟨.u32, 3, 0⟩ (List.replicate 12 255) 7).writeWords [0x0807060504030201] =
      ⟨⟨.u32, 3, 0⟩, narrow, 7⟩ ∧
    (narrow[10]?).map UInt8.toNat = some 0 ∧ Bits.readWords 1 narrow = [0x0807060504030201] ∧
    (FireVector.mk #[5, 6] 9).setFireBits #[3] = ⟨words, 9⟩ ∧ words[1]? = some 0 := by
  obtain ⟨⟨data, -, wide, length, bytes, -⟩, words, -, taken, -, items, -⟩ :=
    written_throughout ⟨⟨.u32, 3, 0⟩, List.replicate 12 255, 7⟩
      [0x0807060504030201, 0x100F0E0D0C0B0A09, 5] ⟨#[5, 6], 9⟩ #[3]
  obtain ⟨⟨narrow, -, short, -, cleared, -, back⟩, -⟩ :=
    written_throughout ⟨⟨.u32, 3, 0⟩, List.replicate 12 255, 7⟩ [0x0807060504030201] ⟨#[5, 6], 9⟩ #[3]
  exact ⟨data, narrow, words, wide, length, bytes 3 (by decide), bytes 10 (by decide), short,
    cleared 10 (by decide), back (by decide), taken, items 1 (by decide)⟩

end BufferFlow
