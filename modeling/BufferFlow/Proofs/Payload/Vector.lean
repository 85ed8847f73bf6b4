import BufferFlow.Payload.Vector
import BufferFlow.Proofs.Bits
import Mathlib.Data.List.Basic

set_option autoImplicit false

namespace BufferFlow.ExchangeVector

variable {v : ExchangeVector} {i j : Nat}

/-- The vector has the words that its length takes. -/
def Sized (v : ExchangeVector) : Prop := v.words.size = Bits.numWords v.bits

theorem le_words (bits : Nat) : bits ≤ Bits.perWord * Bits.numWords bits := by
  rw [Bits.numWords, Bits.perWord]
  omega

theorem new_sized (bits : Nat) : (new bits).Sized := Array.size_replicate

theorem clear_eq_new (sized : v.Sized) : v.clear = new v.bits := by
  rw [clear, sized]
  rfl

theorem set_bits (v : ExchangeVector) (i : Nat) : (v.set i).2.bits = v.bits := by
  rw [set]
  split <;> rfl

theorem set_sized (sized : v.Sized) (i : Nat) : (v.set i).2.Sized := by
  rw [Sized, set_bits, set]
  split
  · exact Array.size_modify.trans sized
  · exact sized

theorem word_lt (sized : v.Sized) (hi : i < v.bits) : (Bits.locate i).1 < v.words.size := by
  have enough := le_words v.bits
  rw [sized]
  exact Nat.div_lt_of_lt_mul (Nat.lt_of_lt_of_le hi enough)

theorem testBit_mask (w : UInt64) (i j : Nat) :
    (w ||| (Bits.locate i).2).toNat.testBit j =
      (w.toNat.testBit j || decide (j = i % Bits.perWord)) := by
  rw [UInt64.toNat_or, Nat.testBit_or, Bits.toNat_mask, Nat.testBit_two_pow]
  simp only [eq_comm]

theorem bit_set (sized : v.Sized) (hi : i < v.bits) (j : Nat) :
    Bits.bit (v.set i).2.words.toList j = (Bits.bit v.words.toList j || decide (j = i)) := by
  have room : i / Bits.perWord < v.words.size := word_lt sized hi
  have split_eq : j = i ↔ j / Bits.perWord = i / Bits.perWord ∧
      j % Bits.perWord = i % Bits.perWord := by
    refine ⟨fun heq => heq ▸ ⟨rfl, rfl⟩, fun ⟨word, place⟩ => ?_⟩
    rw [← Nat.div_add_mod j Bits.perWord, word, place, Nat.div_add_mod]
  rw [set, if_pos hi, Bits.bit, Bits.bit]
  dsimp only
  rw [Array.getElem?_toList, Array.getElem?_toList, Array.getElem?_modify]
  by_cases here : i / Bits.perWord = j / Bits.perWord
  · rw [Bits.locate, if_pos here, ← here, Array.getElem?_eq_getElem room]
    refine (testBit_mask v.words[i / Bits.perWord] i _).trans ?_
    simp [split_eq, here]
  · rw [Bits.locate, if_neg here]
    simp [split_eq, Ne.symm here]

theorem sum_ones_eq (sized : v.Sized)
    (padding : ∀ i, v.bits ≤ i → Bits.bit v.words.toList i = false) :
    (v.words.toList.map Bits.ones).sum = (List.range v.bits).countP (Bits.bit v.words.toList) := by
  have length : v.words.toList.length = Bits.numWords v.bits := by rw [Array.length_toList, sized]
  obtain ⟨rest, total⟩ := Nat.le.dest (le_words v.bits)
  have outside : (List.range rest).countP (Bits.bit v.words.toList ∘ (v.bits + ·)) = 0 :=
    List.countP_eq_zero.2 fun i _ => by simp [padding (v.bits + i) (Nat.le_add_right _ _)]
  rw [Bits.sum_ones, length, ← total, List.range_add, List.countP_append, List.countP_map, outside,
    Nat.add_zero]

theorem setAll_eq (v : ExchangeVector) (is : List Nat) :
    (v.setAll is).2 = is.foldl (fun v i => (v.set i).2) v := by
  have along : ∀ (is : List Nat) (done : List Bool) (v : ExchangeVector),
      (is.foldl setNext (done, v)).2 = is.foldl (fun v i => (v.set i).2) v := by
    intro is
    induction is with
    | nil => exact fun _ _ => rfl
    | cons i is ih => exact fun done v => ih _ _
  exact along is [] v

theorem setAll_spec (sized : v.Sized) {is : List Nat} (inRange : ∀ i ∈ is, i < v.bits) :
    (v.setAll is).2.bits = v.bits ∧ (v.setAll is).2.Sized ∧
      ∀ j, Bits.bit (v.setAll is).2.words.toList j =
        (Bits.bit v.words.toList j || decide (j ∈ is)) := by
  rw [setAll_eq]
  induction is generalizing v with
  | nil => exact ⟨rfl, sized, by simp⟩
  | cons i is ih =>
    have same := v.set_bits i
    obtain ⟨bits, sized', set⟩ := ih (set_sized sized i) fun j hj => by
      rw [same]
      exact inRange j (List.mem_cons_of_mem _ hj)
    refine ⟨bits.trans same, sized', fun j => (set j).trans ?_⟩
    rw [bit_set sized (inRange i List.mem_cons_self)]
    simp [Bool.or_assoc]

theorem mem_indicesFrom {length period offset : Nat} (pos : 0 < period) (low : offset < period) :
    i ∈ indicesFrom length offset period ↔ i < length ∧ i % period = offset := by
  rw [indicesFrom, List.mem_range']
  constructor
  · rintro ⟨k, hk, rfl⟩
    have enough : k * period < length - offset := by
      have le := (Nat.le_div_iff_mul_le pos).1 (Nat.succ_le_of_lt hk)
      rw [Nat.succ_mul] at le
      omega
    refine ⟨?_, ?_⟩
    · rw [Nat.mul_comm period k]
      omega
    · rw [Nat.add_mul_mod_self_left, Nat.mod_eq_of_lt low]
  · rintro ⟨short, same⟩
    have parts := Nat.div_add_mod i period
    rw [same] at parts
    refine ⟨i / period, ?_, by omega⟩
    refine Nat.lt_of_succ_le ((Nat.le_div_iff_mul_le pos).2 ?_)
    rw [Nat.succ_mul, Nat.mul_comm]
    omega

/-- The vector of that length in which every index with the step's remainder is set. -/
def everyNth (bits period step : Nat) : ExchangeVector :=
  ((new bits).setAll (indicesFrom bits (step % period) period)).2

theorem setEvery_eq (sized : v.Sized) {period : Nat} (pos : 0 < period) (step : Nat) :
    v.setEvery period step = (everyNth v.bits period step, none) := by
  rw [setEvery, if_neg (Nat.ne_of_gt pos), clear_eq_new sized]
  rfl

theorem everyNth_spec (bits step : Nat) {period : Nat} (pos : 0 < period) :
    (everyNth bits period step).bits = bits ∧ (everyNth bits period step).Sized ∧
      ∀ i, Bits.bit (everyNth bits period step).words.toList i =
        decide (i < bits ∧ i % period = step % period) := by
  have members : ∀ i, i ∈ indicesFrom bits (step % period) period ↔
      i < bits ∧ i % period = step % period := fun i => mem_indicesFrom pos (Nat.mod_lt step pos)
  obtain ⟨same, sized, set⟩ := setAll_spec (new_sized bits) fun i hi => ((members i).1 hi).1
  refine ⟨same, sized, fun i => (set i).trans ?_⟩
  rw [new, Array.toList_replicate, Bits.bit_replicate, Bool.false_or, decide_eq_decide]
  exact members i

theorem sum_ones_everyNth (bits step : Nat) {period : Nat} (pos : 0 < period) :
    ((everyNth bits period step).words.toList.map Bits.ones).sum =
      (List.range bits).countP fun i => i % period = step % period := by
  obtain ⟨same, sized, set⟩ := everyNth_spec bits step pos
  have padding : ∀ i, (everyNth bits period step).bits ≤ i →
      Bits.bit (everyNth bits period step).words.toList i = false := fun i past => by
    rw [same] at past
    simp [set, Nat.not_lt.2 past]
  rw [sum_ones_eq sized padding, same]
  exact List.countP_congr fun i hi => by simp [set, List.mem_range.1 hi]

end BufferFlow.ExchangeVector
