import BufferFlow.Proofs.Payload.Vector

set_option autoImplicit false

namespace BufferFlow.ExchangeVector

inductive Edit
  | set (i : Nat)
  | clear
  deriving DecidableEq

variable {v : ExchangeVector} {i j : Nat} {es : List Edit} {e : Edit}

def edit (v : ExchangeVector) : Edit → ExchangeVector
  | .set i => (v.set i).2
  | .clear => v.clear

def editAll (v : ExchangeVector) (es : List Edit) : ExchangeVector := es.foldl edit v

/-- The index was set, and the vector was not cleared after that. -/
def SetSince (es : List Edit) (j : Nat) : Prop :=
  ∃ before after, es = before ++ .set j :: after ∧ .clear ∉ after

def set? (v : ExchangeVector) (i : Nat) : Option (Bool × ExchangeVector) :=
  if i < v.bits then
    v.words[(Bits.locate i).1]?.map fun w =>
      (true, { v with words := v.words.setIfInBounds (Bits.locate i).1 (w ||| (Bits.locate i).2) })
  else some (false, v)

def edit? (v : ExchangeVector) : Edit → Option ExchangeVector
  | .set i => (v.set? i).map (·.2)
  | .clear => some v.clear

def editAll? (v : ExchangeVector) (es : List Edit) : Option ExchangeVector := es.foldlM edit? v

theorem set?_eq (sized : v.Sized) (i : Nat) : v.set? i = some (v.set i) := by
  unfold set? set
  split
  · rename_i hi
    have room := word_lt sized hi
    have words : v.words.setIfInBounds (Bits.locate i).1
        (v.words[(Bits.locate i).1] ||| (Bits.locate i).2) =
        v.words.modify (Bits.locate i).1 (· ||| (Bits.locate i).2) := by
      refine Array.ext_getElem? fun k => ?_
      rw [Array.getElem?_setIfInBounds, Array.getElem?_modify]
      split
      · rename_i here
        rw [← here, Array.getElem?_eq_getElem room]
        rfl
      · rfl
    rw [Array.getElem?_eq_getElem room, Option.map_some, words]
  · rfl

theorem edit_sized (sized : v.Sized) (e : Edit) : (v.edit e).Sized := by
  cases e with
  | set i => exact set_sized sized i
  | clear => exact Array.size_replicate.trans sized

theorem edit_bits (v : ExchangeVector) (e : Edit) : (v.edit e).bits = v.bits := by
  cases e with
  | set i => exact v.set_bits i
  | clear => rfl

theorem edit?_eq (sized : v.Sized) (e : Edit) : v.edit? e = some (v.edit e) := by
  cases e with
  | set i => rw [edit?, set?_eq sized i]; rfl
  | clear => rfl

theorem editAll_spec (sized : v.Sized) (es : List Edit) :
    v.editAll? es = some (v.editAll es) ∧ (v.editAll es).bits = v.bits ∧ (v.editAll es).Sized := by
  induction es generalizing v with
  | nil => exact ⟨rfl, rfl, sized⟩
  | cons e es ih =>
    obtain ⟨checked, bits, still⟩ := ih (edit_sized sized e)
    refine ⟨?_, bits.trans (v.edit_bits e), still⟩
    rw [editAll?, List.foldlM_cons, edit?_eq sized e]
    exact checked

def put? (v : ExchangeVector) (i : Nat) : Option ExchangeVector :=
  (v.set? i).bind fun done => if done.1 then some done.2 else none

/-- Sets every index that leaves the same remainder as the step, if none of them is refused. -/
def setEvery? (v : ExchangeVector) (period step : Nat) : Option ExchangeVector :=
  (indicesFrom v.bits (step % period) period).foldlM put? v.clear

theorem put?_eq (sized : v.Sized) (hi : i < v.bits) : v.put? i = some (v.set i).2 := by
  have done : (v.set i).1 = true := by rw [set, if_pos hi]
  rw [put?, set?_eq sized i, Option.bind_some, if_pos done]

theorem putAll?_eq (sized : v.Sized) {is : List Nat} (inRange : ∀ i ∈ is, i < v.bits) :
    is.foldlM put? v = some (v.setAll is).2 := by
  rw [setAll_eq]
  induction is generalizing v with
  | nil => rfl
  | cons i is ih =>
    rw [List.foldlM_cons, put?_eq sized (inRange i List.mem_cons_self)]
    refine ih (set_sized sized i) fun j hj => ?_
    rw [v.set_bits i]
    exact inRange j (List.mem_cons_of_mem _ hj)

theorem setEvery?_eq (sized : v.Sized) {period : Nat} (pos : 0 < period) (step : Nat) :
    v.setEvery? period step = some (v.setEvery period step).1 := by
  have cleared : v.clear.Sized := edit_sized sized .clear
  rw [setEvery?, setEvery, if_neg (Nat.ne_of_gt pos)]
  refine putAll?_eq cleared fun i hi => ?_
  exact ((mem_indicesFrom pos (Nat.mod_lt step pos)).1 hi).1

theorem not_setSince_nil (j : Nat) : ¬ SetSince [] j := by
  rintro ⟨before, after, same, -⟩
  simp at same

theorem setSince_snoc_set (es : List Edit) (i j : Nat) :
    SetSince (es ++ [.set i]) j ↔ j = i ∨ SetSince es j := by
  constructor
  · rintro ⟨before, after, same, kept⟩
    rcases List.eq_nil_or_concat after with rfl | ⟨rest, last, rfl⟩
    · obtain ⟨-, last⟩ := List.append_inj' same rfl
      simp_all
    · rw [List.concat_eq_append, ← List.cons_append, ← List.append_assoc] at same
      obtain ⟨same, -⟩ := List.append_inj' same rfl
      exact .inr ⟨before, rest, same, fun cleared => kept (by simp [cleared])⟩
  · rintro (rfl | ⟨before, after, rfl, kept⟩)
    · exact ⟨es, [], rfl, List.not_mem_nil⟩
    · exact ⟨before, after ++ [.set i], by simp, by simpa using kept⟩

theorem not_setSince_snoc_clear (es : List Edit) (j : Nat) : ¬ SetSince (es ++ [.clear]) j := by
  rintro ⟨before, after, same, kept⟩
  rcases List.eq_nil_or_concat after with rfl | ⟨rest, last, rfl⟩
  · obtain ⟨-, last⟩ := List.append_inj' same rfl
    simp at last
  · rw [List.concat_eq_append, ← List.cons_append, ← List.append_assoc] at same
    obtain ⟨-, last⟩ := List.append_inj' same rfl
    simp_all

theorem bit_edited (bits : Nat) (es : List Edit) (j : Nat) :
    Bits.bit ((new bits).editAll es).words.toList j = true ↔ j < bits ∧ SetSince es j := by
  induction es using List.reverseRecOn with
  | nil =>
    have empty : Bits.bit (new bits).words.toList j = false := by
      rw [new, Array.toList_replicate, Bits.bit_replicate]
    simpa [editAll, empty] using fun _ => not_setSince_nil j
  | append_singleton es e ih =>
    obtain ⟨-, same, sized⟩ := editAll_spec (new_sized bits) es
    have last : (new bits).editAll (es ++ [e]) = ((new bits).editAll es).edit e := List.foldl_append
    rw [last]
    cases e with
    | clear =>
      have empty : Bits.bit ((new bits).editAll es).clear.words.toList j = false := by
        rw [clear, Array.toList_replicate, Bits.bit_replicate]
      simpa [edit, empty] using fun _ => not_setSince_snoc_clear es j
    | set i =>
      rw [setSince_snoc_set, edit]
      by_cases hi : i < bits
      · rw [bit_set sized (same.symm ▸ hi), Bool.or_eq_true, ih, decide_eq_true_iff]
        constructor
        · rintro (⟨lt, since⟩ | rfl)
          · exact ⟨lt, .inr since⟩
          · exact ⟨hi, .inl rfl⟩
        · rintro ⟨lt, rfl | since⟩
          · exact .inr rfl
          · exact .inl ⟨lt, since⟩
      · have ignored : (((new bits).editAll es).set i).2 = (new bits).editAll es := by
          rw [set, if_neg (same.symm ▸ hi)]
        rw [ignored, ih]
        refine and_congr_right fun lt => ?_
        have apart : ¬ j = i := by omega
        simp [apart]

theorem get_eq_bit (v : ExchangeVector) (j : Nat) : v.get j = Bits.bit v.words.toList j := by
  have word : (Bits.locate j).1 = j / Bits.perWord := rfl
  unfold get Bits.bit
  rw [Array.getElem?_toList, word]
  split
  · rename_i w there
    rw [there, Bits.mask_selects]
    rfl
  · rename_i none
    rw [none]
    rfl

/-- After any edits a vector has exactly the indices below its length that were set since it was
last cleared, no bit past its end is set, and its words have as many set bits. An index past the end
is refused, no word is out of bounds, and the number of words stays. -/
theorem edited_members (bits : Nat) (es : List Edit) :
    ∃ v, (new bits).editAll? es = some v ∧ (new bits).editAll es = v ∧ v.bits = bits ∧
      (∀ i, (v.set i).1 = decide (i < bits)) ∧ (∀ i, bits ≤ i → (v.set i).2 = v) ∧
      (∀ j, v.get j = true ↔ j < bits ∧ SetSince es j) ∧
      (∀ j, bits ≤ j → Bits.bit v.words.toList j = false) ∧
      v.words.size = (bits + 63) / 64 ∧
      (v.words.toList.map Bits.ones).sum = {j | j < bits ∧ SetSince es j}.ncard := by
  obtain ⟨checked, same, sized⟩ := editAll_spec (new_sized bits) es
  have members := bit_edited bits es
  generalize (new bits).editAll es = v at checked same sized members
  have length : v.bits = bits := same
  have padding : ∀ j, bits ≤ j → Bits.bit v.words.toList j = false := fun j past =>
    Bool.eq_false_iff.2 fun set => absurd ((members j).1 set).1 (Nat.not_lt.2 past)
  refine ⟨v, checked, rfl, length, fun i => ?_, fun i past => ?_, fun j => ?_, padding, ?_, ?_⟩
  · rw [set, length]
    split
    · rename_i inside
      exact (decide_eq_true inside).symm
    · rename_i past
      exact (decide_eq_false past).symm
  · rw [set, length, if_neg (Nat.not_lt.2 past)]
  · rw [get_eq_bit, members]
  · rw [sized, length]
    rfl
  · rw [sum_ones_eq sized (length.symm ▸ padding), length, Bits.countP_range]
    refine congrArg Set.ncard (Set.ext fun j => ?_)
    simp only [Set.mem_ofPred_eq, members, and_self_left]

/-- An index past the end is refused, and the last bit of the second word stays clear. -/
theorem edited_members_cleared : ∃ v,
    (new 70).editAll? [.set 3, .clear, .set 69, .set 70] = some v ∧
    70 ≤ 127 ∧ (v.set 127).2 = v ∧ Bits.bit v.words.toList 127 = false ∧
    v.get 69 = true ∧ v.get 3 = false ∧ v.words.size = 2 := by
  obtain ⟨v, run, -, -, -, refused, members, padding, size, -⟩ :=
    edited_members 70 [.set 3, .clear, .set 69, .set 70]
  have last : SetSince [.set 3, .clear, .set 69, .set 70] 69 :=
    ⟨[.set 3, .clear], [.set 70], rfl, by decide⟩
  have shown : (new 70).editAll? [.set 3, .clear, .set 69, .set 70] = some ⟨70, #[0, 32]⟩ := by
    decide +kernel
  have cleared : v.get 3 = false := by
    rw [← Option.some.inj (shown.symm.trans run)]
    decide
  exact ⟨v, run, by decide, refused 127 (by decide), padding 127 (by decide),
    (members 69).2 ⟨by decide, last⟩, cleared, size⟩

end BufferFlow.ExchangeVector
