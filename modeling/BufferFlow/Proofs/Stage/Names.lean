import BufferFlow.Stage

set_option autoImplicit false

namespace BufferFlow

theorem mem_data_of_mem_loop {bs : ByteArray} {i : Nat} {r : List UInt8} {b : UInt8}
    (hb : b ∈ ByteArray.toList.loop bs i r) : b ∈ r ∨ b ∈ bs.data.toList := by
  induction i, r using ByteArray.toList.loop.induct bs with
  | case1 i r more ih =>
    rw [ByteArray.toList.loop, if_pos more] at hb
    rcases ih hb with hb | hb
    · rcases List.mem_cons.1 hb with rfl | hb
      · have here : bs.get! i = bs.data[i] := getElem!_pos bs.data i more
        exact .inr (here ▸ Array.mem_toList_iff.2 (Array.getElem_mem more))
      · exact .inl hb
    · exact .inr hb
  | case2 i r done =>
    rw [ByteArray.toList.loop, if_neg done] at hb
    exact .inl (List.mem_reverse.1 hb)

theorem mem_encoded {text : String} {b : UInt8} (hb : b ∈ text.toUTF8.toList) :
    ∃ c ∈ text.toList, b ∈ String.utf8EncodeChar c := by
  rcases mem_data_of_mem_loop hb with hb | hb
  · exact absurd hb List.not_mem_nil
  · rw [String.toUTF8, ← String.ofList_toList (s := text), String.toByteArray_ofList,
      List.utf8Encode] at hb
    simpa using hb

theorem eq_null_of_zero_mem {c : Char} (zero : 0 ∈ String.utf8EncodeChar c) : c = '\x00' := by
  have low : ∀ n, n % 256 ≠ 0 → (0 : UInt8) ≠ UInt8.ofNat n := by
    intro n positive same
    have values := congrArg UInt8.toNat same
    rw [UInt8.toNat_ofNat'] at values
    exact positive values.symm
  rw [String.utf8EncodeChar] at zero
  split at zero
  · rename_i small
    have value : c.val.toNat = 0 := Nat.eq_zero_of_not_pos fun positive =>
      low _ (by omega) (List.mem_singleton.1 zero)
    exact Char.ext (UInt32.toNat_inj.1 value)
  -- The first of several bytes is marked with a high bit, and so are those that follow it.
  · exfalso
    split at zero
    · simp only [List.mem_cons, List.not_mem_nil, or_false] at zero
      rcases zero with zero | zero <;> exact low _ (by omega) zero
    · split at zero <;> simp only [List.mem_cons, List.not_mem_nil, or_false] at zero
      · rcases zero with zero | zero | zero <;> exact low _ (by omega) zero
      · rcases zero with zero | zero | zero | zero <;> exact low _ (by omega) zero

theorem Stage.nameFault?_eq_none {s : Stage} (proper : ∀ c ∈ s.name.toList, c ≠ '\x00') :
    s.nameFault? = none := by
  rw [nameFault?]
  refine if_neg fun zero => ?_
  obtain ⟨c, hc, byte⟩ := mem_encoded (List.contains_iff_mem.1 zero)
  exact proper c hc (eq_null_of_zero_mem byte)

theorem proper_numbered {stem : String} (proper : ∀ c ∈ stem.toList, c ≠ '\x00') (i : Nat) :
    ∀ c ∈ (stem ++ toString i).toList, c ≠ '\x00' := by
  intro c hc
  rw [String.toList_append] at hc
  rcases List.mem_append.1 hc with hc | hc
  · exact proper c hc
  · rintro rfl
    rw [show toString i = i.repr from rfl, Nat.toList_repr] at hc
    exact absurd (Nat.isDigit_of_mem_toDigits (by decide) (by decide) hc) (by decide)

end BufferFlow
