import BufferFlow.Bits
import BufferFlow.Fault
import Mathlib.Algebra.GroupWithZero.Nat
import Mathlib.Data.Nat.Bitwise
import Mathlib.Data.Set.Card

set_option autoImplicit false

namespace BufferFlow

namespace Bits

/-- Bit `i` of the words, from the lowest bit of the first word on. -/
def bit (ws : List UInt64) (i : Nat) : Bool :=
  (ws[i / perWord]?).any fun w => w.toNat.testBit (i % perWord)

def byteBit (data : List UInt8) (i : Nat) : Bool :=
  (data[i / 8]?).any fun b => b.toNat.testBit (i % 8)

theorem toNat_mask (i : Nat) : (locate i).2.toNat = 2 ^ (i % perWord) := by
  have place := Nat.mod_lt i (show 0 < perWord by decide)
  have shift : (i % perWord).toUInt64.toNat % 64 = i % perWord := by
    rw [Nat.toUInt64, UInt64.toNat_ofNat']
    rw [perWord] at place ⊢
    omega
  have fits : 2 ^ (i % perWord) < 2 ^ perWord := Nat.pow_lt_pow_right (by decide) place
  rw [locate, UInt64.toNat_shiftLeft, shift, UInt64.toNat_one, Nat.shiftLeft_eq, Nat.one_mul]
  exact Nat.mod_eq_of_lt fits

theorem mask_selects (w : UInt64) (i : Nat) :
    (w &&& (locate i).2 != 0) = w.toNat.testBit (i % perWord) := by
  have masked : (w &&& (locate i).2).toNat = (w.toNat.testBit (i % perWord)).toNat * 2 ^ (i % perWord) := by
    rw [UInt64.toNat_and, toNat_mask, Nat.and_two_pow]
  have pos := Nat.two_pow_pos (i % perWord)
  cases hb : w.toNat.testBit (i % perWord) with
  | false =>
    rw [hb, Bool.toNat_false, Nat.zero_mul] at masked
    have none : w &&& (locate i).2 = 0 := UInt64.toNat_inj.1 masked
    simp [none]
  | true =>
    rw [hb, Bool.toNat_true, Nat.one_mul] at masked
    have some : w &&& (locate i).2 ≠ 0 := by
      intro none
      rw [none, UInt64.toNat_zero] at masked
      omega
    simpa using some

theorem bit_replicate (n i : Nat) : bit (List.replicate n 0) i = false := by
  rw [bit, List.getElem?_replicate]
  split
  · exact Nat.zero_testBit _
  · rfl

theorem countP_range (n : Nat) (p : Nat → Bool) :
    (List.range n).countP p = {j | j < n ∧ p j = true}.ncard := by
  have same : {j | j < n ∧ p j = true} = (((List.range n).filter p).toFinset : Set Nat) := by
    ext j
    simp
  rw [same, Set.ncard_coe_finset, List.toFinset_card_of_nodup (List.nodup_range.filter p),
    List.countP_eq_length_filter]

theorem sum_countP {α : Type} {width : Nat} (pos : 0 < width) (test : α → Nat → Bool) (xs : List α) :
    (xs.map fun x => (List.range width).countP (test x)).sum =
      (List.range (width * xs.length)).countP fun i =>
        (xs[i / width]?).any fun x => test x (i % width) := by
  induction xs with
  | nil => rfl
  | cons x xs ih =>
    have first : (List.range width).countP (test x) = (List.range width).countP fun i =>
        ((x :: xs)[i / width]?).any fun x => test x (i % width) := by
      refine List.countP_congr fun i hi => ?_
      rw [Nat.div_eq_of_lt (List.mem_range.1 hi), Nat.mod_eq_of_lt (List.mem_range.1 hi)]
      rfl
    have rest : (xs.map fun x => (List.range width).countP (test x)).sum =
        ((List.range (width * xs.length)).map (width + ·)).countP fun i =>
          ((x :: xs)[i / width]?).any fun x => test x (i % width) := by
      rw [List.countP_map, ih]
      refine List.countP_congr fun i _ => ?_
      rw [Function.comp_apply, Nat.add_div_left i pos, Nat.add_mod_left, List.getElem?_cons_succ]
    rw [List.map_cons, List.sum_cons, List.length_cons, Nat.mul_succ, Nat.add_comm (width * xs.length),
      List.range_add, List.countP_append, first, rest]

theorem sum_ones (ws : List UInt64) :
    (ws.map ones).sum = (List.range (perWord * ws.length)).countP (bit ws) :=
  sum_countP (show 0 < perWord by decide) (fun w : UInt64 => w.toNat.testBit) ws

theorem toNat_byte (w : UInt64) {k : Nat} (hk : k < 8) :
    (w >>> (8 * k).toUInt64).toUInt8.toNat = w.toNat >>> (8 * k) % 2 ^ 8 := by
  have shift : (8 * k).toUInt64.toNat % 64 = 8 * k := by
    rw [Nat.toUInt64, UInt64.toNat_ofNat']
    omega
  rw [UInt64.toNat_toUInt8, UInt64.toNat_shiftRight, shift]

theorem testBit_byte (w : UInt64) {k j : Nat} (hk : k < 8) (hj : j < 8) :
    (w >>> (8 * k).toUInt64).toUInt8.toNat.testBit j = w.toNat.testBit (8 * k + j) := by
  rw [toNat_byte w hk, Nat.testBit_mod_two_pow, Nat.testBit_shiftRight]
  simp [hj]

theorem sum_littleEndian (w : UInt64) : ((littleEndian w).map byteOnes).sum = ones w := by
  have places : List.range perWord =
      (List.range 8).flatMap fun k => (List.range 8).map (8 * k + ·) := by decide
  rw [ones, places, List.countP_flatMap, littleEndian, List.map_map]
  refine congrArg List.sum (List.map_congr_left fun k hk => ?_)
  rw [Function.comp_apply, Function.comp_apply, byteOnes, List.countP_map]
  refine List.countP_congr fun j hj => ?_
  rw [Function.comp_apply, testBit_byte w (List.mem_range.1 hk) (List.mem_range.1 hj)]

theorem length_littleEndian (w : UInt64) : (littleEndian w).length = 8 := by
  rw [littleEndian, List.length_map, List.length_range]

theorem length_bytes (ws : List UInt64) : (ws.flatMap littleEndian).length = ws.length * 8 := by
  induction ws with
  | nil => rfl
  | cons w ws ih =>
    rw [List.flatMap_cons, List.length_append, ih, length_littleEndian, List.length_cons]
    omega

theorem getElem?_littleEndian (w : UInt64) {k : Nat} (hk : k < 8) :
    (littleEndian w)[k]? = some (w >>> (8 * k).toUInt64).toUInt8 := by
  rw [littleEndian, List.getElem?_map, List.getElem?_range hk, Option.map_some]

theorem getElem?_bytes (ws : List UInt64) (k : Nat) :
    (ws.flatMap littleEndian)[k]? = (ws[k / 8]?).bind fun w => (littleEndian w)[k % 8]? := by
  induction ws generalizing k with
  | nil => rfl
  | cons w ws ih =>
    have length := length_littleEndian w
    rw [List.flatMap_cons]
    by_cases low : k < 8
    · rw [List.getElem?_append_left (by omega), Nat.div_eq_of_lt low, Nat.mod_eq_of_lt low]
      rfl
    · obtain ⟨j, rfl⟩ := Nat.exists_eq_add_of_le (Nat.le_of_not_lt low)
      rw [List.getElem?_append_right (by omega), length, Nat.add_sub_cancel_left, ih,
        Nat.add_div_left j (by decide), Nat.add_mod_left, List.getElem?_cons_succ]

theorem byteBit_bytes (ws : List UInt64) (i : Nat) :
    byteBit (ws.flatMap littleEndian) i = bit ws i := by
  have byte : i / 8 % 8 < 8 := Nat.mod_lt _ (by decide)
  have place : i % 8 < 8 := Nat.mod_lt _ (by decide)
  have word : i / 8 / 8 = i / perWord := Nat.div_div_eq_div_mul i 8 8
  have offset : 8 * (i / 8 % 8) + i % 8 = i % perWord := by
    rw [perWord]
    omega
  rw [byteBit, bit, getElem?_bytes, word]
  cases ws[i / perWord]? with
  | none => rfl
  | some w =>
    rw [Option.bind_some, getElem?_littleEndian w byte]
    exact (testBit_byte w byte place).trans (congrArg w.toNat.testBit offset)

theorem sum_bytes (ws : List UInt64) :
    ((ws.flatMap littleEndian).map byteOnes).sum = (ws.map ones).sum := by
  induction ws with
  | nil => rfl
  | cons w ws ih =>
    rw [List.flatMap_cons, List.map_append, List.sum_append, sum_littleEndian, ih, List.map_cons,
      List.sum_cons]

def value : List UInt8 → Nat
  | [] => 0
  | b :: bs => b.toNat + 256 * value bs

def readWords : Nat → List UInt8 → List UInt64
  | 0, _ => []
  | count + 1, bytes => (value (bytes.take 8)).toUInt64 :: readWords count (bytes.drop 8)

theorem toNat_byte_eq (w : UInt64) {k : Nat} (hk : k < 8) :
    (w >>> (8 * k).toUInt64).toUInt8.toNat = w.toNat / 256 ^ k % 256 := by
  have base : 2 ^ (8 * k) = 256 ^ k := Nat.pow_mul 2 8 k
  rw [toNat_byte w hk, Nat.shiftRight_eq_div_pow, base]
  rfl

theorem value_digits (count n : Nat) :
    value ((List.range count).map fun k => (n / 256 ^ k % 256).toUInt8) = n % 256 ^ count := by
  induction count generalizing n with
  | zero => exact (Nat.mod_one n).symm
  | succ count ih =>
    have next : ∀ k, n / 256 ^ (k + 1) = n / 256 / 256 ^ k := fun k => by
      rw [Nat.pow_succ', Nat.div_div_eq_div_mul]
    have lowest : (n / 256 ^ 0 % 256).toUInt8.toNat = n % 256 := by
      rw [Nat.pow_zero, Nat.div_one, Nat.toUInt8, UInt8.toNat_ofNat', Nat.mod_mod]
    rw [List.range_succ_eq_map, List.map_cons, List.map_map, value, lowest, Nat.pow_succ', Nat.mod_mul, ← ih]
    simp only [Function.comp_def, Nat.succ_eq_add_one, next]

theorem value_littleEndian (w : UInt64) : value (littleEndian w) = w.toNat := by
  have digits : littleEndian w = (List.range 8).map fun k => (w.toNat / 256 ^ k % 256).toUInt8 := by
    refine List.map_congr_left fun k hk => UInt8.toNat_inj.1 ?_
    rw [toNat_byte_eq w (List.mem_range.1 hk), Nat.toUInt8, UInt8.toNat_ofNat', Nat.mod_mod]
  rw [digits, value_digits]
  exact Nat.mod_eq_of_lt w.toNat_lt

theorem readWords_bytes (ws : List UInt64) (rest : List UInt8) :
    readWords ws.length (ws.flatMap littleEndian ++ rest) = ws := by
  induction ws with
  | nil => rfl
  | cons w ws ih =>
    have length := length_littleEndian w
    rw [List.flatMap_cons, List.append_assoc, List.length_cons, readWords, ← length, List.take_left,
      List.drop_left, value_littleEndian, ih]
    exact congrArg (· :: ws) UInt64.ofNat_toNat

end Bits

namespace Checked

/-- The number in 32 bits; one that does not fit is a fault and never a smaller number. -/
def narrow (n : Nat) : Except Fault UInt32 :=
  if n < 2 ^ 32 then .ok n.toUInt32 else .error .addOverflow

theorem narrow_eq {n : Nat} (fits : n < 2 ^ 32) : ∃ total, narrow n = .ok total ∧ total.toNat = n := by
  refine ⟨n.toUInt32, if_pos fits, ?_⟩
  rw [Nat.toUInt32, UInt32.toNat_ofNat', Nat.mod_eq_of_lt fits]

theorem sum32_spec (ns : List Nat) : sum32 ns = narrow ns.sum := by
  have along : ∀ (ns : List Nat) (start : UInt32),
      ns.foldlM add32 start = narrow (start.toNat + ns.sum) := by
    intro ns
    induction ns with
    | nil =>
      intro start
      have fits : start.toNat + [].sum < 2 ^ 32 := start.toNat_lt
      rw [narrow, if_pos fits]
      exact congrArg Except.ok UInt32.ofNat_toNat.symm
    | cons n ns ih =>
      intro start
      have size : UInt32.size = 2 ^ 32 := rfl
      have whole : start.toNat + (n :: ns).sum = start.toNat + n + ns.sum := by
        rw [List.sum_cons, Nat.add_assoc]
      rw [List.foldlM_cons, add32, size, whole]
      by_cases here : start.toNat + n < 2 ^ 32
      · have next : (start + n.toUInt32).toNat = start.toNat + n := by
          rw [UInt32.toNat_add, Nat.toUInt32, UInt32.toNat_ofNat']
          omega
        rw [if_pos here, ← next]
        exact ih _
      · rw [if_neg here, narrow, if_neg (by omega)]
        rfl
  have all := along ns 0
  rwa [UInt32.toNat_zero, Nat.zero_add] at all

theorem sum32_eq {ns : List Nat} (fits : ns.sum < 2 ^ 32) :
    ∃ total, sum32 ns = .ok total ∧ total.toNat = ns.sum := by
  rw [sum32_spec]
  exact narrow_eq fits

end Checked

end BufferFlow
