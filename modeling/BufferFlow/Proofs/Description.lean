import BufferFlow.Description
import BufferFlow.Proofs.Checked
import Mathlib.Algebra.GroupWithZero.Nat
import Mathlib.Order.Bounds.Basic

set_option autoImplicit false

namespace BufferFlow

namespace ElementType

variable {t : ElementType} {count s : UInt64} {fault : Fault} {m n : Nat}

/-- The bytes that so many elements take. -/
def bytesFor : ElementType → Nat → Nat
  | .bit, count => Bits.numWords count * 8
  | .u32, count => count * 4
  | .f32, count => count * 4
  | .f64, count => count * 8

theorem toNat_numWords (count : UInt64) :
    (Bits.numWords count.toNat).toUInt64.toNat = Bits.numWords count.toNat := by
  have bound := count.toNat_lt
  rw [Nat.toUInt64, UInt64.toNat_ofNat', Nat.mod_eq_of_lt]
  rw [Bits.numWords, Bits.perWord]
  omega

theorem numBytes_eq_ok : t.numBytes count = .ok s ↔ s.toNat = t.bytesFor count.toNat := by
  cases t with
  | bit => rw [numBytes, Checked.mul_eq_ok, toNat_numWords]; rfl
  | u32 | f32 | f64 => exact Checked.mul_eq_ok

theorem numBytes_eq_error :
    t.numBytes count = .error fault ↔ 2 ^ 64 ≤ t.bytesFor count.toNat ∧ fault = .mulOverflow := by
  cases t with
  | bit => rw [numBytes, Checked.mul_eq_error, toNat_numWords]; rfl
  | u32 | f32 | f64 => exact Checked.mul_eq_error

theorem bytesFor_mono (t : ElementType) (more : m ≤ n) : t.bytesFor m ≤ t.bytesFor n := by
  cases t with
  | bit =>
    simp only [bytesFor, Bits.numWords, Bits.perWord]
    omega
  | u32 | f32 | f64 => exact Nat.mul_le_mul_right _ more

theorem bytesFor_eq_zero : t.bytesFor n = 0 ↔ n = 0 := by
  cases t <;> simp only [bytesFor, Bits.numWords, Bits.perWord] <;> omega

theorem bytesFor_bit_isLeast (n : Nat) : IsLeast {m | 8 ∣ m ∧ n ≤ 8 * m} (bytesFor .bit n) := by
  rw [bytesFor, Bits.numWords, Bits.perWord]
  refine ⟨⟨Nat.dvd_mul_left 8 _, by omega⟩, ?_⟩
  rintro m ⟨⟨words, rfl⟩, room⟩
  omega

theorem bytesFor_bit_le (count : UInt64) : bytesFor .bit count.toNat ≤ 2 ^ 61 := by
  have bound := count.toNat_lt
  rw [bytesFor, Bits.numWords, Bits.perWord]
  omega

/-- Each element takes so many bytes, and more bytes than can be counted are a fault. -/
def Takes (t : ElementType) (width : Nat) : Prop :=
  ∀ count, (∀ s, t.numBytes count = .ok s ↔ s.toNat = count.toNat * width) ∧
    ∀ fault, t.numBytes count = .error fault ↔
      2 ^ 64 ≤ count.toNat * width ∧ fault = .mulOverflow

theorem Takes.of_bytesFor {width : Nat} (exact : ∀ n, t.bytesFor n = n * width) : t.Takes width := by
  intro count
  rw [← exact]
  exact ⟨fun _ => numBytes_eq_ok, fun _ => numBytes_eq_error⟩

theorem numBytes_bit (count : UInt64) : ∃ s, numBytes .bit count = .ok s ∧
    IsLeast {m | 8 ∣ m ∧ count.toNat ≤ 8 * m} s.toNat := by
  have small : bytesFor .bit count.toNat < 2 ^ 64 := (bytesFor_bit_le count).trans_lt (by decide)
  have exact : (bytesFor .bit count.toNat).toUInt64.toNat = bytesFor .bit count.toNat :=
    UInt64.toNat_ofNat_of_lt' small
  refine ⟨_, numBytes_eq_ok.2 exact, ?_⟩
  rw [exact]
  exact bytesFor_bit_isLeast _

end ElementType

namespace Description

variable {d d' : Description} {s s' : UInt64} {fault : Fault}

/-- All elements, those that are only there for alignment too. -/
def elements (d : Description) : Nat := d.real.toNat + d.padding.toNat

theorem byteSize_eq_ok :
    d.byteSize = .ok s ↔ d.elements < 2 ^ 64 ∧ s.toNat = d.elementType.bytesFor d.elements := by
  rw [byteSize]
  cases counted : d.total with
  | error fault =>
    have many := (Checked.add_eq_error.1 counted).1
    exact ⟨nofun, fun given => absurd given.1 (Nat.not_lt.2 many)⟩
  | ok count =>
    have same : count.toNat = d.elements := Checked.add_eq_ok.1 counted
    refine ElementType.numBytes_eq_ok.trans ?_
    rw [same]
    exact (and_iff_right (same ▸ count.toNat_lt)).symm

theorem byteSize_eq_zero : d.byteSize = .ok 0 ↔ d.real = 0 ∧ d.padding = 0 := by
  have none : d.elements = 0 ↔ d.real = 0 ∧ d.padding = 0 := by
    rw [elements, Nat.add_eq_zero_iff, ← UInt64.toNat_inj, ← UInt64.toNat_inj, UInt64.toNat_zero]
  rw [byteSize_eq_ok, UInt64.toNat_zero, eq_comm (a := 0), ElementType.bytesFor_eq_zero, none]
  refine and_iff_right_of_imp fun empty => ?_
  rw [none.2 empty]
  decide

theorem byteSize_mono (same : d.elementType = d'.elementType) (real : d.real ≤ d'.real)
    (padding : d.padding ≤ d'.padding) (sized : d'.byteSize = .ok s') :
    ∃ s, d.byteSize = .ok s ∧ s ≤ s' := by
  obtain ⟨few, size⟩ := byteSize_eq_ok.1 sized
  have fewer : d.elements ≤ d'.elements :=
    Nat.add_le_add (UInt64.le_iff_toNat_le.1 real) (UInt64.le_iff_toNat_le.1 padding)
  have less : d.elementType.bytesFor d.elements ≤ s'.toNat := by
    rw [size, same]
    exact ElementType.bytesFor_mono _ fewer
  have exact : (d.elementType.bytesFor d.elements).toUInt64.toNat = d.elementType.bytesFor d.elements :=
    UInt64.toNat_ofNat_of_lt' (less.trans_lt s'.toNat_lt)
  refine ⟨_, byteSize_eq_ok.2 ⟨fewer.trans_lt few, exact⟩, UInt64.le_iff_toNat_le.2 ?_⟩
  rwa [exact]

end Description

end BufferFlow
