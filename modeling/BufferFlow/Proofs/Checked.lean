import BufferFlow.Fault
import Mathlib.Algebra.Group.Nat.Defs

set_option autoImplicit false

namespace BufferFlow.Checked

variable {a b s : UInt64} {fault : Fault} {n : Nat}

theorem exact_eq_ok {r : UInt64} {overflow : Fault} (exact : n < 2 ^ 64 → r.toNat = n) :
    (if n < UInt64.size then .ok r else .error overflow : Except Fault UInt64) = .ok s ↔
      s.toNat = n := by
  constructor
  · intro given
    split at given
    · rename_i fits
      obtain rfl := Except.ok.inj given
      exact exact fits
    · cases given
  · rintro rfl
    rw [if_pos s.toNat_lt, UInt64.toNat_inj.1 (exact s.toNat_lt)]

theorem exact_eq_error {r : UInt64} {overflow : Fault} :
    (if n < UInt64.size then .ok r else .error overflow : Except Fault UInt64) = .error fault ↔
      2 ^ 64 ≤ n ∧ fault = overflow := by
  split
  · rename_i fits
    exact ⟨nofun, fun given => absurd fits (Nat.not_lt.2 given.1)⟩
  · rename_i large
    rw [Except.error.injEq]
    exact ⟨fun same => ⟨Nat.le_of_not_lt large, same.symm⟩, fun given => given.2.symm⟩

theorem add_eq_ok : add a b = .ok s ↔ s.toNat = a.toNat + b.toNat :=
  exact_eq_ok fun fits => by rw [UInt64.toNat_add, Nat.mod_eq_of_lt fits]

theorem add_eq_error : add a b = .error fault ↔ 2 ^ 64 ≤ a.toNat + b.toNat ∧ fault = .addOverflow :=
  exact_eq_error

theorem mul_eq_ok : mul a b = .ok s ↔ s.toNat = a.toNat * b.toNat :=
  exact_eq_ok fun fits => by rw [UInt64.toNat_mul, Nat.mod_eq_of_lt fits]

theorem mul_eq_error : mul a b = .error fault ↔ 2 ^ 64 ≤ a.toNat * b.toNat ∧ fault = .mulOverflow :=
  exact_eq_error

theorem overrun?_eq_some : overrun? n = some fault ↔ 2 ^ 64 ≤ n + 1 ∧ fault = .addOverflow := by
  rw [overrun?]
  split
  · rename_i fits
    exact ⟨nofun, fun given => absurd fits (Nat.not_lt.2 given.1)⟩
  · rename_i large
    rw [Option.some.injEq]
    exact ⟨fun same => ⟨Nat.le_of_not_lt large, same.symm⟩, fun given => given.2.symm⟩

theorem add_one_eq_ok : add a 1 = .ok s ↔ s.toNat = a.toNat + 1 := add_eq_ok

theorem add_one_eq_error : add a 1 = .error fault ↔ a.toNat + 1 = 2 ^ 64 ∧ fault = .addOverflow := by
  have bound := a.toNat_lt
  rw [add_eq_error, UInt64.toNat_one]
  exact and_congr_left fun _ => by omega

end BufferFlow.Checked
