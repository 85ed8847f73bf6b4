import BufferFlow.Pool
import Mathlib.Algebra.Group.Nat.Defs

set_option autoImplicit false

namespace BufferFlow

theorem bind_eq_ok {ε α β : Type} {x : Except ε α} {f : α → Except ε β} {b : β}
    (done : (x >>= f) = .ok b) : ∃ a, x = .ok a ∧ f a = .ok b := by
  cases x with
  | error failure => cases done
  | ok a => exact ⟨a, rfl, done⟩

structure BufferSlot.Fresh (factory : Payload.Factory) (s : BufferSlot) : Prop where
  uncounted : s.copies = 0
  unchained : s.chained = none
  made : ∃ i, factory.make i = .ok s.payload

namespace Pool

variable {name : String} {capacity : Nat} {factory : Payload.Factory}

theorem payloadFor_eq_ok {i : Nat} {payload : Payload}
    (made : payloadFor name factory i = .ok payload) : factory.make i = .ok payload := by
  simp only [payloadFor] at made
  cases hm : factory.make i with
  | error fault => simp [hm] at made
  | ok made' =>
    simp only [hm] at made
    split at made
    · simp at made
    · simpa using made

theorem addSlots_spec {n i : Nat} {slots slots' : Array BufferSlot}
    (fresh : ∀ s ∈ slots, s.Fresh factory)
    (added : addSlots name factory n i slots = .ok slots') :
    slots'.size = slots.size + n ∧ ∀ s ∈ slots', s.Fresh factory := by
  induction n generalizing i slots with
  | zero =>
    obtain rfl : slots = slots' := by simpa [addSlots] using added
    exact ⟨rfl, fresh⟩
  | succ n ih =>
    rw [addSlots] at added
    cases hp : payloadFor name factory i with
    | error failure => simp [hp] at added
    | ok payload =>
      simp only [hp] at added
      have still : ∀ s ∈ slots.push { payload }, s.Fresh factory := by
        intro s hs
        rcases Array.mem_push.1 hs with hs | rfl
        · exact fresh s hs
        · exact ⟨rfl, rfl, i, payloadFor_eq_ok hp⟩
      obtain ⟨size, all⟩ := ih still added
      rw [Array.size_push] at size
      exact ⟨by omega, all⟩

/-- A new pool of that many slots, all of them free in order, of which nothing was asked yet. -/
structure Untouched (capacity : Nat) (factory : Payload.Factory) (p : Pool) : Prop where
  size : p.slots.size = capacity
  bounded : capacity < 2 ^ 64
  free : p.free = List.range capacity
  unmisused : p.misuses = []
  acquires : p.acquires = 0
  recycles : p.recycles = 0
  fresh : ∀ s ∈ p.slots, s.Fresh factory

theorem room_eq_error {bytes : Nat} (large : ¬ bytes ≤ Memory.largestPiece) :
    room bytes = .error (.faulted .capacityOverflow) := by
  rw [room, Memory.reserve, if_pos (Nat.lt_of_not_le large)]

theorem room_eq_ok {bytes : Nat} : room bytes = .ok () ↔ bytes ≤ Memory.largestPiece := by
  by_cases small : bytes ≤ Memory.largestPiece
  · have reserved : Memory.reserve bytes = .ok bytes := if_neg (Nat.not_lt.2 small)
    simp only [room, reserved, small]
  · simp only [room_eq_error small, small, reduceCtorEq]

theorem new_eq_ok {p : Pool} (made : Pool.new name capacity factory = .ok p) :
    ∃ slots, addSlots name factory capacity 0 #[] = .ok slots ∧
      capacity * factory.kind.slotWidth ≤ Memory.largestPiece ∧
      capacity * 8 ≤ Memory.largestPiece ∧ p = { name, slots, free := List.range capacity } := by
  rw [Pool.new] at made
  split at made
  · cases made
  obtain ⟨_, -, made⟩ := bind_eq_ok made
  obtain ⟨slots, added, made⟩ := bind_eq_ok made
  obtain ⟨_, slotted, made⟩ := bind_eq_ok made
  obtain ⟨_, listed, made⟩ := bind_eq_ok made
  exact ⟨slots, added, room_eq_ok.1 slotted, room_eq_ok.1 listed, (Except.ok.inj made).symm⟩

theorem new_untouched {p : Pool} (made : Pool.new name capacity factory = .ok p) :
    p.Untouched capacity factory := by
  obtain ⟨slots, added, -, listed, rfl⟩ := new_eq_ok made
  obtain ⟨size, fresh⟩ := addSlots_spec (fun s none => absurd none (Array.not_mem_empty s)) added
  refine ⟨size.trans (Nat.zero_add capacity), ?_, rfl, rfl, rfl, rfl, fresh⟩
  rw [Memory.largestPiece, Nat.pow_eq] at listed
  omega

end Pool

end BufferFlow
