import BufferFlow.Hub.Buffer
import BufferFlow.Proofs.Table

set_option autoImplicit false

namespace BufferFlow

namespace Hub

variable {h : Hub} {r : SlotRef}

/-- How often the slot is on the stack of its pool. -/
def stackedAt (h : Hub) (r : SlotRef) : Nat :=
  ((h.pools.get? r.pool).map fun p => p.free.count r.slot).getD 0

theorem slot?_eq_some {s : BufferSlot} :
    h.slot? r = some s ↔ ∃ p, h.pools.get? r.pool = some p ∧ p.slots[r.slot]? = some s := by
  simp [slot?, Option.bind_eq_some_iff]

theorem slot?_modifySlot (h : Hub) (r : SlotRef) (f : BufferSlot → BufferSlot) (q : SlotRef) :
    (h.modifySlot r f).slot? q = if q = r then (h.slot? q).map f else h.slot? q := by
  obtain ⟨pool, slot⟩ := q
  simp only [slot?, modifySlot, modifyPool, Table.get?_modify]
  by_cases hp : pool = r.pool
  · subst hp
    cases hg : h.pools.get? r.pool with
    | none => simp
    | some p =>
      by_cases hs : slot = r.slot
      · subst hs
        simp [Pool.modifySlot, Array.getElem?_modify]
      · have hne : (⟨r.pool, slot⟩ : SlotRef) ≠ r := fun heq => hs (congrArg SlotRef.slot heq)
        simp [Pool.modifySlot, Array.getElem?_modify, hne, Ne.symm hs]
  · have hne : (⟨pool, slot⟩ : SlotRef) ≠ r := fun heq => hp (congrArg SlotRef.pool heq)
    simp [hp, hne]

theorem stackedAt_modifySlot (h : Hub) (r : SlotRef) (f : BufferSlot → BufferSlot) (q : SlotRef) :
    (h.modifySlot r f).stackedAt q = h.stackedAt q := by
  simp only [stackedAt, modifySlot, modifyPool, Table.get?_modify]
  split
  · cases h.pools.get? q.pool <;> rfl
  · rfl

theorem copiesAt_eq {s : BufferSlot} (hs : h.slot? r = some s) : h.copiesAt r = s.copies := by
  simp [copiesAt, hs]

theorem chainedAt_eq {s : BufferSlot} (hs : h.slot? r = some s) : h.chainedAt r = s.chained := by
  simp [chainedAt, hs]

theorem exists_slot_of_chainedAt {c : Copy} (hc : h.chainedAt r = some c) :
    ∃ s, h.slot? r = some s ∧ s.chained = some c := by
  simpa [chainedAt, Option.bind_eq_some_iff] using hc

theorem discount_eq {s : BufferSlot} (hs : h.slot? r = some s) (hc : 0 < s.copies) :
    h.discount r = h.modifySlot r fun s => { s with copies := s.copies - 1 } := by
  obtain ⟨p, hp, hslot⟩ := slot?_eq_some.1 hs
  simp only [discount, modifySlot, modifyPool]
  congr 1
  refine Table.modify_congr fun q hq => ?_
  obtain rfl : p = q := by simpa [hp] using hq
  simp [Pool.discount, Pool.expect, hslot, hc]

def allSlots (h : Hub) : List BufferSlot := h.pools.values.flatMap fun p => p.slots.toList

theorem slotCount_eq_length (h : Hub) : h.slotCount = h.allSlots.length := by
  simp only [slotCount, allSlots, List.length_flatMap]
  rfl

theorem modify_perm {α : Type} {l : List α} {i : Nat} {a : α} (ha : l[i]? = some a) (f : α → α) :
    (l.modify i f).Perm (f a :: l.eraseIdx i) := by
  obtain ⟨hi, rfl⟩ := List.getElem?_eq_some_iff.1 ha
  have hset : l.modify i f = l.set i (f l[i]) := by
    rw [List.modify_eq_set_getElem?, ha]
    rfl
  rw [hset]
  exact List.set_perm_cons_eraseIdx hi _

theorem allSlots_perm {s : BufferSlot} (hs : h.slot? r = some s) :
    ∃ rest, h.allSlots.Perm (s :: rest) ∧ ∀ f, (h.modifySlot r f).allSlots.Perm (f s :: rest) := by
  obtain ⟨p, hp, hslot⟩ := slot?_eq_some.1 hs
  have hlist : p.slots.toList[r.slot]? = some s := by simpa using hslot
  refine ⟨p.slots.toList.eraseIdx r.slot ++ (h.pools.others r.pool).flatMap (·.slots.toList),
    ?_, fun f => ?_⟩
  · refine ((Table.values_perm hp).flatMap_right _).trans ?_
    obtain ⟨hi, rfl⟩ := List.getElem?_eq_some_iff.1 hlist
    rw [List.flatMap_cons, ← List.cons_append]
    exact (List.getElem_cons_eraseIdx_perm hi).symm.append_right _
  · refine ((Table.values_modify_perm hp _).flatMap_right _).trans ?_
    rw [List.flatMap_cons, ← List.cons_append]
    simpa [Pool.modifySlot] using (modify_perm hlist f).append_right _

theorem slotCount_pos {s : BufferSlot} (hs : h.slot? r = some s) : 0 < h.slotCount := by
  obtain ⟨rest, before, -⟩ := allSlots_perm hs
  rw [slotCount_eq_length, before.length_eq]
  exact Nat.succ_pos _

theorem slot?_modifyPool {pool : Nat} {f : Pool → Pool}
    (hf : ∀ p, h.pools.get? pool = some p → (f p).slots = p.slots) (q : SlotRef) :
    (h.modifyPool pool f).slot? q = h.slot? q := by
  simp only [slot?, modifyPool, Table.get?_modify]
  split
  · rename_i heq
    cases hg : h.pools.get? q.pool with
    | none => rfl
    | some p => simp [hf p (heq ▸ hg)]
  · rfl

theorem allSlots_modifyPool {pool : Nat} {f : Pool → Pool}
    (hf : ∀ p, h.pools.get? pool = some p → (f p).slots = p.slots) :
    (h.modifyPool pool f).allSlots.Perm h.allSlots := by
  cases hg : h.pools.get? pool with
  | none =>
    simp only [modifyPool, allSlots, Table.modify_of_get?_eq_none hg]
    exact List.Perm.refl _
  | some p =>
    refine ((Table.values_modify_perm hg f).flatMap_right _).trans ?_
    rw [List.flatMap_cons, hf p hg, ← List.flatMap_cons (f := fun q : Pool => q.slots.toList)]
    exact ((Table.values_perm hg).flatMap_right _).symm

@[simp] theorem put_slots (p : Pool) (slot : Nat) : (p.put slot).slots = p.slots := by
  simp only [Pool.put, Pool.expect]
  split <;> rfl

@[simp] theorem slot?_putBack (h : Hub) (r q : SlotRef) : (h.putBack r).slot? q = h.slot? q :=
  slot?_modifyPool (fun _ _ => put_slots _ _) q

theorem allSlots_putBack (h : Hub) (r : SlotRef) : (h.putBack r).allSlots.Perm h.allSlots :=
  allSlots_modifyPool fun _ _ => put_slots _ _

@[simp] theorem chainedAt_putBack (h : Hub) (r q : SlotRef) :
    (h.putBack r).chainedAt q = h.chainedAt q := by
  simp only [chainedAt, slot?_putBack]

theorem stackedAt_putBack {p : Pool} (hp : h.pools.get? r.pool = some p) (q : SlotRef) :
    (h.putBack r).stackedAt q = h.stackedAt q + if q = r then 1 else 0 := by
  obtain ⟨pool, slot⟩ := q
  simp only [stackedAt, putBack, count, modifyPool, Table.get?_modify]
  by_cases hpool : pool = r.pool
  · subst hpool
    by_cases hslot : slot = r.slot
    · subst hslot
      simp [hp, Pool.put]
    · have hne : (⟨r.pool, slot⟩ : SlotRef) ≠ r := fun heq => hslot (congrArg SlotRef.slot heq)
      simp [hp, Pool.put, List.count_cons_of_ne (Ne.symm hslot), hne]
  · have hne : (⟨pool, slot⟩ : SlotRef) ≠ r := fun heq => hpool (congrArg SlotRef.pool heq)
    simp [hpool, hne]

theorem stackedAt_pop {p q : Pool} (hp : h.pools.get? r.pool = some p)
    (hfree : p.free = r.slot :: q.free) (i : SlotRef) :
    (h.modifyPool r.pool fun _ => q).stackedAt i + (if i = r then 1 else 0) = h.stackedAt i := by
  obtain ⟨pool, slot⟩ := i
  simp only [stackedAt, modifyPool, Table.get?_modify]
  by_cases hpool : pool = r.pool
  · subst hpool
    by_cases hslot : slot = r.slot
    · subst hslot
      simp [hp, hfree]
    · have hne : (⟨r.pool, slot⟩ : SlotRef) ≠ r := fun heq => hslot (congrArg SlotRef.slot heq)
      simp [hp, hfree, List.count_cons_of_ne (Ne.symm hslot), hne]
  · have hne : (⟨pool, slot⟩ : SlotRef) ≠ r := fun heq => hpool (congrArg SlotRef.pool heq)
    simp [hpool, hne]

theorem acquire?_eq_some {pool : Nat} {blank : SlotRef} {h' : Hub}
    (ha : h.acquire? pool = some (blank, h')) :
    ∃ p free, h.pools.get? pool = some p ∧ p.free = blank.slot :: free ∧ blank.pool = pool ∧
      h' = ({ h.modifyPool pool fun _ => { p with free, acquires := p.acquires + 1 } with
        blanks := blank :: h.blanks }).count .bufferAcquired := by
  simp only [acquire?, bind, Option.bind_eq_some_iff, pure, Option.some.injEq] at ha
  obtain ⟨p, hp, ⟨slot, rest⟩, taken, heq⟩ := ha
  simp only [Pool.take?] at taken
  split at taken
  · simp at taken
  · rename_i top free hfree
    simp only [Option.some.injEq, Prod.mk.injEq] at taken heq
    obtain ⟨rfl, rfl⟩ := taken
    obtain ⟨rfl, rfl⟩ := heq
    exact ⟨p, free, hp, hfree, rfl, rfl⟩

end Hub

end BufferFlow
