import BufferFlow.Proofs.Hub.Balance

set_option autoImplicit false

namespace BufferFlow.Hub

variable {h h' : Hub} {r : SlotRef} {blanks : List SlotRef} {loose : List Copy} {c : Copy}

/-- What is left alone when slots are recycled: everything but pools and counters. -/
def SamePeers (h h' : Hub) : Prop := ∃ pools counters, h' = { h with pools, counters }

namespace SamePeers

theorem refl (h : Hub) : SamePeers h h := ⟨h.pools, h.counters, rfl⟩

theorem trans {h₁ h₂ h₃ : Hub} (a : SamePeers h₁ h₂) (b : SamePeers h₂ h₃) : SamePeers h₁ h₃ := by
  obtain ⟨pools, counters, rfl⟩ := a
  obtain ⟨pools', counters', rfl⟩ := b
  exact ⟨pools', counters', rfl⟩

theorem putBack (h : Hub) (r : SlotRef) : SamePeers h (h.putBack r) := ⟨_, _, rfl⟩

theorem discount (h : Hub) (r : SlotRef) : SamePeers h (h.discount r) := ⟨_, _, rfl⟩

theorem recycleWith (fuel : Nat) (h : Hub) (r : SlotRef) : SamePeers h (recycleWith fuel h r) := by
  induction fuel generalizing h r with
  | zero => exact refl h
  | succ fuel ih =>
    rw [Hub.recycleWith]
    split
    · exact putBack h r
    · rename_i c _
      have unchained : SamePeers h (h.unchain r) := ⟨_, _, rfl⟩
      have discounted := unchained.trans (discount (h.unchain r) c.ref)
      dsimp only
      split
      · exact (discounted.trans (ih _ _)).trans (putBack _ _)
      · exact discounted.trans (putBack _ _)

theorem recycle (h : Hub) (r : SlotRef) : SamePeers h (h.recycle r) := recycleWith _ h r

theorem giveUp (h : Hub) (c : Copy) : SamePeers h (h.giveUp c) := by
  rw [Hub.giveUp]
  split
  · exact (discount h c.ref).trans (recycle _ _)
  · exact discount h c.ref

theorem giveUpAll (h : Hub) (cs : List Copy) : SamePeers h (h.giveUpAll cs) := by
  induction cs generalizing h with
  | nil => exact refl h
  | cons c cs ih => exact (giveUp h c).trans (ih _)

end SamePeers

def chained (h : Hub) : List Copy := h.allSlots.filterMap (·.chained)

def countedSlots (h : Hub) : Nat := h.allSlots.countP fun s => 0 < s.copies

/-- The pools account for these blanks, these copies and all that are chained. -/
def Kept (h : Hub) (blanks : List SlotRef) (loose : List Copy) : Prop :=
  h.Balanced blanks (loose ++ h.chained)

theorem chained_modifySlot {s : BufferSlot} (hs : h.slot? r = some s)
    {f : BufferSlot → BufferSlot} (hf : (f s).chained = s.chained) :
    (h.modifySlot r f).chained.Perm h.chained := by
  obtain ⟨rest, before, after⟩ := allSlots_perm hs
  refine ((after f).filterMap _).trans (List.Perm.trans ?_ (before.filterMap _).symm)
  rw [List.filterMap_cons, List.filterMap_cons, hf]

theorem chained_unchain {s : BufferSlot} (hs : h.slot? r = some s) (hc : s.chained = some c) :
    h.chained.Perm (c :: (h.unchain r).chained) := by
  obtain ⟨rest, before, after⟩ := allSlots_perm hs
  refine (before.filterMap _).trans ?_
  rw [List.filterMap_cons_some hc]
  refine List.Perm.cons _ (List.Perm.trans ?_ ((after _).filterMap _).symm)
  rw [List.filterMap_cons_none rfl]

theorem chained_putBack (h : Hub) (r : SlotRef) : (h.putBack r).chained.Perm h.chained :=
  (allSlots_putBack h r).filterMap _

theorem countedSlots_modifySlot {s : BufferSlot} (hs : h.slot? r = some s)
    {f : BufferSlot → BufferSlot} (hf : (f s).copies = s.copies) :
    (h.modifySlot r f).countedSlots = h.countedSlots := by
  obtain ⟨rest, before, after⟩ := allSlots_perm hs
  rw [countedSlots, countedSlots, before.countP_eq, (after f).countP_eq, List.countP_cons,
    List.countP_cons, hf]

theorem countedSlots_discount_last {s : BufferSlot} (hs : h.slot? r = some s) (one : s.copies = 1) :
    (h.discount r).countedSlots + 1 = h.countedSlots := by
  obtain ⟨rest, before, after⟩ := allSlots_perm hs
  rw [discount_eq hs (by omega), countedSlots, countedSlots, before.countP_eq,
    (after _).countP_eq, List.countP_cons_of_neg (by simp [one]),
    List.countP_cons_of_pos (by simp [one])]

theorem countedSlots_lt {s : BufferSlot} (hs : h.slot? r = some s) (zero : s.copies = 0) :
    h.countedSlots < h.slotCount := by
  obtain ⟨rest, before, -⟩ := allSlots_perm hs
  rw [slotCount_eq_length, countedSlots, before.countP_eq, before.length_eq,
    List.countP_cons_of_neg (by simp [zero]), List.length_cons]
  exact Nat.lt_succ_of_le List.countP_le_length

theorem slot?_discount (h : Hub) (r q : SlotRef) :
    (h.discount r).slot? q =
      if q = r then (h.slot? q).map (fun s => { s with copies := s.copies - 1 }) else h.slot? q := by
  rw [← slot?_modifySlot]
  simp only [discount, modifySlot, slot?, modifyPool, Table.get?_modify]
  split
  · cases h.pools.get? q.pool with
    | none => rfl
    | some p =>
      have slots : (p.discount r.slot).slots =
          (p.modifySlot r.slot fun s => { s with copies := s.copies - 1 }).slots := by
        simp only [Pool.discount, Pool.expect]
        split <;> rfl
      simp [slots]
  · rfl

theorem chainedAt_discount (h : Hub) (r q : SlotRef) :
    (h.discount r).chainedAt q = h.chainedAt q := by
  rw [chainedAt, slot?_discount]
  split
  · rw [chainedAt]
    cases h.slot? q <;> rfl
  · rfl

theorem copiesAt_discount (h : Hub) (r q : SlotRef) :
    (h.discount r).copiesAt q = if q = r then h.copiesAt q - 1 else h.copiesAt q := by
  rw [copiesAt, slot?_discount]
  split
  · rw [copiesAt]
    cases h.slot? q <;> rfl
  · rfl

theorem slot?_unchain (h : Hub) (r q : SlotRef) :
    (h.unchain r).slot? q =
      if q = r then (h.slot? q).map ({ · with chained := none }) else h.slot? q :=
  slot?_modifySlot h r _ q

theorem chainedAt_unchain (h : Hub) (r q : SlotRef) :
    (h.unchain r).chainedAt q = if q = r then none else h.chainedAt q := by
  rw [chainedAt, slot?_unchain]
  split
  · cases h.slot? q <;> rfl
  · rfl

theorem copiesAt_unchain (h : Hub) (r q : SlotRef) :
    (h.unchain r).copiesAt q = h.copiesAt q := by
  rw [copiesAt, slot?_unchain]
  split
  · cases hq : h.slot? q <;> simp [copiesAt, hq]
  · rfl

namespace Kept

theorem perm {blanks' : List SlotRef} {loose' : List Copy} (hk : h.Kept blanks loose)
    (pb : blanks.Perm blanks') (pl : loose.Perm loose') : h.Kept blanks' loose' :=
  Balanced.perm hk pb (pl.append_right _)

theorem copy_slot (hk : h.Kept blanks loose) (hc : c ∈ loose) :
    ∃ s, h.slot? c.ref = some s ∧ 0 < s.copies := by
  obtain ⟨s, hs, -, hpos⟩ := Balanced.copy_slot hk (List.mem_append_left _ hc)
  exact ⟨s, hs, hpos⟩

theorem discount_last (hk : h.Kept blanks (c :: loose)) (hc : h.copiesAt c.ref = 1) :
    (h.discount c.ref).Kept (c.ref :: blanks) loose := by
  obtain ⟨s, hs, hpos⟩ := hk.copy_slot List.mem_cons_self
  refine (Balanced.discount_last hk hc).perm (List.Perm.refl _) (List.Perm.append_left _ ?_)
  rw [discount_eq hs hpos]
  exact (chained_modifySlot hs rfl).symm

theorem discount (hk : h.Kept blanks (c :: loose)) (hc : h.copiesAt c.ref ≠ 1) :
    (h.discount c.ref).Kept blanks loose := by
  obtain ⟨s, hs, hpos⟩ := hk.copy_slot List.mem_cons_self
  refine (Balanced.discount hk hc).perm (List.Perm.refl _) (List.Perm.append_left _ ?_)
  rw [discount_eq hs hpos]
  exact (chained_modifySlot hs rfl).symm

theorem putBack (hk : h.Kept (r :: blanks) loose) (unchained : h.chainedAt r = none) :
    (h.putBack r).Kept blanks loose :=
  (Balanced.putBack hk unchained).perm (List.Perm.refl _)
    (List.Perm.append_left _ (chained_putBack h r).symm)

theorem unchain (hk : h.Kept blanks loose) (hr : r ∈ blanks) (hc : h.chainedAt r = some c) :
    (h.unchain r).Kept blanks (c :: loose) := by
  obtain ⟨s, hs, hchained⟩ := exists_slot_of_chainedAt hc
  have kept : (h.unchain r).Balanced blanks (loose ++ h.chained) :=
    Balanced.modifyBlank hk hr fun _ => rfl
  exact kept.perm (List.Perm.refl _)
    (((chained_unchain hs hchained).append_left loose).trans List.perm_middle)

theorem recycleWith {fuel : Nat} (enough : h.countedSlots < fuel) (hk : h.Kept (r :: blanks) loose) :
    (recycleWith fuel h r).Kept blanks loose ∧
      ∀ q, h.chainedAt q = none → (Hub.recycleWith fuel h r).chainedAt q = none := by
  induction fuel generalizing h r blanks loose with
  | zero => omega
  | succ fuel ih =>
    rw [Hub.recycleWith]
    split
    · rename_i unchained
      exact ⟨hk.putBack unchained, fun q hq => by rwa [chainedAt_putBack]⟩
    · rename_i c hc
      dsimp only
      have free := hk.unchain List.mem_cons_self hc
      obtain ⟨s, hs, hpos⟩ := free.copy_slot List.mem_cons_self
      have unchained : ∀ q, h.chainedAt q = none ∨ q = r →
          ((h.unchain r).discount c.ref).chainedAt q = none := by
        intro q hq
        rw [chainedAt_discount, chainedAt_unchain]
        split
        · rfl
        · rename_i hne
          exact hq.resolve_right hne
      split
      · rename_i last
        have one : s.copies = 1 := by rw [← copiesAt_eq hs, last]
        obtain ⟨t, ht, -⟩ := exists_slot_of_chainedAt hc
        have less : ((h.unchain r).discount c.ref).countedSlots < fuel := by
          have step := countedSlots_discount_last hs one
          have same : (h.unchain r).countedSlots = h.countedSlots :=
            countedSlots_modifySlot ht rfl
          omega
        obtain ⟨kept, still⟩ := ih less (free.discount_last last)
        exact ⟨kept.putBack (still r (unchained r (.inr rfl))),
          fun q hq => by rw [chainedAt_putBack]; exact still q (unchained q (.inl hq))⟩
      · rename_i several
        exact ⟨(free.discount several).putBack (unchained r (.inr rfl)),
          fun q hq => by rw [chainedAt_putBack]; exact unchained q (.inl hq)⟩

theorem recycle (hk : h.Kept (r :: blanks) loose) : (h.recycle r).Kept blanks loose := by
  obtain ⟨s, hs, zero⟩ := Balanced.blank_slot hk List.mem_cons_self
  exact (recycleWith (countedSlots_lt hs zero) hk).1

theorem giveUp (hk : h.Kept blanks (c :: loose)) : (h.giveUp c).Kept blanks loose := by
  rw [Hub.giveUp]
  split
  · rename_i last
    exact (hk.discount_last last).recycle
  · rename_i several
    exact hk.discount several

theorem giveUpAll {cs : List Copy} (hk : h.Kept blanks (cs ++ loose)) :
    (h.giveUpAll cs).Kept blanks loose := by
  induction cs generalizing h with
  | nil => exact hk
  | cons c cs ih => exact ih (giveUp hk)

end Kept

end BufferFlow.Hub
