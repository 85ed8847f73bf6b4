import BufferFlow.Proofs.Hub.Chaining

set_option autoImplicit false

namespace BufferFlow

def Move.back? : Move → Option SlotRef
  | returned r => some r
  | released _ | unchained .. => none

/-- A pool of which so many slots were taken and so many came back. -/
structure Pool.Turnover (p : Pool) (taken back : Nat) : Prop where
  free : p.free.length + taken = p.slots.size + back
  acquires : p.acquires = .ofNat taken
  recycles : p.recycles = .ofNat back

namespace Pool.Turnover

variable {p : Pool} {taken back : Nat}

theorem untouched {capacity : Nat} {factory : Payload.Factory}
    (new : p.Untouched capacity factory) : p.Turnover 0 0 := by
  refine ⟨?_, new.acquires, new.recycles⟩
  rw [new.free, List.length_range, new.size]

theorem modifySlot (t : p.Turnover taken back) (slot : Nat) (f : BufferSlot → BufferSlot) :
    (p.modifySlot slot f).Turnover taken back := by
  refine ⟨?_, t.acquires, t.recycles⟩
  rw [Pool.modifySlot, Array.size_modify]
  exact t.free

theorem discount (t : p.Turnover taken back) (slot : Nat) :
    (p.discount slot).Turnover taken back := by
  refine modifySlot ?_ slot _
  rw [Pool.expect]
  split <;> exact ⟨t.free, t.acquires, t.recycles⟩

theorem put (t : p.Turnover taken back) (slot : Nat) : (p.put slot).Turnover taken (back + 1) := by
  refine ⟨?_, ?_, ?_⟩
  · rw [Hub.put_slots]
    exact (Nat.add_right_comm _ _ _).trans (congrArg (· + 1) t.free)
  · refine Eq.trans ?_ t.acquires
    simp only [Pool.put, Pool.expect]
    split <;> rfl
  · refine Eq.trans ?_ (UInt64.ofNat_add back 1).symm
    rw [← t.recycles]
    rfl

theorem take (t : p.Turnover taken back) {slot : Nat} {free : List Nat}
    (top : p.free = slot :: free) :
    Turnover { p with free, acquires := p.acquires + 1 } (taken + 1) back := by
  have stacked := t.free
  rw [top, List.length_cons] at stacked
  refine ⟨?_, ?_, t.recycles⟩
  · change free.length + (taken + 1) = p.slots.size + back
    omega
  · change p.acquires + 1 = _
    rw [t.acquires]
    exact (UInt64.ofNat_add taken 1).symm

end Pool.Turnover

namespace Hub

variable {h h' : Hub} {op : Operation} {ops : List Operation} {q r : SlotRef} {ms : List Move}
  {T B : List SlotRef}

def taken? (h : Hub) : Operation → Option SlotRef
  | .acquire pool => (h.acquire? pool).map (·.1)
  | _ => none

def takings (h : Hub) : List Operation → List SlotRef
  | [] => []
  | op :: ops => (h.taken? op).toList ++ (h.apply op).takings ops

def putBacks (h : Hub) (ops : List Operation) : List SlotRef := (h.trace ops).filterMap Move.back?

theorem putBacks_cons (h : Hub) (op : Operation) (ops : List Operation) :
    h.putBacks (op :: ops) = (h.moves op).filterMap Move.back? ++ (h.apply op).putBacks ops :=
  List.filterMap_append

theorem takings_append (h : Hub) (a b : List Operation) :
    h.takings (a ++ b) = h.takings a ++ (h.applyAll a).takings b :=
  append_of_cons (fun _ => rfl) (fun _ _ _ => rfl) h a b

theorem pool_of_taken? (taken : h.taken? op = some r) : op = .acquire r.pool := by
  cases op with
  | acquire pool =>
    obtain ⟨⟨r', h'⟩, acquired, rfl⟩ := Option.map_eq_some_iff.1 taken
    obtain ⟨p, free, -, -, same, -⟩ := acquire?_eq_some acquired
    exact congrArg Operation.acquire same.symm
  | _ => cases taken

def takenFrom (h : Hub) (pool : Nat) (ops : List Operation) : Nat :=
  ((h.takings ops).map (·.pool)).count pool

def backTo (h : Hub) (pool : Nat) (ops : List Operation) : Nat :=
  ((h.putBacks ops).map (·.pool)).count pool

theorem takenFrom_append (h : Hub) (pool : Nat) (a b : List Operation) :
    h.takenFrom pool (a ++ b) = h.takenFrom pool a + (h.applyAll a).takenFrom pool b := by
  rw [takenFrom, takings_append, List.map_append, List.count_append]
  rfl

theorem takenFrom_quiet {pool : Nat} (h : Hub) (quiet : ∀ op ∈ ops, op ≠ .acquire pool) :
    h.takenFrom pool ops = 0 := by
  induction ops generalizing h with
  | nil => rfl
  | cons op ops ih =>
    have rest := ih (h.apply op) fun op hop => quiet op (List.mem_cons_of_mem _ hop)
    rw [takenFrom, takings, List.map_append, List.count_append, ← takenFrom, rest]
    cases taken : h.taken? op with
    | none => rfl
    | some r =>
      have other : r.pool ≠ pool := fun here =>
        quiet op List.mem_cons_self (here ▸ pool_of_taken? taken)
      simp [other]

theorem takenFrom_acquire {pool : Nat} (acquired : h.acquire? pool = some (r, h')) :
    h.takenFrom pool [.acquire pool] = 1 := by
  obtain ⟨p, free, -, -, same, -⟩ := acquire?_eq_some acquired
  simp [takenFrom, takings, taken?, acquired, same]

theorem isSome_of_copiesAt (counted : h.copiesAt r = 1) : (h.slot? r).isSome := by
  rw [copiesAt] at counted
  cases hs : h.slot? r with
  | none => simp [hs] at counted
  | some s => rfl

theorem contains_of_isSome (present : (h.slot? r).isSome) : h.pools.contains r.pool := by
  obtain ⟨s, hs⟩ := Option.isSome_iff_exists.1 present
  obtain ⟨p, hp, -⟩ := slot?_eq_some.1 hs
  rw [Table.contains, hp]
  rfl

theorem present_recycleMovesWith {fuel : Nat} (present : (h.slot? q).isSome)
    (returned : .returned r ∈ recycleMovesWith fuel h q) : (h.slot? r).isSome := by
  induction fuel generalizing h q with
  | zero => exact absurd returned List.not_mem_nil
  | succ fuel ih =>
    have last : .returned r ∈ [Move.returned q] → (h.slot? r).isSome := fun here =>
      Move.returned.inj (List.mem_singleton.1 here) ▸ present
    rw [recycleMovesWith] at returned
    split at returned
    · exact last returned
    · rename_i c _
      have kept : ∀ s, (((h.unchain q).discount c.ref).slot? s).isSome = (h.slot? s).isSome :=
        slot?_perform_isSome h (.unchained q c)
      rcases List.mem_append.1 returned with inner | outer
      · rcases List.mem_cons.1 inner with here | inner
        · cases here
        · split at inner
          · rename_i one
            rw [copiesAt_unchain] at one
            exact kept r ▸ ih (kept c.ref ▸ isSome_of_copiesAt one) inner
          · exact absurd inner List.not_mem_nil
      · exact last outer

theorem present_giveUpAllMoves {cs : List Copy} (returned : .returned r ∈ h.giveUpAllMoves cs) :
    (h.slot? r).isSome := by
  induction cs generalizing h with
  | nil => exact absurd returned List.not_mem_nil
  | cons c cs ih =>
    rcases List.mem_append.1 returned with here | later
    · rcases List.mem_cons.1 here with first | here
      · cases first
      · split at here
        · rename_i one
          have kept : ∀ s, ((h.discount c.ref).slot? s).isSome = (h.slot? s).isSome :=
            slot?_perform_isSome h (.released c)
          exact kept r ▸ present_recycleMovesWith (kept c.ref ▸ isSome_of_copiesAt one) here
        · exact absurd here List.not_mem_nil
    · have there := ih later
      rwa [giveUp_eq, slot?_performAll_isSome] at there

theorem present_moves (ha : h.Accounted) (returned : .returned r ∈ h.moves op) :
    ((h.prepared op).slot? r).isSome := by
  have recycled : ∀ {g : Hub} {blank : SlotRef}, g.pools = h.pools → blank ∈ h.blanks →
      .returned r ∈ g.recycleMoves blank → (g.slot? r).isSome := by
    intro g blank same owned member
    obtain ⟨s, hs, -⟩ := Balanced.blank_slot ha owned
    refine present_recycleMovesWith ?_ member
    rw [slot?, same, ← slot?, hs]
    rfl
  cases op with
  | chain | release =>
    simp only [moves, prepared, settling] at returned ⊢
    split at returned
    · rename_i inHand
      rw [if_pos inHand]
      exact present_giveUpAllMoves returned
    · exact absurd returned List.not_mem_nil
  | publish | dropBlank =>
    simp only [moves, prepared, settling] at returned ⊢
    split at returned
    · rename_i owned
      rw [if_pos owned]
      exact recycled rfl (by first | exact owned.1 | exact owned) returned
    · exact absurd returned List.not_mem_nil
  | dropCell | dropSubscription =>
    simp only [moves, prepared, settling] at returned ⊢
    exact present_giveUpAllMoves returned
  | _ => exact absurd returned List.not_mem_nil

/-- What becomes of the pools: one slot more or less changes, a pool is new, or a blank is taken. -/
inductive Draws (h : Hub) (op : Operation) : Prop
  | nothing (taken : h.taken? op = none) (pools : (h.prepared op).pools = h.pools)
  | slot (r : SlotRef) (f : BufferSlot → BufferSlot) (taken : h.taken? op = none)
      (pools : (h.prepared op).pools = (h.modifySlot r f).pools)
  | pool {capacity : Nat} {factory : Payload.Factory} {p : Pool} (new : p.Untouched capacity factory)
      (taken : h.taken? op = none) (pools : (h.prepared op).pools = (h.pools.insert p).2)
  | blank {pool : Nat} {r : SlotRef} {h' : Hub} (acquired : h.acquire? pool = some (r, h'))
      (taken : h.taken? op = some r) (pools : (h.prepared op).pools = h'.pools)

theorem draws (h : Hub) (op : Operation) : h.Draws op := by
  cases op with
  | newPool name capacity factory =>
    cases made : Pool.new name capacity factory with
    | error failure =>
      refine .nothing rfl ?_
      simp only [prepared, settling, apply, newPool, made, bind, Except.bind]
    | ok p =>
      refine .pool (Pool.new_untouched made) rfl ?_
      simp only [prepared, settling, apply, newPool, made, bind, Except.bind]
      rfl
  | acquire pool =>
    cases acquired : h.acquire? pool with
    | none =>
      refine .nothing (by rw [taken?, acquired]; rfl) ?_
      simp only [prepared, settling, apply, acquired]
    | some found =>
      refine .blank acquired (by rw [taken?, acquired]; rfl) ?_
      simp only [prepared, settling, apply, acquired]
  | write blank payload =>
    by_cases owned : blank ∈ h.blanks
    · exact .slot blank _ rfl (congrArg pools (if_pos owned))
    · exact .nothing rfl (congrArg pools (if_neg owned))
  | chain blank upstream =>
    by_cases both : blank ∈ h.blanks ∧ upstream ∈ h.held
    · refine .slot blank ({ · with chained := some { upstream with erased := true } }) rfl ?_
      rw [prepared, settling, if_pos both]
      rfl
    · refine .nothing rfl ?_
      rw [prepared, settling, if_neg both]
  | publish p blank =>
    rcases publish_cases h p blank with
      ⟨unowned, same⟩ | ⟨owned, -, ⟨nobody, -⟩ | ⟨somebody, same⟩⟩
    · refine .nothing rfl ?_
      rw [prepared, settling, if_neg fun both => unowned both.1, same]
    · refine .nothing rfl ?_
      rw [prepared, settling, if_pos ⟨owned, nobody⟩]
      rfl
    · refine .slot blank (fun s => { s with copies := s.copies + (h.receivers p).length }) rfl ?_
      rw [prepared, settling, if_neg fun both => somebody both.2, same]
      exact (SameStock.pushAll _ blank h.serial _).pools
  | dropBlank blank =>
    refine .nothing rfl ?_
    rw [prepared, settling]
    split <;> rfl
  | release c =>
    refine .nothing rfl ?_
    rw [prepared, settling]
    split <;> rfl
  | erase c =>
    refine .nothing rfl ?_
    simp only [prepared, settling, apply, erase]
    split <;> rfl
  | arm s mailbox =>
    refine .nothing rfl ?_
    simp only [prepared, settling, apply]
    split
    · exact (SameStock.arm h s mailbox).pools
    · rfl
  | wait mailbox =>
    obtain ⟨counters, same⟩ := wait_cases h mailbox
    have pools : (h.apply (.wait mailbox)).pools = h.pools := by rw [same]
    exact .nothing rfl pools
  | pull s => exact .nothing rfl (SameStock.pull h s).pools
  | cancel s => exact .nothing rfl (SameStock.cancel h s).pools
  | takeCell cell => exact .nothing rfl (SameStock.takeCell h cell).pools
  | subscribe p erased => exact .nothing rfl (SameStock.subscribe h p erased).pools
  | dropSubscription s => exact .nothing rfl (SameStock.detach h s).pools
  | dropPublisher p => exact .nothing rfl (SameStock.dropPublisher h p).pools
  | newPublisher | newMailbox | subscribeDetached | dropCell | tally => exact .nothing rfl rfl

def capacityOf? (h : Hub) (pool : Nat) : Option Nat := (h.pools.get? pool).map (·.slots.size)

theorem capacityOf?_modifyPool {pool : Nat} {f : Pool → Pool}
    (kept : ∀ p, h.pools.get? pool = some p → (f p).slots.size = p.slots.size) (id : Nat) :
    (h.modifyPool pool f).capacityOf? id = h.capacityOf? id := by
  rw [capacityOf?, modifyPool, Table.get?_modify, capacityOf?]
  split
  · rename_i here
    rw [Option.map_map, here]
    exact Option.map_congr kept
  · rfl

theorem capacityOf?_modifySlot (r : SlotRef) (f : BufferSlot → BufferSlot) (id : Nat) :
    (h.modifySlot r f).capacityOf? id = h.capacityOf? id :=
  capacityOf?_modifyPool (fun _ _ => Array.size_modify) id

theorem capacityOf?_perform (h : Hub) (m : Move) (id : Nat) :
    (h.perform m).capacityOf? id = h.capacityOf? id := by
  have expected : ∀ (p : Pool) holds misuse, (p.expect holds misuse).slots = p.slots := by
    intro p holds misuse
    rw [Pool.expect]
    split <;> rfl
  have discounted : ∀ (g : Hub) (q : SlotRef), (g.discount q).capacityOf? id = g.capacityOf? id :=
    fun g q => capacityOf?_modifyPool
      (fun p _ => Array.size_modify.trans (congrArg Array.size (expected p _ _))) id
  cases m with
  | released c => exact discounted h c.ref
  | unchained q c => exact (discounted _ c.ref).trans (capacityOf?_modifySlot q _ id)
  | returned r =>
    exact capacityOf?_modifyPool (f := (·.put r.slot))
      (fun p _ => congrArg Array.size (expected p _ .overRecycled)) id

theorem capacityOf?_performAll (h : Hub) (ms : List Move) (id : Nat) :
    (h.performAll ms).capacityOf? id = h.capacityOf? id := by
  induction ms generalizing h with
  | nil => rfl
  | cons m ms ih => exact (ih (h.perform m)).trans (capacityOf?_perform h m id)

theorem capacityOf?_apply {id n : Nat} (sized : h.capacityOf? id = some n) (op : Operation) :
    (h.apply op).capacityOf? id = some n := by
  have same : ∀ {g g' : Hub}, g'.pools = g.pools → g'.capacityOf? id = g.capacityOf? id :=
    fun pools => by rw [capacityOf?, pools, ← capacityOf?]
  rw [same (pools_apply h op), capacityOf?_performAll]
  cases h.draws op with
  | nothing _ pools => exact (same pools).trans sized
  | slot r f _ pools => exact (same pools).trans ((capacityOf?_modifySlot r f id).trans sized)
  | @pool _ _ p _ _ pools =>
    obtain ⟨p', found, -⟩ := Option.map_eq_some_iff.1 sized
    have older : id ≠ h.pools.next := Nat.ne_of_lt (Table.get?_lt found)
    rw [capacityOf?, pools, Table.get?_insert, if_neg older]
    exact sized
  | blank acquired _ pools =>
    obtain ⟨p, free, found, -, rfl, rfl⟩ := acquire?_eq_some acquired
    refine (same pools).trans ((capacityOf?_modifyPool (fun q hq => ?_) id).trans sized)
    rw [Option.some.inj (found.symm.trans hq)]

theorem capacityOf?_applyAll {id n : Nat} (sized : h.capacityOf? id = some n) (ops : List Operation) :
    (h.applyAll ops).capacityOf? id = some n := by
  induction ops generalizing h with
  | nil => exact sized
  | cons op ops ih => exact ih (capacityOf?_apply sized op)

/-- The slots that were taken and those that came back, as each pool shows them. No pool that was ever
made is missing. -/
structure Ledger (h : Hub) (T B : List SlotRef) : Prop where
  lasting : ∀ id < h.pools.next, h.pools.contains id
  known : ∀ r ∈ T ++ B, h.pools.contains r.pool
  each : ∀ id p, h.pools.get? id = some p →
    p.Turnover ((T.map (·.pool)).count id) ((B.map (·.pool)).count id)

namespace Ledger

theorem empty : ({} : Hub).Ledger [] [] :=
  ⟨fun _ => nofun, fun _ => nofun, fun _ _ found => by simp at found⟩

theorem congr (l : h.Ledger T B) (same : h'.pools = h.pools) : h'.Ledger T B :=
  ⟨same ▸ l.lasting, same ▸ l.known, same ▸ l.each⟩

theorem modifyPool_append (l : h.Ledger T B) {pool : Nat} {f : Pool → Pool} {T' B' : List SlotRef}
    (present : ∀ r ∈ T' ++ B', r.pool = pool ∧ h.pools.contains pool)
    (kept : ∀ p taken back, h.pools.get? pool = some p → p.Turnover taken back →
      (f p).Turnover (taken + T'.length) (back + B'.length)) :
    (h.modifyPool pool f).Ledger (T ++ T') (B ++ B') := by
  have counted : ∀ (L L' : List SlotRef), (∀ r ∈ L', r ∈ T' ++ B') → ∀ id,
      ((L ++ L').map (·.pool)).count id =
        (L.map (·.pool)).count id + if id = pool then L'.length else 0 := by
    intro L L' new id
    have same : L'.map (·.pool) = List.replicate L'.length pool :=
      List.map_eq_replicate_iff.2 fun r member => (present r (new r member)).1
    rw [List.map_append, List.count_append, same, List.count_replicate]
    simp only [beq_iff_eq, @eq_comm _ id]
  refine ⟨fun id old => ?_, fun r member => ?_, fun id p found => ?_⟩
  · exact (Table.contains_modify h.pools pool f id).trans (l.lasting id old)
  · refine (Table.contains_modify h.pools pool f r.pool).trans ?_
    have either : r ∈ T ++ B ∨ r ∈ T' ++ B' := by
      simp only [List.mem_append] at member ⊢
      grind
    rcases either with old | new
    · exact l.known r old
    · obtain ⟨here, there⟩ := present r new
      exact here ▸ there
  · change (h.pools.modify pool f).get? id = some p at found
    rw [Table.get?_modify] at found
    rw [counted T T' fun r => List.mem_append_left B', counted B B' fun r => List.mem_append_right T']
    split at found
    · rename_i here
      obtain ⟨p, hp, rfl⟩ := Option.map_eq_some_iff.1 found
      rw [if_pos here, if_pos here]
      exact kept p _ _ (here ▸ hp) (l.each id p hp)
    · rename_i other
      rw [if_neg other, if_neg other]
      exact l.each id p found

theorem modifyPool (l : h.Ledger T B) {pool : Nat} {f : Pool → Pool}
    (kept : ∀ p taken back, h.pools.get? pool = some p → p.Turnover taken back →
      (f p).Turnover taken back) : (h.modifyPool pool f).Ledger T B := by
  have all : (h.modifyPool pool f).Ledger (T ++ []) (B ++ []) :=
    l.modifyPool_append (fun _ => nofun) kept
  rwa [List.append_nil, List.append_nil] at all

theorem modifySlot (l : h.Ledger T B) (r : SlotRef) (f : BufferSlot → BufferSlot) :
    (h.modifySlot r f).Ledger T B :=
  l.modifyPool fun _ _ _ _ t => t.modifySlot r.slot f

theorem count_absent (l : h.Ledger T B) {pool : Nat} (absent : h.pools.get? pool = none) :
    (T.map (·.pool)).count pool = 0 ∧ (B.map (·.pool)).count pool = 0 := by
  have none_of : ∀ {L : List SlotRef}, (∀ r ∈ L, r ∈ T ++ B) → (L.map (·.pool)).count pool = 0 :=
    fun member => List.count_eq_zero.2 fun there => by
      obtain ⟨r, hr, rfl⟩ := List.mem_map.1 there
      have known := l.known r (member r hr)
      rw [Table.contains, absent] at known
      exact Bool.noConfusion known
  exact ⟨none_of fun r => List.mem_append_left B, none_of fun r => List.mem_append_right T⟩

theorem newPool (l : h.Ledger T B) {capacity : Nat} {factory : Payload.Factory} {p : Pool}
    (new : p.Untouched capacity factory) (pools : h'.pools = (h.pools.insert p).2) :
    h'.Ledger T B := by
  have older : ∀ r ∈ T ++ B, r.pool ≠ h.pools.next := by
    intro r member here
    obtain ⟨p, hp⟩ := Option.isSome_iff_exists.1 (l.known r member)
    exact Nat.lt_irrefl _ (here ▸ Table.get?_lt hp)
  refine ⟨fun id old => ?_, fun r member => ?_, fun id p found => ?_⟩ <;> rw [pools] at *
  · rw [Table.contains, Table.get?_insert]
    split
    · rfl
    · rename_i other
      exact l.lasting id (Nat.lt_of_le_of_ne (Nat.le_of_lt_succ old) other)
  · rw [Table.contains, Table.get?_insert, if_neg (older r member)]
    exact l.known r member
  · rw [Table.get?_insert] at found
    split at found
    · rename_i here
      obtain rfl := Option.some.inj found
      obtain ⟨untaken, none_back⟩ := l.count_absent (Table.get?_of_le (Nat.le_refl h.pools.next))
      rw [here, untaken, none_back]
      exact .untouched new
    · exact l.each id p found

theorem acquire (l : h.Ledger T B) {pool : Nat} (acquired : h.acquire? pool = some (r, h')) :
    h'.Ledger (T ++ [r]) B := by
  obtain ⟨p, free, hp, top, rfl, rfl⟩ := acquire?_eq_some acquired
  have there : h.pools.contains r.pool := by
    rw [Table.contains, hp]
    rfl
  have all : (h.modifyPool r.pool fun _ => { p with free, acquires := p.acquires + 1 }).Ledger
      (T ++ [r]) (B ++ []) :=
    l.modifyPool_append (fun q member => ⟨congrArg SlotRef.pool (List.mem_singleton.1 member), there⟩)
      fun q _ _ hq t => (Option.some.inj (hp.symm.trans hq) ▸ t).take top
  rw [List.append_nil] at all
  exact all.congr rfl

theorem putBack (l : h.Ledger T B) (present : h.pools.contains r.pool) :
    (h.putBack r).Ledger T (B ++ [r]) := by
  have all : (h.modifyPool r.pool (·.put r.slot)).Ledger (T ++ []) (B ++ [r]) :=
    l.modifyPool_append (fun q member => ⟨congrArg SlotRef.pool (List.mem_singleton.1 member), present⟩)
      fun _ _ _ _ t => t.put r.slot
  rw [List.append_nil] at all
  exact all.congr rfl

theorem perform (l : h.Ledger T B) (m : Move)
    (present : ∀ r, m = .returned r → h.pools.contains r.pool) :
    (h.perform m).Ledger T (B ++ m.back?.toList) := by
  have discounted : ∀ {g : Hub} (q : SlotRef), g.Ledger T B →
      (g.discount q).Ledger T (B ++ []) := fun q lg =>
    (List.append_nil B).symm ▸ lg.modifyPool fun _ _ _ _ t => t.discount q.slot
  cases m with
  | released c => exact discounted c.ref l
  | unchained q c => exact discounted c.ref (l.modifySlot q _)
  | returned r => exact l.putBack (present r rfl)

theorem performAll (l : h.Ledger T B)
    (present : ∀ r, .returned r ∈ ms → (h.slot? r).isSome) :
    (h.performAll ms).Ledger T (B ++ ms.filterMap Move.back?) := by
  induction ms generalizing h B with
  | nil => exact (List.append_nil B).symm ▸ l
  | cons m ms ih =>
    have first := l.perform m fun r here => contains_of_isSome (present r (by simp [here]))
    have rest := ih first fun r member => by
      rw [slot?_perform_isSome]
      exact present r (List.mem_cons_of_mem m member)
    rw [List.append_assoc] at rest
    have split : (m :: ms).filterMap Move.back? = m.back?.toList ++ ms.filterMap Move.back? := by
      rw [List.filterMap_cons]
      cases m.back? <;> rfl
    rwa [split]

theorem prepared (l : h.Ledger T B) (op : Operation) :
    (h.prepared op).Ledger (T ++ (h.taken? op).toList) B := by
  have still : ∀ {g : Hub}, g.Ledger T B → g.Ledger (T ++ []) B := fun lg =>
    (List.append_nil T).symm ▸ lg
  cases h.draws op with
  | nothing taken pools =>
    rw [taken]
    exact still (l.congr pools)
  | slot r f taken pools =>
    rw [taken]
    exact still ((l.modifySlot r f).congr pools)
  | pool new taken pools =>
    rw [taken]
    exact still (l.newPool new pools)
  | blank acquired taken pools =>
    rw [taken]
    exact (l.acquire acquired).congr pools

theorem apply (l : h.Ledger T B) (ha : h.Accounted) (op : Operation) :
    (h.apply op).Ledger (T ++ (h.taken? op).toList) (B ++ (h.moves op).filterMap Move.back?) :=
  ((l.prepared op).performAll fun _ => present_moves ha).congr (pools_apply h op)

theorem applyAll (l : h.Ledger T B) (sound : h.Sound) (ops : List Operation) :
    (h.applyAll ops).Ledger (T ++ h.takings ops) (B ++ h.putBacks ops) := by
  induction ops generalizing h T B with
  | nil => exact (List.append_nil T).symm ▸ (List.append_nil B).symm ▸ l
  | cons op ops ih =>
    rw [takings, putBacks_cons, ← List.append_assoc, ← List.append_assoc]
    exact ih (l.apply sound.accounted op) (sound.apply op)

theorem free_of_fresh (l : h.Ledger T B) (sound : h.Sound) {pool capacity : Nat} {p : Pool}
    (untaken : (T.map (·.pool)).count pool = 0) (nothing : (B.map (·.pool)).count pool = 0)
    (sized : h.capacityOf? pool = some capacity) (ops : List Operation)
    (found : (h.applyAll ops).pools.get? pool = some p) :
    p.free.length + h.takenFrom pool ops = capacity + h.backTo pool ops := by
  have turnover := ((l.applyAll sound ops).each pool p found).free
  have size := capacityOf?_applyAll sized ops
  rw [capacityOf?, found] at size
  obtain rfl : p.slots.size = capacity := Option.some.inj size
  rw [List.map_append, List.count_append, untaken, List.map_append, List.count_append, nothing,
    Nat.zero_add, Nat.zero_add] at turnover
  exact turnover

end Ledger

end Hub

end BufferFlow
