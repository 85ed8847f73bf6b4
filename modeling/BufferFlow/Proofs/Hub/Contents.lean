import BufferFlow.Hub.Publication
import BufferFlow.Proofs.Hub.Accounting

set_option autoImplicit false

namespace BufferFlow

namespace Hub

variable {h h' : Hub} {r : SlotRef} {c : Copy}

/-! ## Recycling shows nothing new -/

/-- Payloads stay, and nothing is chained that was not. -/
structure Fades (h h' : Hub) : Prop where
  payload : ∀ q, h'.payload? q = h.payload? q
  chained : ∀ q c, h'.chainedAt q = some c → h.chainedAt q = some c

namespace Fades

theorem refl (h : Hub) : Fades h h := ⟨fun _ => rfl, fun _ _ => id⟩

theorem trans {h₁ h₂ h₃ : Hub} (a : Fades h₁ h₂) (b : Fades h₂ h₃) : Fades h₁ h₃ :=
  ⟨fun q => (b.payload q).trans (a.payload q), fun q c hc => a.chained q c (b.chained q c hc)⟩

theorem ofSlots {f : BufferSlot → BufferSlot}
    (slots : ∀ q, h'.slot? q = if q = r then (h.slot? q).map f else h.slot? q)
    (payload : ∀ s, (f s).payload = s.payload)
    (chained : ∀ s c, (f s).chained = some c → s.chained = some c) : Fades h h' := by
  refine ⟨fun q => ?_, fun q c hc => ?_⟩
  · rw [payload?, slots, payload?]
    split
    · cases h.slot? q with
      | none => rfl
      | some s => exact congrArg some (payload s)
    · rfl
  · rw [chainedAt, slots] at hc
    rw [chainedAt]
    split at hc
    · cases hs : h.slot? q with
      | none => simp [hs] at hc
      | some s =>
        rw [hs] at hc
        exact chained s c hc
    · exact hc

theorem putBack (h : Hub) (r : SlotRef) : Fades h (h.putBack r) :=
  ⟨fun q => by rw [payload?, slot?_putBack, payload?], fun q c hc => by rwa [chainedAt_putBack] at hc⟩

theorem discount (h : Hub) (r : SlotRef) : Fades h (h.discount r) :=
  ofSlots (slot?_discount h r) (fun _ => rfl) fun _ _ => id

theorem unchain (h : Hub) (r : SlotRef) : Fades h (h.unchain r) :=
  ofSlots (slot?_unchain h r) (fun _ => rfl) fun _ _ hc => by simp at hc

theorem recycleWith (fuel : Nat) (h : Hub) (r : SlotRef) : Fades h (recycleWith fuel h r) := by
  induction fuel generalizing h r with
  | zero => exact refl h
  | succ fuel ih =>
    rw [Hub.recycleWith]
    split
    · exact putBack h r
    · rename_i c _
      have discounted := (unchain h r).trans (discount (h.unchain r) c.ref)
      dsimp only
      split
      · exact (discounted.trans (ih _ _)).trans (putBack _ _)
      · exact discounted.trans (putBack _ _)

theorem recycle (h : Hub) (r : SlotRef) : Fades h (h.recycle r) := recycleWith _ h r

theorem giveUp (h : Hub) (c : Copy) : Fades h (h.giveUp c) := by
  rw [Hub.giveUp]
  split
  · exact (discount h c.ref).trans (recycle _ _)
  · exact discount h c.ref

theorem giveUpAll (h : Hub) (cs : List Copy) : Fades h (h.giveUpAll cs) := by
  induction cs generalizing h with
  | nil => exact refl h
  | cons c cs ih => exact (giveUp h c).trans (ih _)

end Fades

/-! ## Where copies come from -/

theorem mem_allSlots {s : BufferSlot} : s ∈ h.allSlots ↔ ∃ r, h.slot? r = some s := by
  simp only [allSlots, List.mem_flatMap, Table.mem_values, slot?_eq_some, Array.mem_toList_iff,
    Array.mem_iff_getElem?]
  constructor
  · rintro ⟨p, ⟨id, hp⟩, i, hi⟩
    exact ⟨⟨id, i⟩, p, hp, hi⟩
  · rintro ⟨r, p, hp, hi⟩
    exact ⟨p, ⟨r.pool, hp⟩, r.slot, hi⟩

theorem mem_chained : c ∈ h.chained ↔ ∃ r, h.chainedAt r = some c := by
  simp only [chained, List.mem_filterMap, mem_allSlots, chainedAt, Option.bind_eq_some_iff]
  constructor
  · rintro ⟨s, ⟨r, hs⟩, hc⟩
    exact ⟨r, s, hs, hc⟩
  · rintro ⟨r, s, hs, hc⟩
    exact ⟨s, ⟨r, hs⟩, hc⟩

/-- Up to their kind all copies were there before. -/
def Inherits (h h' : Hub) : Prop :=
  ∀ c ∈ h'.copies, ∃ d ∈ h.copies, d.ref = c.ref ∧ d.serial = c.serial

namespace Inherits

theorem trans {h₁ h₂ h₃ : Hub} (a : Inherits h₁ h₂) (b : Inherits h₂ h₃) : Inherits h₁ h₃ := by
  intro c hc
  obtain ⟨d, hd, ref, serial⟩ := b c hc
  obtain ⟨e, he, ref', serial'⟩ := a d hd
  exact ⟨e, he, ref'.trans ref, serial'.trans serial⟩

theorem ofSubset (sub : ∀ c ∈ h'.copies, c ∈ h.copies) : Inherits h h' :=
  fun c hc => ⟨c, sub c hc, rfl, rfl⟩

theorem ofFades (peers : SamePeers h h') (fades : Fades h h') : Inherits h h' := by
  refine ofSubset fun c hc => ?_
  rcases List.mem_append.1 hc with hc | hc
  · rw [peers.loose] at hc
    exact List.mem_append_left _ hc
  · obtain ⟨r, hr⟩ := mem_chained.1 hc
    exact List.mem_append_right _ (mem_chained.2 ⟨r, fades.chained r c hr⟩)

theorem giveUp (h : Hub) (c : Copy) : Inherits h (h.giveUp c) :=
  ofFades (.giveUp h c) (.giveUp h c)

theorem ofPerm (pools : h'.pools = h.pools) (loose : h'.loose.Perm h.loose) : Inherits h h' := by
  refine ofSubset fun c hc => ?_
  have chained : h'.chained = h.chained := by simp only [chained, allSlots, pools]
  rw [copies, chained] at hc
  exact (loose.append_right _).mem_iff.1 hc

end Inherits

/-! ## Payloads through an operation -/

theorem Fades.ofPools (same : h'.pools = h.pools) : Fades h h' := by
  refine ⟨fun q => ?_, fun q c => ?_⟩
  · rw [payload?, slot?, same, payload?, slot?]
  · rw [chainedAt, slot?, same, chainedAt, slot?]
    exact id

theorem SameStock.pushAll (h : Hub) (r : SlotRef) (serial : Nat) (l : List Nat) :
    SameStock h (h.pushAll r serial l) := by
  induction l generalizing h with
  | nil => exact ⟨rfl, rfl, rfl⟩
  | cons s l ih => exact (SameStock.push h r serial s).trans (ih _)

end Hub

/-- Whether the operation adds slots or changes what one shows or holds. -/
def Operation.AltersSlots : Operation → Prop
  | newPool .. | write .. | chain .. => True
  | _ => False

namespace Hub

variable {h h' : Hub} {r : SlotRef} {c : Copy}

theorem Fades.apply (h : Hub) {op : Operation} (unaltered : ¬ op.AltersSlots) :
    Fades h (h.apply op) := by
  cases op with
  | newPool | write | chain => exact absurd trivial unaltered
  | newPublisher | newMailbox | subscribeDetached | tally => exact ofPools rfl
  | subscribe publisher erased => exact ofPools (SameStock.subscribe h publisher erased).pools
  | acquire pool =>
    rw [Hub.apply]
    split
    · exact refl h
    · rename_i taken
      have slots := slot?_acquire taken
      exact ⟨fun q => by rw [payload?, slots, payload?], fun q c => by
        rw [chainedAt, slots, chainedAt]
        exact id⟩
  | publish p blank =>
    have spent : Fades h (h.spend blank) := ofPools rfl
    rcases publish_cases h p blank with ⟨-, same⟩ | ⟨-, -, ⟨-, same⟩ | ⟨-, same⟩⟩ <;>
      rw [Hub.apply, same]
    · exact refl h
    · exact (spent.trans (recycle _ blank)).trans (ofPools rfl)
    · have counted :
          Fades (h.spend blank) ((h.spend blank).addCopies blank (h.receivers p).length) :=
        ofSlots (slot?_modifySlot (h.spend blank) blank _) (fun _ => rfl) fun _ _ => id
      exact (spent.trans counted).trans
        (ofPools (SameStock.pushAll _ blank h.serial (h.receivers p)).pools)
  | dropBlank blank =>
    have taken : Fades h (h.takeBlank blank) := ofPools rfl
    rw [Hub.apply, dropBlank]
    split
    · exact taken.trans (recycle _ blank)
    · exact refl h
  | pull s => exact ofPools (SameStock.pull h s).pools
  | arm s mailbox =>
    rw [Hub.apply]
    split
    · exact ofPools (SameStock.arm h s mailbox).pools
    · exact refl h
  | cancel s => exact ofPools (SameStock.cancel h s).pools
  | wait mailbox =>
    obtain ⟨counters, same⟩ := wait_cases h mailbox
    exact ofPools (same ▸ rfl)
  | takeCell cell => exact ofPools (SameStock.takeCell h cell).pools
  | dropCell cell =>
    have erased : Fades h { h with cells := h.cells.erase cell } := ofPools rfl
    rcases dropCell_cases h cell with ⟨-, same⟩ | ⟨c, -, same⟩ <;> rw [Hub.apply, same]
    · exact erased
    · exact erased.trans (giveUp _ c)
  | erase c =>
    rw [Hub.apply, erase]
    dsimp only
    split <;> exact ofPools rfl
  | release c =>
    have gone : Fades h (h.letGo c) := ofPools rfl
    rw [Hub.apply, release]
    split
    · exact gone.trans (giveUp _ c)
    · exact refl h
  | dropSubscription s =>
    rcases dropSubscription_cases h s with ⟨-, same⟩ | ⟨sub, log, -, same⟩ <;> rw [Hub.apply, same]
    · exact refl h
    · have detached : Fades h { h.detach s with log } := ofPools (SameStock.detach h s).pools
      exact (detached.trans (giveUpAll _ sub.queue)).trans (ofPools rfl)
  | dropPublisher p => exact ofPools (SameStock.dropPublisher h p).pools

theorem payload?_modifySlot {f : BufferSlot → BufferSlot} (hf : ∀ s, (f s).payload = s.payload)
    (h : Hub) (r q : SlotRef) : (h.modifySlot r f).payload? q = h.payload? q := by
  rw [payload?, slot?_modifySlot, payload?]
  split
  · cases h.slot? q with
    | none => rfl
    | some s => exact congrArg some (hf s)
  · rfl

theorem payload?_apply_of_old {op : Operation} {q : SlotRef}
    (old : ∀ name capacity factory, op = .newPool name capacity factory → (h.slot? q).isSome)
    (unwritten : ∀ payload, op = .write q payload → q ∉ h.blanks) :
    (h.apply op).payload? q = h.payload? q := by
  by_cases alters : op.AltersSlots
  · cases op with
    | newPool name capacity factory =>
      simp only [apply, newPool, bind, Except.bind]
      cases Pool.new name capacity factory with
      | error failure => rfl
      | ok p =>
        have present := old name capacity factory rfl
        have hne : q.pool ≠ h.pools.next := fun heq => by
          simp [slot?, heq, Table.get?_of_le (Nat.le_refl _)] at present
        simp only [pure, Except.pure, note, payload?, slot?, Table.get?_insert, if_neg hne]
    | write blank payload =>
      simp only [apply, write]
      split
      · rename_i owned
        have hne : q ≠ blank := by
          rintro rfl
          exact unwritten payload rfl owned
        rw [payload?, slot?_modifySlot, if_neg hne, payload?]
      · rfl
    | chain blank upstream =>
      simp only [apply, chain]
      split
      · have moved : ((h.letGo upstream).modifySlot blank
            ({ · with chained := some { upstream with erased := true } })).payload? q =
            (h.letGo upstream).payload? q := by
          rw [payload?_modifySlot]
          exact fun _ => rfl
        split
        · exact moved
        · rw [(Fades.giveUp _ _).payload]
          exact moved
      · rfl
    | _ => exact absurd alters id
  · exact (Fades.apply h alters).payload q

theorem chainedAt_apply_cases {op : Operation} {q : SlotRef}
    (old : ∀ name capacity factory, op ≠ .newPool name capacity factory)
    (holds : (h.apply op).chainedAt q = some c) : h.chainedAt q = some c ∨
      ∃ d ∈ h.held, op = .chain q d ∧ c = { d with erased := true } := by
  by_cases alters : op.AltersSlots
  · cases op with
    | newPool name capacity factory => exact absurd rfl (old name capacity factory)
    | write blank payload =>
      rw [apply, write] at holds
      split at holds
      · refine .inl ?_
        rw [chainedAt, slot?_modifySlot] at holds
        split at holds
        · obtain ⟨slot, hslot, chained⟩ := Option.bind_eq_some_iff.1 holds
          obtain ⟨old, there, rfl⟩ := Option.map_eq_some_iff.1 hslot
          exact Option.bind_eq_some_iff.2 ⟨old, there, chained⟩
        · exact holds
      · exact .inl holds
    | chain blank upstream =>
      rw [apply, chain] at holds
      split at holds
      · rename_i owned
        have moved : ((h.letGo upstream).modifySlot blank
            ({ · with chained := some { upstream with erased := true } })).chainedAt q = some c := by
          dsimp only at holds
          split at holds
          · exact holds
          · exact (Fades.giveUp _ _).chained q c holds
        rw [chainedAt, slot?_modifySlot] at moved
        split at moved
        · rename_i here
          obtain ⟨slot, hslot, chained⟩ := Option.bind_eq_some_iff.1 moved
          obtain ⟨old, -, rfl⟩ := Option.map_eq_some_iff.1 hslot
          exact .inr ⟨upstream, owned.2, by rw [here], (Option.some.inj chained).symm⟩
        · exact .inl moved
      · exact .inl holds
    | _ => exact absurd alters id
  · exact .inl ((Fades.apply h alters).chained q c holds)

theorem payload?_apply {op : Operation} {q : SlotRef} (present : (h.slot? q).isSome)
    (unwritten : ∀ payload, op = .write q payload → q ∉ h.blanks) :
    (h.apply op).payload? q = h.payload? q :=
  payload?_apply_of_old (fun _ _ _ _ => present) unwritten

theorem present_apply {q : SlotRef} (present : (h.slot? q).isSome) (op : Operation) :
    ((h.apply op).slot? q).isSome := by
  by_cases writes : ∃ payload, op = .write q payload
  · obtain ⟨payload, rfl⟩ := writes
    rw [apply, write]
    split
    · rw [slot?_modifySlot, if_pos rfl, Option.isSome_map]
      exact present
    · exact present
  · have same := payload?_apply present fun payload heq => absurd ⟨payload, heq⟩ writes
    have shown := congrArg Option.isSome same
    rw [payload?, payload?, Option.isSome_map, Option.isSome_map] at shown
    exact shown.trans present

theorem present_applyAll {q : SlotRef} (present : (h.slot? q).isSome) (ops : List Operation) :
    ((h.applyAll ops).slot? q).isSome := by
  induction ops generalizing h with
  | nil => exact present
  | cons op ops ih => exact ih (present_apply present op)

theorem payload?_write {blank : SlotRef} {payload : Payload} (ha : h.Accounted)
    (owned : blank ∈ h.blanks) : (h.apply (.write blank payload)).payload? blank = some payload := by
  obtain ⟨slot, hslot, -⟩ := Balanced.blank_slot ha owned
  rw [apply, write, if_pos owned, payload?, slot?_modifySlot, if_pos rfl, hslot]
  rfl

/-! ## Copies through an operation -/

theorem Inherits.pushAll {l : List Nat} {serial : Nat} :
    ∀ c ∈ (h.pushAll r serial l).copies, c ∈ h.copies ∨ (c.ref = r ∧ c.serial = serial) := by
  induction l generalizing h with
  | nil => exact fun c hc => .inl hc
  | cons s l ih =>
    intro c hc
    rcases ih c hc with hc | new
    · cases hs : h.subscriptions.get? s with
      | none =>
        have same : h.push r serial s = h := by simp [push, hs]
        change c ∈ (h.push r serial s).copies at hc
        rw [same] at hc
        exact .inl hc
      | some sub =>
        have chained : (h.push r serial s).chained = h.chained := by
          simp only [chained, allSlots, (SameStock.push h r serial s).pools]
        change c ∈ (h.push r serial s).copies at hc
        rw [copies, chained] at hc
        have moved := ((loose_push hs r serial).append_right h.chained).mem_iff.1 hc
        rcases List.mem_cons.1 moved with rfl | hc
        · exact .inr ⟨rfl, rfl⟩
        · exact .inl hc
    · exact .inr new

theorem Inherits.chain (blank : SlotRef) (upstream : Copy) :
    Inherits h (h.chain blank upstream) := by
  simp only [Hub.chain]
  split
  · rename_i both
    have moved : Inherits h ((h.letGo upstream).modifySlot blank
        ({ · with chained := some { upstream with erased := true } })) := by
      intro c hc
      rcases List.mem_append.1 hc with hc | hc
      · exact ⟨c, List.mem_append_left _ ((loose_letGo both.2).symm.subset (List.mem_cons_of_mem _ hc)),
          rfl, rfl⟩
      · obtain ⟨q, hq⟩ := mem_chained.1 hc
        rw [chainedAt, slot?_modifySlot] at hq
        split at hq
        · obtain ⟨s, hs, rest⟩ := Option.bind_eq_some_iff.1 hq
          obtain ⟨t, -, rfl⟩ := Option.map_eq_some_iff.1 hs
          obtain rfl := Option.some.inj rest
          exact ⟨upstream, List.mem_append_left _
            (List.mem_append_left _ (List.mem_append_left _ both.2)), rfl, rfl⟩
        · exact ⟨c, List.mem_append_right _ (mem_chained.2 ⟨q, hq⟩), rfl, rfl⟩
    split
    · exact moved
    · exact moved.trans (.giveUp _ _)
  · exact .ofSubset fun _ => id

theorem Inherits.publish (ha : h.Accounted) (p : Nat) (blank : SlotRef) :
    ∀ c ∈ (h.publish p blank).2.copies, (∃ d ∈ h.copies, d.ref = c.ref ∧ d.serial = c.serial) ∨
      ∃ pub, h.publication? (.publish p blank) = some pub ∧ pub.ref = c.ref ∧
        pub.serial = c.serial := by
  intro c hc
  rcases publish_cases h p blank with ⟨-, same⟩ | ⟨owned, -, ⟨-, same⟩ | ⟨somebody, same⟩⟩ <;>
    rw [same] at hc
  · exact .inl ⟨c, hc, rfl, rfl⟩
  · exact .inl (Inherits.ofFades (.recycle (h.spend blank) blank) (.recycle _ blank) c hc)
  · obtain ⟨slot, hs, -⟩ := Balanced.blank_slot ha owned
    rcases Inherits.pushAll c hc with hc | ⟨ref, serial⟩
    · have counted : ((h.spend blank).addCopies blank (h.receivers p).length).chained.Perm
          h.chained :=
        chained_modifySlot (h := h.spend blank) (f := fun s => { s with copies := s.copies + _ })
          hs rfl
      exact .inl ⟨c, (counted.append_left _).mem_iff.1 hc, rfl, rfl⟩
    · obtain ⟨s, hs'⟩ := List.exists_mem_of_ne_nil _ somebody
      have alive : h.publishers.contains p := by
        cases hp : h.publishers.get? p with
        | none => simp [receivers, hp] at hs'
        | some P => simp [Table.contains, hp]
      have payload : h.payload? blank = some slot.payload := by rw [payload?, hs]; rfl
      refine .inr ⟨⟨p, blank, h.serial, slot.payload⟩, ?_, ref.symm, serial.symm⟩
      simp only [publication?, owned, alive, and_self, ↓reduceIte, payload, Option.map_some]

theorem copies_apply (ha : h.Accounted) (op : Operation) :
    ∀ c ∈ (h.apply op).copies, (∃ d ∈ h.copies, d.ref = c.ref ∧ d.serial = c.serial) ∨
      ∃ pub, h.publication? op = some pub ∧ pub.ref = c.ref ∧ pub.serial = c.serial := by
  have inherited : Inherits h (h.apply op) → ∀ c ∈ (h.apply op).copies,
      (∃ d ∈ h.copies, d.ref = c.ref ∧ d.serial = c.serial) ∨
      ∃ pub, h.publication? op = some pub ∧ pub.ref = c.ref ∧ pub.serial = c.serial :=
    fun inherits c hc => .inl (inherits c hc)
  cases op with
  | newPool name capacity factory =>
    refine inherited ?_
    simp only [apply, newPool, bind, Except.bind]
    cases made : Pool.new name capacity factory with
    | error failure => exact .ofSubset fun _ => id
    | ok p =>
      refine .ofSubset fun c hc => ?_
      change c ∈ h.loose ++ { h with pools := (h.pools.insert p).2 }.chained at hc
      rwa [chained_newPool (Pool.new_untouched made)] at hc
  | newPublisher | newMailbox | subscribeDetached =>
    exact inherited (.ofPerm rfl (List.Perm.refl _))
  | subscribe publisher erased =>
    refine inherited (.ofPerm (SameStock.subscribe h publisher erased).pools ?_)
    exact loose_subscribe h publisher erased
  | acquire pool =>
    refine inherited ?_
    simp only [apply]
    split
    · exact .ofSubset fun _ => id
    · rename_i blank h' taken
      refine .ofSubset fun c hc => ?_
      have chained : ∀ q, h'.chainedAt q = h.chainedAt q := fun q => by
        rw [chainedAt, slot?_acquire taken, chainedAt]
      obtain ⟨p, free, -, -, -, rfl⟩ := acquire?_eq_some taken
      rcases List.mem_append.1 hc with hc | hc
      · exact List.mem_append_left _ hc
      · obtain ⟨q, hq⟩ := mem_chained.1 hc
        exact List.mem_append_right _ (mem_chained.2 ⟨q, (chained q).symm.trans hq⟩)
  | write blank payload =>
    refine inherited ?_
    simp only [apply, write]
    split
    · rename_i owned
      obtain ⟨slot, hs, -⟩ := Balanced.blank_slot ha owned
      have chained := chained_modifySlot (f := ({ · with payload })) hs rfl
      exact .ofSubset fun c hc => (chained.append_left _).mem_iff.1 hc
    · exact .ofSubset fun _ => id
  | chain blank upstream => exact inherited (.chain blank upstream)
  | publish p blank => exact Inherits.publish ha p blank
  | dropBlank blank =>
    refine inherited ?_
    simp only [apply, dropBlank]
    split
    · have taken : Inherits h (h.takeBlank blank) := .ofSubset fun _ => id
      exact taken.trans (.ofFades (.recycle _ blank) (.recycle _ blank))
    · exact .ofSubset fun _ => id
  | pull s => exact inherited (.ofPerm (SameStock.pull h s).pools (loose_pull h s))
  | arm s mailbox =>
    refine inherited ?_
    rw [apply]
    split
    · exact .ofPerm (SameStock.arm h s mailbox).pools (loose_arm h s mailbox)
    · exact .ofSubset fun _ => id
  | cancel s => exact inherited (.ofPerm (SameStock.cancel h s).pools (loose_cancel h s))
  | wait mailbox =>
    obtain ⟨counters, same⟩ := wait_cases h mailbox
    rw [same] at inherited ⊢
    exact inherited (.ofPerm rfl (List.Perm.refl _))
  | takeCell cell =>
    exact inherited (.ofPerm (SameStock.takeCell h cell).pools (loose_takeCell h cell))
  | dropCell cell =>
    refine inherited ?_
    rcases dropCell_cases h cell with ⟨empty, same⟩ | ⟨c, hc, same⟩ <;> rw [apply, same]
    · exact .ofPerm rfl (loose_erase_empty empty)
    · have without : Inherits h { h with cells := h.cells.erase cell } := .ofSubset fun d hd =>
        ((loose_erase_cell hc).append_right h.chained).mem_iff.2 (List.mem_cons_of_mem c hd)
      exact without.trans (.giveUp _ c)
  | erase c =>
    refine inherited ?_
    simp only [apply, erase]
    split
    · rename_i inHand
      intro d hd
      rcases List.mem_cons.1 (show d ∈ { c with erased := true } :: (h.letGo c).copies from hd) with
        rfl | hd
      · exact ⟨c, List.mem_append_left _ (List.mem_append_left _ (List.mem_append_left _ inHand)),
          rfl, rfl⟩
      · exact ⟨d, ((loose_letGo inHand).append_right h.chained).mem_iff.2
          (List.mem_cons_of_mem c hd), rfl, rfl⟩
    · exact .ofSubset fun _ => id
  | release c =>
    refine inherited ?_
    simp only [apply, release]
    split
    · rename_i inHand
      have without : Inherits h (h.letGo c) := .ofSubset fun d hd =>
        ((loose_letGo inHand).append_right h.chained).mem_iff.2 (List.mem_cons_of_mem c hd)
      exact without.trans (.giveUp _ c)
    · exact .ofSubset fun _ => id
  | dropSubscription s =>
    refine inherited ?_
    rcases dropSubscription_cases h s with ⟨-, same⟩ | ⟨sub, log, hs, same⟩ <;> rw [apply, same]
    · exact .ofSubset fun _ => id
    · have detached : Inherits h { h.detach s with log } := by
        have chained : (h.detach s).chained = h.chained := by
          simp only [chained, allSlots, (SameStock.detach h s).pools]
        refine .ofSubset fun c hc => ?_
        change c ∈ (h.detach s).loose ++ (h.detach s).chained at hc
        rw [chained] at hc
        refine ((loose_detach hs).append_right h.chained).mem_iff.2 ?_
        rw [List.append_assoc]
        exact List.mem_append_right _ hc
      have given := detached.trans (.ofFades (.giveUpAll _ sub.queue) (.giveUpAll _ sub.queue))
      exact given.trans (.ofSubset fun _ => id)
  | dropPublisher p =>
    exact inherited (.ofPerm (SameStock.dropPublisher h p).pools (loose_dropPublisher h p))
  | tally counters log => exact inherited (.ofPerm rfl (List.Perm.refl _))

/-! ## Numbers of publications -/

theorem SamePeers.serial (same : SamePeers h h') : h'.serial = h.serial := by
  obtain ⟨pools, counters, rfl⟩ := same
  rfl

theorem serial_publish (h : Hub) (p : Nat) (blank : SlotRef) :
    (h.publish p blank).2.serial = if blank ∈ h.blanks then h.serial + 1 else h.serial := by
  rcases publish_cases h p blank with ⟨foreign, same⟩ | ⟨owned, -, ⟨-, same⟩ | ⟨-, same⟩⟩ <;> rw [same]
  · rw [if_neg foreign]
  · rw [if_pos owned]
    exact (SamePeers.recycle (h.spend blank) blank).serial
  · rw [if_pos owned]
    exact (SameStock.pushAll _ blank h.serial (h.receivers p)).serial

theorem serial_apply {op : Operation} (quiet : ∀ p blank, op ≠ .publish p blank) :
    (h.apply op).serial = h.serial := by
  cases op with
  | newPool name capacity factory =>
    simp only [apply, newPool, bind, Except.bind]
    cases Pool.new name capacity factory <;> rfl
  | newPublisher | newMailbox | subscribeDetached => rfl
  | subscribe publisher erased => exact (SameStock.subscribe h publisher erased).serial
  | acquire pool =>
    simp only [apply]
    split
    · rfl
    · rename_i taken
      obtain ⟨p, free, -, -, -, rfl⟩ := acquire?_eq_some taken
      rfl
  | write blank payload =>
    simp only [apply, write]
    split <;> rfl
  | chain blank upstream =>
    simp only [apply, chain]
    split
    · split
      · rfl
      · exact (SamePeers.giveUp _ _).serial
    · rfl
  | publish p blank => exact absurd rfl (quiet p blank)
  | dropBlank blank =>
    simp only [apply, dropBlank]
    split
    · exact (SamePeers.recycle (h.takeBlank blank) blank).serial
    · rfl
  | pull s => exact (SameStock.pull h s).serial
  | arm s mailbox =>
    rw [apply]
    split
    · exact (SameStock.arm h s mailbox).serial
    · rfl
  | cancel s => exact (SameStock.cancel h s).serial
  | wait mailbox =>
    obtain ⟨counters, same⟩ := wait_cases h mailbox
    rw [same]
  | takeCell cell => exact (SameStock.takeCell h cell).serial
  | dropCell cell =>
    rcases dropCell_cases h cell with ⟨-, same⟩ | ⟨c, -, same⟩ <;> rw [apply, same]
    exact (SamePeers.giveUp _ c).serial
  | erase c =>
    simp only [apply, erase]
    split <;> rfl
  | release c =>
    simp only [apply, release]
    split
    · exact (SamePeers.giveUp (h.letGo c) c).serial
    · rfl
  | dropSubscription s =>
    rcases dropSubscription_cases h s with ⟨-, same⟩ | ⟨sub, log, -, same⟩ <;> rw [apply, same]
    exact (SamePeers.giveUpAll _ sub.queue).serial.trans (SameStock.detach h s).serial
  | dropPublisher p => exact (SameStock.dropPublisher h p).serial
  | tally counters log => rfl

theorem serial_le (h : Hub) (op : Operation) : h.serial ≤ (h.apply op).serial := by
  cases op with
  | publish p blank =>
    rw [apply, serial_publish]
    split <;> omega
  | _ =>
    refine Nat.le_of_eq (serial_apply ?_).symm
    simp

theorem serial_publication {op : Operation} {pub : Publication} (hp : h.publication? op = some pub) :
    pub.serial = h.serial ∧ (h.apply op).serial = h.serial + 1 := by
  cases op with
  | publish p blank =>
    simp only [publication?] at hp
    split at hp
    · rename_i both
      obtain ⟨payload, -, rfl⟩ := Option.map_eq_some_iff.1 hp
      rw [apply, serial_publish, if_pos both.1]
      exact ⟨rfl, rfl⟩
    · simp at hp
  | _ => simp [publication?] at hp

/-- Copies bear numbers that were given, and copies of one number are of one slot. -/
structure Numbered (h : Hub) : Prop where
  given : ∀ c ∈ h.copies, c.serial < h.serial
  sameSlot : ∀ c ∈ h.copies, ∀ d ∈ h.copies, c.serial = d.serial → c.ref = d.ref

theorem Numbered.apply (hn : h.Numbered) (ha : h.Accounted) (op : Operation) :
    (h.apply op).Numbered := by
  have origin := copies_apply ha op
  refine ⟨fun c hc => ?_, fun c hc d hd heq => ?_⟩
  · rcases origin c hc with ⟨e, he, -, serial⟩ | ⟨pub, hp, -, serial⟩
    · exact serial ▸ Nat.lt_of_lt_of_le (hn.given e he) (serial_le h op)
    · obtain ⟨now, next⟩ := serial_publication hp
      omega
  · rcases origin c hc with ⟨e, he, refe, seriale⟩ | ⟨pub, hp, refp, serialp⟩ <;>
      rcases origin d hd with ⟨f, hf, reff, serialf⟩ | ⟨pub', hp', refp', serialp'⟩
    · rw [← refe, ← reff]
      exact hn.sameSlot e he f hf (seriale.trans (heq.trans serialf.symm))
    · have old := hn.given e he
      have now := (serial_publication hp').1
      omega
    · have old := hn.given f hf
      have now := (serial_publication hp).1
      omega
    · obtain rfl : pub = pub' := by simpa [hp] using hp'
      exact refp.symm.trans refp'

/-! ## Copies show what was published -/

/-- Every copy that is alive and bears the publication's number shows what was published. -/
structure Faithful (h : Hub) (pub : Publication) : Prop where
  past : pub.serial < h.serial
  shown : ∀ c ∈ h.copies, c.serial = pub.serial →
    c.ref = pub.ref ∧ h.payload? c.ref = some pub.payload

theorem copy_unblank (ha : h.Accounted) (hc : c ∈ h.copies) : c.ref ∉ h.blanks :=
  fun owned => Balanced.blank_uncopied ha owned c hc rfl

theorem copy_present (ha : h.Accounted) (hc : c ∈ h.copies) : (h.slot? c.ref).isSome := by
  obtain ⟨s, hs, -⟩ := Balanced.copy_slot ha hc
  simp [hs]

theorem Faithful.apply {pub : Publication} (hf : h.Faithful pub) (ha : h.Accounted)
    (op : Operation) : (h.apply op).Faithful pub := by
  refine ⟨Nat.lt_of_lt_of_le hf.past (serial_le h op), fun c hc heq => ?_⟩
  rcases copies_apply ha op c hc with ⟨d, hd, ref, serial⟩ | ⟨pub', hp, -, serial⟩
  · obtain ⟨slot, payload⟩ := hf.shown d hd (serial.trans heq)
    rw [← ref, payload?_apply (copy_present ha hd) fun _ _ => copy_unblank ha hd]
    exact ⟨slot, payload⟩
  · have now := (serial_publication hp).1
    have past := hf.past
    omega

theorem faithful_publication {op : Operation} {pub : Publication} (hn : h.Numbered)
    (ha : h.Accounted) (hp : h.publication? op = some pub) : (h.apply op).Faithful pub := by
  obtain ⟨now, next⟩ := serial_publication hp
  refine ⟨by omega, fun c hc heq => ?_⟩
  rcases copies_apply ha op c hc with ⟨d, hd, -, serial⟩ | ⟨pub', hp', ref, -⟩
  · have old := hn.given d hd
    omega
  · obtain rfl : pub = pub' := by simpa [hp] using hp'
    refine ⟨ref.symm, ?_⟩
    rw [← ref]
    cases op with
    | publish p blank =>
      simp only [publication?] at hp
      split at hp
      · rename_i both
        obtain ⟨payload, shown, rfl⟩ := Option.map_eq_some_iff.1 hp
        obtain ⟨s, hs, -⟩ := Balanced.blank_slot ha both.1
        rw [payload?_apply (by simp [hs])]
        · exact shown
        · exact fun _ => nofun
      · simp at hp
    | _ => simp [publication?] at hp

end Hub

end BufferFlow
