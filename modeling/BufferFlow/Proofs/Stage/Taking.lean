import BufferFlow.Proofs.Stage.Joining
import BufferFlow.Proofs.Stage.Requests

set_option autoImplicit false

namespace BufferFlow

/-- Whether the operation only takes a copy out of a cell, lets go of a cell or gives up a copy. -/
def Operation.Empties : Operation → Prop
  | takeCell _ | dropCell _ | release _ => True
  | _ => False

namespace Hub

variable {h : Hub} {cell : Nat} {c : Copy}

def signal? (h : Hub) (cell : Nat) : Option Payload := (h.contents? cell).bind (h.payload? ·.ref)

theorem full_applyAll {ops : List Operation} (sound : h.Sound)
    (full : h.cells.get? cell = some (some c))
    (spared : ∀ op ∈ ops, op ≠ .dropCell cell ∧ op ≠ .takeCell cell) :
    (h.applyAll ops).cells.get? cell = some (some c) := by
  induction ops generalizing h with
  | nil => exact full
  | cons op ops ih =>
    obtain ⟨kept, untaken⟩ := spared op List.mem_cons_self
    exact ih (sound.apply op) (full_apply sound.armament full kept untaken)
      fun op hop => spared op (List.mem_cons_of_mem _ hop)

theorem payload?_applyAll {ops : List Operation} (sound : h.Sound)
    (full : h.cells.get? cell = some (some c))
    (spared : ∀ op ∈ ops, op ≠ .dropCell cell ∧ op ≠ .takeCell cell) :
    (h.applyAll ops).payload? c.ref = h.payload? c.ref := by
  induction ops generalizing h with
  | nil => rfl
  | cons op ops ih =>
    obtain ⟨kept, untaken⟩ := spared op List.mem_cons_self
    have alive := mem_copies_of_cell full
    have later := ih (sound.apply op) (full_apply sound.armament full kept untaken)
      fun op hop => spared op (List.mem_cons_of_mem _ hop)
    refine later.trans (payload?_apply (copy_present sound.accounted alive) fun _ _ => ?_)
    exact copy_unblank sound.accounted alive

theorem signal?_applyAll {ops : List Operation} (sound : h.Sound)
    (full : (h.contents? cell).isSome)
    (spared : ∀ op ∈ ops, op ≠ .dropCell cell ∧ op ≠ .takeCell cell) :
    (h.applyAll ops).contents? cell = h.contents? cell ∧
      (h.applyAll ops).signal? cell = h.signal? cell := by
  obtain ⟨c, hc⟩ := Option.isSome_iff_exists.1 full
  have there := contents?_eq_some.1 hc
  have still := contents?_eq_some.2 (full_applyAll sound there spared)
  rw [signal?, signal?, still, hc]
  exact ⟨rfl, payload?_applyAll sound there spared⟩

theorem gone_apply {op : Operation} (gone : h.cells.get? cell = none) (hop : op.Empties) :
    (h.apply op).cells.get? cell = none := by
  cases op with
  | takeCell i =>
    rcases takeCell_cases h i with ⟨-, -, same⟩ | ⟨c, -, -, same⟩ <;> rw [apply, same]
    · exact gone
    · rw [Table.get?_modify, gone]
      split <;> rfl
  | dropCell i =>
    rw [apply, get?_dropCell, gone]
    split <;> rfl
  | release c =>
    rw [cells_apply id]
    exact gone
  | _ => exact hop.elim

theorem dropped_applyAll {ops : List Operation} (empties : ∀ op ∈ ops, op.Empties)
    (hop : .dropCell cell ∈ ops) : (h.applyAll ops).cells.contains cell = false := by
  have gone_applyAll : ∀ {g : Hub} {more : List Operation}, (∀ op ∈ more, op.Empties) →
      g.cells.get? cell = none → (g.applyAll more).cells.get? cell = none := by
    intro g more empties gone
    induction more generalizing g with
    | nil => exact gone
    | cons op more ih =>
      exact ih (fun op hop => empties op (List.mem_cons_of_mem _ hop))
        (gone_apply gone (empties op List.mem_cons_self))
  induction ops generalizing h with
  | nil => simp at hop
  | cons op ops ih =>
    have rest : ∀ op ∈ ops, op.Empties := fun op hop => empties op (List.mem_cons_of_mem _ hop)
    rcases List.mem_cons.1 hop with rfl | hop
    · have gone : (h.apply (.dropCell cell)).cells.get? cell = none := by
        rw [apply, get?_dropCell, if_pos rfl]
      rw [applyAll_cons, Table.contains, gone_applyAll rest gone]
      rfl
    · exact ih rest hop

end Hub

namespace AggregatorLoop

variable {h : Hub} {cell : Nat} {cells : List Nat}

theorem takeGate_open (h : Hub) (cell : Nat) :
    (takeGate h cell).1 = true ↔ ∃ v, h.signal? cell = some v ∧ v.isOpen = true := by
  rw [takeGate, takeCell_eq, Hub.signal?]
  cases hc : h.contents? cell with
  | none => simp
  | some c =>
    have taken : (h.apply (.takeCell cell)).read? c = h.payload? c.ref := by
      rcases Hub.takeCell_cases h cell with ⟨empty, -⟩ | ⟨d, hd, -, same⟩
      · exact absurd (Hub.contents?_eq_some.1 hc) (empty c)
      · obtain rfl : c = d := by simpa [hc] using Hub.contents?_eq_some.2 hd
        have inHand : c ∈ (h.apply (.takeCell cell)).held := by
          rw [Hub.apply, same]
          exact List.mem_cons_self
        rw [Hub.read?, if_pos inHand]
        exact (Hub.Fades.ofPools (Hub.SameStock.takeCell h cell).pools).payload c.ref
    simp only [taken, Option.bind_some]
    cases h.payload? c.ref <;> simp

theorem mem_gateRequests {op : Operation} : op ∈ gateRequests h cell ↔
    op = .takeCell cell ∨ (∃ c, h.contents? cell = some c ∧ op = .release c) ∨
      op = .dropCell cell := by
  rw [gateRequests]
  cases h.contents? cell <;> simp

theorem gateRequests_empties : ∀ op ∈ gateRequests h cell, op.Empties := by
  intro op hop
  rcases mem_gateRequests.1 hop with rfl | ⟨c, -, rfl⟩ | rfl <;> trivial

theorem gateRequests_spares {other : Nat} (apart : other ≠ cell) :
    ∀ op ∈ gateRequests h cell, op ≠ .dropCell other ∧ op ≠ .takeCell other := by
  intro op hop
  rcases mem_gateRequests.1 hop with rfl | ⟨c, -, rfl⟩ | rfl <;> simp [Ne.symm apart]

theorem gatesRequests_empties : ∀ op ∈ gatesRequests h cells, op.Empties := by
  induction cells generalizing h with
  | nil => simp [gatesRequests]
  | cons cell cells ih =>
    intro op hop
    rw [gatesRequests] at hop
    rcases List.mem_append.1 hop with hop | hop
    · exact gateRequests_empties op hop
    · exact ih op hop

theorem gatesRequests_spares {other : Nat} (apart : other ∉ cells) :
    ∀ op ∈ gatesRequests h cells, op ≠ .dropCell other ∧ op ≠ .takeCell other := by
  induction cells generalizing h with
  | nil => simp [gatesRequests]
  | cons cell cells ih =>
    intro op hop
    rw [gatesRequests] at hop
    obtain ⟨first, rest⟩ := List.ne_and_not_mem_of_not_mem_cons apart
    rcases List.mem_append.1 hop with hop | hop
    · exact gateRequests_spares first op hop
    · exact ih rest op hop

theorem takeRequests_empties : ∀ op ∈ takeRequests h cells, op.Empties := by
  intro op hop
  obtain _ | ⟨primary, gates⟩ := cells
  · simp [takeRequests] at hop
  rw [takeRequests] at hop
  rcases List.mem_append.1 hop with hop | hop
  · rcases List.mem_append.1 hop with hop | hop
    · exact gatesRequests_empties op hop
    · rcases List.mem_pair.1 hop with rfl | rfl <;> trivial
  · split at hop
    · simp at hop
    · obtain ⟨c, -, rfl⟩ := Option.map_eq_some_iff.1 (Option.mem_toList.1 hop)
      trivial

theorem dropCell_mem_gatesRequests (hc : cell ∈ cells) :
    .dropCell cell ∈ gatesRequests h cells := by
  induction cells generalizing h with
  | nil => simp at hc
  | cons first cells ih =>
    rw [gatesRequests]
    rcases List.mem_cons.1 hc with rfl | hc
    · exact List.mem_append_left _ (mem_gateRequests.2 (.inr (.inr rfl)))
    · exact List.mem_append_right _ (ih hc)

theorem dropCell_mem_takeRequests (hc : cell ∈ cells) : .dropCell cell ∈ takeRequests h cells := by
  obtain _ | ⟨primary, gates⟩ := cells
  · simp at hc
  rw [takeRequests]
  refine List.mem_append_left _ ?_
  rcases List.mem_cons.1 hc with rfl | hc
  · exact List.mem_append_right _ (by simp)
  · exact List.mem_append_left _ (dropCell_mem_gatesRequests hc)

theorem takeGates_open (sound : h.Sound) (apart : cells.Nodup)
    (full : ∀ cell ∈ cells, (h.contents? cell).isSome) :
    (takeGates h cells).1 = true ↔
      ∀ cell ∈ cells, ∃ v, h.signal? cell = some v ∧ v.isOpen = true := by
  induction cells generalizing h with
  | nil => simp [takeGates]
  | cons cell cells ih =>
    obtain ⟨absent, apart⟩ := List.nodup_cons.1 apart
    have others : ∀ other ∈ cells,
        (h.applyAll (gateRequests h cell)).contents? other = h.contents? other ∧
          (h.applyAll (gateRequests h cell)).signal? other = h.signal? other := by
      intro other hother
      have hne : other ≠ cell := fun heq => absent (heq ▸ hother)
      exact Hub.signal?_applyAll sound (full other (List.mem_cons_of_mem _ hother))
        (gateRequests_spares hne)
    rw [takeGates_cons, Bool.and_eq_true, takeGate_open, ih (sound.applyAll _) apart fun other ho => ?_,
      List.forall_mem_cons]
    · refine and_congr Iff.rfl (forall₂_congr fun other ho => ?_)
      rw [(others other ho).2]
    · rw [(others other ho).1]
      exact full other (List.mem_cons_of_mem _ ho)

end AggregatorLoop

end BufferFlow
