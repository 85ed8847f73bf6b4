import BufferFlow.Proofs.Hub.Streams

set_option autoImplicit false

namespace BufferFlow

namespace Hub

variable {h : Hub} {s : Nat} {sub : Subscription} {c : Copy}

/-! ## Armed subscriptions -/

theorem armedOf?_pushAll {r : SlotRef} {serial : Nat} {l : List Nat} {a : Armed}
    (hs : (h.pushAll r serial l).armedOf? s = some a) : h.armedOf? s = some a := by
  induction l generalizing h with
  | nil => exact hs
  | cons t l ih => exact armedOf?_push (ih hs)

theorem armedOf?_arm {mailbox : Nat} {a : Armed} (hs : (h.arm s mailbox).2.armedOf? s = some a) :
    a = ⟨h.cells.next, mailbox⟩ := by
  have unarmed := armedOf?_cancel h s
  rcases arm_cases h s mailbox with
    ⟨-, ⟨-, same⟩ | ⟨sub, found, ⟨c, queue, -, same⟩ | ⟨-, -, same⟩ | ⟨-, -, same⟩⟩⟩ <;>
    rw [same, armedOf?] at hs
  · rw [armedOf?] at unarmed
    simp [unarmed] at hs
  · rw [armedOf?, found] at unarmed
    simp only [Table.get?_modify, ↓reduceIte, found, Option.map_some, Option.bind_some] at hs unarmed
    simp [unarmed] at hs
  · simp only [Table.get?_modify, ↓reduceIte, found, Option.map_some, Option.bind_some,
      Option.some.injEq] at hs
    rw [← hs, cells_cancel]
  · rw [armedOf?] at unarmed
    simp [unarmed] at hs

theorem armedOf?_apply {op : Operation} {a : Armed} (hs : (h.apply op).armedOf? s = some a) :
    h.armedOf? s = some a ∨ op = .arm s a.mailbox := by
  by_cases hop : op.OnBuffers
  · rw [armedOf?, (SameLinks.apply h hop).subscriptions] at hs
    exact .inl hs
  cases op with
  | newPublisher | newMailbox => exact .inl hs
  | subscribeDetached erased =>
    simp only [apply, subscribeDetached, armedOf?, count, Table.get?_insert] at hs
    split at hs
    · simp at hs
    · exact .inl hs
  | subscribe publisher erased =>
    rcases subscribe_cases h publisher erased with ⟨-, ⟨-, same⟩ | ⟨P, counters, log, -, same⟩⟩ <;>
      rw [apply, same, armedOf?] at hs
    · simp only [subscribeDetached, count, Table.get?_insert] at hs
      split at hs
      · simp at hs
      · exact .inl hs
    · rw [Table.get?_insert] at hs
      split at hs
      · simp at hs
      · exact .inl hs
  | publish p blank =>
    rcases publish_cases h p blank with ⟨-, same⟩ | ⟨owned, -, ⟨-, same⟩ | ⟨-, same⟩⟩ <;>
      rw [apply, same] at hs
    · exact .inl hs
    · have links := (SamePeers.recycle (h.spend blank) blank).links
      change ((h.spend blank).recycle blank).armedOf? s = some a at hs
      rw [armedOf?, links.subscriptions] at hs
      exact .inl hs
    · exact .inl (armedOf?_pushAll (h := (h.spend blank).addCopies blank (h.receivers p).length) hs)
  | pull t =>
    by_cases heq : s = t
    · subst heq
      rcases pull_cases h s with ⟨same, -⟩ | ⟨sub, c, queue, found, -, -, same⟩ <;>
        rw [apply, same] at hs
      · exact .inl hs
      · rw [armedOf?, Table.get?_modify, if_pos rfl, found] at hs
        exact .inl (armedOf?_eq_some.2 ⟨sub, found, hs⟩)
    · exact .inl ((Local.pull h t).armedOf? heq ▸ hs)
  | arm t mailbox =>
    rw [apply] at hs
    split at hs
    · by_cases heq : s = t
      · subst heq
        exact .inr (armedOf?_arm hs ▸ rfl)
      · exact .inl ((Local.arm h t mailbox).armedOf? heq ▸ hs)
    · exact .inl hs
  | cancel t =>
    by_cases heq : s = t
    · subst heq
      rw [apply, armedOf?_cancel] at hs
      simp at hs
    · exact .inl ((Local.cancel h t).armedOf? heq ▸ hs)
  | takeCell cell =>
    rcases takeCell_cases h cell with ⟨-, -, same⟩ | ⟨c, -, -, same⟩ <;> rw [apply, same] at hs <;>
      exact .inl hs
  | dropCell cell =>
    rw [apply, armedOf?, subscriptions_dropCell] at hs
    exact .inl hs
  | dropSubscription t =>
    rw [apply, armedOf?, get?_dropSubscription] at hs
    split at hs
    · simp at hs
    · exact .inl hs
  | dropPublisher p =>
    rw [apply, armedOf?, get?_dropPublisher] at hs
    split at hs
    · cases hsub : h.subscriptions.get? s <;> simp [hsub] at hs
    · exact .inl hs
  | newPool | acquire | write | chain | dropBlank | wait | erase | release | tally =>
    exact absurd trivial hop

theorem cell_of_armed_apply {op : Operation} {a : Armed} (hs : (h.apply op).armedOf? s = some a) :
    h.armedOf? s = some a ∨ a.cell = h.cells.next := by
  rcases armedOf?_apply hs with before | rfl
  · exact .inl before
  · rw [apply] at hs
    split at hs
    · exact .inr (congrArg Armed.cell (armedOf?_arm hs))
    · exact .inl hs

/-! ## Cells -/

theorem next_cells_pushAll {r : SlotRef} {serial : Nat} {l : List Nat} :
    (h.pushAll r serial l).cells.next = h.cells.next := by
  induction l generalizing h with
  | nil => rfl
  | cons t l ih =>
    have pushed : (h.push r serial t).cells.next = h.cells.next := by
      rcases push_cases h t r serial with
        ⟨-, same⟩ | ⟨sub, -, ⟨-, same⟩ | ⟨a, -, ⟨-, same⟩ | ⟨-, same⟩⟩⟩ <;> rw [same]
      exact Table.modify_next _ _ _
    exact ih.trans pushed

theorem next_cells_apply (h : Hub) (op : Operation) : h.cells.next ≤ (h.apply op).cells.next := by
  by_cases moves : op.MovesCells
  · cases op with
    | publish p blank =>
      refine Nat.le_of_eq (Eq.symm ?_)
      rcases publish_cases h p blank with ⟨-, same⟩ | ⟨-, -, ⟨-, same⟩ | ⟨-, same⟩⟩ <;>
        rw [apply, same]
      · change ((h.spend blank).recycle blank).cells.next = h.cells.next
        rw [(SamePeers.recycle _ blank).links.cells]
        rfl
      · exact next_cells_pushAll (h := (h.spend blank).addCopies blank (h.receivers p).length)
    | arm s mailbox =>
      rw [apply]
      split
      · rcases arm_cases h s mailbox with
          ⟨-, ⟨-, same⟩ | ⟨sub, -, ⟨c, queue, -, same⟩ | ⟨-, -, same⟩ | ⟨-, -, same⟩⟩⟩ <;>
          rw [same] <;> simp only [cells_cancel, Table.insert_next] <;> omega
      · exact Nat.le_refl _
    | takeCell cell =>
      rcases takeCell_cases h cell with ⟨-, -, same⟩ | ⟨c, -, -, same⟩ <;>
        simp only [apply, same, Table.modify_next, Nat.le_refl]
    | dropCell cell => exact Nat.le_of_eq (cells_next_dropCell h cell).symm
    | _ => exact moves.elim
  · exact Nat.le_of_eq (congrArg Table.next (cells_apply moves)).symm

theorem contains_cells_push {r : SlotRef} {serial t cell : Nat} :
    (h.push r serial t).cells.contains cell = h.cells.contains cell := by
  rcases push_cases h t r serial with
    ⟨-, same⟩ | ⟨sub, -, ⟨-, same⟩ | ⟨a, -, ⟨-, same⟩ | ⟨-, same⟩⟩⟩ <;> rw [same]
  exact Table.contains_modify _ _ _ _

theorem contains_cells_pushAll {r : SlotRef} {serial cell : Nat} {l : List Nat} :
    (h.pushAll r serial l).cells.contains cell = h.cells.contains cell := by
  induction l generalizing h with
  | nil => rfl
  | cons t l ih => exact ih.trans contains_cells_push

theorem contains_cells_apply {op : Operation} {cell : Nat} (there : h.cells.contains cell)
    (kept : op ≠ .dropCell cell) : (h.apply op).cells.contains cell := by
  by_cases moves : op.MovesCells
  · cases op with
    | publish p blank =>
      rcases publish_cases h p blank with ⟨-, same⟩ | ⟨-, -, ⟨-, same⟩ | ⟨-, same⟩⟩ <;>
        rw [apply, same]
      · exact there
      · change ((h.spend blank).recycle blank).cells.contains cell = true
        rw [(SamePeers.recycle _ blank).links.cells]
        exact there
      · exact contains_cells_pushAll.trans there
    | arm t mailbox =>
      have new : ∀ o, (h.cells.insert o).2.contains cell = true := fun o => by
        rw [Table.contains, Table.get?_insert]
        split
        · rfl
        · exact there
      have cells := cells_cancel h t
      rw [apply]
      split
      · rcases arm_cases h t mailbox with
          ⟨-, ⟨-, same⟩ | ⟨sub, -, ⟨c, queue, -, same⟩ | ⟨-, -, same⟩ | ⟨-, -, same⟩⟩⟩ <;>
          rw [same, cells] <;> exact new _
      · exact there
    | takeCell i =>
      rcases takeCell_cases h i with ⟨-, -, same⟩ | ⟨c, -, -, same⟩ <;> rw [apply, same]
      · exact there
      · exact (Table.contains_modify _ _ _ _).trans there
    | dropCell i =>
      have hne : cell ≠ i := fun heq => kept (heq ▸ rfl)
      rw [apply, Table.contains, get?_dropCell, if_neg hne]
      exact there
    | _ => exact moves.elim
  · rw [cells_apply moves]
    exact there

theorem full_apply {op : Operation} {cell : Nat} (ha : h.Armament)
    (full : h.cells.get? cell = some (some c)) (kept : op ≠ .dropCell cell)
    (untaken : op ≠ .takeCell cell) : (h.apply op).cells.get? cell = some (some c) := by
  by_cases moves : op.MovesCells
  · cases op with
    | publish p blank =>
      -- Nobody has this cell armed, because armed cells are empty.
      have apart : ∀ t ∈ h.receivers p, ∀ a, h.armedOf? t = some a → a.cell ≠ cell := by
        rintro t - a armed rfl
        have empty := ha.empty t a armed
        rw [contents?, full] at empty
        simp at empty
      rcases publish_cases h p blank with ⟨-, same⟩ | ⟨-, -, ⟨-, same⟩ | ⟨-, same⟩⟩ <;>
        rw [apply, same]
      · exact full
      · change ((h.spend blank).recycle blank).cells.get? cell = some (some c)
        rw [(SamePeers.recycle _ blank).links.cells]
        exact full
      · exact (pushAll_cells (h := (h.spend blank).addCopies blank (h.receivers p).length) blank
          h.serial apart).trans full
    | arm t mailbox =>
      have new : ∀ o, (h.cells.insert o).2.get? cell = some (some c) := fun o => by
        rw [Table.get?_insert, if_neg (Nat.ne_of_lt (Table.get?_lt full))]
        exact full
      have cells := cells_cancel h t
      rw [apply]
      split
      · rcases arm_cases h t mailbox with
          ⟨-, ⟨-, same⟩ | ⟨sub, -, ⟨c, queue, -, same⟩ | ⟨-, -, same⟩ | ⟨-, -, same⟩⟩⟩ <;>
          rw [same, cells] <;> exact new _
      · exact full
    | takeCell i =>
      have hne : cell ≠ i := fun heq => untaken (heq ▸ rfl)
      rcases takeCell_cases h i with ⟨-, -, same⟩ | ⟨c, -, -, same⟩ <;> rw [apply, same]
      · exact full
      · exact (Table.get?_modify _ _ _ _).trans ((if_neg hne).trans full)
    | dropCell i =>
      have hne : cell ≠ i := fun heq => kept (heq ▸ rfl)
      rw [apply, get?_dropCell, if_neg hne]
      exact full
    | _ => exact moves.elim
  · rw [cells_apply moves]
    exact full

/-- An empty cell that nobody has armed, of which nobody will hear again. -/
structure Spent (h : Hub) (cell : Nat) : Prop where
  empty : h.contents? cell = none
  given : cell < h.cells.next
  unclaimed : ∀ t a, h.armedOf? t = some a → a.cell ≠ cell

theorem Spent.apply {cell : Nat} (spent : h.Spent cell) (op : Operation) : (h.apply op).Spent cell where
  empty := contents?_apply spent.given spent.empty fun _ _ _ _ t _ a armed =>
    spent.unclaimed t a armed
  given := Nat.lt_of_lt_of_le spent.given (next_cells_apply h op)
  unclaimed t a armed := by
    rcases cell_of_armed_apply armed with before | new
    · exact spent.unclaimed t a before
    · exact new ▸ Nat.ne_of_gt spent.given

theorem Spent.applyAll {cell : Nat} (spent : h.Spent cell) (ops : List Operation) :
    (h.applyAll ops).Spent cell := by
  induction ops generalizing h with
  | nil => exact spent
  | cons op ops ih => exact ih (spent.apply op)

/-! ## Copies in hand -/

end Hub

/-- Whether the operation takes a copy of that value out of somebody's hands. -/
def Operation.Consumes (c : Copy) : Operation → Prop
  | chain _ d | erase d | release d => d = c
  | _ => False

namespace Hub

variable {h h' : Hub} {c : Copy} {r : SlotRef}

theorem SamePeers.held (same : SamePeers h h') : h'.held = h.held := by
  obtain ⟨pools, counters, rfl⟩ := same
  rfl

theorem held_push (h : Hub) (r : SlotRef) (serial s : Nat) : (h.push r serial s).held = h.held := by
  rcases push_cases h s r serial with
    ⟨-, same⟩ | ⟨sub, -, ⟨-, same⟩ | ⟨a, -, ⟨-, same⟩ | ⟨-, same⟩⟩⟩ <;> rw [same]

theorem held_pushAll {serial : Nat} {l : List Nat} : (h.pushAll r serial l).held = h.held := by
  induction l generalizing h with
  | nil => rfl
  | cons s l ih => exact ih.trans (held_push h r serial s)

theorem held_cancel (h : Hub) (s : Nat) : (h.cancel s).held = h.held := by
  rcases cancel_cases h s with ⟨-, same⟩ | ⟨sub, a, -, -, same⟩ <;> rw [same]

theorem held_arm (h : Hub) (s mailbox : Nat) : (h.arm s mailbox).2.held = h.held := by
  rw [← held_cancel h s]
  rcases arm_cases h s mailbox with
    ⟨-, ⟨-, same⟩ | ⟨sub, -, ⟨c, queue, -, same⟩ | ⟨-, -, same⟩ | ⟨-, -, same⟩⟩⟩ <;> rw [same]

theorem held_dropSubscription (h : Hub) (s : Nat) : (h.dropSubscription s).held = h.held := by
  rcases dropSubscription_cases h s with ⟨-, same⟩ | ⟨sub, log, -, same⟩ <;> rw [same]
  refine (SamePeers.giveUpAll { h.detach s with log } sub.queue).held.trans ?_
  refine (held_cancel (h.unsubscribe s) s).trans ?_
  rcases unsubscribe_cases h s with ⟨-, same⟩ | ⟨sub, p, -, -, same⟩ <;> rw [same]

theorem held_invalidate (h : Hub) (s : Nat) : (h.invalidate s).held = h.held := by
  rcases invalidate_cases h s with ⟨-, same⟩ | ⟨sub, a, -, -, same⟩ <;> rw [same]

theorem held_invalidateAll (h : Hub) (l : List Nat) : (l.foldl invalidate h).held = h.held := by
  induction l generalizing h with
  | nil => rfl
  | cons s l ih => exact (ih _).trans (held_invalidate h s)

theorem held_dropPublisher (h : Hub) (p : Nat) : (h.dropPublisher p).held = h.held := by
  rcases dropPublisher_cases h p with ⟨-, same⟩ | ⟨P, log, -, same⟩ <;> rw [same]
  exact held_invalidateAll h P.receivers

theorem held_apply {op : Operation} (hc : c ∈ h.held)
    (kept : op.Consumes c → 1 < h.held.count c) : c ∈ (h.apply op).held := by
  have letGo : ∀ d, (d = c → 1 < h.held.count c) → c ∈ (h.letGo d).held := by
    intro d several
    by_cases heq : d = c
    · have two := several heq
      rw [letGo, heq, ← List.count_pos_iff, List.count_erase_self]
      omega
    · exact (List.mem_erase_of_ne (Ne.symm heq)).2 hc
  cases op with
  | newPool name capacity factory =>
    simp only [apply, newPool, bind, Except.bind]
    cases Pool.new name capacity factory <;> exact hc
  | newPublisher | newMailbox | subscribeDetached | tally => exact hc
  | subscribe publisher erased =>
    rcases subscribe_cases h publisher erased with ⟨-, ⟨-, same⟩ | ⟨P, counters, log, -, same⟩⟩ <;>
      rw [apply, same] <;> exact hc
  | acquire pool =>
    simp only [apply]
    split
    · exact hc
    · rename_i taken
      obtain ⟨p, free, -, -, -, rfl⟩ := acquire?_eq_some taken
      exact hc
  | write blank payload =>
    simp only [apply, write]
    split <;> exact hc
  | chain blank upstream =>
    have still := letGo upstream kept
    simp only [apply, chain]
    split
    · split
      · exact still
      · rw [(SamePeers.giveUp _ _).held]
        exact still
    · exact hc
  | publish p blank =>
    rcases publish_cases h p blank with ⟨-, same⟩ | ⟨-, -, ⟨-, same⟩ | ⟨-, same⟩⟩ <;> rw [apply, same]
    · exact hc
    · exact (SamePeers.recycle (h.spend blank) blank).held ▸ hc
    · exact (held_pushAll (h := (h.spend blank).addCopies blank _)).symm ▸ hc
  | dropBlank blank =>
    simp only [apply, dropBlank]
    split
    · rw [(SamePeers.recycle _ _).held]
      exact hc
    · exact hc
  | pull s =>
    rcases pull_cases h s with ⟨same, -⟩ | ⟨sub, d, queue, -, -, -, same⟩ <;> rw [apply, same]
    · exact hc
    · exact List.mem_cons_of_mem d hc
  | arm s mailbox =>
    rw [apply]
    split
    · rw [held_arm]
      exact hc
    · exact hc
  | cancel s =>
    rw [apply, held_cancel]
    exact hc
  | wait mailbox =>
    obtain ⟨counters, same⟩ := wait_cases h mailbox
    rw [same]
    exact hc
  | takeCell cell =>
    rcases takeCell_cases h cell with ⟨-, -, same⟩ | ⟨d, -, -, same⟩ <;> rw [apply, same]
    · exact hc
    · exact List.mem_cons_of_mem d hc
  | dropCell cell =>
    rcases dropCell_cases h cell with ⟨-, same⟩ | ⟨d, -, same⟩ <;> rw [apply, same]
    · exact hc
    · rw [(SamePeers.giveUp _ d).held]
      exact hc
  | erase d =>
    have still := letGo d kept
    simp only [apply, erase]
    split
    · exact List.mem_cons_of_mem _ still
    · exact hc
  | release d =>
    have still := letGo d kept
    simp only [apply, release]
    split
    · rw [(SamePeers.giveUp _ d).held]
      exact still
    · exact hc
  | dropSubscription s =>
    rw [apply, held_dropSubscription]
    exact hc
  | dropPublisher p =>
    rw [apply, held_dropPublisher]
    exact hc

/-! ## Blanks -/

theorem blanks_apply {op : Operation} (hr : r ∈ h.blanks) (unpublished : ∀ p, op ≠ .publish p r)
    (kept : op ≠ .dropBlank r) : r ∈ (h.apply op).blanks := by
  cases op with
  | newPool name capacity factory =>
    simp only [apply, newPool, bind, Except.bind]
    cases Pool.new name capacity factory <;> exact hr
  | newPublisher | newMailbox | subscribeDetached | tally => exact hr
  | subscribe publisher erased => exact (SameStock.subscribe h publisher erased).blanks ▸ hr
  | acquire pool =>
    simp only [apply]
    split
    · exact hr
    · rename_i taken
      obtain ⟨p, free, -, -, -, rfl⟩ := acquire?_eq_some taken
      exact List.mem_cons_of_mem _ hr
  | write blank payload =>
    simp only [apply, write]
    split <;> exact hr
  | chain blank upstream =>
    simp only [apply, chain]
    split
    · split
      · exact hr
      · rw [(SamePeers.giveUp _ _).blanks]
        exact hr
    · exact hr
  | publish p blank =>
    have hne : r ≠ blank := fun heq => unpublished p (heq ▸ rfl)
    have spent : r ∈ (h.spend blank).blanks := (List.mem_erase_of_ne hne).2 hr
    rcases publish_cases h p blank with ⟨-, same⟩ | ⟨-, -, ⟨-, same⟩ | ⟨-, same⟩⟩ <;> rw [apply, same]
    · exact hr
    · exact (SamePeers.recycle (h.spend blank) blank).blanks ▸ spent
    · exact (SameStock.pushAll ((h.spend blank).addCopies blank _) blank h.serial _).blanks ▸ spent
  | dropBlank blank =>
    have hne : r ≠ blank := fun heq => kept (heq ▸ rfl)
    simp only [apply, dropBlank]
    split
    · rw [(SamePeers.recycle _ _).blanks]
      exact (List.mem_erase_of_ne hne).2 hr
    · exact hr
  | pull s => exact (SameStock.pull h s).blanks ▸ hr
  | arm s mailbox =>
    rw [apply]
    split
    · exact (SameStock.arm h s mailbox).blanks ▸ hr
    · exact hr
  | cancel s => exact (SameStock.cancel h s).blanks ▸ hr
  | wait mailbox =>
    obtain ⟨counters, same⟩ := wait_cases h mailbox
    rw [same]
    exact hr
  | takeCell cell => exact (SameStock.takeCell h cell).blanks ▸ hr
  | dropCell cell =>
    rcases dropCell_cases h cell with ⟨-, same⟩ | ⟨d, -, same⟩ <;> rw [apply, same]
    · exact hr
    · rw [(SamePeers.giveUp _ d).blanks]
      exact hr
  | erase d =>
    simp only [apply, erase]
    split <;> exact hr
  | release d =>
    simp only [apply, release]
    split
    · rw [(SamePeers.giveUp _ d).blanks]
      exact hr
    · exact hr
  | dropSubscription s =>
    rcases dropSubscription_cases h s with ⟨-, same⟩ | ⟨sub, log, -, same⟩ <;> rw [apply, same]
    · exact hr
    · rw [count, (SamePeers.giveUpAll _ sub.queue).blanks]
      exact (SameStock.detach h s).blanks ▸ hr
  | dropPublisher p => exact (SameStock.dropPublisher h p).blanks ▸ hr

theorem blanks_apply_cases {op : Operation} (owned : r ∈ (h.apply op).blanks) :
    r ∈ h.blanks ∨ ∃ h', op = .acquire r.pool ∧ h.acquire? r.pool = some (r, h') := by
  cases op with
  | acquire pool =>
    simp only [apply] at owned
    split at owned
    · exact .inl owned
    · rename_i blank h' taken
      obtain ⟨p, free, -, -, rfl, same⟩ := acquire?_eq_some taken
      rw [same] at owned
      rcases List.mem_cons.1 owned with rfl | old
      · exact .inr ⟨h', rfl, taken⟩
      · exact .inl old
  | newPool name capacity factory =>
    simp only [apply, newPool, bind, Except.bind] at owned
    cases made : Pool.new name capacity factory <;> rw [made] at owned <;> exact .inl owned
  | newPublisher | newMailbox | subscribeDetached | tally => exact .inl owned
  | subscribe p erased => exact .inl ((SameStock.subscribe h p erased).blanks ▸ owned)
  | write blank payload =>
    simp only [apply, write] at owned
    split at owned <;> exact .inl owned
  | chain blank upstream =>
    simp only [apply, chain] at owned
    split at owned
    · split at owned
      · exact .inl owned
      · rw [(SamePeers.giveUp _ _).blanks] at owned
        exact .inl owned
    · exact .inl owned
  | publish p blank =>
    have spent : ∀ b ∈ (h.spend blank).blanks, b ∈ h.blanks := fun b => List.mem_of_mem_erase
    rcases publish_cases h p blank with ⟨-, same⟩ | ⟨-, -, ⟨-, same⟩ | ⟨-, same⟩⟩ <;>
      rw [apply, same] at owned
    · exact .inl owned
    · rw [count, (SamePeers.recycle _ blank).blanks] at owned
      exact .inl (spent r owned)
    · refine .inl (spent r ?_)
      exact (SameStock.pushAll ((h.spend blank).addCopies blank _) blank h.serial _).blanks ▸ owned
  | dropBlank blank =>
    simp only [apply, dropBlank] at owned
    split at owned
    · rw [(SamePeers.recycle _ blank).blanks] at owned
      exact .inl (List.mem_of_mem_erase owned)
    · exact .inl owned
  | pull s => exact .inl ((SameStock.pull h s).blanks ▸ owned)
  | arm s mailbox =>
    simp only [apply] at owned
    split at owned
    · exact .inl ((SameStock.arm h s mailbox).blanks ▸ owned)
    · exact .inl owned
  | cancel s => exact .inl ((SameStock.cancel h s).blanks ▸ owned)
  | wait mailbox =>
    obtain ⟨counters, same⟩ := wait_cases h mailbox
    rw [same] at owned
    exact .inl owned
  | takeCell cell => exact .inl ((SameStock.takeCell h cell).blanks ▸ owned)
  | dropCell cell =>
    rcases dropCell_cases h cell with ⟨-, same⟩ | ⟨c, -, same⟩ <;> rw [apply, same] at owned
    · exact .inl owned
    · rw [(SamePeers.giveUp _ c).blanks] at owned
      exact .inl owned
  | erase c =>
    simp only [apply, erase] at owned
    split at owned <;> exact .inl owned
  | release c =>
    simp only [apply, release] at owned
    split at owned
    · rw [(SamePeers.giveUp _ c).blanks] at owned
      exact .inl owned
    · exact .inl owned
  | dropSubscription s =>
    rcases dropSubscription_cases h s with ⟨-, same⟩ | ⟨sub, log, -, same⟩ <;>
      rw [apply, same] at owned
    · exact .inl owned
    · rw [count, (SamePeers.giveUpAll _ sub.queue).blanks] at owned
      exact .inl ((SameStock.detach h s).blanks ▸ owned)
  | dropPublisher p => exact .inl ((SameStock.dropPublisher h p).blanks ▸ owned)

/-! ## Failed joins -/

def failedAt? (h : Hub) (mailbox : Nat) : Option Bool :=
  (h.mailboxes.get? mailbox).map (·.failed)

theorem failedAt?_modify {m i : Nat} {f : Mailbox → Mailbox} (hf : ∀ M, (f M).failed = M.failed) :
    ((h.mailboxes.modify i f).get? m).map (·.failed) = h.failedAt? m := by
  rw [Table.get?_modify, failedAt?]
  split
  · cases h.mailboxes.get? m with
    | none => rfl
    | some M => exact congrArg some (hf M)
  · rfl

theorem failedAt?_cancel (h : Hub) (s m : Nat) : (h.cancel s).failedAt? m = h.failedAt? m := by
  rcases cancel_cases h s with ⟨-, same⟩ | ⟨sub, a, -, -, same⟩ <;> rw [same]
  exact failedAt?_modify fun _ => rfl

theorem failedAt?_push (h : Hub) (r : SlotRef) (serial s m : Nat) :
    (h.push r serial s).failedAt? m = h.failedAt? m := by
  rcases push_cases h s r serial with
    ⟨-, same⟩ | ⟨sub, -, ⟨-, same⟩ | ⟨a, -, ⟨-, same⟩ | ⟨-, same⟩⟩⟩ <;> rw [same]
  · rfl
  · exact failedAt?_modify fun _ => rfl
  · exact failedAt?_modify fun _ => rfl

theorem failedAt?_pushAll {serial m : Nat} {l : List Nat} :
    (h.pushAll r serial l).failedAt? m = h.failedAt? m := by
  induction l generalizing h with
  | nil => rfl
  | cons s l ih => exact ih.trans (failedAt?_push h r serial s m)

theorem failedAt?_arm (h : Hub) (s : Nat) {m mailbox : Nat} (hne : m ≠ mailbox) :
    (h.arm s mailbox).2.failedAt? m = h.failedAt? m := by
  rw [← failedAt?_cancel h s m]
  rcases arm_cases h s mailbox with
    ⟨-, ⟨-, same⟩ | ⟨sub, -, ⟨c, queue, -, same⟩ | ⟨-, -, same⟩ | ⟨-, -, same⟩⟩⟩ <;> rw [same]
  · rfl
  · rfl
  · exact failedAt?_modify fun _ => rfl
  · rw [failedAt?, Table.get?_modify, if_neg hne, failedAt?]

theorem failedAt?_invalidateAll (h : Hub) (l : List Nat) (m : Nat) :
    (l.foldl invalidate h).failedAt? m = (h.failedAt? m).map fun failed =>
      failed || l.any fun s => (h.armedOf? s).any (·.mailbox = m) := by
  induction l generalizing h with
  | nil =>
    change h.failedAt? m = _
    cases h.failedAt? m <;> simp
  | cons s l ih =>
    have here : (h.invalidate s).failedAt? m = (h.failedAt? m).map fun failed =>
        failed || (h.armedOf? s).any (·.mailbox = m) := by
      rcases invalidate_cases h s with ⟨unarmed, same⟩ | ⟨sub, a, hs, armed, same⟩ <;> rw [same]
      · have idle : h.armedOf? s = none := Option.bind_eq_none_iff.2 unarmed
        rw [idle]
        change h.failedAt? m = _
        cases h.failedAt? m <;> simp
      · have named : h.armedOf? s = some a := armedOf?_eq_some.2 ⟨sub, hs, armed⟩
        rw [named, failedAt?, Table.get?_modify, failedAt?]
        by_cases hm : m = a.mailbox
        · cases h.mailboxes.get? m <;> simp [hm, Mailbox.fail]
        · cases h.mailboxes.get? m <;> simp [hm, Ne.symm hm]
    have others : (l.any fun t => ((h.invalidate s).armedOf? t).any (·.mailbox = m)) =
        l.any fun t => t ≠ s && (h.armedOf? t).any (·.mailbox = m) := by
      congr 1
      funext t
      rw [armedOf?, get?_invalidate]
      by_cases heq : t = s
      · cases h.subscriptions.get? t <;> simp [heq]
      · simp [heq, armedOf?]
    rw [List.foldl_cons, ih, here, others, List.any_cons]
    cases h.failedAt? m with
    | none => rfl
    | some failed =>
      simp only [Option.map_some, Option.some.injEq, Bool.or_assoc]
      congr 1
      by_cases now : (h.armedOf? s).any (·.mailbox = m)
      · simp [now]
      · have rest : (fun t => decide (t ≠ s) && (h.armedOf? t).any (·.mailbox = m)) =
            fun t => (h.armedOf? t).any (·.mailbox = m) := by
          funext t
          by_cases heq : t = s
          · simp [heq, now]
          · simp [heq]
        rw [rest]

theorem failedAt?_apply {op : Operation} {m : Nat} {failed : Bool} (he : h.Enrolled)
    (there : h.failedAt? m = some failed) (unarmed : ∀ s, op ≠ .arm s m) :
    ∃ failed', (h.apply op).failedAt? m = some failed' ∧ (failed' = true ↔ failed = true ∨
      ∃ p s a, op = .dropPublisher p ∧ h.publisherOf? s = some p ∧ h.armedOf? s = some a ∧
        a.mailbox = m) := by
  have same : (∀ p, op ≠ .dropPublisher p) → (h.apply op).failedAt? m = h.failedAt? m →
      ∃ failed', (h.apply op).failedAt? m = some failed' ∧ (failed' = true ↔ failed = true ∨
        ∃ p s a, op = .dropPublisher p ∧ h.publisherOf? s = some p ∧ h.armedOf? s = some a ∧
          a.mailbox = m) := by
    intro other heq
    refine ⟨failed, heq.trans there, ⟨.inl, fun hf => hf.resolve_right ?_⟩⟩
    rintro ⟨p, s, a, hop, -⟩
    exact other p hop
  by_cases hop : op.OnBuffers
  · refine same (fun p heq => ?_) ?_
    · rw [heq] at hop
      exact hop
    · rw [failedAt?, (SameLinks.apply h hop).mailboxes, failedAt?]
  cases op with
  | newPublisher | subscribeDetached => exact same (by simp) rfl
  | newMailbox =>
    refine same (by simp) ?_
    obtain ⟨M, hM, -⟩ := Option.map_eq_some_iff.1 there
    rw [apply, newMailbox, failedAt?, Table.get?_insert, if_neg (Nat.ne_of_lt (Table.get?_lt hM)),
      failedAt?]
  | subscribe publisher erased =>
    refine same (by simp) ?_
    rcases subscribe_cases h publisher erased with ⟨-, ⟨-, eq⟩ | ⟨P, counters, log, -, eq⟩⟩ <;>
      rw [apply, eq] <;> rfl
  | publish p blank =>
    refine same (by simp) ?_
    rcases publish_cases h p blank with ⟨-, eq⟩ | ⟨-, -, ⟨-, eq⟩ | ⟨-, eq⟩⟩ <;> rw [apply, eq]
    · change ((h.spend blank).recycle blank).failedAt? m = h.failedAt? m
      rw [failedAt?, (SamePeers.recycle _ blank).links.mailboxes]
      rfl
    · exact failedAt?_pushAll (h := (h.spend blank).addCopies blank (h.receivers p).length)
  | pull s =>
    refine same (by simp) ?_
    rcases pull_cases h s with ⟨eq, -⟩ | ⟨sub, c, queue, -, -, -, eq⟩ <;> rw [apply, eq]
    rfl
  | arm s mailbox =>
    refine same (by simp) ?_
    have hne : m ≠ mailbox := fun heq => unarmed s (heq ▸ rfl)
    rw [apply]
    split
    · exact failedAt?_arm h s hne
    · rfl
  | cancel s => exact same (by simp) (failedAt?_cancel h s m)
  | takeCell cell =>
    refine same (by simp) ?_
    rcases takeCell_cases h cell with ⟨-, -, eq⟩ | ⟨c, -, -, eq⟩ <;> rw [apply, eq]
    rfl
  | dropCell cell =>
    refine same (by simp) ?_
    rcases dropCell_cases h cell with ⟨-, eq⟩ | ⟨c, -, eq⟩ <;> rw [apply, eq]
    · rfl
    · rw [failedAt?, (SamePeers.giveUp _ c).links.mailboxes]
      rfl
  | dropSubscription s =>
    refine same (by simp) ?_
    rcases dropSubscription_cases h s with ⟨-, eq⟩ | ⟨sub, log, -, eq⟩ <;> rw [apply, eq]
    rw [failedAt?, count, (SamePeers.giveUpAll { h.detach s with log } sub.queue).links.mailboxes]
    refine (failedAt?_cancel (h.unsubscribe s) s m).trans ?_
    rcases unsubscribe_cases h s with ⟨-, eq⟩ | ⟨sub, p, -, -, eq⟩ <;> rw [eq]
    rfl
  | dropPublisher p =>
    rcases dropPublisher_cases h p with ⟨gone, eq⟩ | ⟨P, log, hP, eq⟩
    · rw [apply, eq]
      refine ⟨failed, there, ⟨.inl, fun hf => hf.resolve_right ?_⟩⟩
      rintro ⟨q, s, a, hop', hs, -⟩
      obtain rfl := Operation.dropPublisher.inj hop'
      have alive := he.alive s p hs
      simp [gone] at alive
    · have after : (h.dropPublisher p).failedAt? m = (P.receivers.foldl invalidate h).failedAt? m := by
        rw [eq]
        rfl
      rw [apply, after, failedAt?_invalidateAll, there]
      refine ⟨_, rfl, ?_⟩
      rw [Bool.or_eq_true, List.any_eq_true]
      refine or_congr Iff.rfl ⟨?_, ?_⟩
      · rintro ⟨s, hs, armed⟩
        obtain ⟨a, ha, hm⟩ := (Option.any_eq_true _ _).1 armed
        exact ⟨p, s, a, rfl, (he.paired p P hP s).1 hs, ha, by simpa using hm⟩
      · rintro ⟨q, s, a, hop', hs, ha, hm⟩
        obtain rfl := Operation.dropPublisher.inj hop'
        exact ⟨s, (he.paired p P hP s).2 hs, by simp [ha, hm]⟩
  | newPool | acquire | write | chain | dropBlank | wait | erase | release | tally =>
    exact absurd trivial hop

end Hub

end BufferFlow
