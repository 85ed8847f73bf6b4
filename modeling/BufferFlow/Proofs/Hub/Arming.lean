import BufferFlow.Proofs.Hub.Wiring

set_option autoImplicit false

namespace BufferFlow.Hub

variable {h h' : Hub} {s : Nat}

/-- What is armed waits: nothing is queued, somebody may still deliver, and the cell is empty and
nobody else's. -/
structure Armament (h : Hub) : Prop where
  drained : ∀ s a, h.armedOf? s = some a → h.queueOf s = []
  active : ∀ s a, h.armedOf? s = some a → (h.publisherOf? s).isSome
  empty : ∀ s a, h.armedOf? s = some a → h.contents? a.cell = none
  given : ∀ s a, h.armedOf? s = some a → a.cell < h.cells.next
  apart : ∀ s t a b, h.armedOf? s = some a → h.armedOf? t = some b → a.cell = b.cell → s = t

namespace Armament

theorem still (ha : h.Armament)
    (armed : ∀ s a, h'.armedOf? s = some a → h.armedOf? s = some a ∧
      h'.queueOf s = h.queueOf s ∧ h'.publisherOf? s = h.publisherOf? s ∧
      h'.contents? a.cell = none)
    (next : h.cells.next ≤ h'.cells.next) : h'.Armament := by
  refine ⟨fun s a hs => ?_, fun s a hs => ?_, fun s a hs => ?_, fun s a hs => ?_,
    fun s t a b hs ht heq => ?_⟩
  · obtain ⟨before, queue, -, -⟩ := armed s a hs
    rw [queue]
    exact ha.drained s a before
  · obtain ⟨before, -, publisher, -⟩ := armed s a hs
    rw [publisher]
    exact ha.active s a before
  · exact (armed s a hs).2.2.2
  · exact Nat.lt_of_lt_of_le (ha.given s a (armed s a hs).1) next
  · exact ha.apart s t a b (armed s a hs).1 (armed t b ht).1 heq

theorem sameSubscriptions (ha : h.Armament) (same : h'.subscriptions = h.subscriptions)
    (cells : ∀ cell, h.contents? cell = none → h'.contents? cell = none)
    (next : h.cells.next ≤ h'.cells.next) : h'.Armament := by
  refine ha.still (fun s a hs => ?_) next
  rw [armedOf?, same] at hs
  refine ⟨hs, ?_, ?_, cells _ (ha.empty s a hs)⟩
  · rw [queueOf, same, queueOf]
  · rw [publisherOf?, same, publisherOf?]

theorem ofLinks (ha : h.Armament) (same : SameLinks h h') : h'.Armament :=
  ha.sameSubscriptions same.subscriptions
    (fun cell hc => by rw [contents?, same.cells]; exact hc) (Nat.le_of_eq (same.cells ▸ rfl))

theorem unarmed (ha : h.Armament)
    (others : ∀ t, t ≠ s → h'.subscriptions.get? t = h.subscriptions.get? t)
    (here : h'.armedOf? s = none)
    (cells : ∀ t a, t ≠ s → h.armedOf? t = some a → h'.contents? a.cell = none)
    (next : h.cells.next ≤ h'.cells.next) : h'.Armament := by
  refine ha.still (fun t a ht => ?_) next
  have hne : t ≠ s := by
    rintro rfl
    rw [here] at ht
    simp at ht
  rw [armedOf?, others t hne] at ht
  refine ⟨ht, ?_, ?_, cells t a hne ht⟩
  · rw [queueOf, others t hne, queueOf]
  · rw [publisherOf?, others t hne, publisherOf?]

theorem cancel (ha : h.Armament) (s : Nat) : (h.cancel s).Armament := by
  refine ha.unarmed (s := s) (Local.cancel h s).others (armedOf?_cancel h s) (fun t a _ ht => ?_) ?_
  · rw [contents?, cells_cancel]
    exact ha.empty t a ht
  · exact Nat.le_of_eq (cells_cancel h s ▸ rfl)

theorem push (ha : h.Armament) (r : SlotRef) (serial s : Nat) : (h.push r serial s).Armament := by
  have others := (Local.push h r serial s).others
  rcases push_cases h s r serial with
    ⟨-, same⟩ | ⟨sub, hs, ⟨idle, same⟩ | ⟨a, armed, ⟨-, same⟩ | ⟨-, same⟩⟩⟩ <;>
    rw [same] at others ⊢
  · exact ha
  · refine ha.unarmed others ?_ (fun t a _ ht => ha.empty t a ht) (Nat.le_refl _)
    simp [armedOf?, Table.get?_modify, hs, idle]
  · refine ha.unarmed others ?_ (fun t b hne ht => ?_) (Nat.le_refl _)
    · simp [armedOf?, Table.get?_modify, hs]
    · have own : b.cell ≠ a.cell := fun heq =>
        hne (ha.apart t s b a ht (armedOf?_eq_some.2 ⟨sub, hs, armed⟩) heq)
      rw [contents?, Table.get?_modify, if_neg own]
      exact ha.empty t b ht
  · refine ha.unarmed others ?_ (fun t b _ ht => ha.empty t b ht) (Nat.le_refl _)
    simp [armedOf?, Table.get?_modify, hs]

theorem pushAll (ha : h.Armament) (r : SlotRef) (serial : Nat) (l : List Nat) :
    (h.pushAll r serial l).Armament := by
  induction l generalizing h with
  | nil => exact ha
  | cons s l ih => exact ih (ha.push r serial s)

theorem publish (ha : h.Armament) (p : Nat) (blank : SlotRef) :
    (h.publish p blank).2.Armament := by
  rcases publish_cases h p blank with ⟨-, same⟩ | ⟨-, -, ⟨-, same⟩ | ⟨-, same⟩⟩ <;> rw [same]
  · exact ha
  · have spent : (h.spend blank).Armament := ha.ofLinks ⟨rfl, rfl, rfl, rfl⟩
    exact (spent.ofLinks (SamePeers.recycle _ blank).links).ofLinks ⟨rfl, rfl, rfl, rfl⟩
  · have counted : ((h.spend blank).addCopies blank (h.receivers p).length).Armament :=
      ha.ofLinks ⟨rfl, rfl, rfl, rfl⟩
    exact (counted.pushAll _ _ _).ofLinks ⟨rfl, rfl, rfl, rfl⟩

theorem idle_of_queue (ha : h.Armament) {sub : Subscription}
    (hs : h.subscriptions.get? s = some sub) (hq : sub.queue ≠ []) : sub.armed = none := by
  cases armed : sub.armed with
  | none => rfl
  | some a =>
    have drained := ha.drained s a (armedOf?_eq_some.2 ⟨sub, hs, armed⟩)
    simp [queueOf, hs, hq] at drained

theorem pull (ha : h.Armament) (s : Nat) : (h.pull s).2.Armament := by
  have others := (Local.pull h s).others
  rcases pull_cases h s with ⟨same, -⟩ | ⟨sub, c, queue, hs, hq, -, same⟩ <;> rw [same] at others ⊢
  · exact ha
  · have idle := ha.idle_of_queue hs (by simp [hq])
    refine ha.unarmed others ?_ (fun t a _ ht => ha.empty t a ht) (Nat.le_refl _)
    simp [armedOf?, Table.get?_modify, hs, idle]

theorem newCell (ha : h.Armament) {cells : Table (Option Copy)} {contents : Option Copy}
    (hc : cells = (h.cells.insert contents).2) {s : Nat} {a : Armed} (hs : h.armedOf? s = some a) :
    (cells.get? a.cell).bind id = none := by
  rw [hc, Table.get?_insert, if_neg (Nat.ne_of_lt (ha.given s a hs))]
  exact ha.empty s a hs

theorem armNew (ha : h.Armament) {sub : Subscription} {mailbox : Nat}
    {mailboxes : Table Mailbox} (hs : h.subscriptions.get? s = some sub) (hq : sub.queue = [])
    (active : sub.isActive = true) :
    { h with
      subscriptions := h.subscriptions.modify s ({ · with armed := some ⟨h.cells.next, mailbox⟩ })
      mailboxes
      cells := (h.cells.insert none).2 }.Armament := by
  have armed : ∀ t a, ((h.subscriptions.modify s
      ({ · with armed := some ⟨h.cells.next, mailbox⟩ })).get? t).bind (·.armed) = some a →
      (t = s ∧ a = ⟨h.cells.next, mailbox⟩) ∨ (t ≠ s ∧ h.armedOf? t = some a) := by
    intro t a ht
    rw [Table.get?_modify] at ht
    split at ht
    · rename_i heq
      subst heq
      rw [hs] at ht
      exact .inl ⟨rfl, (Option.some.inj ht).symm⟩
    · rename_i hne
      exact .inr ⟨hne, ht⟩
  refine ⟨fun t a ht => ?_, fun t a ht => ?_, fun t a ht => ?_, fun t a ht => ?_,
    fun t u a b ht hu heq => ?_⟩
  · rcases armed t a ht with ⟨rfl, rfl⟩ | ⟨hne, before⟩
    · simp [queueOf, Table.get?_modify, hs, hq]
    · rw [queueOf, Table.get?_modify, if_neg hne]
      exact ha.drained t a before
  · rcases armed t a ht with ⟨rfl, rfl⟩ | ⟨hne, before⟩
    · simpa [publisherOf?, Table.get?_modify, hs, Subscription.isActive] using active
    · rw [publisherOf?, Table.get?_modify, if_neg hne]
      exact ha.active t a before
  · rcases armed t a ht with ⟨-, rfl⟩ | ⟨-, before⟩
    · simp [contents?, Table.get?_insert]
    · exact ha.newCell rfl before
  · rcases armed t a ht with ⟨-, rfl⟩ | ⟨-, before⟩
    · exact Nat.lt_succ_self _
    · exact Nat.lt_succ_of_lt (ha.given t a before)
  · rcases armed t a ht with ⟨rfl, rfl⟩ | ⟨-, htBefore⟩ <;>
      rcases armed u b hu with ⟨rfl, rfl⟩ | ⟨-, huBefore⟩
    · rfl
    · exact absurd heq.symm (Nat.ne_of_lt (ha.given u b huBefore))
    · exact absurd heq (Nat.ne_of_lt (ha.given t a htBefore))
    · exact ha.apart t u a b htBefore huBefore heq

theorem arm (ha : h.Armament) (s mailbox : Nat) : (h.arm s mailbox).2.Armament := by
  have hc := ha.cancel s
  have unarmed := armedOf?_cancel h s
  rcases arm_cases h s mailbox with
    ⟨-, ⟨-, same⟩ | ⟨sub, hs, ⟨c, queue, hq, same⟩ | ⟨hq, active, same⟩ | ⟨-, -, same⟩⟩⟩ <;> rw [same]
  · refine hc.unarmed (s := s) (fun _ _ => rfl) unarmed (fun t a _ ht => ?_) (Nat.le_succ _)
    exact hc.newCell rfl ht
  · have idle := hc.idle_of_queue hs (by simp [hq])
    refine hc.unarmed (s := s) (fun t ht => ?_) ?_ (fun t a _ ht => ?_) (Nat.le_succ _)
    · rw [Table.get?_modify, if_neg ht]
    · simp [armedOf?, Table.get?_modify, hs, idle]
    · exact hc.newCell rfl ht
  · exact hc.armNew hs hq active
  · refine hc.unarmed (s := s) (fun _ _ => rfl) unarmed (fun t a _ ht => ?_) (Nat.le_succ _)
    exact hc.newCell rfl ht

theorem newSubscription (ha : h.Armament) (sub : Subscription) (idle : sub.armed = none)
    (subscriptions : h'.subscriptions = (h.subscriptions.insert sub).2)
    (cells : h'.cells = h.cells) : h'.Armament := by
  refine ha.unarmed (s := h.subscriptions.next) (fun t ht => ?_) ?_ (fun t a _ ht => ?_)
    (Nat.le_of_eq (cells ▸ rfl))
  · rw [subscriptions, Table.get?_insert, if_neg ht]
  · simp [armedOf?, subscriptions, Table.get?_insert, idle]
  · rw [contents?, cells]
    exact ha.empty t a ht

theorem subscribe (ha : h.Armament) (p : Nat) (erased : Bool) :
    (h.subscribe p erased).2.Armament := by
  rcases subscribe_cases h p erased with ⟨-, ⟨-, same⟩ | ⟨P, counters, log, -, same⟩⟩ <;> rw [same]
  · exact ha.newSubscription { erased, publisher := none } rfl rfl rfl
  · exact ha.newSubscription { erased, publisher := some p } rfl rfl rfl

theorem detach (ha : h.Armament) (s : Nat) : (h.detach s).Armament := by
  refine ha.unarmed (s := s) (fun t ht => ?_) ?_ (fun t a _ ht => ?_)
    (Nat.le_of_eq (cells_detach h s ▸ rfl))
  · rw [get?_detach, if_neg ht]
  · rw [armedOf?, get?_detach, if_pos rfl]
    rfl
  · rw [contents?, cells_detach]
    exact ha.empty t a ht

theorem dropSubscription (ha : h.Armament) (s : Nat) : (h.dropSubscription s).Armament := by
  rcases dropSubscription_cases h s with ⟨-, same⟩ | ⟨sub, log, -, same⟩ <;> rw [same]
  · exact ha
  · have detached : { h.detach s with log }.Armament := (ha.detach s).ofLinks ⟨rfl, rfl, rfl, rfl⟩
    exact (detached.ofLinks (SamePeers.giveUpAll _ _).links).ofLinks ⟨rfl, rfl, rfl, rfl⟩

theorem invalidate (ha : h.Armament) (s : Nat) : (h.invalidate s).Armament := by
  refine ha.unarmed (s := s) (fun t ht => ?_) ?_ (fun t a _ ht => ?_)
    (Nat.le_of_eq (cells_invalidate h s ▸ rfl))
  · rw [get?_invalidate, if_neg ht]
  · rw [armedOf?, get?_invalidate, if_pos rfl]
    cases h.subscriptions.get? s <;> rfl
  · rw [contents?, cells_invalidate]
    exact ha.empty t a ht

theorem invalidateAll (ha : h.Armament) (l : List Nat) : (l.foldl Hub.invalidate h).Armament := by
  induction l generalizing h with
  | nil => exact ha
  | cons s l ih => exact ih (ha.invalidate s)

theorem dropPublisher (ha : h.Armament) (p : Nat) : (h.dropPublisher p).Armament := by
  rcases dropPublisher_cases h p with ⟨-, same⟩ | ⟨P, log, -, same⟩ <;> rw [same]
  · exact ha
  · exact (ha.invalidateAll P.receivers).sameSubscriptions rfl (fun _ hc => hc) (Nat.le_refl _)

theorem takeCell (ha : h.Armament) (cell : Nat) : (h.takeCell cell).2.Armament := by
  rcases takeCell_cases h cell with ⟨-, -, same⟩ | ⟨c, -, -, same⟩ <;> rw [same]
  · exact ha
  · refine ha.sameSubscriptions rfl (fun i hi => ?_) (Nat.le_refl _)
    rw [contents?, Table.get?_modify]
    split
    · cases h.cells.get? i <;> rfl
    · exact hi

theorem dropCell (ha : h.Armament) (cell : Nat) : (h.dropCell cell).Armament := by
  refine ha.sameSubscriptions (subscriptions_dropCell h cell) (fun i hi => ?_)
    (Nat.le_of_eq (cells_next_dropCell h cell).symm)
  rw [contents?, get?_dropCell]
  split
  · rfl
  · exact hi

theorem apply (ha : h.Armament) (op : Operation) : (h.apply op).Armament := by
  by_cases hop : op.OnBuffers
  · exact ha.ofLinks (.apply h hop)
  cases op with
  | newPublisher | newMailbox =>
    exact ha.sameSubscriptions rfl (fun _ hc => hc) (Nat.le_refl _)
  | subscribe publisher erased => exact ha.subscribe publisher erased
  | subscribeDetached erased =>
    exact ha.newSubscription { erased, publisher := none } rfl rfl rfl
  | publish publisher blank => exact ha.publish publisher blank
  | pull subscription => exact ha.pull subscription
  | arm subscription mailbox =>
    rw [Hub.apply]
    split
    · exact ha.arm subscription mailbox
    · exact ha
  | cancel subscription => exact ha.cancel subscription
  | takeCell cell => exact ha.takeCell cell
  | dropCell cell => exact ha.dropCell cell
  | dropSubscription subscription => exact ha.dropSubscription subscription
  | dropPublisher publisher => exact ha.dropPublisher publisher
  | newPool | acquire | write | chain | dropBlank | wait | erase | release | tally =>
    exact absurd trivial hop

end Armament

end BufferFlow.Hub
