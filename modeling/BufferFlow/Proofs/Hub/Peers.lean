import BufferFlow.Proofs.Hub.Recycling
import BufferFlow.Proofs.Hub.Steps

set_option autoImplicit false

namespace BufferFlow

namespace Hub

variable {h h' : Hub} {s : Nat}

def publisherOf? (h : Hub) (s : Nat) : Option Nat := (h.subscriptions.get? s).bind (·.publisher)

def armedOf? (h : Hub) (s : Nat) : Option Armed := (h.subscriptions.get? s).bind (·.armed)

def queueOf (h : Hub) (s : Nat) : List Copy := ((h.subscriptions.get? s).map (·.queue)).getD []

def contents? (h : Hub) (cell : Nat) : Option Copy := (h.cells.get? cell).bind id

theorem armedOf?_eq_some {a : Armed} :
    h.armedOf? s = some a ↔ ∃ sub, h.subscriptions.get? s = some sub ∧ sub.armed = some a :=
  Option.bind_eq_some_iff

theorem publisherOf?_eq_some {p : Nat} :
    h.publisherOf? s = some p ↔
      ∃ sub, h.subscriptions.get? s = some sub ∧ sub.publisher = some p :=
  Option.bind_eq_some_iff

theorem contents?_eq_some {cell : Nat} {c : Copy} :
    h.contents? cell = some c ↔ h.cells.get? cell = some (some c) := by
  simp [contents?, Option.bind_eq_some_iff]

/-- One subscription changes, and that one keeps its publisher and its kind. -/
structure Local (s : Nat) (h h' : Hub) : Prop where
  others : ∀ t, t ≠ s → h'.subscriptions.get? t = h.subscriptions.get? t
  kept : (h'.subscriptions.get? s).map (fun sub => (sub.publisher, sub.erased)) =
    (h.subscriptions.get? s).map fun sub => (sub.publisher, sub.erased)
  publishers : h'.publishers = h.publishers

namespace Local

theorem refl (s : Nat) (h : Hub) : Local s h h := ⟨fun _ _ => rfl, rfl, rfl⟩

theorem trans {h₁ h₂ h₃ : Hub} (a : Local s h₁ h₂) (b : Local s h₂ h₃) : Local s h₁ h₃ :=
  ⟨fun t ht => (b.others t ht).trans (a.others t ht), b.kept.trans a.kept,
    b.publishers.trans a.publishers⟩

theorem modify (h : Hub) (s : Nat) (f : Subscription → Subscription)
    (mailboxes : Table Mailbox) (cells : Table (Option Copy)) (held : List Copy)
    (hf : ∀ sub, ((f sub).publisher, (f sub).erased) = (sub.publisher, sub.erased)) :
    Local s h { h with
      subscriptions := h.subscriptions.modify s f
      mailboxes
      cells
      held } := by
  refine ⟨fun t ht => ?_, ?_, rfl⟩
  · rw [Table.get?_modify, if_neg ht]
  · rw [Table.get?_modify, if_pos rfl]
    cases h.subscriptions.get? s with
    | none => rfl
    | some sub => exact congrArg some (hf sub)

theorem cancel (h : Hub) (s : Nat) : Local s h (h.cancel s) := by
  rcases cancel_cases h s with ⟨-, same⟩ | ⟨sub, a, -, -, same⟩ <;> rw [same]
  · exact refl s h
  · exact modify _ _ _ _ _ _ fun _ => rfl

theorem push (h : Hub) (r : SlotRef) (serial s : Nat) : Local s h (h.push r serial s) := by
  rcases push_cases h s r serial with
    ⟨-, same⟩ | ⟨sub, -, ⟨-, same⟩ | ⟨a, -, ⟨-, same⟩ | ⟨-, same⟩⟩⟩ <;> rw [same]
  · exact refl s h
  · exact modify _ _ _ _ _ _ fun _ => rfl
  · exact modify _ _ _ _ _ _ fun _ => rfl
  · exact modify _ _ _ _ _ _ fun _ => rfl

theorem pull (h : Hub) (s : Nat) : Local s h (h.pull s).2 := by
  rcases pull_cases h s with ⟨same, -⟩ | ⟨sub, c, queue, -, -, -, same⟩ <;> rw [same]
  · exact refl s h
  · exact modify _ _ _ _ _ _ fun _ => rfl

theorem arm (h : Hub) (s mailbox : Nat) : Local s h (h.arm s mailbox).2 := by
  refine (cancel h s).trans ?_
  rcases arm_cases h s mailbox with
    ⟨-, ⟨-, same⟩ | ⟨sub, -, ⟨c, queue, -, same⟩ | ⟨-, -, same⟩ | ⟨-, -, same⟩⟩⟩ <;> rw [same]
  · exact ⟨fun _ _ => rfl, rfl, rfl⟩
  · exact modify _ _ _ _ _ _ fun _ => rfl
  · exact modify _ _ _ _ _ _ fun _ => rfl
  · exact ⟨fun _ _ => rfl, rfl, rfl⟩

theorem publisherOf? (l : Local s h h') (t : Nat) : h'.publisherOf? t = h.publisherOf? t := by
  by_cases ht : t = s
  · subst ht
    have hk := congrArg (Option.bind · Prod.fst) l.kept
    simpa [Option.bind_map, Function.comp_def, Hub.publisherOf?] using hk
  · rw [Hub.publisherOf?, l.others t ht, Hub.publisherOf?]

theorem armedOf? (l : Local s h h') {t : Nat} (ht : t ≠ s) : h'.armedOf? t = h.armedOf? t := by
  rw [Hub.armedOf?, l.others t ht, Hub.armedOf?]

end Local

/-- The links between publishers, subscriptions, mailboxes and cells are the same. -/
structure SameLinks (h h' : Hub) : Prop where
  publishers : h'.publishers = h.publishers
  subscriptions : h'.subscriptions = h.subscriptions
  mailboxes : h'.mailboxes = h.mailboxes
  cells : h'.cells = h.cells

theorem SamePeers.links (same : SamePeers h h') : SameLinks h h' := by
  obtain ⟨pools, counters, rfl⟩ := same
  exact ⟨rfl, rfl, rfl, rfl⟩

theorem SameLinks.trans {h₁ h₂ h₃ : Hub} (a : SameLinks h₁ h₂) (b : SameLinks h₂ h₃) :
    SameLinks h₁ h₃ :=
  ⟨b.publishers.trans a.publishers, b.subscriptions.trans a.subscriptions,
    b.mailboxes.trans a.mailboxes, b.cells.trans a.cells⟩

end Hub

/-- Whether the operation moves nothing over a subscription, a mailbox or a cell. -/
def Operation.OnBuffers : Operation → Prop
  | newPool .. | acquire .. | write .. | chain .. | dropBlank .. | wait .. | erase .. | release ..
  | tally .. => True
  | _ => False

namespace Hub

theorem SameLinks.apply (h : Hub) {op : Operation} (hop : op.OnBuffers) :
    SameLinks h (h.apply op) := by
  cases op with
  | newPool name capacity factory =>
    simp only [Hub.apply, Hub.newPool, bind, Except.bind]
    cases Pool.new name capacity factory <;> exact ⟨rfl, rfl, rfl, rfl⟩
  | acquire pool =>
    simp only [Hub.apply]
    split
    · exact ⟨rfl, rfl, rfl, rfl⟩
    · rename_i blank h' ha
      obtain ⟨p, free, -, -, -, rfl⟩ := acquire?_eq_some ha
      exact ⟨rfl, rfl, rfl, rfl⟩
  | write blank payload =>
    simp only [Hub.apply, Hub.write]
    split <;> exact ⟨rfl, rfl, rfl, rfl⟩
  | chain blank upstream =>
    simp only [Hub.apply, Hub.chain]
    split
    · split
      · exact ⟨rfl, rfl, rfl, rfl⟩
      · have moved : SameLinks h ((h.letGo upstream).modifySlot blank
            ({ · with chained := some { upstream with erased := true } })) := ⟨rfl, rfl, rfl, rfl⟩
        exact moved.trans (SamePeers.giveUp _ _).links
    · exact ⟨rfl, rfl, rfl, rfl⟩
  | dropBlank blank =>
    simp only [Hub.apply, Hub.dropBlank]
    split
    · have taken : SameLinks h (h.takeBlank blank) := ⟨rfl, rfl, rfl, rfl⟩
      exact taken.trans (SamePeers.recycle _ _).links
    · exact ⟨rfl, rfl, rfl, rfl⟩
  | wait mailbox =>
    simp only [Hub.apply, Hub.wait?, bind, Option.bind]
    cases h.mailboxes.get? mailbox with
    | none => exact ⟨rfl, rfl, rfl, rfl⟩
    | some m =>
      dsimp only
      cases m.verdict? <;> exact ⟨rfl, rfl, rfl, rfl⟩
  | erase copy =>
    simp only [Hub.apply, Hub.erase]
    split <;> exact ⟨rfl, rfl, rfl, rfl⟩
  | release copy =>
    simp only [Hub.apply, Hub.release]
    split
    · have taken : SameLinks h (h.letGo copy) := ⟨rfl, rfl, rfl, rfl⟩
      exact taken.trans (SamePeers.giveUp _ _).links
    · exact ⟨rfl, rfl, rfl, rfl⟩
  | tally counters log => exact ⟨rfl, rfl, rfl, rfl⟩
  | newPublisher | newMailbox | subscribe | subscribeDetached | publish | pull | arm | cancel
  | takeCell | dropCell | dropSubscription | dropPublisher => exact hop.elim

/-- Slots and blanks are the same, and nothing was published. -/
structure SameStock (h h' : Hub) : Prop where
  pools : h'.pools = h.pools
  blanks : h'.blanks = h.blanks
  serial : h'.serial = h.serial

namespace SameStock

theorem trans {h₁ h₂ h₃ : Hub} (a : SameStock h₁ h₂) (b : SameStock h₂ h₃) : SameStock h₁ h₃ :=
  ⟨b.pools.trans a.pools, b.blanks.trans a.blanks, b.serial.trans a.serial⟩

theorem cancel (h : Hub) (s : Nat) : SameStock h (h.cancel s) := by
  rcases cancel_cases h s with ⟨-, same⟩ | ⟨sub, a, -, -, same⟩ <;> rw [same] <;>
    exact ⟨rfl, rfl, rfl⟩

theorem push (h : Hub) (r : SlotRef) (serial s : Nat) : SameStock h (h.push r serial s) := by
  rcases push_cases h s r serial with
    ⟨-, same⟩ | ⟨sub, -, ⟨-, same⟩ | ⟨a, -, ⟨-, same⟩ | ⟨-, same⟩⟩⟩ <;> rw [same] <;>
    exact ⟨rfl, rfl, rfl⟩

theorem pull (h : Hub) (s : Nat) : SameStock h (h.pull s).2 := by
  rcases pull_cases h s with ⟨same, -⟩ | ⟨sub, c, queue, -, -, -, same⟩ <;> rw [same] <;>
    exact ⟨rfl, rfl, rfl⟩

theorem arm (h : Hub) (s mailbox : Nat) : SameStock h (h.arm s mailbox).2 := by
  refine (cancel h s).trans ?_
  rcases arm_cases h s mailbox with
    ⟨-, ⟨-, same⟩ | ⟨sub, -, ⟨c, queue, -, same⟩ | ⟨-, -, same⟩ | ⟨-, -, same⟩⟩⟩ <;> rw [same] <;>
    exact ⟨rfl, rfl, rfl⟩

theorem takeCell (h : Hub) (cell : Nat) : SameStock h (h.takeCell cell).2 := by
  rcases takeCell_cases h cell with ⟨-, -, same⟩ | ⟨c, -, -, same⟩ <;> rw [same] <;>
    exact ⟨rfl, rfl, rfl⟩

theorem subscribe (h : Hub) (p : Nat) (erased : Bool) : SameStock h (h.subscribe p erased).2 := by
  rcases subscribe_cases h p erased with ⟨-, ⟨-, same⟩ | ⟨P, counters, log, -, same⟩⟩ <;>
    rw [same] <;> exact ⟨rfl, rfl, rfl⟩

theorem detach (h : Hub) (s : Nat) : SameStock h (h.detach s) := by
  have unsubscribed : SameStock h (h.unsubscribe s) := by
    rcases unsubscribe_cases h s with ⟨-, same⟩ | ⟨sub, p, -, -, same⟩ <;> rw [same] <;>
      exact ⟨rfl, rfl, rfl⟩
  exact unsubscribed.trans ((cancel _ s).trans ⟨rfl, rfl, rfl⟩)

theorem invalidate (h : Hub) (s : Nat) : SameStock h (h.invalidate s) := by
  rcases invalidate_cases h s with ⟨-, same⟩ | ⟨sub, a, -, -, same⟩ <;> rw [same] <;>
    exact ⟨rfl, rfl, rfl⟩

theorem invalidateAll (h : Hub) (l : List Nat) : SameStock h (l.foldl Hub.invalidate h) := by
  induction l generalizing h with
  | nil => exact ⟨rfl, rfl, rfl⟩
  | cons s l ih => exact (invalidate h s).trans (ih _)

theorem dropPublisher (h : Hub) (p : Nat) : SameStock h (h.dropPublisher p) := by
  rcases dropPublisher_cases h p with ⟨-, same⟩ | ⟨P, log, -, same⟩ <;> rw [same]
  · exact ⟨rfl, rfl, rfl⟩
  · exact (invalidateAll h P.receivers).trans ⟨rfl, rfl, rfl⟩

end SameStock

theorem cells_cancel (h : Hub) (s : Nat) : (h.cancel s).cells = h.cells := by
  rcases cancel_cases h s with ⟨-, same⟩ | ⟨sub, a, -, -, same⟩ <;> rw [same]

theorem get?_cancel (h : Hub) (s : Nat) : (h.cancel s).subscriptions.get? s =
    (h.subscriptions.get? s).map ({ · with armed := none }) := by
  rcases cancel_cases h s with ⟨unarmed, same⟩ | ⟨sub, a, hs, -, same⟩ <;> rw [same]
  · cases hs : h.subscriptions.get? s with
    | none => rfl
    | some sub => simp [← unarmed sub hs]
  · rw [Table.get?_modify, if_pos rfl]

theorem armedOf?_cancel (h : Hub) (s : Nat) : (h.cancel s).armedOf? s = none := by
  rw [armedOf?, get?_cancel]
  cases h.subscriptions.get? s <;> rfl

theorem get?_unsubscribe (h : Hub) (s : Nat) : (h.unsubscribe s).subscriptions.get? s =
    (h.subscriptions.get? s).map ({ · with publisher := none }) := by
  rcases unsubscribe_cases h s with ⟨detached, same⟩ | ⟨sub, p, hs, -, same⟩ <;> rw [same]
  · cases hs : h.subscriptions.get? s with
    | none => rfl
    | some sub => simp [← detached sub hs]
  · rw [Table.get?_modify, if_pos rfl]

theorem get?_detach (h : Hub) (s t : Nat) :
    (h.detach s).subscriptions.get? t = if t = s then none else h.subscriptions.get? t := by
  rw [detach, Table.get?_erase]
  split
  · rfl
  · rename_i hne
    rw [(Local.cancel (h.unsubscribe s) s).others t hne]
    rcases unsubscribe_cases h s with ⟨-, same⟩ | ⟨sub, p, -, -, same⟩ <;> rw [same]
    rw [Table.get?_modify, if_neg hne]

theorem cells_detach (h : Hub) (s : Nat) : (h.detach s).cells = h.cells := by
  change ((h.unsubscribe s).cancel s).cells = h.cells
  rw [cells_cancel]
  rcases unsubscribe_cases h s with ⟨-, same⟩ | ⟨sub, p, -, -, same⟩ <;> rw [same]

theorem get?_invalidate (h : Hub) (s t : Nat) :
    (h.invalidate s).subscriptions.get? t =
      if t = s then (h.subscriptions.get? t).map ({ · with publisher := none, armed := none })
      else h.subscriptions.get? t := by
  rcases invalidate_cases h s with ⟨-, same⟩ | ⟨sub, a, -, -, same⟩ <;> rw [same] <;>
    exact Table.get?_modify _ _ _ _

theorem get?_invalidateAll (h : Hub) (l : List Nat) (t : Nat) :
    (l.foldl invalidate h).subscriptions.get? t =
      if t ∈ l then (h.subscriptions.get? t).map ({ · with publisher := none, armed := none })
      else h.subscriptions.get? t := by
  induction l generalizing h with
  | nil => simp
  | cons s l ih =>
    rw [List.foldl_cons, ih, get?_invalidate]
    by_cases hs : t = s
    · cases h.subscriptions.get? t <;> simp [← hs]
    · simp [hs]

@[simp] theorem publishers_invalidate (h : Hub) (s : Nat) :
    (h.invalidate s).publishers = h.publishers := by
  rcases invalidate_cases h s with ⟨-, same⟩ | ⟨sub, a, -, -, same⟩ <;> rw [same]

@[simp] theorem publishers_invalidateAll (h : Hub) (l : List Nat) :
    (l.foldl invalidate h).publishers = h.publishers := by
  induction l generalizing h with
  | nil => rfl
  | cons s l ih => rw [List.foldl_cons, ih, publishers_invalidate]

theorem cells_invalidate (h : Hub) (s : Nat) : (h.invalidate s).cells = h.cells := by
  rcases invalidate_cases h s with ⟨-, same⟩ | ⟨sub, a, -, -, same⟩ <;> rw [same]

theorem cells_invalidateAll (h : Hub) (l : List Nat) :
    (l.foldl invalidate h).cells = h.cells := by
  induction l generalizing h with
  | nil => rfl
  | cons s l ih => rw [List.foldl_cons, ih, cells_invalidate]

theorem get?_dropCell (h : Hub) (cell i : Nat) :
    (h.dropCell cell).cells.get? i = if i = cell then none else h.cells.get? i := by
  rcases dropCell_cases h cell with ⟨-, same⟩ | ⟨c, -, same⟩ <;> rw [same]
  · exact Table.get?_erase _ _ _
  · rw [(SamePeers.giveUp _ c).links.cells]
    exact Table.get?_erase _ _ _

theorem subscriptions_dropCell (h : Hub) (cell : Nat) :
    (h.dropCell cell).subscriptions = h.subscriptions := by
  rcases dropCell_cases h cell with ⟨-, same⟩ | ⟨c, -, same⟩ <;> rw [same]
  exact (SamePeers.giveUp _ c).links.subscriptions

theorem cells_next_dropCell (h : Hub) (cell : Nat) :
    (h.dropCell cell).cells.next = h.cells.next := by
  rcases dropCell_cases h cell with ⟨-, same⟩ | ⟨c, -, same⟩ <;> rw [same]
  · rfl
  · rw [(SamePeers.giveUp _ c).links.cells]
    rfl

theorem cells_dropSubscription (h : Hub) (s : Nat) : (h.dropSubscription s).cells = h.cells := by
  rcases dropSubscription_cases h s with ⟨-, same⟩ | ⟨sub, log, -, same⟩ <;> rw [same]
  change ({ h.detach s with log }.giveUpAll sub.queue).cells = h.cells
  rw [(SamePeers.giveUpAll _ sub.queue).links.cells]
  exact cells_detach h s

theorem get?_dropSubscription (h : Hub) (s t : Nat) :
    (h.dropSubscription s).subscriptions.get? t =
      if t = s then none else h.subscriptions.get? t := by
  rcases dropSubscription_cases h s with ⟨absent, same⟩ | ⟨sub, log, -, same⟩ <;> rw [same]
  · split
    · rename_i heq
      rw [heq, absent]
    · rfl
  · change ({ h.detach s with log }.giveUpAll sub.queue).subscriptions.get? t = _
    rw [(SamePeers.giveUpAll _ sub.queue).links.subscriptions]
    exact get?_detach h s t

theorem cells_dropPublisher (h : Hub) (p : Nat) : (h.dropPublisher p).cells = h.cells := by
  rcases dropPublisher_cases h p with ⟨-, same⟩ | ⟨P, log, -, same⟩ <;> rw [same]
  exact cells_invalidateAll h P.receivers

theorem get?_dropPublisher (h : Hub) (p t : Nat) :
    (h.dropPublisher p).subscriptions.get? t =
      if t ∈ h.receivers p then
        (h.subscriptions.get? t).map ({ · with publisher := none, armed := none })
      else h.subscriptions.get? t := by
  rcases dropPublisher_cases h p with ⟨gone, same⟩ | ⟨P, log, hP, same⟩ <;> rw [same]
  · simp [receivers, gone]
  · simp only [receivers, hP, Option.map_some, Option.getD_some]
    exact get?_invalidateAll h P.receivers t

theorem publishers_pushAll (h : Hub) (r : SlotRef) (serial : Nat) (l : List Nat) :
    (h.pushAll r serial l).publishers = h.publishers := by
  induction l generalizing h with
  | nil => rfl
  | cons s l ih => exact (ih _).trans (Local.push h r serial s).publishers

theorem publishers_publish (h : Hub) (p : Nat) (blank : SlotRef) :
    (h.publish p blank).2.publishers = h.publishers := by
  rcases publish_cases h p blank with ⟨-, same⟩ | ⟨-, -, ⟨-, same⟩ | ⟨-, same⟩⟩ <;> rw [same]
  · exact (SamePeers.recycle (h.spend blank) blank).links.publishers
  · exact publishers_pushAll _ blank h.serial (h.receivers p)

theorem publishers_dropSubscription (h : Hub) (s : Nat) :
    (h.dropSubscription s).publishers = (h.unsubscribe s).publishers := by
  rcases dropSubscription_cases h s with ⟨gone, same⟩ | ⟨sub, log, -, same⟩ <;> rw [same]
  · rw [unsubscribe, gone]
    rfl
  · have released := (SamePeers.giveUpAll { h.detach s with log } sub.queue).links.publishers
    have cancelled : (h.detach s).publishers = (h.unsubscribe s).publishers :=
      (Local.cancel _ s).publishers
    rw [count, released, cancelled]

end Hub

def Operation.MovesPublishers : Operation → Prop
  | newPublisher .. | subscribe .. | dropSubscription _ | dropPublisher _ => True
  | _ => False

namespace Hub

theorem publishers_apply {h : Hub} {op : Operation} (still : ¬ op.MovesPublishers) :
    (h.apply op).publishers = h.publishers := by
  by_cases hop : op.OnBuffers
  · exact (SameLinks.apply h hop).publishers
  cases op with
  | newMailbox | subscribeDetached => rfl
  | publish publisher blank => exact publishers_publish h publisher blank
  | pull s => exact (Local.pull h s).publishers
  | arm s mailbox =>
    rw [apply]
    split
    · exact (Local.arm h s mailbox).publishers
    · rfl
  | cancel s => exact (Local.cancel h s).publishers
  | takeCell cell =>
    rcases takeCell_cases h cell with ⟨-, -, same⟩ | ⟨c, -, -, same⟩ <;> rw [apply, same]
  | dropCell cell =>
    rcases dropCell_cases h cell with ⟨-, same⟩ | ⟨c, -, same⟩ <;> rw [apply, same]
    exact (SamePeers.giveUp { h with cells := h.cells.erase cell } c).links.publishers
  | newPublisher | subscribe | dropSubscription | dropPublisher => exact absurd trivial still
  | newPool | acquire | write | chain | dropBlank | wait | erase | release | tally =>
    exact absurd trivial hop

theorem poolOf?_modify {h : Hub} {p i : Nat} {f : Publisher → Publisher}
    (hf : ∀ P, h.publishers.get? i = some P → (f P).pool = P.pool) :
    ((h.publishers.modify i f).get? p).map (·.pool) = h.poolOf? p := by
  rw [Table.get?_modify, poolOf?]
  split
  · rename_i here
    cases found : h.publishers.get? p with
    | none => rfl
    | some P => exact congrArg some (hf P (here ▸ found))
  · rfl

theorem poolOf?_apply {h : Hub} {p : Nat} {op : Operation} (given : p < h.publishers.next)
    (kept : op ≠ .dropPublisher p) :
    (h.apply op).poolOf? p = h.poolOf? p ∧ p < (h.apply op).publishers.next := by
  by_cases still : ¬ op.MovesPublishers
  · rw [poolOf?, publishers_apply still]
    exact ⟨rfl, given⟩
  cases op with
  | newPublisher name pool =>
    refine ⟨?_, Nat.lt_succ_of_lt given⟩
    rw [apply, newPublisher, poolOf?, Table.get?_insert, if_neg (Nat.ne_of_lt given), poolOf?]
  | subscribe publisher erased =>
    rcases subscribe_cases h publisher erased with ⟨-, ⟨-, eq⟩ | ⟨P, counters, log, hP, eq⟩⟩ <;>
      rw [apply, eq]
    · exact ⟨rfl, given⟩
    · refine ⟨poolOf?_modify fun Q hQ => ?_, given⟩
      obtain rfl : P = Q := Option.some.inj (hP.symm.trans hQ)
      rw [attach]
      split <;> rfl
  | dropSubscription s =>
    rw [poolOf?, apply, publishers_dropSubscription]
    rcases unsubscribe_cases h s with ⟨-, eq⟩ | ⟨sub, q, -, -, eq⟩ <;> rw [eq]
    · exact ⟨rfl, given⟩
    · exact ⟨poolOf?_modify fun _ _ => rfl, given⟩
  | dropPublisher q =>
    have hne : p ≠ q := fun heq => kept (heq ▸ rfl)
    rcases dropPublisher_cases h q with ⟨-, eq⟩ | ⟨P, log, -, eq⟩ <;> rw [apply, eq]
    · exact ⟨rfl, given⟩
    · refine ⟨?_, ?_⟩
      · rw [poolOf?, publishers_invalidateAll, Table.get?_erase, if_neg hne, poolOf?]
      · rw [publishers_invalidateAll]
        exact given
  | newPool | newMailbox | subscribeDetached | acquire | write | chain | publish | dropBlank | pull
  | arm | cancel | wait | takeCell | dropCell | erase | release | tally =>
    exact absurd id still

theorem publisher_apply {h : Hub} {p : Nat} {op : Operation} (given : p < h.publishers.next)
    (kept : op ≠ .dropPublisher p) :
    (h.apply op).publishers.contains p = h.publishers.contains p ∧
      p < (h.apply op).publishers.next := by
  obtain ⟨same, next⟩ := poolOf?_apply given kept
  have named : ∀ g : Hub, g.publishers.contains p = (g.poolOf? p).isSome := fun g =>
    Option.isSome_map.symm
  exact ⟨by rw [named, same, named], next⟩

theorem publisher_dropped (h : Hub) (p : Nat) :
    (h.dropPublisher p).publishers.get? p = none := by
  rcases dropPublisher_cases h p with ⟨gone, same⟩ | ⟨P, log, -, same⟩ <;> rw [same]
  · exact gone
  · rw [Table.get?_erase, if_pos rfl]

theorem dead_dropPublisher (h : Hub) (p : Nat) :
    (h.apply (.dropPublisher p)).publishers.contains p = false := by
  rw [apply, Table.contains, publisher_dropped]
  rfl

end Hub

def Operation.MovesCells : Operation → Prop
  | publish .. | arm .. | takeCell .. | dropCell .. => True
  | _ => False

namespace Hub

theorem cells_apply {h : Hub} {op : Operation} (still : ¬ op.MovesCells) :
    (h.apply op).cells = h.cells := by
  by_cases hop : op.OnBuffers
  · exact (SameLinks.apply h hop).cells
  cases op with
  | newPublisher | newMailbox | subscribeDetached => rfl
  | subscribe publisher erased =>
    rcases subscribe_cases h publisher erased with ⟨-, ⟨-, same⟩ | ⟨P, counters, log, -, same⟩⟩ <;>
      rw [apply, same]
    rfl
  | pull s =>
    rcases pull_cases h s with ⟨same, -⟩ | ⟨sub, c, queue, -, -, -, same⟩ <;> rw [apply, same]
  | cancel s => exact cells_cancel h s
  | dropSubscription s => exact cells_dropSubscription h s
  | dropPublisher p => exact cells_dropPublisher h p
  | publish | arm | takeCell | dropCell => exact absurd trivial still
  | newPool | acquire | write | chain | dropBlank | wait | erase | release | tally =>
    exact absurd trivial hop

end Hub

end BufferFlow
