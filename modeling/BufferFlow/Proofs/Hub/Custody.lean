import BufferFlow.Proofs.Hub.Frames

set_option autoImplicit false

namespace BufferFlow

/-- What belongs to somebody. -/
structure Belongings where
  copies : List Copy := []
  blanks : List SlotRef := []
  cells : List Nat := []
  subscriptions : List Nat := []

namespace Belongings

instance : Append Belongings :=
  ⟨fun a b => ⟨a.copies ++ b.copies, a.blanks ++ b.blanks, a.cells ++ b.cells,
    a.subscriptions ++ b.subscriptions⟩⟩

def all (owners : List Belongings) : Belongings where
  copies := owners.flatMap (·.copies)
  blanks := owners.flatMap (·.blanks)
  cells := owners.flatMap (·.cells)
  subscriptions := owners.flatMap (·.subscriptions)

theorem all_cons (b : Belongings) (owners : List Belongings) : all (b :: owners) = b ++ all owners :=
  rfl

end Belongings

namespace Hub

/-- Everything in hand and every blank belongs to somebody, once for each time that it is there, and
so does every cell and subscription. -/
structure Entrusts (h : Hub) (b : Belongings) : Prop where
  copies : h.held.Perm b.copies
  blanks : h.blanks.Perm b.blanks
  cells : ∀ cell, h.cells.contains cell → cell ∈ b.cells
  subscriptions : ∀ s, h.subscriptions.contains s → s ∈ b.subscriptions

structure SameCustody (h h' : Hub) : Prop where
  held : h'.held = h.held
  blanks : h'.blanks = h.blanks
  cells : ∀ cell, h'.cells.contains cell = h.cells.contains cell
  subscriptions : ∀ s, h'.subscriptions.contains s = h.subscriptions.contains s

variable {h h' : Hub} {s : Nat} {c : Copy} {r : SlotRef} {b : Belongings}

theorem Local.contains (l : Local s h h') (t : Nat) :
    h'.subscriptions.contains t = h.subscriptions.contains t := by
  rw [Table.contains, Table.contains]
  by_cases here : t = s
  · subst here
    simpa using congrArg Option.isSome l.kept
  · rw [l.others t here]

namespace SameCustody

theorem trans {h₁ h₂ h₃ : Hub} (x : SameCustody h₁ h₂) (y : SameCustody h₂ h₃) :
    SameCustody h₁ h₃ where
  held := y.held.trans x.held
  blanks := y.blanks.trans x.blanks
  cells cell := (y.cells cell).trans (x.cells cell)
  subscriptions s := (y.subscriptions s).trans (x.subscriptions s)

theorem ofPeers (same : SamePeers h h') : SameCustody h h' :=
  ⟨same.held, same.blanks, fun _ => by rw [same.links.cells], fun _ => by
    rw [same.links.subscriptions]⟩

theorem cancel (h : Hub) (s : Nat) : SameCustody h (h.cancel s) :=
  ⟨held_cancel h s, (SameStock.cancel h s).blanks, fun _ => by rw [cells_cancel],
    (Local.cancel h s).contains⟩

theorem push (h : Hub) (r : SlotRef) (serial s : Nat) : SameCustody h (h.push r serial s) :=
  ⟨held_push h r serial s, (SameStock.push h r serial s).blanks, fun _ => contains_cells_push,
    (Local.push h r serial s).contains⟩

theorem pushAll (serial : Nat) (l : List Nat) : SameCustody h (h.pushAll r serial l) := by
  induction l generalizing h with
  | nil => exact ⟨rfl, rfl, fun _ => rfl, fun _ => rfl⟩
  | cons s l ih => exact (push h r serial s).trans ih

theorem dropPublisher (h : Hub) (p : Nat) : SameCustody h (h.dropPublisher p) := by
  refine ⟨held_dropPublisher h p, (SameStock.dropPublisher h p).blanks,
    fun _ => by rw [cells_dropPublisher], fun s => ?_⟩
  rw [Table.contains, Table.contains, get?_dropPublisher]
  split <;> simp

theorem write (h : Hub) (r : SlotRef) (payload : Payload) : SameCustody h (h.write r payload) := by
  rw [Hub.write]
  split <;> exact .ofPeers ⟨_, _, rfl⟩

end SameCustody

namespace Entrusts

theorem same (e : h.Entrusts b) (same : SameCustody h h') : h'.Entrusts b :=
  ⟨same.held ▸ e.copies, same.blanks ▸ e.blanks, fun cell hc => e.cells cell (same.cells cell ▸ hc),
    fun s hs => e.subscriptions s (same.subscriptions s ▸ hs)⟩

theorem perm {owners owners' : List Belongings} (e : h.Entrusts (.all owners))
    (p : owners.Perm owners') : h.Entrusts (.all owners') where
  copies := e.copies.trans (p.flatMap_right _)
  blanks := e.blanks.trans (p.flatMap_right _)
  cells cell hc := (p.flatMap_right _).mem_iff.1 (e.cells cell hc)
  subscriptions s hs := (p.flatMap_right _).mem_iff.1 (e.subscriptions s hs)

theorem cancelAll (e : h.Entrusts b) (sources : List Nat) : (sources.foldl cancel h).Entrusts b := by
  induction sources generalizing h with
  | nil => exact e
  | cons s sources ih => exact ih (e.same (.cancel h s))

variable {copies : List Copy} {blanks : List SlotRef} {cells subscriptions : List Nat}

theorem acquire {pool : Nat} (e : h.Entrusts ⟨copies, blanks, cells, subscriptions⟩)
    (taken : h.acquire? pool = some (r, h')) :
    h'.Entrusts ⟨copies, r :: blanks, cells, subscriptions⟩ := by
  obtain ⟨p, free, -, -, -, rfl⟩ := acquire?_eq_some taken
  exact ⟨e.copies, e.blanks.cons r, e.cells, e.subscriptions⟩

theorem takeBlank (e : h.Entrusts ⟨copies, r :: blanks, cells, subscriptions⟩) :
    (h.takeBlank r).Entrusts ⟨copies, blanks, cells, subscriptions⟩ :=
  ⟨e.copies, (e.blanks.erase r).trans (by simp), e.cells, e.subscriptions⟩

theorem publish (e : h.Entrusts ⟨copies, r :: blanks, cells, subscriptions⟩) (p : Nat) :
    (h.publish p r).2.Entrusts ⟨copies, blanks, cells, subscriptions⟩ := by
  have spent : (h.spend r).Entrusts ⟨copies, blanks, cells, subscriptions⟩ :=
    e.takeBlank.same ⟨rfl, rfl, fun _ => rfl, fun _ => rfl⟩
  rcases publish_cases h p r with ⟨missing, -⟩ | ⟨-, -, ⟨-, same⟩ | ⟨-, same⟩⟩
  · exact absurd (e.blanks.mem_iff.2 List.mem_cons_self) missing
  · rw [same]
    exact (spent.same (.ofPeers (.recycle (h.spend r) r))).same (.ofPeers ⟨_, _, rfl⟩)
  · rw [same]
    have counted : ((h.spend r).addCopies r (h.receivers p).length).Entrusts
        ⟨copies, blanks, cells, subscriptions⟩ := spent.same (.ofPeers ⟨_, _, rfl⟩)
    exact (counted.same (.pushAll h.serial (h.receivers p))).same (.ofPeers ⟨_, _, rfl⟩)

theorem dropBlank (e : h.Entrusts ⟨copies, r :: blanks, cells, subscriptions⟩) :
    (h.dropBlank r).Entrusts ⟨copies, blanks, cells, subscriptions⟩ := by
  rw [Hub.dropBlank, if_pos (e.blanks.mem_iff.2 List.mem_cons_self)]
  exact e.takeBlank.same (.ofPeers (.recycle _ r))

theorem letGo (e : h.Entrusts ⟨c :: copies, blanks, cells, subscriptions⟩) :
    (h.letGo c).Entrusts ⟨copies, blanks, cells, subscriptions⟩ :=
  ⟨(e.copies.erase c).trans (by simp), e.blanks, e.cells, e.subscriptions⟩

theorem release (e : h.Entrusts ⟨c :: copies, blanks, cells, subscriptions⟩) :
    (h.release c).Entrusts ⟨copies, blanks, cells, subscriptions⟩ := by
  rw [Hub.release, if_pos (e.copies.mem_iff.2 List.mem_cons_self)]
  exact e.letGo.same (.ofPeers (.giveUp _ c))

theorem chain (e : h.Entrusts ⟨c :: copies, blanks, cells, subscriptions⟩) (owned : r ∈ blanks) :
    (h.chain r c).Entrusts ⟨copies, blanks, cells, subscriptions⟩ := by
  rw [Hub.chain, if_pos ⟨e.blanks.mem_iff.2 owned, e.copies.mem_iff.2 List.mem_cons_self⟩]
  dsimp only
  split
  · exact e.letGo.same (.ofPeers ⟨_, _, rfl⟩)
  · exact (e.letGo.same (.ofPeers ⟨_, _, rfl⟩)).same (.ofPeers (.giveUp _ _))

theorem pull (e : h.Entrusts ⟨copies, blanks, cells, subscriptions⟩)
    (pulled : h.pull s = (.ready c, h')) :
    h'.Entrusts ⟨c :: copies, blanks, cells, subscriptions⟩ := by
  have contains := (Local.pull h s).contains
  have stock := SameStock.pull h s
  rcases pull_cases h s with ⟨-, none⟩ | ⟨sub, d, queue, -, -, ready, same⟩
  · exact absurd (congrArg (·.1) pulled) (none c)
  · rw [pulled] at ready same contains stock
    obtain rfl := Pulled.ready.inj ready
    refine ⟨?_, stock.blanks ▸ e.blanks, ?_, fun s hs => e.subscriptions s (contains s ▸ hs)⟩ <;>
      subst same
    · exact e.copies.cons c
    · exact e.cells

theorem arm (e : h.Entrusts ⟨copies, blanks, cells, subscriptions⟩) (s mailbox : Nat) :
    (h.arm s mailbox).2.Entrusts
      ⟨copies, blanks, (h.arm s mailbox).1 :: cells, subscriptions⟩ := by
  refine ⟨held_arm h s mailbox ▸ e.copies, (SameStock.arm h s mailbox).blanks ▸ e.blanks,
    fun cell hc => ?_, fun t ht => e.subscriptions t ((Local.arm h s mailbox).contains t ▸ ht)⟩
  obtain ⟨name, cases⟩ := arm_cases h s mailbox
  have there : cell = (h.arm s mailbox).1 ∨ h.cells.contains cell = true := by
    rw [name, ← cells_cancel h s]
    have fresh : ∀ contents, (((h.cancel s).cells.insert contents).2).contains cell = true →
        cell = (h.cancel s).cells.next ∨ (h.cancel s).cells.contains cell = true := by
      intro contents hc
      rw [Table.contains, Table.get?_insert] at hc
      split at hc
      · exact .inl ‹_›
      · exact .inr hc
    rcases cases with ⟨-, same⟩ | ⟨sub, -, ⟨d, queue, -, same⟩ | ⟨-, -, same⟩ | ⟨-, -, same⟩⟩ <;>
      rw [same] at hc <;> exact fresh _ hc
  rcases there with rfl | before
  · exact List.mem_cons_self
  · exact List.mem_cons_of_mem _ (e.cells cell before)

theorem takeCell (e : h.Entrusts ⟨copies, blanks, cells, subscriptions⟩) (cell : Nat) :
    (h.takeCell cell).2.Entrusts
      ⟨(h.takeCell cell).1.toList ++ copies, blanks, cells, subscriptions⟩ := by
  rcases takeCell_cases h cell with ⟨-, none, same⟩ | ⟨c, -, some, same⟩
  · rw [none, same]
    exact e
  · rw [some, same]
    refine ⟨e.copies.cons c, e.blanks, fun other hc => e.cells other ?_, e.subscriptions⟩
    simpa using hc

theorem dropCell {cell : Nat} (e : h.Entrusts ⟨copies, blanks, cell :: cells, subscriptions⟩) :
    (h.dropCell cell).Entrusts ⟨copies, blanks, cells, subscriptions⟩ := by
  have gone : ∀ other, (h.dropCell cell).cells.contains other → other ∈ cells := by
    intro other hc
    rw [Table.contains, get?_dropCell] at hc
    split at hc
    · simp at hc
    · exact (List.mem_cons.1 (e.cells other hc)).resolve_left ‹_›
  have subs := subscriptions_dropCell h cell
  rcases dropCell_cases h cell with ⟨-, same⟩ | ⟨c, -, same⟩
  · exact ⟨same ▸ e.copies, same ▸ e.blanks, gone, fun s hs => e.subscriptions s (subs ▸ hs)⟩
  · have peers : SamePeers { h with cells := h.cells.erase cell } (h.dropCell cell) :=
      same ▸ .giveUp _ c
    exact ⟨peers.held ▸ e.copies, peers.blanks ▸ e.blanks, gone,
      fun s hs => e.subscriptions s (subs ▸ hs)⟩

theorem dropCells {dropped : List Nat}
    (e : h.Entrusts ⟨copies, blanks, dropped ++ cells, subscriptions⟩) :
    (dropped.foldl Hub.dropCell h).Entrusts ⟨copies, blanks, cells, subscriptions⟩ := by
  induction dropped generalizing h with
  | nil => exact e
  | cons cell dropped ih => exact ih e.dropCell

theorem dropSubscription (e : h.Entrusts ⟨copies, blanks, cells, s :: subscriptions⟩) :
    (h.dropSubscription s).Entrusts ⟨copies, blanks, cells, subscriptions⟩ := by
  have blanks : (h.dropSubscription s).blanks = h.blanks := by
    rcases dropSubscription_cases h s with ⟨-, same⟩ | ⟨sub, log, -, same⟩ <;> rw [same]
    exact (SamePeers.giveUpAll { h.detach s with log } sub.queue).blanks.trans
      (SameStock.detach h s).blanks
  refine ⟨held_dropSubscription h s ▸ e.copies, blanks ▸ e.blanks,
    fun cell hc => e.cells cell (cells_dropSubscription h s ▸ hc), fun t ht => ?_⟩
  rw [Table.contains, get?_dropSubscription] at ht
  split at ht
  · simp at ht
  · exact (List.mem_cons.1 (e.subscriptions t ht)).resolve_left ‹_›

theorem dropSubscriptions {dropped : List Nat}
    (e : h.Entrusts ⟨copies, blanks, cells, dropped ++ subscriptions⟩) :
    (dropped.foldl Hub.dropSubscription h).Entrusts ⟨copies, blanks, cells, subscriptions⟩ := by
  induction dropped generalizing h with
  | nil => exact e
  | cons s dropped ih => exact ih e.dropSubscription

end Entrusts

end Hub

end BufferFlow
