import BufferFlow.Proofs.Hub.Wiring

set_option autoImplicit false

namespace BufferFlow.Hub

variable {h h' : Hub} {s cell : Nat} {c : Copy}

def queued (h : Hub) : List Copy := h.subscriptions.values.flatMap (·.queue)

def filled (h : Hub) : List Copy := h.cells.values.filterMap id

/-- The copies that no slot holds. -/
def loose (h : Hub) : List Copy := h.held ++ h.queued ++ h.filled

def copies (h : Hub) : List Copy := h.loose ++ h.chained

theorem queued_perm {sub : Subscription} (hs : h.subscriptions.get? s = some sub) :
    ∃ rest, h.queued.Perm (sub.queue ++ rest) ∧
      (h.subscriptions.erase s).values.flatMap (·.queue) = rest ∧
      ∀ f, ((h.subscriptions.modify s f).values.flatMap (·.queue)).Perm ((f sub).queue ++ rest) := by
  refine ⟨(h.subscriptions.others s).flatMap (·.queue), ?_, rfl, fun f => ?_⟩
  · exact (Table.values_perm hs).flatMap_right _
  · exact (Table.values_modify_perm hs f).flatMap_right _

theorem queued_modify (h : Hub) (s : Nat) {f : Subscription → Subscription}
    (hf : ∀ sub, (f sub).queue = sub.queue) :
    ((h.subscriptions.modify s f).values.flatMap (·.queue)).Perm h.queued := by
  cases hs : h.subscriptions.get? s with
  | none =>
    rw [Table.modify_of_get?_eq_none hs]
    exact List.Perm.refl _
  | some sub =>
    obtain ⟨rest, before, -, after⟩ := queued_perm hs
    refine (after f).trans (List.Perm.trans ?_ before.symm)
    rw [hf]

theorem filterMap_cons_toList (o : Option Copy) (l : List (Option Copy)) :
    (o :: l).filterMap id = o.toList ++ l.filterMap id := by
  cases o <;> rfl

theorem filled_perm {o : Option Copy} (hc : h.cells.get? cell = some o) :
    ∃ rest, h.filled.Perm (o.toList ++ rest) ∧
      (h.cells.erase cell).values.filterMap id = rest ∧
      ∀ f, ((h.cells.modify cell f).values.filterMap id).Perm ((f o).toList ++ rest) := by
  refine ⟨(h.cells.others cell).filterMap id, ?_, rfl, fun f => ?_⟩
  · rw [← filterMap_cons_toList]
    exact (Table.values_perm hc).filterMap _
  · rw [← filterMap_cons_toList]
    exact (Table.values_modify_perm hc f).filterMap _

theorem SamePeers.loose (same : SamePeers h h') : h'.loose = h.loose := by
  obtain ⟨pools, counters, rfl⟩ := same
  rfl

theorem SamePeers.blanks (same : SamePeers h h') : h'.blanks = h.blanks := by
  obtain ⟨pools, counters, rfl⟩ := same
  rfl

theorem loose_of_queued (held : h'.held = h.held) (cells : h'.filled = h.filled)
    (queues : h'.queued.Perm h.queued) : h'.loose.Perm h.loose := by
  rw [loose, held, cells]
  exact (queues.append_left _).append_right _

theorem loose_cancel (h : Hub) (s : Nat) : (h.cancel s).loose.Perm h.loose := by
  rcases cancel_cases h s with ⟨-, same⟩ | ⟨sub, a, -, -, same⟩ <;> rw [same]
  exact loose_of_queued rfl rfl (queued_modify h s fun _ => rfl)

theorem loose_push {sub : Subscription} (hs : h.subscriptions.get? s = some sub) (r : SlotRef)
    (serial : Nat) : (h.push r serial s).loose.Perm (⟨r, serial, sub.erased⟩ :: h.loose) := by
  obtain ⟨rest, before, -, after⟩ := queued_perm hs
  refine List.perm_iff_count.2 fun d => ?_
  have hb := before.count_eq d
  rcases push_cases h s r serial with ⟨absent, -⟩ | ⟨sub', hs', cases⟩
  · simp [hs] at absent
  obtain rfl : sub = sub' := by simpa [hs] using hs'
  rcases cases with ⟨-, same⟩ | ⟨a, -, ⟨open_, same⟩ | ⟨-, same⟩⟩ <;> rw [same]
  · have ha := (after fun sub => { sub with queue := sub.queue ++ [⟨r, serial, sub.erased⟩] }).count_eq d
    simp only [loose, queued, filled, List.count_append, List.count_cons, List.count_nil] at ha hb ⊢
    omega
  · have ha := (after ({ · with armed := none })).count_eq d
    obtain ⟨others, empty, -, fill⟩ := filled_perm open_
    have he := empty.count_eq d
    have hf := (fill fun _ => some ⟨r, serial, sub.erased⟩).count_eq d
    simp only [loose, queued, filled, List.count_append, List.count_cons, List.count_nil,
      Option.toList] at ha hb he hf ⊢
    omega
  · have ha := (after fun sub =>
      { sub with armed := none, queue := sub.queue ++ [⟨r, serial, sub.erased⟩] }).count_eq d
    simp only [loose, queued, filled, List.count_append, List.count_cons, List.count_nil] at ha hb ⊢
    omega

theorem loose_pull (h : Hub) (s : Nat) : (h.pull s).2.loose.Perm h.loose := by
  rcases pull_cases h s with ⟨same, -⟩ | ⟨sub, c, queue, hs, hq, -, same⟩ <;> rw [same]
  obtain ⟨rest, before, -, after⟩ := queued_perm hs
  refine List.perm_iff_count.2 fun d => ?_
  have hb := before.count_eq d
  have ha := (after ({ · with queue })).count_eq d
  simp only [hq, loose, queued, filled, List.count_append, List.count_cons] at ha hb ⊢
  omega

theorem loose_arm (h : Hub) (s mailbox : Nat) : (h.arm s mailbox).2.loose.Perm h.loose := by
  refine List.Perm.trans ?_ (loose_cancel h s)
  rcases arm_cases h s mailbox with
    ⟨-, ⟨-, same⟩ | ⟨sub, hs, ⟨c, queue, hq, same⟩ | ⟨-, -, same⟩ | ⟨-, -, same⟩⟩⟩ <;> rw [same]
  · exact List.Perm.refl _
  · obtain ⟨rest, before, -, after⟩ := queued_perm hs
    refine List.perm_iff_count.2 fun d => ?_
    have hb := before.count_eq d
    have ha := (after ({ · with queue })).count_eq d
    simp only [hq, loose, queued, filled, List.count_append, List.count_cons, Table.values_insert,
      List.filterMap_cons, id] at ha hb ⊢
    omega
  · exact loose_of_queued rfl rfl (queued_modify _ s fun _ => rfl)
  · exact List.Perm.refl _

theorem loose_takeCell (h : Hub) (cell : Nat) : (h.takeCell cell).2.loose.Perm h.loose := by
  rcases takeCell_cases h cell with ⟨-, -, same⟩ | ⟨c, hc, -, same⟩ <;> rw [same]
  obtain ⟨rest, before, -, after⟩ := filled_perm hc
  refine List.perm_iff_count.2 fun d => ?_
  have hb := before.count_eq d
  have ha := (after fun _ => none).count_eq d
  simp only [loose, queued, filled, List.count_append, List.count_cons, List.count_nil,
    Option.toList] at ha hb ⊢
  omega

theorem loose_erase_cell (hc : h.cells.get? cell = some (some c)) :
    h.loose.Perm (c :: { h with cells := h.cells.erase cell }.loose) := by
  obtain ⟨rest, before, erased, -⟩ := filled_perm hc
  refine List.perm_iff_count.2 fun d => ?_
  have hb := before.count_eq d
  simp only [loose, queued, filled, erased, List.count_append, List.count_cons, List.count_nil,
    Option.toList] at hb ⊢
  omega

theorem loose_erase_empty (empty : ∀ c, h.cells.get? cell ≠ some (some c)) :
    { h with cells := h.cells.erase cell }.loose.Perm h.loose := by
  cases hc : h.cells.get? cell with
  | none =>
    rw [Table.erase_of_get?_eq_none hc]
  | some o =>
    cases o with
    | some c => exact absurd hc (empty c)
    | none =>
      obtain ⟨rest, before, erased, -⟩ := filled_perm hc
      simp only [loose, queued, filled, erased]
      exact before.symm.append_left _

theorem loose_letGo (hc : c ∈ h.held) : h.loose.Perm (c :: (h.letGo c).loose) :=
  ((List.perm_cons_erase hc).append_right _).append_right _

theorem loose_invalidate (h : Hub) (s : Nat) : (h.invalidate s).loose.Perm h.loose := by
  rcases invalidate_cases h s with ⟨-, same⟩ | ⟨sub, a, -, -, same⟩ <;> rw [same] <;>
    exact loose_of_queued rfl rfl (queued_modify h s fun _ => rfl)

theorem loose_invalidateAll (h : Hub) (l : List Nat) : (l.foldl invalidate h).loose.Perm h.loose := by
  induction l generalizing h with
  | nil => exact List.Perm.refl _
  | cons s l ih => exact (ih (h.invalidate s)).trans (loose_invalidate h s)

theorem loose_dropPublisher (h : Hub) (p : Nat) : (h.dropPublisher p).loose.Perm h.loose := by
  rcases dropPublisher_cases h p with ⟨-, same⟩ | ⟨P, log, -, same⟩ <;> rw [same]
  exact loose_invalidateAll h P.receivers

theorem loose_subscribe (h : Hub) (p : Nat) (erased : Bool) :
    (h.subscribe p erased).2.loose.Perm h.loose := by
  rcases subscribe_cases h p erased with ⟨-, ⟨-, same⟩ | ⟨P, counters, log, -, same⟩⟩ <;>
    rw [same] <;> exact List.Perm.refl _

theorem loose_unsubscribe (h : Hub) (s : Nat) : (h.unsubscribe s).loose.Perm h.loose := by
  rcases unsubscribe_cases h s with ⟨-, same⟩ | ⟨sub, p, -, -, same⟩ <;> rw [same]
  exact loose_of_queued rfl rfl (queued_modify h s fun _ => rfl)

theorem loose_detach {sub : Subscription} (hs : h.subscriptions.get? s = some sub) :
    h.loose.Perm (sub.queue ++ (h.detach s).loose) := by
  have still : ((h.unsubscribe s).cancel s).subscriptions.get? s =
      some { sub with publisher := none, armed := none } := by
    rw [get?_cancel, get?_unsubscribe, hs]
    rfl
  have moved := (loose_cancel (h.unsubscribe s) s).trans (loose_unsubscribe h s)
  refine moved.symm.trans ?_
  obtain ⟨rest, before, erased, -⟩ := queued_perm still
  refine List.perm_iff_count.2 fun d => ?_
  have hb := before.count_eq d
  simp only [loose, queued, filled, detach, erased, List.count_append] at hb ⊢
  omega

end BufferFlow.Hub
