import BufferFlow.Proofs.Hub.Frames
import BufferFlow.Proofs.Hub.Teardown

set_option autoImplicit false

namespace BufferFlow.Hub

variable {h : Hub} {p : Nat} {a b ops : List Operation} {op : Operation} {r : SlotRef}

/-- The numbers of receivers that the publications of the publisher find in a run. -/
def audiences (h : Hub) (p : Nat) : List Operation → List Nat
  | [] => []
  | op :: ops =>
    ((h.publication? op).toList.filter (·.publisher = p)).map (fun _ => (h.receivers p).length) ++
      (h.apply op).audiences p ops

theorem audiences_append (h : Hub) (p : Nat) (a b : List Operation) :
    h.audiences p (a ++ b) = h.audiences p a ++ (h.applyAll a).audiences p b :=
  append_of_cons (g := fun h => h.audiences p) (fun _ => rfl) (fun _ _ _ => rfl) h a b

theorem length_audiences (h : Hub) (p : Nat) (ops : List Operation) :
    (h.audiences p ops).length = (h.publishedBy p ops).length := by
  induction ops generalizing h with
  | nil => rfl
  | cons op ops ih =>
    rw [audiences, publishedBy, history, List.filter_append, List.length_append, List.length_append,
      List.length_map, ih]
    rfl

theorem audiences_quiet (quiet : h.publishedBy p (a ++ b) = h.publishedBy p a) :
    h.audiences p (a ++ b) = h.audiences p a := by
  have nothing : (h.applyAll a).audiences p b = [] := by
    rw [publishedBy_append, List.append_right_eq_self] at quiet
    rw [← List.length_eq_zero_iff, length_audiences, quiet]
    rfl
  rw [audiences_append, nothing, List.append_nil]

theorem audiences_publish {payload : Payload} (alive : (h.applyAll ops).publishers.contains p)
    (owned : r ∈ (h.applyAll ops).blanks) (shown : (h.applyAll ops).payload? r = some payload) :
    h.audiences p (ops ++ [.publish p r]) =
      h.audiences p ops ++ [((h.applyAll ops).receivers p).length] := by
  have publication : (h.applyAll ops).publication? (.publish p r) =
      some ⟨p, r, (h.applyAll ops).serial, payload⟩ :=
    publication?_eq_some.2 ⟨rfl, owned, alive, rfl, shown⟩
  rw [audiences_append, audiences, audiences, publication]
  simp

theorem spent_publish (ha : h.Accounted) (p : Nat) (r : SlotRef) :
    r ∉ (h.apply (.publish p r)).blanks := by
  by_cases owned : r ∈ h.blanks
  · have once := ((Balanced.standing ha r).of_blank (List.count_pos_iff.2 owned)).2.1
    have spent : r ∉ (h.spend r).blanks := by
      rw [← List.count_eq_zero]
      change (h.blanks.erase r).count r = 0
      rw [List.count_erase_self, once]
    rcases publish_cases h p r with ⟨foreign, -⟩ | ⟨-, -, ⟨-, same⟩ | ⟨-, same⟩⟩
    · exact absurd owned foreign
    · rw [apply, same, count, (SamePeers.recycle (h.spend r) r).blanks]
      exact spent
    · rw [apply, same, count, (SameStock.pushAll _ r h.serial _).blanks]
      exact spent
  · intro there
    rcases blanks_apply_cases there with old | ⟨h', acquires, -⟩
    · exact owned old
    · cases acquires

theorem returned_recycleMoves {s : BufferSlot} (hs : h.slot? r = some s) :
    .returned r ∈ h.recycleMoves r := by
  obtain ⟨fuel, enough⟩ := Nat.exists_eq_succ_of_ne_zero (Nat.pos_iff_ne_zero.1 (slotCount_pos hs))
  rw [recycleMoves, enough, recycleMovesWith]
  split <;> simp

theorem returned_unheard (sound : h.Sound) (owned : r ∈ h.blanks) (nobody : h.receivers p = []) :
    .returned r ∈ h.moves (.publish p r) ∧ (h.apply (.publish p r)).InState r .free := by
  obtain ⟨slot, hs, -⟩ := Balanced.blank_slot sound.accounted owned
  have present : (h.slot? r).isSome := hs ▸ rfl
  have unstacked := ((Balanced.standing sound.accounted r).of_blank (List.count_pos_iff.2 owned)).1
  have back : .returned r ∈ h.moves (.publish p r) := by
    rw [moves, settling, if_pos ⟨owned, nobody⟩]
    exact returned_recycleMoves (h := h.spend r) hs
  refine ⟨back, ?_⟩
  have stacked := stackedAt_apply (.publish p r) present unstacked
  obtain ⟨state, inState⟩ := (sound.apply (.publish p r)).accounted.inState (present_apply present _)
  have returned := List.count_pos_iff.2 back
  cases state with
  | free => exact inState
  | owned | published => exact absurd (inState.1.symm.trans stacked) (Nat.ne_of_lt returned)

theorem streams_since (sound : h.Sound) (given : p < h.publishers.next) (erased : Bool)
    (kept : .dropSubscription h.subscriptions.next ∉ ops) :
    (h.apply (.subscribe p erased)).departed h.subscriptions.next ops ++
        ((h.apply (.subscribe p erased)).applyAll ops).queueOf h.subscriptions.next =
      ((h.apply (.subscribe p erased)).publishedBy p ops).map (·.copy erased) := by
  have sound₁ : (h.subscribe p erased).2.Sound := sound.apply (.subscribe p erased)
  obtain ⟨sub, found, kind, empty, follows⟩ : ∃ sub,
      (h.subscribe p erased).2.subscriptions.get? h.subscriptions.next = some sub ∧
      sub.erased = erased ∧ sub.queue = [] ∧ (h.subscribe p erased).2.Follows sub p := by
    rcases subscribe_cases h p erased with ⟨new, ⟨gone, same⟩ | ⟨P, counters, log, hP, -⟩⟩
    · refine ⟨{ erased, publisher := none }, ?_, rfl, rfl, ?_⟩ <;> rw [same]
      · simp [subscribeDetached, count, Table.get?_insert]
      · exact ⟨given, .inr ⟨rfl, by simp [Table.contains, subscribeDetached, count, gone]⟩⟩
    · have taken : h.subscribe p erased = (h.subscriptions.next, (h.subscribe p erased).2) :=
        Prod.ext new rfl
      obtain ⟨found, follows⟩ := subscribe_follows (Option.isSome_iff_exists.2 ⟨P, hP⟩) taken
      exact ⟨_, found, rfl, rfl, follows⟩
  obtain ⟨last, there, -, -, order⟩ := departed_append_queue sound₁ found follows kept
  rw [empty, kind, List.nil_append] at order
  rw [queueOf, apply, there]
  exact order

end BufferFlow.Hub
