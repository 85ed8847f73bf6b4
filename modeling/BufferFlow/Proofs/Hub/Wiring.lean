import BufferFlow.Proofs.Hub.Peers

set_option autoImplicit false

namespace BufferFlow.Hub

variable {h h' : Hub} {s : Nat}

/-- A publisher delivers once to each of its subscriptions and to nobody else. -/
structure Enrolled (h : Hub) : Prop where
  once : ∀ p P, h.publishers.get? p = some P → P.receivers.Nodup
  paired : ∀ p P, h.publishers.get? p = some P →
    ∀ s, s ∈ P.receivers ↔ h.publisherOf? s = some p
  alive : ∀ s p, h.publisherOf? s = some p → (h.publishers.get? p).isSome

namespace Enrolled

theorem congr (he : h.Enrolled) (publishers : h'.publishers = h.publishers)
    (same : ∀ s, h'.publisherOf? s = h.publisherOf? s) : h'.Enrolled := by
  refine ⟨?_, ?_, ?_⟩
  · rw [publishers]
    exact he.once
  · intro p P hp s
    rw [publishers] at hp
    rw [same]
    exact he.paired p P hp s
  · intro s p hs
    rw [same] at hs
    rw [publishers]
    exact he.alive s p hs

theorem ofLinks (he : h.Enrolled) (same : SameLinks h h') : h'.Enrolled :=
  he.congr same.publishers fun s => by rw [publisherOf?, same.subscriptions, publisherOf?]

theorem ofLocal (he : h.Enrolled) (l : Local s h h') : h'.Enrolled :=
  he.congr l.publishers l.publisherOf?

theorem pushAll (he : h.Enrolled) (r : SlotRef) (serial : Nat) (l : List Nat) :
    (h.pushAll r serial l).Enrolled := by
  induction l generalizing h with
  | nil => exact he
  | cons s l ih => exact ih (he.ofLocal (.push h r serial s))

theorem publish (he : h.Enrolled) (p : Nat) (blank : SlotRef) : (h.publish p blank).2.Enrolled := by
  rcases publish_cases h p blank with ⟨-, same⟩ | ⟨-, -, ⟨-, same⟩ | ⟨-, same⟩⟩ <;> rw [same]
  · exact he
  · have spent : (h.spend blank).Enrolled := he.ofLinks ⟨rfl, rfl, rfl, rfl⟩
    exact (spent.ofLinks (SamePeers.recycle _ blank).links).ofLinks ⟨rfl, rfl, rfl, rfl⟩
  · have counted : ((h.spend blank).addCopies blank (h.receivers p).length).Enrolled :=
      he.ofLinks ⟨rfl, rfl, rfl, rfl⟩
    exact (counted.pushAll _ _ _).ofLinks ⟨rfl, rfl, rfl, rfl⟩

theorem newPublisher (he : h.Enrolled) (name : String) (pool : Nat) :
    (h.newPublisher name pool).2.Enrolled := by
  have unused : ∀ s, h.publisherOf? s ≠ some h.publishers.next := fun s hs => by
    have given := he.alive s _ hs
    rw [Table.get?_of_le (Nat.le_refl _)] at given
    exact Bool.false_ne_true given
  refine ⟨fun p P hp => ?_, fun p P hp s => ?_, fun s p hs => ?_⟩
  · rw [Hub.newPublisher, Table.get?_insert] at hp
    split at hp
    · obtain rfl := Option.some.inj hp
      exact List.nodup_nil
    · exact he.once p P hp
  · rw [Hub.newPublisher, Table.get?_insert] at hp
    change _ ↔ h.publisherOf? s = some p
    split at hp
    · rename_i heq
      obtain rfl := Option.some.inj hp
      simpa [Publisher.receivers, heq] using unused s
    · exact he.paired p P hp s
  · rw [Hub.newPublisher, Table.get?_insert]
    split
    · rfl
    · exact he.alive s p hs

theorem subscribeDetached (he : h.Enrolled) (erased : Bool) :
    (h.subscribeDetached erased).2.Enrolled := by
  refine he.congr rfl fun s => ?_
  simp only [Hub.subscribeDetached, count, publisherOf?, Table.get?_insert]
  split
  · rename_i heq
    rw [heq, Table.get?_of_le (Nat.le_refl _)]
    rfl
  · rfl

theorem fresh (he : h.Enrolled) {p : Nat} {P : Publisher} (hp : h.publishers.get? p = some P) :
    h.subscriptions.next ∉ P.receivers := by
  intro hs
  have named := (he.paired p P hp _).1 hs
  rw [publisherOf?, Table.get?_of_le (Nat.le_refl _)] at named
  simp at named

theorem subscribe (he : h.Enrolled) (p : Nat) (erased : Bool) :
    (h.subscribe p erased).2.Enrolled := by
  rcases subscribe_cases h p erased with ⟨-, ⟨-, same⟩ | ⟨P, counters, log, hP, same⟩⟩ <;> rw [same]
  · exact he.subscribeDetached erased
  have attached := attach_receivers P erased (s := h.subscriptions.next)
  have unnamed : h.publisherOf? h.subscriptions.next = none := by
    rw [publisherOf?, Table.get?_of_le (Nat.le_refl _)]
    rfl
  have named : ∀ s, ((h.subscriptions.insert { erased, publisher := some p }).2.get? s).bind
      (·.publisher) = if s = h.subscriptions.next then some p else h.publisherOf? s := by
    intro s
    rw [Table.get?_insert]
    split <;> rfl
  have published : ∀ q Q, (h.publishers.modify p fun _ => attach P erased h.subscriptions.next).get?
      q = some Q → (q = p ∧ Q = attach P erased h.subscriptions.next) ∨
        (q ≠ p ∧ h.publishers.get? q = some Q) := by
    intro q Q hq
    rw [Table.get?_modify] at hq
    split at hq
    · rename_i heq
      rw [heq, hP] at hq
      exact .inl ⟨heq, (Option.some.inj hq).symm⟩
    · rename_i hne
      exact .inr ⟨hne, hq⟩
  refine ⟨fun q Q hq => ?_, fun q Q hq s => ?_, fun s q hs => ?_⟩
  · rcases published q Q hq with ⟨-, rfl⟩ | ⟨-, hq⟩
    · exact attached.nodup_iff.2 (List.nodup_cons.2 ⟨he.fresh hP, he.once p P hP⟩)
    · exact he.once q Q hq
  · rw [publisherOf?, named]
    rcases published q Q hq with ⟨rfl, rfl⟩ | ⟨hne, hq⟩
    · rw [attached.mem_iff, List.mem_cons, he.paired q P hP]
      split <;> simp [*]
    · rw [he.paired q Q hq]
      split
      · rename_i heq
        simp [heq, unnamed, Ne.symm hne]
      · rfl
  · rw [publisherOf?, named] at hs
    rw [Table.get?_modify]
    split
    · simp [*]
    · rename_i hne
      split at hs
      · exact absurd (Option.some.inj hs).symm hne
      · exact he.alive s q hs

theorem unsubscribe (he : h.Enrolled) (s : Nat) :
    (h.unsubscribe s).Enrolled ∧
      ∀ t, (h.unsubscribe s).publisherOf? t = if t = s then none else h.publisherOf? t := by
  rcases unsubscribe_cases h s with ⟨detached, same⟩ | ⟨sub, p, hs, hp, same⟩ <;> rw [same]
  · refine ⟨he, fun t => ?_⟩
    split
    · rename_i heq
      rw [heq, publisherOf?]
      exact Option.bind_eq_none_iff.2 detached
    · rfl
  · have named : ∀ t, ((h.subscriptions.modify s ({ · with publisher := none })).get? t).bind
        (·.publisher) = if t = s then none else h.publisherOf? t := by
      intro t
      rw [Table.get?_modify]
      split
      · cases h.subscriptions.get? t <;> rfl
      · rfl
    refine ⟨⟨fun q Q hq => ?_, fun q Q hq t => ?_, fun t q ht => ?_⟩, named⟩
    · rw [Table.get?_modify] at hq
      split at hq
      · obtain ⟨P, hP, rfl⟩ := Option.map_eq_some_iff.1 hq
        have once := he.once q P hP
        simpa [Publisher.receivers] using once.filter (fun t => decide (t ≠ s))
      · exact he.once q Q hq
    · rw [publisherOf?, named]
      rw [Table.get?_modify] at hq
      split at hq
      · obtain ⟨P, hP, rfl⟩ := Option.map_eq_some_iff.1 hq
        have without : t ∈ P.receivers.filter (· ≠ s) ↔ _ := List.mem_filter
        rw [he.paired q P hP] at without
        simp only [Publisher.receivers, List.filter_append] at without ⊢
        rw [without]
        split <;> simp [*]
      · rename_i hne
        rw [he.paired q Q hq]
        split
        · rename_i heq
          have here : h.publisherOf? s = some p := publisherOf?_eq_some.2 ⟨sub, hs, hp⟩
          simp [heq, here, Ne.symm hne]
        · rfl
    · rw [publisherOf?, named] at ht
      split at ht
      · simp at ht
      · rw [Table.get?_modify]
        split
        · simpa using he.alive t q ht
        · exact he.alive t q ht

theorem detach (he : h.Enrolled) (s : Nat) : (h.detach s).Enrolled := by
  obtain ⟨without, named⟩ := he.unsubscribe s
  have cancelled := without.ofLocal (.cancel _ s)
  refine cancelled.congr rfl fun t => ?_
  simp only [Hub.detach, publisherOf?, Table.get?_erase]
  split
  · rename_i heq
    subst heq
    have gone := (Local.cancel (h.unsubscribe t) t).publisherOf? t
    rw [named, if_pos rfl] at gone
    exact gone.symm
  · rfl

theorem dropSubscription (he : h.Enrolled) (s : Nat) : (h.dropSubscription s).Enrolled := by
  rcases dropSubscription_cases h s with ⟨-, same⟩ | ⟨sub, log, -, same⟩ <;> rw [same]
  · exact he
  · have detached : { h.detach s with log }.Enrolled := (he.detach s).ofLinks ⟨rfl, rfl, rfl, rfl⟩
    exact (detached.ofLinks (SamePeers.giveUpAll _ _).links).ofLinks ⟨rfl, rfl, rfl, rfl⟩

theorem publisherOf?_dropPublisher (he : h.Enrolled) (p s : Nat) :
    (h.dropPublisher p).publisherOf? s =
      if h.publisherOf? s = some p then none else h.publisherOf? s := by
  rcases dropPublisher_cases h p with ⟨gone, same⟩ | ⟨P, log, hP, same⟩ <;> rw [same]
  · split
    · rename_i hs
      have alive := he.alive s p hs
      rw [gone] at alive
      exact absurd alive Bool.false_ne_true
    · rfl
  · change ((P.receivers.foldl invalidate h).subscriptions.get? s).bind (·.publisher) = _
    simp only [get?_invalidateAll, he.paired p P hP]
    by_cases hs : h.publisherOf? s = some p
    · rw [if_pos hs, if_pos hs]
      cases h.subscriptions.get? s <;> rfl
    · rw [if_neg hs, if_neg hs, publisherOf?]

theorem dropPublisher (he : h.Enrolled) (p : Nat) : (h.dropPublisher p).Enrolled := by
  have named := he.publisherOf?_dropPublisher p
  rcases dropPublisher_cases h p with ⟨gone, same⟩ | ⟨P, log, hP, same⟩ <;> rw [same] at named ⊢
  · exact he
  · refine ⟨fun q Q hq => ?_, fun q Q hq s => ?_, fun s q hs => ?_⟩
    · rw [publishers_invalidateAll, Table.get?_erase] at hq
      split at hq
      · simp at hq
      · exact he.once q Q hq
    · rw [named]
      rw [publishers_invalidateAll, Table.get?_erase] at hq
      split at hq
      · simp at hq
      · rename_i hne
        rw [he.paired q Q hq]
        split
        · rename_i hs
          simp [hs, Ne.symm hne]
        · rfl
    · rw [named] at hs
      rw [publishers_invalidateAll, Table.get?_erase]
      split at hs
      · simp at hs
      · rename_i hne
        rw [if_neg fun heq : q = p => hne (heq ▸ hs)]
        exact he.alive s q hs

theorem apply (he : h.Enrolled) (op : Operation) : (h.apply op).Enrolled := by
  by_cases hop : op.OnBuffers
  · exact he.ofLinks (.apply h hop)
  cases op with
  | newPublisher name pool => exact he.newPublisher name pool
  | newMailbox => exact he.congr rfl fun _ => rfl
  | subscribe publisher erased => exact he.subscribe publisher erased
  | subscribeDetached erased => exact he.subscribeDetached erased
  | publish publisher blank => exact he.publish publisher blank
  | pull subscription => exact he.ofLocal (.pull h subscription)
  | arm subscription mailbox =>
    rw [Hub.apply]
    split
    · exact he.ofLocal (.arm h subscription mailbox)
    · exact he
  | cancel subscription => exact he.ofLocal (.cancel h subscription)
  | takeCell cell =>
    rcases takeCell_cases h cell with ⟨-, -, same⟩ | ⟨c, -, -, same⟩ <;> rw [Hub.apply, same]
    · exact he
    · exact he.congr rfl fun _ => rfl
  | dropCell cell =>
    have without : { h with cells := h.cells.erase cell }.Enrolled := he.congr rfl fun _ => rfl
    rcases dropCell_cases h cell with ⟨-, same⟩ | ⟨c, -, same⟩ <;> rw [Hub.apply, same]
    · exact without
    · exact without.ofLinks (SamePeers.giveUp _ c).links
  | dropSubscription subscription => exact he.dropSubscription subscription
  | dropPublisher publisher => exact he.dropPublisher publisher
  | newPool | acquire | write | chain | dropBlank | wait | erase | release | tally =>
    exact absurd trivial hop

end Enrolled

end BufferFlow.Hub
