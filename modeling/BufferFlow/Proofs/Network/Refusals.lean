import BufferFlow.Proofs.Description
import BufferFlow.Proofs.Hub.Dropping
import BufferFlow.Proofs.Network.Requests
import BufferFlow.Proofs.Stage.Unwinding

set_option autoImplicit false

/-! # Failing constructors

A constructor with a pool of its own is refused without buffers or with an empty payload, and faults
where memory cannot be addressed or its factory faults. A constructor that fails drops the
subscriptions that it was given, and changes nothing else. -/

namespace BufferFlow

/-- The call `i` of the factory gives a payload with data. -/
def Payload.Factory.Fills (factory : Payload.Factory) (i : Nat) : Prop :=
  ∃ payload, factory.make i = .ok payload ∧ payload.byteSize ≠ 0

namespace Payload.Kind

variable {kind : Kind} {capacity : Nat}

def Fits (kind : Kind) (capacity : Nat) : Prop :=
  capacity * kind.width ≤ Memory.largestPiece

/-- The slots of so many buffers of the kind can be addressed. -/
def FitsSlots (kind : Kind) (capacity : Nat) : Prop :=
  capacity * kind.slotWidth ≤ Memory.largestPiece

instance (kind : Kind) (capacity : Nat) : Decidable (kind.Fits capacity) :=
  inferInstanceAs (Decidable (_ ≤ _))

instance (kind : Kind) (capacity : Nat) : Decidable (kind.FitsSlots capacity) :=
  inferInstanceAs (Decidable (_ ≤ _))

theorem width_le_slotWidth (kind : Kind) : kind.width ≤ kind.slotWidth := by
  rw [slotWidth]
  omega

theorem word_le_slotWidth (kind : Kind) : 8 ≤ kind.slotWidth := by
  rw [slotWidth]
  omega

theorem FitsSlots.narrower {width : Nat} (fits : kind.FitsSlots capacity)
    (narrow : width ≤ kind.slotWidth) : capacity * width ≤ Memory.largestPiece :=
  (Nat.mul_le_mul_left capacity narrow).trans fits

theorem FitsSlots.fits (fits : kind.FitsSlots capacity) : kind.Fits capacity :=
  fits.narrower kind.width_le_slotWidth

theorem FitsSlots.numbers (fits : kind.FitsSlots capacity) : capacity * 8 ≤ Memory.largestPiece :=
  fits.narrower kind.word_le_slotWidth

end Payload.Kind

/-! ## Pools -/

namespace Pool

variable {name : String} {capacity : Nat} {factory f : Payload.Factory}

theorem payloadFor_of_fills (name : String) {i : Nat} (fills : factory.Fills i) :
    ∃ payload, payloadFor name factory i = .ok payload := by
  obtain ⟨payload, made, full⟩ := fills
  exact ⟨payload, by simp only [payloadFor, made, full, ↓reduceIte]⟩

theorem fills_of_payloadFor {i : Nat} {payload : Payload}
    (made : payloadFor name factory i = .ok payload) : factory.Fills i := by
  refine ⟨payload, payloadFor_eq_ok made, fun empty => ?_⟩
  simp only [payloadFor, payloadFor_eq_ok made, empty, ↓reduceIte, reduceCtorEq] at made

theorem addSlots_isOk {n i : Nat} {slots : Array BufferSlot} :
    (∃ slots', addSlots name factory n i slots = .ok slots') ↔ ∀ j < n, factory.Fills (i + j) := by
  induction n generalizing i slots with
  | zero => exact ⟨fun _ j before => absurd before (Nat.not_lt_zero j), fun _ => ⟨slots, rfl⟩⟩
  | succ n ih =>
    rw [addSlots]
    cases made : payloadFor name factory i with
    | error failure =>
      constructor
      · rintro ⟨slots', same⟩
        cases same
      · intro all
        obtain ⟨payload, made'⟩ := payloadFor_of_fills name (all 0 (Nat.succ_pos n))
        cases made.symm.trans made'
    | ok payload =>
      refine ih.trans ⟨fun later j before => ?_, fun all j before => ?_⟩
      · cases j with
        | zero => exact fills_of_payloadFor made
        | succ j =>
          rw [Nat.add_comm j, ← Nat.add_assoc]
          exact later j (Nat.lt_of_succ_lt_succ before)
      · rw [Nat.add_assoc, Nat.add_comm 1]
        exact all (j + 1) (Nat.succ_lt_succ before)

theorem addSlots_error {n i k : Nat} {slots : Array BufferSlot} {failure : Failure} (within : k < n)
    (before : ∀ j < k, factory.Fills (i + j))
    (bad : payloadFor name factory (i + k) = .error failure) :
    addSlots name factory n i slots = .error failure := by
  induction n generalizing i k slots with
  | zero => exact absurd within (Nat.not_lt_zero k)
  | succ n ih =>
    rw [addSlots]
    cases k with
    | zero => rw [show payloadFor name factory i = .error failure from bad]
    | succ k =>
      obtain ⟨payload, made⟩ := payloadFor_of_fills name (before 0 (Nat.succ_pos k))
      rw [show payloadFor name factory i = .ok payload from made]
      refine ih (Nat.lt_of_succ_lt_succ within) (fun j earlier => ?_) ?_
      · rw [Nat.add_assoc, Nat.add_comm 1]
        exact before (j + 1) (Nat.succ_lt_succ earlier)
      · rw [Nat.add_assoc, Nat.add_comm 1]
        exact bad

theorem new_unsized (name : String) (factory : Payload.Factory) :
    Pool.new name 0 factory = .error (.refused (.invalidCapacity 0)) := rfl

theorem new_unfitting (wanted : 0 < capacity) (unfit : ¬ factory.kind.Fits capacity) :
    Pool.new name capacity factory = .error (.faulted .capacityOverflow) := by
  rw [Pool.new, if_neg (Nat.ne_of_gt wanted), room_eq_error unfit]
  rfl

theorem new_fitting (wanted : 0 < capacity) (fits : factory.kind.Fits capacity) :
    Pool.new name capacity factory = (addSlots name factory capacity 0 #[]).bind fun slots =>
      if factory.kind.FitsSlots capacity then .ok { name, slots, free := List.range capacity }
      else .error (.faulted .capacityOverflow) := by
  have room_payloads : room (capacity * factory.kind.width) = .ok () := room_eq_ok.2 fits
  simp only [Pool.new, Nat.ne_of_gt wanted, ↓reduceIte, room_payloads]
  cases addSlots name factory capacity 0 #[] with
  | error failure => rfl
  | ok slots =>
    by_cases slotted : factory.kind.FitsSlots capacity
    · have room_slots : room (capacity * factory.kind.slotWidth) = .ok () := room_eq_ok.2 slotted
      have room_numbers : room (capacity * 8) = .ok () := room_eq_ok.2 slotted.numbers
      simp only [bind, Except.bind, room_slots, room_numbers, slotted, ↓reduceIte]
      rfl
    · simp only [bind, Except.bind, room_eq_error slotted, slotted, ↓reduceIte]

theorem new_isOk (name : String) : (∃ pool, Pool.new name capacity factory = .ok pool) ↔
    0 < capacity ∧ factory.kind.FitsSlots capacity ∧ ∀ i < capacity, factory.Fills i := by
  constructor
  · rintro ⟨pool, made⟩
    obtain ⟨slots, added, slotted, -, -⟩ := new_eq_ok made
    refine ⟨Nat.pos_of_ne_zero ?_, slotted, fun i before => ?_⟩
    · rintro rfl
      cases made
    · have fills := addSlots_isOk.1 ⟨slots, added⟩ i before
      rwa [Nat.zero_add] at fills
  · rintro ⟨wanted, slotted, fills⟩
    obtain ⟨slots, added⟩ : ∃ slots, addSlots name factory capacity 0 #[] = .ok slots :=
      addSlots_isOk.2 fun j before => (Nat.zero_add j).symm ▸ fills j before
    rw [new_fitting wanted slotted.fits, added]
    exact ⟨_, if_pos slotted⟩

theorem new_unslotted (wanted : 0 < capacity) (fits : factory.kind.Fits capacity)
    (unfit : ¬ factory.kind.FitsSlots capacity) (fills : ∀ i < capacity, factory.Fills i) :
    Pool.new name capacity factory = .error (.faulted .capacityOverflow) := by
  obtain ⟨slots, added⟩ : ∃ slots, addSlots name factory capacity 0 #[] = .ok slots :=
    addSlots_isOk.2 fun j before => (Nat.zero_add j).symm ▸ fills j before
  rw [new_fitting wanted fits, added]
  exact if_neg unfit

theorem new_bad {k : Nat} {failure : Failure} (fits : factory.kind.Fits capacity)
    (within : k < capacity) (before : ∀ i < k, factory.Fills i)
    (bad : payloadFor name factory k = .error failure) :
    Pool.new name capacity factory = .error failure := by
  have first : addSlots name factory capacity 0 #[] = .error failure :=
    addSlots_error within (fun j earlier => (Nat.zero_add j).symm ▸ before j earlier)
      ((Nat.zero_add k).symm ▸ bad)
  rw [new_fitting (Nat.zero_lt_of_lt within) fits, first]
  rfl

end Pool

/-! ## Constructors -/

/-- When a constructor with a pool succeeds, and how it fails. The factory is called in order, until
a call decides. -/
structure Admits {α : Type} (name : String) (capacity : Nat) (factory : Payload.Factory)
    (build : Payload.Factory → Except Failure α) : Prop where
  built : (∃ a, build factory = .ok a) ↔
    0 < capacity ∧ factory.kind.FitsSlots capacity ∧ ∀ i < capacity, factory.Fills i
  unsized : capacity = 0 → ∀ f, build f = .error (.refused (.invalidCapacity 0))
  unfitting : 0 < capacity → ¬ factory.kind.Fits capacity → ∀ f, f.kind = factory.kind →
    build f = .error (.faulted .capacityOverflow)
  /-- Whatever the factory gives after its first empty payload. -/
  empty : ∀ k < capacity, factory.kind.Fits capacity → (∀ i < k, factory.Fills i) →
    ∀ payload, factory.make k = .ok payload → payload.byteSize = 0 →
      ∀ f, f.kind = factory.kind → (∀ i ≤ k, f.make i = factory.make i) →
        build f = .error (.refused (.emptyPayload name))
  faulting : ∀ k < capacity, factory.kind.Fits capacity → (∀ i < k, factory.Fills i) →
    ∀ fault, factory.make k = .error fault →
      ∀ f, f.kind = factory.kind → (∀ i ≤ k, f.make i = factory.make i) →
        build f = .error (.faulted fault)
  /-- After the last call of the factory. -/
  unslotted : 0 < capacity → factory.kind.Fits capacity → ¬ factory.kind.FitsSlots capacity →
    (∀ i < capacity, factory.Fills i) → build factory = .error (.faulted .capacityOverflow)

theorem Admits.of_pool {α : Type} {name : String} {capacity : Nat}
    {build : Payload.Factory → Except Failure α}
    (fails : ∀ f failure, Pool.new name capacity f = .error failure → build f = .error failure)
    (succeeds : ∀ f pool, Pool.new name capacity f = .ok pool → ∃ a, build f = .ok a)
    (factory : Payload.Factory) : Admits name capacity factory build := by
  have filled : ∀ {k : Nat} {f : Payload.Factory}, (∀ i < k, factory.Fills i) →
      (∀ i ≤ k, f.make i = factory.make i) → ∀ i < k, f.Fills i := by
    intro k f fills same i before
    obtain ⟨payload, made, full⟩ := fills i before
    exact ⟨payload, (same i (Nat.le_of_lt before)).trans made, full⟩
  refine ⟨⟨?_, fun all => ?_⟩, ?_, fun wanted unfit f same => ?_, ?_, ?_,
    fun wanted fits unfit fills => fails factory _ (Pool.new_unslotted wanted fits unfit fills)⟩
  · rintro ⟨a, done⟩
    refine (Pool.new_isOk name).1 ?_
    cases made : Pool.new name capacity factory with
    | error failure => cases done.symm.trans (fails factory failure made)
    | ok pool => exact ⟨pool, rfl⟩
  · obtain ⟨pool, made⟩ := (Pool.new_isOk name).2 all
    exact succeeds factory pool made
  · rintro rfl f
    exact fails f _ (Pool.new_unsized name f)
  · exact fails f _ (Pool.new_unfitting wanted (same ▸ unfit))
  · intro k within fits fills payload made empty f same calls
    refine fails f _ (Pool.new_bad (same ▸ fits) within (filled fills calls) ?_)
    simp only [Pool.payloadFor, calls k (Nat.le_refl k), made, empty, ↓reduceIte]
  · intro k within fits fills fault made f same calls
    refine fails f _ (Pool.new_bad (same ▸ fits) within (filled fills calls) ?_)
    simp only [Pool.payloadFor, calls k (Nat.le_refl k), made]

/-- When the constructor of a sink succeeds, and how it fails. An empty description is refused
before the number of buffers is looked at. -/
structure AdmitsSink {α : Type} (name : String) (description : Description) (buffers : Nat)
    (result : Except Failure α) : Prop where
  built : ∀ size, description.byteSize = .ok size → ((∃ a, result = .ok a) ↔
    size ≠ 0 ∧ 0 < buffers ∧ Payload.Kind.sink.FitsSlots buffers ∧
      size.toNat ≤ Memory.largestPiece)
  empty : description.byteSize = .ok 0 → result = .error (.refused (.emptyPayload name))
  unsized : ∀ size, description.byteSize = .ok size → size ≠ 0 → buffers = 0 →
    result = .error (.refused (.invalidCapacity 0))
  unfitting : ∀ size, description.byteSize = .ok size → size ≠ 0 → 0 < buffers →
    ¬ (Payload.Kind.sink.FitsSlots buffers ∧ size.toNat ≤ Memory.largestPiece) →
      result = .error (.faulted .capacityOverflow)
  faulting : ∀ fault, description.byteSize = .error fault → result = .error (.faulted fault)

namespace Network

variable {n : Network} {name : String} {capacity primary : Nat} {gates : List Nat}
  {factory : Payload.Factory} {transform : Transform} {fill : Filler} {description : Description}

theorem admits_publisher (h : Hub) (name : String) (capacity : Nat) (factory : Payload.Factory) :
    Admits name capacity factory fun f => newPublisher h name capacity f := by
  refine .of_pool (fun f failure failed => ?_) (fun f pool made => ?_) factory
  · rw [newPublisher, Hub.newPool, failed]
    rfl
  · rw [newPublisher, Hub.newPool, made]
    exact ⟨_, rfl⟩

/-- Every signal has a byte, and 2 ^ 63 of them cannot be addressed. -/
theorem newPublisher_unaddressable :
    0 < 9223372036854775808 ∧ (∀ i < 9223372036854775808, Payload.Shape.signal.factory.Fills i) ∧
      ¬ ∃ made, newPublisher {} "p" 9223372036854775808 Payload.Shape.signal.factory = .ok made := by
  have unfit : ¬ Payload.Kind.signal.Fits 9223372036854775808 := by decide
  refine ⟨by decide, fun i _ => ⟨_, rfl, by decide⟩, ?_⟩
  rintro ⟨made, same⟩
  rw [newPublisher, Hub.newPool, Pool.new_unfitting (by decide) unfit] at same
  cases same

theorem admits_relay (n : Network) (name : String) (capacity : Nat) (factory : Payload.Factory)
    (fill : Filler) : Admits name capacity factory fun f => n.newRelay name capacity f fill := by
  refine .of_pool (fun f failure failed => ?_) (fun f pool made => ?_) factory
  · rw [newRelay, newPublisher, Hub.newPool, failed]
    rfl
  · rw [newRelay, newPublisher, Hub.newPool, made]
    exact ⟨_, rfl⟩

theorem admits_aggregator (n : Network) (name : String) (capacity : Nat) (factory : Payload.Factory)
    (primary : Nat) (gates : List Nat) (transform : Transform) : Admits name capacity factory fun f =>
      (n.newAggregator name capacity f primary gates transform).1 := by
  refine .of_pool (fun f failure failed => ?_) (fun f pool made => ?_) factory
  · rw [newAggregator, newPublisher, Hub.newPool, failed]
    rfl
  · rw [newAggregator, newPublisher, Hub.newPool, made]
    exact ⟨_, rfl⟩

theorem newSink_fst {size : UInt64} {buffers : Nat} (sized : description.byteSize = .ok size)
    (full : size ≠ 0) (wanted : buffers ≠ 0) :
    (n.newSink name description buffers primary gates transform).1 =
      (n.newAggregator name buffers (Payload.Shape.sink description).factory primary gates
        transform).1 := by
  simp only [newSink, sized, full, wanted, ↓reduceIte]
  cases n.newAggregator name buffers (Payload.Shape.sink description).factory primary gates transform with
  | mk built n' => cases built <;> rfl

theorem make_sink {size : UInt64} (sized : description.byteSize = .ok size) (i : Nat) :
    (size.toNat ≤ Memory.largestPiece ∧ ∃ payload, (Payload.Shape.sink description).make i = .ok payload ∧
        payload.byteSize = size.toNat) ∨
      (¬ size.toNat ≤ Memory.largestPiece ∧
        (Payload.Shape.sink description).make i = .error .capacityOverflow) := by
  by_cases small : size.toNat ≤ Memory.largestPiece
  · refine .inl ⟨small, .sink ⟨description, List.replicate size.toNat 0, 0⟩, ?_, ?_⟩
    · have reserved : Memory.reserve size.toNat = .ok size.toNat := if_neg (Nat.not_lt.2 small)
      simp only [Payload.Shape.make, SinkBuffer.new, sized, bind, Except.bind, reserved]
      rfl
    · exact List.length_replicate
  · refine .inr ⟨small, ?_⟩
    have refused : Memory.reserve size.toNat = .error .capacityOverflow :=
      if_pos (Nat.lt_of_not_le small)
    simp only [Payload.Shape.make, SinkBuffer.new, sized, bind, Except.bind, refused]
    rfl

theorem fills_sink {size : UInt64} (sized : description.byteSize = .ok size) (full : size ≠ 0) (i : Nat) :
    (Payload.Shape.sink description).factory.Fills i ↔ size.toNat ≤ Memory.largestPiece := by
  rcases make_sink sized i with ⟨small, payload, made, bytes⟩ | ⟨large, failed⟩
  · refine ⟨fun _ => small, fun _ => ⟨payload, made, fun empty => full ?_⟩⟩
    exact UInt64.toNat_inj.1 (bytes.symm.trans empty)
  · refine ⟨fun fills => ?_, fun small => absurd small large⟩
    obtain ⟨payload, made, -⟩ := fills
    cases failed.symm.trans made

theorem admits_sink (n : Network) (name : String) (description : Description)
    (buffers source : Nat) (dependents : List Nat) (collect : Transform) :
    AdmitsSink name description buffers
      (n.newSink name description buffers source dependents collect).1 := by
  have inner := n.admits_aggregator name buffers (Payload.Shape.sink description).factory source
    dependents collect
  have empty : description.byteSize = .ok 0 →
      (n.newSink name description buffers source dependents collect).1 =
        .error (.refused (.emptyPayload name)) := by
    intro sized
    simp only [newSink, sized, ↓reduceIte]
  have unsized : ∀ size, description.byteSize = .ok size → size ≠ 0 → buffers = 0 →
      (n.newSink name description buffers source dependents collect).1 =
        .error (.refused (.invalidCapacity 0)) := by
    rintro size sized full rfl
    simp only [newSink, sized, full, ↓reduceIte]
  refine ⟨fun size sized => ?_, empty, unsized, fun size sized full wanted unfit => ?_, fun fault failed => ?_⟩
  · by_cases full : size = 0
    · subst full
      rw [empty sized]
      simp
    by_cases wanted : buffers = 0
    · rw [unsized size sized full wanted]
      simp [wanted]
    rw [newSink_fst sized full wanted, inner.built]
    constructor
    · rintro ⟨some_buffers, fits, fills⟩
      exact ⟨full, some_buffers, fits, (fills_sink sized full 0).1 (fills 0 some_buffers)⟩
    · rintro ⟨-, some_buffers, fits, small⟩
      exact ⟨some_buffers, fits, fun i _ => (fills_sink sized full i).2 small⟩
  · rw [newSink_fst sized full (Nat.ne_of_gt wanted)]
    by_cases fits : Payload.Kind.sink.Fits buffers
    · rcases make_sink sized 0 with ⟨small, -⟩ | ⟨-, failed⟩
      · exact inner.unslotted wanted fits (fun slotted => unfit ⟨slotted, small⟩)
          fun i _ => (fills_sink sized full i).2 small
      · exact inner.faulting 0 wanted fits (fun i before => absurd before (Nat.not_lt_zero i)) _ failed
          _ rfl fun _ _ => rfl
    · exact inner.unfitting wanted fits _ rfl
  · simp only [newSink, failed]

theorem newSink_empty {buffers source : Nat} {dependents : List Nat} {collect : Transform} {pool : String} :
    (n.newSink name description buffers source dependents collect).1 =
      .error (.refused (.emptyPayload pool)) ↔ description.byteSize = .ok 0 ∧ pool = name := by
  have admits := n.admits_sink name description buffers source dependents collect
  generalize (n.newSink name description buffers source dependents collect).1 = result at admits
  constructor
  · rintro rfl
    cases sized : description.byteSize with
    | error fault => cases admits.faulting fault sized
    | ok size =>
      by_cases full : size = 0
      · subst full
        cases admits.empty sized
        exact ⟨rfl, rfl⟩
      by_cases wanted : buffers = 0
      · cases admits.unsized size sized full wanted
      have some_buffers := Nat.pos_of_ne_zero wanted
      by_cases fits : Payload.Kind.sink.FitsSlots buffers ∧ size.toNat ≤ Memory.largestPiece
      · obtain ⟨stage, built⟩ := (admits.built size sized).2 ⟨full, some_buffers, fits⟩
        cases built
      · cases admits.unfitting size sized full some_buffers fits
  · rintro ⟨empty, rfl⟩
    exact admits.empty empty

/-! ## Dropping the given subscriptions -/

/-- The given subscriptions are dropped, and nothing else changes but the log. -/
structure DropsGiven (n n' : Network) (given : List Nat) : Prop where
  stages : n'.stages = n.stages
  dropped : ∃ log, n'.hub = { n.hub.applyAll (given.map .dropSubscription) with log }
  left : ∃ ms, n.hub.Forgoes n'.hub given ms ∧ ∀ r, (n.hub.slot? r).isSome →
    ms.count (.returned r) ≤ 1 ∧ (.returned r ∈ ms ↔ n.hub.Rooted r ∧ ¬ n'.hub.Rooted r)

theorem letGo_dropsGiven (reached : n.hub.Reachable) (once : (primary :: gates).Nodup)
    (present : ∀ s ∈ primary :: gates, n.hub.subscriptions.contains s) (log : List Record) :
    n.DropsGiven (letGo { n with hub := { n.hub with log } } primary gates) (gates ++ [primary]) := by
  have order : (primary :: gates).Perm (gates ++ [primary]) := (List.perm_append_singleton _ _).symm
  have forgoes := Hub.Forgoes.all reached.sound (order.nodup_iff.1 once)
    fun s given => present s (order.mem_iff.2 given)
  have dropped : ∃ log', (letGo { n with hub := { n.hub with log } } primary gates).hub =
      { n.hub.applyAll ((gates ++ [primary]).map .dropSubscription) with log := log' } := by
    rw [← letGo_hub]
    exact Hub.dropSubscriptions_relog n.hub log (gates ++ [primary])
  refine ⟨rfl, dropped, ?_⟩
  obtain ⟨log', same⟩ := dropped
  rw [same]
  have reached' := reached.applyAll ((gates ++ [primary]).map .dropSubscription)
  exact ⟨_, forgoes.relog log', fun r there => forgoes.returned reached reached' there⟩

/-- When the four constructors succeed, how they fail, and the state after a failure. -/
structure ConstructorSpec (n : Network) (name : String) (capacity : Nat) (factory : Payload.Factory)
    (fill : Filler) (primary : Nat) (gates : List Nat) (transform : Transform)
    (description : Description) : Prop where
  publisher : Admits name capacity factory fun f => newPublisher n.hub name capacity f
  relay : Admits name capacity factory fun f => n.newRelay name capacity f fill
  aggregator : Admits name capacity factory fun f =>
    (n.newAggregator name capacity f primary gates transform).1
  sink : AdmitsSink name description capacity
    (n.newSink name description capacity primary gates transform).1
  without_publisher : ∀ failure, newPublisher n.hub name capacity factory = .error failure →
    ∃ log, n.hub.apply (.newPool name capacity factory) = { n.hub with log }
  without_relay : ∀ failure, n.newRelay name capacity factory fill = .error failure →
    ∃ log, n.act (.newRelay name capacity factory fill) = { n with hub := { n.hub with log } }
  without_aggregator : ∀ failure,
    (n.newAggregator name capacity factory primary gates transform).1 = .error failure →
      n.DropsGiven (n.newAggregator name capacity factory primary gates transform).2 (gates ++ [primary])
  without_sink : ∀ failure,
    (n.newSink name description capacity primary gates transform).1 = .error failure →
      n.DropsGiven (n.newSink name description capacity primary gates transform).2 (gates ++ [primary])

/-- For any name, capacity, factory and description, and any given subscriptions: each constructor
builds its part, or fails for the stated reason, drops the given subscriptions and changes nothing
else. -/
theorem built_or_refused (reached : n.hub.Reachable) (once : (primary :: gates).Nodup)
    (present : ∀ s ∈ primary :: gates, n.hub.subscriptions.contains s) (name : String) (capacity : Nat)
    (factory : Payload.Factory) (fill : Filler) (transform : Transform) (description : Description) :
    n.ConstructorSpec name capacity factory fill primary gates transform description := by
  refine ⟨admits_publisher n.hub name capacity factory, n.admits_relay name capacity factory fill,
    n.admits_aggregator name capacity factory primary gates transform,
    n.admits_sink name description capacity primary gates transform, fun failure refused => ?_,
    fun failure refused => ?_, fun failure refused => ?_, fun failure refused => ?_⟩
  · rw [newPublisher] at refused
    rw [Hub.apply]
    cases made : n.hub.newPool name capacity factory with
    | error failure => exact ⟨n.hub.log, rfl⟩
    | ok made' =>
      rw [made] at refused
      cases refused
  · rw [act, refused]
    exact ⟨n.hub.log, rfl⟩
  · have same : (n.newAggregator name capacity factory primary gates transform).2 =
        n.letGo primary gates := newAggregator_refused (Prod.ext refused rfl)
    rw [same]
    exact letGo_dropsGiven reached once present n.hub.log
  · obtain ⟨log, same⟩ : ∃ log, (n.newSink name description capacity primary gates transform).2 =
        letGo { n with hub := { n.hub with log } } primary gates :=
      newSink_refused (Prod.ext refused rfl)
    rw [same]
    exact letGo_dropsGiven reached once present log

/-- Subscriptions to a camera, with two frames queued, and to a door that was torn down, with a
signal queued, and an armed one to the camera. -/
def doorstepTorn : Network :=
  ⟨doorstep.hub.applyAll [.subscribe 0 true, .newMailbox, .arm 2 0, .dropPublisher 1], {}⟩

/-- The factory's second payload is empty: the aggregator is refused, the three subscriptions are
dropped, and what they had queued is released. -/
theorem built_or_refused_empty : ∃ (n' : Network) (ms : List Move),
    doorstepTorn.newAggregator "guard" 2 (Payload.Shape.bytes [1, 0]).factory 0 [1, 2] failing =
      (.error (.refused (.emptyPayload "guard")), n') ∧
    (∀ s ∈ [0, 1, 2], n'.hub.subscriptions.get? s = none) ∧
    (n'.hub.publishers.get? 0).map (·.receivers) = some [] ∧
    n'.hub.mailboxes.get? 0 = some { pending := 0 } ∧ doorstepTorn.hub.Forgoes n'.hub [1, 2, 0] ms ∧
    Hub.released ms = [⟨⟨1, 0⟩, 2, false⟩, ⟨⟨0, 0⟩, 0, false⟩, ⟨⟨0, 1⟩, 1, false⟩] := by
  have reached : doorstepTorn.hub.Reachable := Hub.Reachable.applyAll ⟨_, rfl⟩ _
  have constructs := built_or_refused reached (show (0 :: [1, 2]).Nodup by decide)
    (by decide +kernel) "guard" 2 (Payload.Shape.bytes [1, 0]).factory (fun _ v => ⟨v, none⟩) failing
    ⟨.bit, 0, 0⟩
  have fills : (Payload.Shape.bytes [1, 0]).factory.Fills 0 := ⟨.bytes [0], rfl, by decide⟩
  have refused := constructs.aggregator.empty 1 (by decide) (by decide)
    (fun i before => Nat.lt_one_iff.1 before ▸ fills) (.bytes []) rfl rfl _ rfl fun _ _ => rfl
  obtain ⟨-, -, ms, left, -⟩ := constructs.without_aggregator _ refused
  refine ⟨_, ms, Prod.ext refused rfl, fun s mine => ?_, ?_, ?_, left, ?_⟩
  · exact (left.subscriptions s).trans (if_pos (by simp at mine ⊢; omega))
  · refine (congrArg (Option.map _) (left.publishers 0)).trans ?_
    decide +kernel
  · refine (left.mailboxes 0).trans ?_
    decide +kernel
  · rw [left.released]
    decide +kernel

end Network

/-! ## Empty descriptions -/

/-- Totals and byte sizes are exact, or they overflow. Bits take the least number of whole words and
never overflow. The size is zero exactly for descriptions without elements, and a sink is refused as
empty exactly for these. -/
theorem Description.sizes_exact (d : Description) :
    (∀ s, d.total = .ok s ↔ s.toNat = d.real.toNat + d.padding.toNat) ∧
    (∀ fault, d.total = .error fault ↔
      2 ^ 64 ≤ d.real.toNat + d.padding.toNat ∧ fault = .addOverflow) ∧
    (∀ count, ∃ s, ElementType.bit.numBytes count = .ok s ∧
      IsLeast {m | 8 ∣ m ∧ count.toNat ≤ 8 * m} s.toNat) ∧
    ElementType.u32.Takes 4 ∧ ElementType.f32.Takes 4 ∧ ElementType.f64.Takes 8 ∧
    d.byteSize = d.total.bind d.elementType.numBytes ∧
    (d.byteSize = .ok 0 ↔ d.real = 0 ∧ d.padding = 0) ∧
    (∀ d' : Description, d.elementType = d'.elementType → d.real ≤ d'.real →
      d.padding ≤ d'.padding → ∀ s', d'.byteSize = .ok s' → ∃ s, d.byteSize = .ok s ∧ s ≤ s') ∧
    ∀ (n : Network) (name : String) (buffers source : Nat) (dependents : List Nat)
      (collect : Transform) (pool : String),
      (n.newSink name d buffers source dependents collect).1 =
        .error (.refused (.emptyPayload pool)) ↔ (d.real = 0 ∧ d.padding = 0) ∧ pool = name := by
  refine ⟨fun s => Checked.add_eq_ok, fun fault => Checked.add_eq_error, ElementType.numBytes_bit,
    .of_bytesFor fun n => rfl, .of_bytesFor fun n => rfl, .of_bytesFor fun n => rfl,
    rfl, byteSize_eq_zero, fun d' same real padding s' => byteSize_mono same real padding,
    fun n name buffers source dependents collect pool => ?_⟩
  rw [Network.newSink_empty, byteSize_eq_zero]

/-- The largest size of floats and one more, the largest count of bits, a larger and a smaller
description, and padding alone. -/
theorem Description.sizes_exact_largest :
    ElementType.f32.numBytes 4611686018427387904 = .error .mulOverflow ∧
    ElementType.f32.numBytes 4611686018427387903 = .ok 18446744073709551612 ∧
    (∃ s, ElementType.bit.numBytes 18446744073709551615 = .ok s ∧
      IsLeast {m | 8 ∣ m ∧ 18446744073709551615 ≤ 8 * m} s.toNat) ∧
    (∃ s, (Description.mk .f64 3 0).byteSize = .ok s ∧ s ≤ 48) ∧
    (Network.newSink {} "empty" ⟨.f64, 0, 1⟩ 0 0 [] (fun _ _ old => ⟨old, none⟩)).1 ≠
      .error (.refused (.emptyPayload "empty")) := by
  obtain ⟨-, -, bits, -, numbers, -, -, -, mono, -⟩ := sizes_exact ⟨.f64, 3, 0⟩
  obtain ⟨-, -, -, -, -, -, -, -, -, refused⟩ := sizes_exact ⟨.f64, 0, 1⟩
  refine ⟨((numbers _).2 _).2 (by decide), ((numbers _).1 _).2 (by decide), bits _,
    mono ⟨.f64, 5, 1⟩ rfl (by decide) (by decide) 48 (by decide), fun empty => ?_⟩
  exact absurd ((refused _ _ _ _ _ _ _).1 empty).1 (by decide)

end BufferFlow
