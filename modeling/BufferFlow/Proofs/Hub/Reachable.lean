import BufferFlow.Proofs.Hub.Contents
import BufferFlow.Proofs.Hub.Waiting
import BufferFlow.Payload.Shape

set_option autoImplicit false

namespace BufferFlow

namespace Hub

variable {h : Hub}

structure Sound (h : Hub) : Prop where
  enrolled : h.Enrolled
  armament : h.Armament
  expected : h.Expected
  accounted : h.Accounted
  numbered : h.Numbered

theorem Sound.empty : ({} : Hub).Sound :=
  ⟨⟨fun _ _ hp => by simp at hp, fun _ _ hp => by simp at hp, fun _ _ hs => by simp [publisherOf?] at hs⟩,
    ⟨fun _ _ hs => by simp [armedOf?] at hs, fun _ _ hs => by simp [armedOf?] at hs,
      fun _ _ hs => by simp [armedOf?] at hs, fun _ _ hs => by simp [armedOf?] at hs,
      fun _ _ _ _ hs => by simp [armedOf?] at hs⟩,
    ⟨fun _ _ hs => by simp [armedOf?] at hs, fun _ _ hM => by simp at hM⟩,
    Accounted.empty, ⟨fun _ hc => by simp [copies, loose, queued, filled, chained, allSlots, Table.values] at hc,
      fun _ hc => by simp [copies, loose, queued, filled, chained, allSlots, Table.values] at hc⟩⟩

theorem Sound.apply (hs : h.Sound) (op : Operation) : (h.apply op).Sound :=
  ⟨hs.enrolled.apply op, hs.armament.apply op, hs.expected.apply op,
    hs.accounted.apply hs.enrolled op,
    hs.numbered.apply hs.accounted op⟩

theorem Sound.applyAll (hs : h.Sound) (ops : List Operation) : (h.applyAll ops).Sound := by
  induction ops generalizing h with
  | nil => exact hs
  | cons op ops ih => exact ih (hs.apply op)

theorem append_of_cons {α : Type} {g : Hub → List Operation → List α}
    {f : Hub → Operation → List α} (nil : ∀ h, g h [] = [])
    (cons : ∀ h op ops, g h (op :: ops) = f h op ++ g (h.apply op) ops) (h : Hub)
    (a b : List Operation) : g h (a ++ b) = g h a ++ g (h.applyAll a) b := by
  induction a generalizing h with
  | nil =>
    rw [nil]
    rfl
  | cons op a ih =>
    rw [List.cons_append, cons, cons, ih, List.append_assoc]
    rfl

theorem Reachable.sound (hr : h.Reachable) : h.Sound := by
  obtain ⟨ops, rfl⟩ := hr
  exact Sound.empty.applyAll ops

theorem Faithful.applyAll {pub : Publication} (hf : h.Faithful pub) (hs : h.Sound)
    (ops : List Operation) : (h.applyAll ops).Faithful pub := by
  induction ops generalizing h with
  | nil => exact hf
  | cons op ops ih => exact ih (hf.apply hs.accounted op) (hs.apply op)

/-- The copies of a slot's buffer that are alive: in hand, queued, in a cell or chained. -/
def liveAt (h : Hub) (r : SlotRef) : Nat := h.copies.countP fun c => c.ref = r

end Hub

inductive SlotState
  | free
  | owned
  | published
  deriving DecidableEq

namespace Hub

/-- Free: on the stack once, uncounted and unchained. Owned: by one blank, and uncounted. Published:
counted by its live copies, of which there is one at least. -/
def InState (h : Hub) (r : SlotRef) : SlotState → Prop
  | .free =>
    h.stackedAt r = 1 ∧ h.blanks.count r = 0 ∧ h.liveAt r = 0 ∧ h.copiesAt r = 0 ∧
      h.chainedAt r = none
  | .owned => h.stackedAt r = 0 ∧ h.blanks.count r = 1 ∧ h.liveAt r = 0 ∧ h.copiesAt r = 0
  | .published =>
    h.stackedAt r = 0 ∧ h.blanks.count r = 0 ∧ h.copiesAt r = h.liveAt r ∧ 1 ≤ h.liveAt r

theorem InState.unique {h : Hub} {r : SlotRef} {a b : SlotState} (ha : h.InState r a)
    (hb : h.InState r b) : a = b := by
  cases a <;> cases b <;> simp only [InState] at ha hb <;> first | rfl | omega

theorem Accounted.inState {h : Hub} (ha : h.Accounted) {r : SlotRef}
    (hr : (h.slot? r).isSome) : ∃ state, h.InState r state := by
  obtain ⟨s, hs⟩ := Option.isSome_iff_exists.1 hr
  have standing := Balanced.standing ha r
  have counted : h.copiesAt r = s.copies := copiesAt_eq hs
  have chained : h.chainedAt r = s.chained := chainedAt_eq hs
  change Standing _ _ _ (h.liveAt r) at standing
  rw [hs] at standing
  generalize hstacked : h.stackedAt r = stacked at standing
  generalize howned : h.blanks.count r = owned at standing
  generalize hlive : h.liveAt r = live at standing
  cases standing with
  | free uncounted unchained =>
    exact ⟨.free, hstacked, howned, hlive, counted.trans uncounted, chained.trans unchained⟩
  | blank uncounted => exact ⟨.owned, hstacked, howned, hlive, counted.trans uncounted⟩
  | published hn => exact ⟨.published, hstacked, howned, by omega, by omega⟩

theorem Accounted.stats {h : Hub} (ha : h.Accounted) {id : Nat} {p : Pool}
    (hp : h.pools.get? id = some p) :
    p.stats.available + p.stats.inFlight = p.stats.capacity ∧
      (p.stats.acquires - p.stats.recycles).toNat = p.stats.inFlight := by
  have le := Balanced.free_length_le ha hp
  obtain ⟨-, bounded, taken⟩ := Balanced.sound ha id p hp
  refine ⟨Nat.add_sub_cancel' le, ?_⟩
  change (p.acquires - p.recycles).toNat = p.slots.size - p.free.length
  rw [taken, UInt64.add_comm, UInt64.add_sub_cancel]
  exact UInt64.toNat_ofNat_of_lt' (Nat.lt_of_le_of_lt (Nat.sub_le _ _) bounded)

/-- After any operations every slot of every pool is in exactly one of the three states, no pool was
misused, and the statistics of each pool add up. -/
theorem slots_accounted (ops : List Operation) :
    (∀ r, ((({} : Hub).applyAll ops).slot? r).isSome →
      ∃! state, (({} : Hub).applyAll ops).InState r state) ∧
    ∀ id p, (({} : Hub).applyAll ops).pools.get? id = some p →
      p.misuses = [] ∧ p.stats.available + p.stats.inFlight = p.stats.capacity ∧
        (p.stats.acquires - p.stats.recycles).toNat = p.stats.inFlight := by
  have accounted := (Sound.empty.applyAll ops).accounted
  refine ⟨fun r hr => ?_, fun id p hp => ?_⟩
  · obtain ⟨state, inState⟩ := accounted.inState hr
    exact ⟨state, inState, fun _ other => other.unique inState⟩
  · exact ⟨(Balanced.sound accounted id p hp).unmisused, accounted.stats hp⟩

def pulling : List Operation :=
  [.newPool "frames" 1 Payload.Shape.signal.factory, .newPublisher "camera" 0,
    .subscribe 0 false, .acquire 0, .publish 0 ⟨0, 0⟩, .pull 0]

/-- The buffer is published and counts the pulled copy. -/
theorem slots_accounted_pulled :
    (∀ state, (({} : Hub).applyAll pulling).InState ⟨0, 0⟩ state ↔ state = .published) ∧
    (({} : Hub).applyAll pulling).copiesAt ⟨0, 0⟩ = 1 ∧
    ∃ p, (({} : Hub).applyAll pulling).pools.get? 0 = some p ∧
      p.misuses = [] ∧ p.stats.available + p.stats.inFlight = p.stats.capacity := by
  obtain ⟨slots, pools⟩ := slots_accounted pulling
  have published : (({} : Hub).applyAll pulling).InState ⟨0, 0⟩ .published :=
    ⟨by decide +kernel, by decide +kernel, by decide +kernel, by decide +kernel⟩
  obtain ⟨state, -, only⟩ := slots ⟨0, 0⟩ (by decide +kernel)
  refine ⟨fun other => ⟨fun inState => ?_, ?_⟩, by decide +kernel, ?_⟩
  · exact (only other inState).trans (only .published published).symm
  · rintro rfl
    exact published
  · obtain ⟨p, hp⟩ := Option.isSome_iff_exists.1
      (show ((({} : Hub).applyAll pulling).pools.get? 0).isSome by decide +kernel)
    obtain ⟨unmisused, available, -⟩ := pools 0 p hp
    exact ⟨p, hp, unmisused, available⟩

end Hub

end BufferFlow
