import BufferFlow.Hub.Publication
import BufferFlow.Proofs.Hub.Reachable

set_option autoImplicit false

namespace BufferFlow

/-- Whether the operation is one of the subscription's own. -/
def Operation.Addresses (s : Nat) : Operation → Prop
  | pull t | arm t _ | cancel t | dropSubscription t => t = s
  | _ => False

namespace Hub

variable {h h' : Hub} {s : Nat} {sub : Subscription}

/-- How one copy comes to a subscription: in the armed cell, or in the queue because nothing is
armed or the armed cell is gone. -/
def Receives (s : Nat) (sub : Subscription) (c : Copy) (h h' : Hub) : Prop :=
  (∃ a, sub.armed = some a ∧ h.cells.get? a.cell = some none ∧
    h'.cells.get? a.cell = some (some c) ∧
    h'.subscriptions.get? s = some { sub with armed := none }) ∨
  ((∀ a, sub.armed = some a → h.cells.get? a.cell = none ∧ h'.cells.get? a.cell = none) ∧
    h'.subscriptions.get? s = some { sub with armed := none, queue := sub.queue ++ [c] })

theorem push_receives (ha : h.Armament) (hs : h.subscriptions.get? s = some sub) (r : SlotRef)
    (serial : Nat) : Receives s sub ⟨r, serial, sub.erased⟩ h (h.push r serial s) := by
  rcases push_cases h s r serial with ⟨absent, -⟩ | ⟨sub', hs', cases⟩
  · simp [hs] at absent
  obtain rfl : sub = sub' := by simpa [hs] using hs'
  rcases cases with ⟨idle, same⟩ | ⟨a, armed, ⟨open_, same⟩ | ⟨full, same⟩⟩ <;> rw [same]
  · refine .inr ⟨fun a hsub => by simp [idle] at hsub, ?_⟩
    simp only [Table.get?_modify, ↓reduceIte, hs, Option.map_some, idle]
  · refine .inl ⟨a, armed, open_, ?_, ?_⟩
    · simp only [Table.get?_modify, ↓reduceIte, open_, Option.map_some]
    · simp only [Table.get?_modify, ↓reduceIte, hs, Option.map_some]
  · refine .inr ⟨fun b hb => ?_, ?_⟩
    · obtain rfl : a = b := by simpa [armed] using hb
      have empty := ha.empty s a (armedOf?_eq_some.2 ⟨sub, hs, armed⟩)
      have gone : h.cells.get? a.cell = none := by
        cases hc : h.cells.get? a.cell with
        | none => rfl
        | some o => cases o <;> simp_all [contents?]
      exact ⟨gone, gone⟩
    · simp only [Table.get?_modify, ↓reduceIte, hs, Option.map_some]

theorem armedOf?_push {r : SlotRef} {serial t u : Nat} {a : Armed}
    (hu : (h.push r serial t).armedOf? u = some a) : h.armedOf? u = some a := by
  by_cases heq : u = t
  · subst heq
    obtain ⟨sub', hsub', armed⟩ := armedOf?_eq_some.1 hu
    rcases push_cases h u r serial with
      ⟨-, same⟩ | ⟨sub, hs, ⟨idle, same⟩ | ⟨b, -, ⟨-, same⟩ | ⟨-, same⟩⟩⟩ <;> rw [same] at hsub'
    · exact armedOf?_eq_some.2 ⟨sub', hsub', armed⟩
    all_goals
      simp only [Table.get?_modify, ↓reduceIte, hs, Option.map_some, Option.some.injEq] at hsub'
      subst hsub'
      simp_all
  · rwa [(Local.push h r serial t).armedOf? heq] at hu

theorem get?_cells_push {r : SlotRef} {serial t cell : Nat}
    (apart : ∀ a, h.armedOf? t = some a → a.cell ≠ cell) :
    (h.push r serial t).cells.get? cell = h.cells.get? cell := by
  rcases push_cases h t r serial with
    ⟨-, same⟩ | ⟨sub, hs, ⟨-, same⟩ | ⟨a, armed, ⟨-, same⟩ | ⟨-, same⟩⟩⟩ <;> rw [same]
  have hne := apart a (armedOf?_eq_some.2 ⟨sub, hs, armed⟩)
  rw [Table.get?_modify, if_neg (Ne.symm hne)]

theorem pushAll_others (r : SlotRef) (serial : Nat) {l : List Nat} (hs : s ∉ l) :
    (h.pushAll r serial l).subscriptions.get? s = h.subscriptions.get? s := by
  induction l generalizing h with
  | nil => rfl
  | cons t l ih =>
    have hne : s ≠ t := fun heq => hs (heq ▸ List.mem_cons_self)
    exact (ih fun hm => hs (List.mem_cons_of_mem t hm)).trans ((Local.push h r serial t).others s hne)

theorem pushAll_cells (r : SlotRef) (serial : Nat) {cell : Nat} {l : List Nat}
    (apart : ∀ t ∈ l, ∀ a, h.armedOf? t = some a → a.cell ≠ cell) :
    (h.pushAll r serial l).cells.get? cell = h.cells.get? cell := by
  induction l generalizing h with
  | nil => rfl
  | cons t l ih =>
    have later : ∀ u ∈ l, ∀ a, (h.push r serial t).armedOf? u = some a → a.cell ≠ cell :=
      fun u hu a ha => apart u (List.mem_cons_of_mem t hu) a (armedOf?_push ha)
    exact (ih later).trans (get?_cells_push (apart t List.mem_cons_self))

theorem pushAll_receives {r : SlotRef} {serial : Nat} {l : List Nat} (ha : h.Armament)
    (once : l.Nodup) (mem : s ∈ l) (hs : h.subscriptions.get? s = some sub) :
    Receives s sub ⟨r, serial, sub.erased⟩ h (h.pushAll r serial l) := by
  induction l generalizing h with
  | nil => simp at mem
  | cons t l ih =>
    obtain ⟨absent, once⟩ := List.nodup_cons.1 once
    change Receives _ _ _ h ((h.push r serial t).pushAll r serial l)
    by_cases heq : s = t
    · subst heq
      -- The others leave the cell alone that this one had armed.
      have cells : ∀ a, sub.armed = some a →
          ((h.push r serial s).pushAll r serial l).cells.get? a.cell =
            (h.push r serial s).cells.get? a.cell := by
        intro a armed
        refine pushAll_cells r serial fun u hu b hb heq => ?_
        have same := ha.apart u s b a (armedOf?_push hb) (armedOf?_eq_some.2 ⟨sub, hs, armed⟩) heq
        exact absent (same ▸ hu)
      rcases push_receives ha hs r serial with ⟨a, armed, before, after, sub'⟩ | ⟨gone, sub'⟩
      · exact .inl ⟨a, armed, before, (cells a armed).trans after, (pushAll_others r serial absent).trans sub'⟩
      · refine .inr ⟨fun a armed => ⟨(gone a armed).1, ?_⟩, (pushAll_others r serial absent).trans sub'⟩
        exact (cells a armed).trans (gone a armed).2
    · have mem' : s ∈ l := (List.mem_cons.1 mem).resolve_left heq
      have still := (Local.push h r serial t).others s heq
      have cells : ∀ a, sub.armed = some a →
          (h.push r serial t).cells.get? a.cell = h.cells.get? a.cell := by
        intro a armed
        refine get?_cells_push fun b hb hcell => heq ?_
        exact ha.apart s t a b (armedOf?_eq_some.2 ⟨sub, hs, armed⟩) hb hcell.symm
      rcases ih (ha.push r serial t) once mem' (still.trans hs) with
        ⟨a, armed, before, after, sub'⟩ | ⟨gone, sub'⟩
      · exact .inl ⟨a, armed, (cells a armed).symm.trans before, after, sub'⟩
      · exact .inr ⟨fun a armed => ⟨(cells a armed).symm.trans (gone a armed).1, (gone a armed).2⟩,
          sub'⟩

theorem publication?_eq_some {op : Operation} {pub : Publication} :
    h.publication? op = some pub ↔ op = .publish pub.publisher pub.ref ∧ pub.ref ∈ h.blanks ∧
      h.publishers.contains pub.publisher ∧ pub.serial = h.serial ∧
      h.payload? pub.ref = some pub.payload := by
  cases op with
  | publish p blank =>
    simp only [publication?]
    split
    · rename_i both
      rw [Option.map_eq_some_iff]
      constructor
      · rintro ⟨payload, hp, rfl⟩
        exact ⟨rfl, both.1, both.2, rfl, hp⟩
      · rintro ⟨hop, -, -, hserial, hp⟩
        obtain ⟨rfl, rfl⟩ := Operation.publish.inj hop
        exact ⟨pub.payload, hp, by rw [← hserial]⟩
    · rename_i neither
      constructor
      · intro none_pub
        simp at none_pub
      · rintro ⟨hop, owned, alive, -⟩
        obtain ⟨rfl, rfl⟩ := Operation.publish.inj hop
        exact absurd ⟨owned, alive⟩ neither
  | _ => simp [publication?]

theorem mem_receivers (he : h.Enrolled) {p : Nat} :
    s ∈ h.receivers p ↔ h.publisherOf? s = some p := by
  cases hp : h.publishers.get? p with
  | none =>
    simp only [receivers, hp, Option.map_none, Option.getD_none, List.not_mem_nil, false_iff]
    intro hs
    have alive := he.alive s p hs
    simp [hp] at alive
  | some P =>
    simp only [receivers, hp, Option.map_some, Option.getD_some]
    exact he.paired p P hp s

theorem receivers_nodup (he : h.Enrolled) (p : Nat) : (h.receivers p).Nodup := by
  cases hp : h.publishers.get? p with
  | none => simp [receivers, hp]
  | some P => simpa [receivers, hp] using he.once p P hp

theorem contents?_apply {op : Operation} {cell : Nat} (given : cell < h.cells.next)
    (empty : h.contents? cell = none)
    (spared : ∀ p blank, op = .publish p blank → blank ∈ h.blanks → ∀ t ∈ h.receivers p, ∀ a,
      h.armedOf? t = some a → a.cell ≠ cell) :
    (h.apply op).contents? cell = none := by
  by_cases moves : op.MovesCells
  · cases op with
    | publish p blank =>
      rcases publish_cases h p blank with ⟨-, same⟩ | ⟨owned, -, ⟨-, same⟩ | ⟨-, same⟩⟩ <;>
        rw [Hub.apply, same]
      · exact empty
      · change ((h.spend blank).recycle blank).contents? cell = none
        rw [contents?, (SamePeers.recycle _ blank).links.cells]
        exact empty
      · have cells := pushAll_cells (h := (h.spend blank).addCopies blank (h.receivers p).length)
          blank h.serial (spared p blank rfl owned)
        exact (congrArg (Option.bind · id) cells).trans empty
    | arm subscription mailbox =>
      have cells := cells_cancel h subscription
      rw [Hub.apply]
      split
      · rcases arm_cases h subscription mailbox with
          ⟨-, ⟨-, same⟩ | ⟨sub, -, ⟨c, queue, -, same⟩ | ⟨-, -, same⟩ | ⟨-, -, same⟩⟩⟩ <;>
          rw [same, contents?, cells, Table.get?_insert, if_neg (Nat.ne_of_lt given)] <;>
          exact empty
      · exact empty
    | takeCell i =>
      rcases takeCell_cases h i with ⟨-, -, same⟩ | ⟨c, -, -, same⟩ <;> rw [Hub.apply, same]
      · exact empty
      · rw [contents?, Table.get?_modify]
        split
        · cases h.cells.get? cell <;> rfl
        · exact empty
    | dropCell i =>
      rw [Hub.apply, contents?, get?_dropCell]
      split
      · rfl
      · exact empty
    | _ => exact moves.elim
  · rw [contents?, cells_apply moves]
    exact empty

theorem get?_apply {op : Operation} (hs : h.subscriptions.get? s = some sub)
    (others : ¬ op.Addresses s)
    (unpublished : ∀ p blank, op = .publish p blank → blank ∈ h.blanks → s ∉ h.receivers p)
    (kept : ∀ p, op = .dropPublisher p → s ∉ h.receivers p) :
    (h.apply op).subscriptions.get? s = some sub := by
  by_cases hop : op.OnBuffers
  · rw [(SameLinks.apply h hop).subscriptions]
    exact hs
  cases op with
  | newPublisher | newMailbox => exact hs
  | subscribeDetached erased =>
    exact (Table.get?_insert _ _ _).trans (by rw [if_neg (Nat.ne_of_lt (Table.get?_lt hs)), hs])
  | subscribe publisher erased =>
    rcases subscribe_cases h publisher erased with ⟨-, ⟨-, same⟩ | ⟨P, counters, log, -, same⟩⟩ <;>
      rw [Hub.apply, same] <;>
      exact (Table.get?_insert _ _ _).trans (by rw [if_neg (Nat.ne_of_lt (Table.get?_lt hs)), hs])
  | publish p blank =>
    rcases publish_cases h p blank with ⟨-, same⟩ | ⟨owned, -, ⟨-, same⟩ | ⟨-, same⟩⟩ <;>
      rw [Hub.apply, same]
    · exact hs
    · change ((h.spend blank).recycle blank).subscriptions.get? s = some sub
      rw [(SamePeers.recycle _ blank).links.subscriptions]
      exact hs
    · have others := pushAll_others (h := (h.spend blank).addCopies blank (h.receivers p).length)
        blank h.serial (unpublished p blank rfl owned)
      exact others.trans hs
  | pull t => exact ((Local.pull h t).others s (Ne.symm others)).trans hs
  | arm t mailbox =>
    rw [Hub.apply]
    split
    · exact ((Local.arm h t mailbox).others s (Ne.symm others)).trans hs
    · exact hs
  | cancel t => exact ((Local.cancel h t).others s (Ne.symm others)).trans hs
  | takeCell cell =>
    rcases takeCell_cases h cell with ⟨-, -, same⟩ | ⟨c, -, -, same⟩ <;> rw [Hub.apply, same] <;>
      exact hs
  | dropCell cell =>
    rw [Hub.apply, subscriptions_dropCell]
    exact hs
  | dropSubscription t =>
    rw [Hub.apply, get?_dropSubscription, if_neg (Ne.symm others)]
    exact hs
  | dropPublisher p =>
    rw [Hub.apply, get?_dropPublisher, if_neg (kept p rfl)]
    exact hs
  | newPool | acquire | write | chain | dropBlank | wait | erase | release | tally =>
    exact absurd trivial hop

theorem others_cases (sound : h.Sound) (hs : h.subscriptions.get? s = some sub) (op : Operation)
    (others : ¬ op.Addresses s) :
    ((h.apply op).subscriptions.get? s = some sub ∧
      (∀ a, sub.armed = some a → (h.apply op).contents? a.cell = none) ∧
      (∀ pub, h.publication? op = some pub → sub.publisher ≠ some pub.publisher) ∧
      ∀ p, sub.publisher = some p → op ≠ .dropPublisher p) ∨
    (∃ p, op = .dropPublisher p ∧ sub.publisher = some p ∧
      (h.apply op).subscriptions.get? s = some { sub with publisher := none, armed := none }) ∨
    ∃ pub, h.publication? op = some pub ∧ sub.publisher = some pub.publisher ∧
      Receives s sub (pub.copy sub.erased) h (h.apply op) := by
  have named : ∀ p, s ∈ h.receivers p ↔ sub.publisher = some p := by
    intro p
    rw [mem_receivers sound.enrolled, publisherOf?, hs]
    rfl
  by_cases torn : ∃ p, op = .dropPublisher p ∧ sub.publisher = some p
  · obtain ⟨p, rfl, hp⟩ := torn
    refine .inr (.inl ⟨p, rfl, hp, ?_⟩)
    rw [Hub.apply, get?_dropPublisher, if_pos ((named p).2 hp), hs]
    rfl
  by_cases received : ∃ p blank, op = .publish p blank ∧ blank ∈ h.blanks ∧ sub.publisher = some p
  · obtain ⟨p, blank, rfl, owned, hp⟩ := received
    have mem := (named p).2 hp
    obtain ⟨slot, hslot, -⟩ := Balanced.blank_slot sound.accounted owned
    have payload : h.payload? blank = some slot.payload := by rw [payload?, hslot]; rfl
    have alive : h.publishers.contains p := sound.enrolled.alive s p (by rw [publisherOf?, hs]; exact hp)
    refine .inr (.inr ⟨⟨p, blank, h.serial, slot.payload⟩,
      publication?_eq_some.2 ⟨rfl, owned, alive, rfl, payload⟩, hp, ?_⟩)
    rcases publish_cases h p blank with ⟨foreign, -⟩ | ⟨-, -, ⟨nobody, -⟩ | ⟨-, same⟩⟩
    · exact absurd owned foreign
    · simp [nobody] at mem
    · rw [Hub.apply, same]
      exact pushAll_receives (h := (h.spend blank).addCopies blank (h.receivers p).length)
        (sound.armament.ofLinks ⟨rfl, rfl, rfl, rfl⟩) (receivers_nodup sound.enrolled p) mem hs
  have unpublished : ∀ p blank, op = .publish p blank → blank ∈ h.blanks → s ∉ h.receivers p :=
    fun p blank hop owned hm => received ⟨p, blank, hop, owned, (named p).1 hm⟩
  refine .inl ⟨get?_apply hs others unpublished
    fun p hop hm => torn ⟨p, hop, (named p).1 hm⟩, fun a armed => ?_, fun pub hpub hp => ?_,
    fun p hp hop => torn ⟨p, hop, hp⟩⟩
  · have here : h.armedOf? s = some a := armedOf?_eq_some.2 ⟨sub, hs, armed⟩
    refine contents?_apply (sound.armament.given s a here) (sound.armament.empty s a here)
      fun p blank hop owned t ht b hb heq => ?_
    rw [sound.armament.apart t s b a hb here heq] at ht
    exact unpublished p blank hop owned ht
  · obtain ⟨hop, owned, -⟩ := publication?_eq_some.1 hpub
    exact received ⟨_, _, hop, owned, hp⟩

end Hub

end BufferFlow
