import BufferFlow.Proofs.Stage.Taking

set_option autoImplicit false

/-! # Rounds of an aggregator

What an aggregator has in its hands in each phase, what others may not touch, and what holds between
its steps: its sources are joined round after round, and what it published so far was derived, in
order, from what its primary source was supplied with. -/

namespace BufferFlow

namespace AggregatorPhase

def cells : AggregatorPhase → List Nat
  | arming cells | waiting cells => cells
  | _ => []

def source? : AggregatorPhase → Option Copy
  | acquiring source | transforming source _ => some source
  | _ => none

def blank? : AggregatorPhase → Option SlotRef
  | transforming _ blank | publishing blank => some blank
  | _ => none

end AggregatorPhase

/-- Whether the operation leaves the loop its sources, its mailbox, the cells and its publisher. -/
structure Operation.Heeds (op : Operation) (l : AggregatorLoop) (cells : List Nat) : Prop where
  avoids : op.Avoids l.mailbox l.sources cells
  publisher : op ≠ .dropPublisher l.publisher
  unpublished : ∀ blank, op ≠ .publish l.publisher blank

namespace AggregatorLoop

variable {h₀ h h' : Hub} {l l' : AggregatorLoop} {ops : List Operation} {op : Operation}

/-- Whether the operation of somebody else leaves alone all that is the loop's own: besides what it
is linked to, the copy and the blank that it has in hand. -/
structure Spares (l : AggregatorLoop) (h : Hub) (op : Operation) : Prop where
  heeds : op.Heeds l l.phase.cells
  source : ∀ c, l.phase.source? = some c → op.Consumes c → 1 < h.held.count c
  blank : ∀ b, l.phase.blank? = some b →
    (∀ p, op ≠ .publish p b) ∧ (∀ payload, op ≠ .write b payload) ∧ op ≠ .dropBlank b

/-! ## What is derived -/

def GatesOpen (l : AggregatorLoop) (h₀ : Hub) (ops : List Operation) (k : Nat) : Prop :=
  ∀ g ∈ l.gates, ∃ v, (h₀.supply g ops)[k]? = some v ∧ v.isOpen = true

/-- The payload is the transform, at its call with that number, of what the primary source was
supplied with under the same number, and all gates were open there. -/
def Derived (l : AggregatorLoop) (h₀ : Hub) (ops : List Operation) (k : Nat) (payload : Payload) :
    Prop :=
  ∃ v old, (h₀.supply l.primary ops)[k]? = some v ∧ l.transform k v old = ⟨payload, none⟩ ∧
    l.GatesOpen h₀ ops k

theorem supply_mono {s k : Nat} {v : Payload} (more : List Operation)
    (hv : (h₀.supply s ops)[k]? = some v) : (h₀.supply s (ops ++ more))[k]? = some v := by
  obtain ⟨later, hl⟩ := h₀.supply_append s ops more
  rw [← hl, List.getElem?_append_left (List.getElem?_eq_some_iff.1 hv).1]
  exact hv

theorem GatesOpen.mono {k : Nat} (gates : l.GatesOpen h₀ ops k) (more : List Operation) :
    l.GatesOpen h₀ (ops ++ more) k := by
  intro g hg
  obtain ⟨v, hv, isOpen⟩ := gates g hg
  exact ⟨v, supply_mono more hv, isOpen⟩

theorem Derived.mono {k : Nat} {payload : Payload} (derived : l.Derived h₀ ops k payload)
    (more : List Operation) : l.Derived h₀ (ops ++ more) k payload := by
  obtain ⟨v, old, hv, made, gates⟩ := derived
  exact ⟨v, old, supply_mono more hv, made, gates.mono more⟩

/-! ## What the loop is linked to -/

/-- The loop's sources and its publisher after a run, while join number `k` has armed the cells. -/
structure Engaged (l : AggregatorLoop) (h₀ : Hub) (ops : List Operation) (k : Nat)
    (cells : List Nat) : Prop where
  sound : h₀.Sound
  once : l.sources.Nodup
  present : ∀ s ∈ l.sources, h₀.subscriptions.contains s
  kept : ∀ s ∈ l.sources, .dropSubscription s ∉ ops
  foreign : ∀ s ∈ l.sources, (h₀.applyAll ops).publisherOf? s ≠ some l.publisher
  alive : (h₀.applyAll ops).publishers.contains l.publisher
  joining : (h₀.applyAll ops).Joining (h₀.departed · ops) l.mailbox l.sources k cells
  derived : ∀ (j : Nat) pub, (h₀.publishedBy l.publisher ops)[j]? = some pub →
    l.Derived h₀ ops j pub.payload

namespace Engaged

variable {k : Nat} {cells : List Nat}

theorem soundly (e : l.Engaged h₀ ops k cells) : (h₀.applyAll ops).Sound := e.sound.applyAll ops

theorem withPhase (e : l.Engaged h₀ ops k cells) (calls : Nat) (phase : AggregatorPhase) :
    { l with calls, phase }.Engaged h₀ ops k cells :=
  ⟨e.sound, e.once, e.present, e.kept, e.foreign, e.alive, e.joining, e.derived⟩

theorem departed_snoc (h₀ : Hub) (ops : List Operation) (op : Operation) :
    (h₀.departed · (ops ++ [op])) =
      fun s => h₀.departed s ops ++ (h₀.applyAll ops).departures s op := by
  funext s
  exact h₀.departed_snoc s ops op

theorem publisherOf?_apply {s : Nat} (sound : h.Sound) (known : h.subscriptions.contains s)
    (kept : op ≠ .dropSubscription s) :
    (h.apply op).publisherOf? s = h.publisherOf? s ∨ (h.apply op).publisherOf? s = none := by
  obtain ⟨sub, hs⟩ := Option.isSome_iff_exists.1 known
  obtain ⟨sub', step⟩ := Hub.flows sound hs kept
  rw [Hub.publisherOf?, Hub.publisherOf?, step.found, hs]
  rcases step.publisher with ⟨same, -⟩ | ⟨p, -, -, lost⟩
  · exact .inl same
  · exact .inr lost

theorem step (e : l.Engaged h₀ ops k cells) {k' : Nat} {cells' : List Nat}
    (joining : ((h₀.applyAll ops).apply op).Joining
      (fun s => h₀.departed s ops ++ (h₀.applyAll ops).departures s op) l.mailbox l.sources k' cells')
    (kept : ∀ s ∈ l.sources, op ≠ .dropSubscription s) (publisher : op ≠ .dropPublisher l.publisher)
    (derived : ∀ (j : Nat) pub, (h₀.publishedBy l.publisher (ops ++ [op]))[j]? = some pub →
      l.Derived h₀ (ops ++ [op]) j pub.payload) : l.Engaged h₀ (ops ++ [op]) k' cells' := by
  obtain ⟨P, hP⟩ := Option.isSome_iff_exists.1 e.alive
  refine ⟨e.sound, e.once, e.present, fun s hs hm => ?_, fun s hs => ?_, ?_, ?_, derived⟩
  · rcases List.mem_append.1 hm with hm | hm
    · exact e.kept s hs hm
    · exact kept s hs (List.mem_singleton.1 hm).symm
  · rw [Hub.applyAll_snoc]
    rcases publisherOf?_apply e.soundly (e.joining.known s hs) (kept s hs) with same | lost
    · rw [same]
      exact e.foreign s hs
    · simp [lost]
  · rw [Hub.applyAll_snoc, (Hub.publisher_apply (Table.get?_lt hP) publisher).1]
    exact e.alive
  · rw [Hub.applyAll_snoc, departed_snoc]
    exact joining

theorem derived_quiet (e : l.Engaged h₀ ops k cells)
    (unpublished : ∀ blank, op ≠ .publish l.publisher blank) (j : Nat) (pub : Publication)
    (hpub : (h₀.publishedBy l.publisher (ops ++ [op]))[j]? = some pub) :
    l.Derived h₀ (ops ++ [op]) j pub.payload := by
  rw [Hub.publishedBy_quiet unpublished] at hpub
  exact (e.derived j pub hpub).mono [op]

theorem apply (e : l.Engaged h₀ ops k cells) (heeds : op.Heeds l cells) :
    l.Engaged h₀ (ops ++ [op]) k cells := by
  refine e.step (e.joining.apply e.soundly heeds.avoids) (fun s hs => ?_) heeds.publisher
    (e.derived_quiet heeds.unpublished)
  rintro rfl
  exact heeds.avoids.sources s hs rfl

theorem applyAll (e : l.Engaged h₀ ops k cells) {more : List Operation}
    (heeds : ∀ op ∈ more, op.Heeds l cells) : l.Engaged h₀ (ops ++ more) k cells := by
  induction more generalizing ops with
  | nil => rwa [List.append_nil]
  | cons op more ih =>
    have first := e.apply (heeds op List.mem_cons_self)
    have rest := ih first fun op hop => heeds op (List.mem_cons_of_mem _ hop)
    rwa [List.append_assoc] at rest

theorem arm (e : l.Engaged h₀ ops k cells) {s : Nat} (hs : l.sources[cells.length]? = some s) :
    l.Engaged h₀ (ops ++ [.arm s l.mailbox]) k
      (cells ++ [((h₀.applyAll ops).arm s l.mailbox).1]) :=
  e.step (e.joining.arm e.soundly e.once hs) (fun _ _ => nofun) nofun (e.derived_quiet fun _ => nofun)

theorem next (e : l.Engaged h₀ ops k cells) (all : cells.length = l.sources.length)
    (waited : ((h₀.applyAll ops).wait? l.mailbox).map (·.1) = some true) :
    l.Engaged h₀ ops (k + 1) [] :=
  ⟨e.sound, e.once, e.present, e.kept, e.foreign, e.alive, e.joining.next all e.soundly waited,
    e.derived⟩

theorem shown (e : l.Engaged h₀ ops k cells) {s j : Nat} {c : Copy} (hs : s ∈ l.sources)
    (hc : (h₀.departed s ops)[j]? = some c) (alive : c ∈ (h₀.applyAll ops).copies) :
    ∃ v, (h₀.supply s ops)[j]? = some v ∧ (h₀.applyAll ops).payload? c.ref = some v := by
  obtain ⟨sub, hsub⟩ := Option.isSome_iff_exists.1 (e.present s hs)
  obtain ⟨v, hv⟩ := Hub.payload?_of_copy e.soundly.accounted alive
  have place : (h₀.departed s ops ++ (h₀.applyAll ops).queueOf s)[j]? = some c := by
    rw [List.getElem?_append_left (List.getElem?_eq_some_iff.1 hc).1]
    exact hc
  exact ⟨v, (Hub.supply_shown e.sound hsub (e.kept s hs) place alive).trans hv, hv⟩

theorem length_supply (e : l.Engaged h₀ ops k cells) {s : Nat} (hs : s ∈ l.sources) :
    (h₀.supply s ops).length =
      (h₀.departed s ops).length + ((h₀.applyAll ops).queueOf s).length := by
  obtain ⟨sub, hsub⟩ := Option.isSome_iff_exists.1 (e.present s hs)
  exact Hub.length_supply e.sound hsub (e.kept s hs)

end Engaged

/-! ## Between two steps -/

def joins (l : AggregatorLoop) : Nat :=
  match l.phase with
  | .acquiring _ | .transforming _ _ => l.calls + 1
  | _ => l.calls

structure Joined (l : AggregatorLoop) (h₀ : Hub) (ops : List Operation) (source : Copy) : Prop where
  inHand : source ∈ (h₀.applyAll ops).held
  last : (h₀.departed l.primary ops)[l.calls]? = some source
  gates : l.GatesOpen h₀ ops l.calls

/-- The round that the loop is in, from 0: as many as it has published buffers. -/
def round (l : AggregatorLoop) (h₀ : Hub) (ops : List Operation) : Nat :=
  (h₀.publishedBy l.publisher ops).length

def Prepared (l : AggregatorLoop) (h₀ : Hub) (ops : List Operation) : AggregatorPhase → Prop
  | .arming _ => l.round h₀ ops = l.calls
  | .waiting cells => l.round h₀ ops = l.calls ∧ cells.length = l.sources.length
  | .acquiring source => l.round h₀ ops = l.calls ∧ l.Joined h₀ ops source
  | .transforming source blank =>
    l.round h₀ ops = l.calls ∧ l.Joined h₀ ops source ∧ blank ∈ (h₀.applyAll ops).blanks
  | .publishing blank =>
    l.round h₀ ops + 1 = l.calls ∧ blank ∈ (h₀.applyAll ops).blanks ∧
      ∃ payload, (h₀.applyAll ops).payload? blank = some payload ∧
        l.Derived h₀ ops (l.round h₀ ops) payload

/-- What holds of a loop between its steps, after a run that it takes part in. -/
structure InRound (l : AggregatorLoop) (h₀ : Hub) (ops : List Operation) : Prop where
  engaged : l.Engaged h₀ ops l.joins l.phase.cells
  prepared : l.Prepared h₀ ops l.phase

theorem round_quiet (unpublished : ∀ blank, op ≠ .publish l.publisher blank) :
    l.round h₀ (ops ++ [op]) = l.round h₀ ops :=
  congrArg List.length (Hub.publishedBy_quiet unpublished)

theorem Joined.apply {source : Copy} (joined : l.Joined h₀ ops source)
    (kept : op.Consumes source → 1 < (h₀.applyAll ops).held.count source) :
    l.Joined h₀ (ops ++ [op]) source := by
  refine ⟨?_, ?_, joined.gates.mono [op]⟩
  · rw [Hub.applyAll_snoc]
    exact Hub.held_apply joined.inHand kept
  · rw [Hub.departed_snoc, List.getElem?_append_left (List.getElem?_eq_some_iff.1 joined.last).1]
    exact joined.last

theorem payload?_blank {blank : SlotRef} {payload : Payload} (sound : h.Sound)
    (owned : blank ∈ h.blanks) (shown : h.payload? blank = some payload)
    (unwritten : ∀ payload, op ≠ .write blank payload) :
    (h.apply op).payload? blank = some payload := by
  obtain ⟨slot, hslot, -⟩ := Hub.Balanced.blank_slot sound.accounted owned
  rw [Hub.payload?_apply (by simp [hslot]) fun p hop => absurd hop (unwritten p)]
  exact shown

theorem InRound.other (r : l.InRound h₀ ops) (spares : l.Spares (h₀.applyAll ops) op) :
    l.InRound h₀ (ops ++ [op]) := by
  refine ⟨r.engaged.apply spares.heeds, ?_⟩
  have same : l.round h₀ (ops ++ [op]) = l.round h₀ ops := round_quiet spares.heeds.unpublished
  have prepared := r.prepared
  have sourceKept := spares.source
  have blankKept := spares.blank
  cases phase : l.phase with
  | arming cells =>
    rw [phase] at prepared
    exact same.trans prepared
  | waiting cells =>
    rw [phase] at prepared
    exact ⟨same.trans prepared.1, prepared.2⟩
  | acquiring source =>
    rw [phase] at prepared sourceKept
    exact ⟨same.trans prepared.1, prepared.2.apply (sourceKept source rfl)⟩
  | transforming source blank =>
    rw [phase] at prepared sourceKept blankKept
    obtain ⟨unpublished, -, kept⟩ := blankKept blank rfl
    refine ⟨same.trans prepared.1, prepared.2.1.apply (sourceKept source rfl), ?_⟩
    rw [Hub.applyAll_snoc]
    exact Hub.blanks_apply prepared.2.2 unpublished kept
  | publishing blank =>
    rw [phase] at prepared blankKept
    obtain ⟨unpublished, unwritten, kept⟩ := blankKept blank rfl
    obtain ⟨count, owned, payload, shown, derived⟩ := prepared
    rw [Prepared, same, Hub.applyAll_snoc]
    exact ⟨count, Hub.blanks_apply owned unpublished kept, payload,
      payload?_blank r.engaged.soundly owned shown unwritten, derived.mono [op]⟩

/-! ## The loop's own steps -/

theorem heeds_of_empties (hop : op.Empties) : op.Heeds l [] := by
  cases op with
  | takeCell | dropCell | release =>
    exact ⟨.without_cells (fun _ _ => id) fun _ => nofun, nofun, fun _ => nofun⟩
  | _ => exact hop.elim

theorem heeds_wait (mailbox : Nat) : (Operation.wait mailbox).Heeds l [] :=
  ⟨.without_cells (fun _ _ => id) fun _ => nofun, nofun, fun _ => nofun⟩

theorem heeds_acquire (pool : Nat) : (Operation.acquire pool).Heeds l [] :=
  ⟨.without_cells (fun _ _ => id) fun _ => nofun, nofun, fun _ => nofun⟩

theorem heeds_deriving (blank : SlotRef) (payload : Payload) (source : Copy) :
    ∀ op ∈ [Operation.write blank payload, .chain blank source], op.Heeds l [] := by
  intro op hop
  rcases List.mem_pair.1 hop with rfl | rfl <;>
    exact ⟨.without_cells (fun _ _ => id) fun _ => nofun, nofun, fun _ => nofun⟩

theorem InRound.armed (r : l.InRound h₀ ops) {cells : List Nat} (phase : l.phase = .arming cells)
    (next : l.sources[cells.length]? = none) :
    InRound { l with phase := .waiting cells } h₀ ops := by
  obtain ⟨engaged, prepared⟩ := r
  rw [joins, phase] at engaged
  rw [phase] at prepared
  have all : cells.length = l.sources.length :=
    Nat.le_antisymm engaged.joining.within (List.getElem?_eq_none_iff.1 next)
  exact ⟨engaged.withPhase l.calls (.waiting cells), prepared, all⟩

theorem InRound.arms (r : l.InRound h₀ ops) {cells : List Nat} {source : Nat}
    (phase : l.phase = .arming cells) (next : l.sources[cells.length]? = some source) :
    InRound { l with phase := .arming (cells ++ [((h₀.applyAll ops).arm source l.mailbox).1]) } h₀
      (ops ++ [.arm source l.mailbox]) := by
  obtain ⟨engaged, prepared⟩ := r
  rw [joins, phase] at engaged
  rw [phase] at prepared
  have quiet : l.round h₀ (ops ++ [.arm source l.mailbox]) = l.round h₀ ops :=
    round_quiet fun _ => nofun
  exact ⟨(engaged.arm next).withPhase l.calls _, quiet.trans prepared⟩

theorem Engaged.come {k : Nat} {cells : List Nat} (e : l.Engaged h₀ ops k cells)
    (waited : ((h₀.applyAll ops).wait? l.mailbox).map (·.1) = some true) {i s cell : Nat}
    (hs : l.sources[i]? = some s) (hc : cells[i]? = some cell) :
    ∃ c v, (h₀.applyAll ops).cells.get? cell = some (some c) ∧ (h₀.departed s ops)[k]? = some c ∧
      (h₀.departed s ops).length = k + 1 ∧ (h₀.supply s ops)[k]? = some v ∧
      (h₀.applyAll ops).payload? c.ref = some v := by
  obtain ⟨-, -, come⟩ := e.joining.completed e.soundly waited
  obtain ⟨c, full, -, last, count⟩ := come i s cell hs hc
  obtain ⟨v, supplied, shown⟩ := e.shown (List.mem_of_getElem? hs) last (Hub.mem_copies_of_cell full)
  exact ⟨c, v, full, last, count, supplied, shown⟩

theorem wait_still (h : Hub) (mailbox cell : Nat) :
    (h.apply (.wait mailbox)).cells = h.cells ∧
      (h.apply (.wait mailbox)).signal? cell = h.signal? cell := by
  obtain ⟨counters, same⟩ := Hub.wait_cases h mailbox
  rw [same]
  exact ⟨rfl, rfl⟩

theorem Engaged.joined {k : Nat} {cells : List Nat} (e : l.Engaged h₀ ops k cells)
    (all : cells.length = l.sources.length)
    (waited : (h₀.applyAll ops).wait? l.mailbox = some (true, h)) :
    ∃ primary gates source, cells = primary :: gates ∧
      (h₀.departed l.primary ops)[k]? = some source ∧
      (h.applyAll (gatesRequests h gates)).contents? primary = some source ∧
      ((takeGates h gates).1 = true ↔ l.GatesOpen h₀ ops k) := by
  have verdict : ((h₀.applyAll ops).wait? l.mailbox).map (·.1) = some true := by rw [waited]; rfl
  obtain rfl := Hub.apply_wait waited
  have sound := e.soundly.apply (.wait l.mailbox)
  obtain _ | ⟨primary, gates⟩ := cells
  · simp [sources] at all
  have same : gates.length = l.gates.length := Nat.succ.inj all
  obtain ⟨absent, apart⟩ := List.nodup_cons.1 e.joining.apart
  obtain ⟨source, -, full, last, -⟩ := e.come (i := 0) verdict rfl rfl
  -- A gate's cell shows what the gate was supplied with.
  have shows : ∀ i g cell : Nat, l.gates[i]? = some g → gates[i]? = some cell →
      ((h₀.applyAll ops).apply (.wait l.mailbox)).signal? cell = (h₀.supply g ops)[k]? ∧
        (((h₀.applyAll ops).apply (.wait l.mailbox)).contents? cell).isSome := by
    intro i g cell hg hc
    obtain ⟨c, v, full, -, -, supplied, shown⟩ := e.come (i := i + 1) verdict hg hc
    obtain ⟨still, signal⟩ := wait_still (h₀.applyAll ops) l.mailbox cell
    have here := Hub.contents?_eq_some.2 full
    rw [signal, supplied, Hub.signal?, here, Hub.contents?, still, ← Hub.contents?, here]
    exact ⟨shown, rfl⟩
  refine ⟨primary, gates, source, rfl, last, ?_, ?_⟩
  · refine Hub.contents?_eq_some.2 (Hub.full_applyAll sound ?_ (gatesRequests_spares absent))
    rw [(wait_still _ _ primary).1]
    exact full
  · rw [takeGates_open sound apart fun cell hcell => ?_]
    · constructor
      · intro signals g hg
        obtain ⟨i, hi⟩ := List.getElem?_of_mem hg
        have short : i < gates.length := same ▸ (List.getElem?_eq_some_iff.1 hi).1
        have hc := List.getElem?_eq_getElem short
        rw [← (shows i g _ hi hc).1]
        exact signals _ (List.getElem_mem short)
      · intro isOpen cell hcell
        obtain ⟨i, hi⟩ := List.getElem?_of_mem hcell
        have short : i < l.gates.length := same ▸ (List.getElem?_eq_some_iff.1 hi).1
        have hg := List.getElem?_eq_getElem short
        rw [(shows i _ cell hg hi).1]
        exact isOpen _ (List.getElem_mem short)
    · obtain ⟨i, hi⟩ := List.getElem?_of_mem hcell
      have short : i < l.gates.length := same ▸ (List.getElem?_eq_some_iff.1 hi).1
      exact (shows i _ cell (List.getElem?_eq_getElem short) hi).2

theorem round_quiet_all {more : List Operation}
    (unpublished : ∀ op ∈ more, ∀ blank, op ≠ .publish l.publisher blank) :
    l.round h₀ (ops ++ more) = l.round h₀ ops :=
  congrArg List.length (Hub.publishedBy_quiet_all unpublished)

theorem heeds_taking {mailbox : Nat} {cells : List Nat} :
    ∀ op ∈ .wait mailbox :: takeRequests h cells, op.Heeds l [] := by
  intro op hop
  rcases List.mem_cons.1 hop with rfl | hop
  · exact heeds_wait mailbox
  · exact heeds_of_empties (takeRequests_empties op hop)

theorem held_taken {cell : Nat} {c : Copy} (hc : h.contents? cell = some c) :
    c ∈ (h.applyAll [.takeCell cell, .dropCell cell]).held := by
  have inHand : c ∈ (h.apply (.takeCell cell)).held := by
    rcases Hub.takeCell_cases h cell with ⟨empty, -⟩ | ⟨d, hd, -, same⟩
    · exact absurd (Hub.contents?_eq_some.1 hc) (empty c)
    · obtain rfl : c = d := by simpa [hc] using Hub.contents?_eq_some.2 hd
      rw [Hub.apply, same]
      exact List.mem_cons_self
  have still : c ∈ ((h.apply (.takeCell cell)).apply (.dropCell cell)).held :=
    Hub.held_apply inHand fun consumed => False.elim consumed
  exact still

theorem InRound.takes (r : l.InRound h₀ ops) {cells : List Nat} (phase : l.phase = .waiting cells)
    (waited : (h₀.applyAll ops).wait? l.mailbox = some (true, h))
    (taken : l.take h cells = .running h' l') :
    l'.InRound h₀ (ops ++ .wait l.mailbox :: takeRequests h cells) := by
  obtain ⟨engaged, prepared⟩ := r
  rw [joins, phase] at engaged
  rw [phase] at prepared
  obtain ⟨count, all⟩ := prepared
  obtain ⟨primary, gates, source, rfl, last, full, isOpen⟩ := engaged.joined all waited
  have verdict : ((h₀.applyAll ops).wait? l.mailbox).map (·.1) = some true := by
    rw [waited]
    rfl
  simp only [take_cons, full] at taken
  split at taken
  · rename_i found
    obtain ⟨-, rfl⟩ := Progress.running.inj taken
    have heeds : ∀ op ∈ .wait l.mailbox :: takeRequests h (primary :: gates), op.Heeds l [] :=
      heeds_taking
    have linked := (engaged.next all verdict).applyAll heeds
    refine ⟨linked.withPhase l.calls (.acquiring source), ?_, ?_, ?_, ?_⟩
    · exact (round_quiet_all fun op hop => (heeds op hop).unpublished).trans count
    · have asked : takeRequests h (primary :: gates) =
          gatesRequests h gates ++ [.takeCell primary, .dropCell primary] := by
        rw [takeRequests, if_pos found, List.append_nil]
      rw [asked, Hub.applyAll_append, Hub.applyAll_cons, Hub.applyAll_append, Hub.apply_wait waited]
      exact held_taken full
    · change (h₀.departed l.primary _)[l.calls]? = some source
      rw [Hub.departed_append, List.getElem?_append_left (List.getElem?_eq_some_iff.1 last).1]
      exact last
    · exact (isOpen.1 found).mono _
  · cases taken

theorem InRound.acquires (r : l.InRound h₀ ops) {source : Copy} {blank : SlotRef} {pool : Nat}
    (phase : l.phase = .acquiring source)
    (taken : (h₀.applyAll ops).acquire? pool = some (blank, h')) :
    InRound { l with phase := .transforming source blank } h₀ (ops ++ [.acquire pool]) := by
  obtain ⟨engaged, prepared⟩ := r
  rw [joins, phase] at engaged
  rw [phase] at prepared
  obtain ⟨count, joined⟩ := prepared
  have heeds : (Operation.acquire pool).Heeds l [] := heeds_acquire pool
  have still : l.Joined h₀ (ops ++ [.acquire pool]) source :=
    joined.apply fun consumed => False.elim consumed
  refine ⟨(engaged.apply heeds).withPhase l.calls (.transforming source blank),
    (round_quiet heeds.unpublished).trans count, ⟨still.inHand, still.last, still.gates⟩, ?_⟩
  rw [Hub.applyAll_snoc, Hub.apply_acquire taken]
  obtain ⟨p, free, -, -, -, rfl⟩ := Hub.acquire?_eq_some taken
  exact List.mem_cons_self

theorem Joined.shown {blank : SlotRef} {source : Copy} {k : Nat} {cells : List Nat}
    (e : l.Engaged h₀ ops k cells) (joined : l.Joined h₀ ops source)
    (owned : blank ∈ (h₀.applyAll ops).blanks) :
    ∃ v old, (h₀.supply l.primary ops)[l.calls]? = some v ∧
      (h₀.applyAll ops).read? source = some v ∧ (h₀.applyAll ops).payload? blank = some old := by
  obtain ⟨v, supplied, shown⟩ := e.shown (s := l.primary) List.mem_cons_self joined.last
    (Hub.mem_copies_of_held joined.inHand)
  obtain ⟨slot, hslot, -⟩ := Hub.Balanced.blank_slot e.soundly.accounted owned
  refine ⟨v, slot.payload, supplied, ?_, ?_⟩
  · rw [Hub.read?, if_pos joined.inHand, shown]
  · rw [Hub.payload?, hslot]
    rfl

theorem InRound.transforms (r : l.InRound h₀ ops) {source : Copy} {blank : SlotRef}
    {v old payload : Payload} (phase : l.phase = .transforming source blank)
    (read : (h₀.applyAll ops).read? source = some v)
    (made : l.transform l.calls v old = ⟨payload, none⟩) :
    InRound { l with calls := l.calls + 1, phase := .publishing blank } h₀
      (ops ++ [.write blank payload, .chain blank source]) := by
  obtain ⟨engaged, prepared⟩ := r
  rw [joins, phase] at engaged
  rw [phase] at prepared
  obtain ⟨count, joined, owned⟩ := prepared
  obtain ⟨w, -, supplied, read', -⟩ := joined.shown engaged owned
  obtain rfl := Option.some.inj (read'.symm.trans read)
  have heeds : ∀ op ∈ [Operation.write blank payload, .chain blank source], op.Heeds l [] :=
    heeds_deriving blank payload source
  have sound := engaged.soundly.apply (.write blank payload)
  have mine : blank ∈ ((h₀.applyAll ops).apply (.write blank payload)).blanks :=
    Hub.blanks_apply owned (fun _ => nofun) nofun
  have kept : blank ∈ (((h₀.applyAll ops).apply (.write blank payload)).apply
      (.chain blank source)).blanks := Hub.blanks_apply mine (fun _ => nofun) nofun
  have shown : (((h₀.applyAll ops).apply (.write blank payload)).apply
      (.chain blank source)).payload? blank = some payload :=
    payload?_blank sound mine (Hub.payload?_write engaged.soundly.accounted owned) fun _ => nofun
  have same : l.round h₀ (ops ++ [.write blank payload, .chain blank source]) = l.calls :=
    (round_quiet_all fun op hop => (heeds op hop).unpublished).trans count
  refine ⟨(engaged.applyAll heeds).withPhase (l.calls + 1) (.publishing blank),
    congrArg (· + 1) same, ?_, payload, ?_, ?_⟩
  · rw [Hub.applyAll_append]
    exact kept
  · rw [Hub.applyAll_append]
    exact shown
  · change l.Derived h₀ _ (l.round h₀ _) _
    rw [same]
    exact ⟨w, old, supply_mono _ supplied, made, joined.gates.mono _⟩

theorem fanOut_eq {blank : SlotRef} (owned : blank ∈ h.blanks) (p : Nat) :
    (h.publish p blank).1 = (h.receivers p).length := by
  rcases Hub.publish_cases h p blank with ⟨foreign, -⟩ | ⟨-, fanOut, -⟩
  · exact absurd owned foreign
  · exact fanOut

theorem InRound.published (r : l.InRound h₀ ops) {blank : SlotRef}
    (phase : l.phase = .publishing blank) :
    l.Engaged h₀ (ops ++ [.publish l.publisher blank]) l.calls [] ∧
      l.round h₀ (ops ++ [.publish l.publisher blank]) = l.calls := by
  obtain ⟨engaged, prepared⟩ := r
  rw [joins, phase] at engaged
  rw [phase] at prepared
  obtain ⟨count, owned, payload, shown, derived⟩ := prepared
  have published := Hub.publishedBy_publish engaged.alive owned shown
  have avoids : (Operation.publish l.publisher blank).Avoids l.mailbox l.sources [] :=
    .without_cells (fun _ _ => id) fun _ => nofun
  constructor
  · refine engaged.step (engaged.joining.apply engaged.soundly avoids) (fun _ _ => nofun) nofun
      fun j pub hpub => ?_
    rw [published] at hpub
    rcases Hub.getElem?_snoc hpub with early | ⟨rfl, rfl⟩
    · exact (engaged.derived j pub early).mono _
    · exact derived.mono _
  · rw [round, published, List.length_append]
    exact count

theorem InRound.publishes (r : l.InRound h₀ ops) {blank : SlotRef}
    (phase : l.phase = .publishing blank) :
    InRound { l with phase := .arming [] } h₀ (ops ++ [.publish l.publisher blank]) := by
  obtain ⟨linked, count⟩ := r.published phase
  exact ⟨linked.withPhase l.calls (.arming []), count⟩

theorem InRound.own (r : l.InRound h₀ ops) (step : l.advance (h₀.applyAll ops) = .running h' l') :
    l'.InRound h₀ (ops ++ l.requests (h₀.applyAll ops)) ∧
      h' = h₀.applyAll (ops ++ l.requests (h₀.applyAll ops)) := by
  constructor
  · have turn := l.advance_turn (h₀.applyAll ops)
    generalize l.requests (h₀.applyAll ops) = asked at turn ⊢
    generalize l.advance (h₀.applyAll ops) = progress at step turn
    cases turn with
    | armed phase next =>
      obtain ⟨-, rfl⟩ := Progress.running.inj step
      rw [List.append_nil]
      exact r.armed phase next
    | arms phase next =>
      obtain ⟨-, rfl⟩ := Progress.running.inj step
      exact r.arms phase next
    | takes phase waited => exact r.takes phase waited step
    | acquires phase _ taken =>
      obtain ⟨-, rfl⟩ := Progress.running.inj step
      exact r.acquires phase taken
    | transforms phase read _ made =>
      obtain ⟨-, rfl⟩ := Progress.running.inj step
      exact r.transforms phase read made
    | publishes phase =>
      obtain ⟨-, rfl⟩ := Progress.running.inj step
      exact r.publishes phase
    | _ => exact nomatch step
  · rw [Hub.applyAll_append]
    exact advance_hub? r.engaged.joining.contains_mailbox (by rw [step]; rfl)

end AggregatorLoop

end BufferFlow
