import BufferFlow.Proofs.Hub.Custody
import BufferFlow.Proofs.Stage.Loops

set_option autoImplicit false

namespace BufferFlow

/-- Who has what after a step: the loop what belongs to it, or nothing but its sources if it ended. -/
def Progress.Entrusts {α : Type} (p : Progress α) (own : α → Belongings) (sources : List Nat)
    (rest : Belongings) : Prop :=
  match p with
  | blocked => True
  | running h l => h.Entrusts (own l ++ rest)
  | stopped h _ | faulted h _ => h.Entrusts ({ subscriptions := sources } ++ rest)

theorem Progress.map_eq_blocked {α β : Type} {f : α → β} {p : Progress α} (eq : p.map f = blocked) :
    p = blocked := by
  cases p <;> first | rfl | exact nomatch eq

variable {h h₀ : Hub} {rest : Belongings} {ops : List Operation}

theorem Hub.SameCustody.wait {mailbox : Nat} {verdict : Bool} {g : Hub}
    (waited : h.wait? mailbox = some (verdict, g)) : SameCustody h g := by
  obtain ⟨counters, same⟩ := wait_cases h mailbox
  rw [apply_wait waited] at same
  exact .ofPeers ⟨_, _, same⟩

namespace RelayLoop

variable {l : RelayLoop}

def belongings (l : RelayLoop) : Belongings := { blanks := l.phase.blank?.toList }

theorem advance_entrusts (e : h.Entrusts (l.belongings ++ rest)) :
    (l.advance h).Entrusts belongings [] rest := by
  rw [belongings] at e
  have turn := l.advance_turn h
  generalize l.advance h = progress, l.requests h = asked at turn
  cases turn with
  | starves | lacks => trivial
  | acquires phase named taken =>
    rw [phase] at e
    exact e.acquire taken
  | fills phase shown filled =>
    rw [phase] at e
    exact e.same (.write h _ _)
  | faults phase shown filled =>
    rw [phase] at e
    exact (e.same (.write h _ _)).dropBlank
  | publishes phase | overruns phase | unheard phase =>
    rw [phase] at e
    exact e.publish l.publisher

theorem InRound.blocked (r : l.InRound h₀ ops) (step : l.advance (h₀.applyAll ops) = .blocked) :
    l.phase.blank? = none ∧ (h₀.applyAll ops).acquireFor? l.publisher = none := by
  have turn := l.advance_turn (h₀.applyAll ops)
  rw [step] at turn
  generalize l.requests (h₀.applyAll ops) = asked at turn
  cases turn with
  | starves phase acquired => exact ⟨by rw [phase]; rfl, acquired⟩
  | lacks phase shown =>
    have owned := r.prepared
    rw [phase] at owned
    obtain ⟨slot, hslot, -⟩ := Hub.Balanced.blank_slot r.linked.soundly.accounted owned
    simp [Hub.payload?, hslot] at shown

end RelayLoop

namespace AggregatorLoop

variable {l : AggregatorLoop} {copies : List Copy} {blanks : List SlotRef}
  {cells subscriptions : List Nat}

def belongings (l : AggregatorLoop) : Belongings :=
  ⟨l.phase.source?.toList, l.phase.blank?.toList, l.phase.cells, l.sources⟩

theorem takeGate_entrusts {cell : Nat}
    (e : h.Entrusts ⟨copies, blanks, cell :: cells, subscriptions⟩) :
    (takeGate h cell).2.Entrusts ⟨copies, blanks, cells, subscriptions⟩ := by
  have taken := e.takeCell cell
  rw [takeGate]
  generalize h.takeCell cell = found at taken
  obtain ⟨_ | c, g⟩ := found
  · exact Hub.Entrusts.dropCell taken
  · exact (Hub.Entrusts.release taken).dropCell

theorem gatesRequests_entrusts {gates : List Nat}
    (e : h.Entrusts ⟨copies, blanks, gates ++ cells, subscriptions⟩) :
    (h.applyAll (gatesRequests h gates)).Entrusts ⟨copies, blanks, cells, subscriptions⟩ := by
  induction gates generalizing h with
  | nil => exact e
  | cons gate gates ih =>
    rw [gatesRequests, Hub.applyAll_append]
    exact ih (takeGate_hub h gate ▸ takeGate_entrusts e)

theorem take_entrusts {taken : List Nat}
    (e : h.Entrusts (⟨[], [], taken, l.sources⟩ ++ rest)) :
    (l.take h taken).Entrusts belongings l.sources rest := by
  cases taken with
  | nil => exact e
  | cons primary gates =>
    have gated : h.Entrusts ⟨rest.copies, rest.blanks, gates ++ (primary :: rest.cells),
        l.sources ++ rest.subscriptions⟩ :=
      ⟨e.copies, e.blanks, fun cell hc => List.perm_middle.mem_iff.2 (e.cells cell hc),
        e.subscriptions⟩
    have emptied := (gatesRequests_entrusts gated).takeCell primary
    rw [takeCell_eq] at emptied
    have dropped := emptied.dropCell
    rw [take_cons]
    dsimp only
    generalize (h.applyAll (gatesRequests h gates)).contents? primary = found at dropped
    cases found with
    | none => exact dropped
    | some source =>
      dsimp only
      split
      · exact dropped
      · exact Hub.Entrusts.release dropped

theorem advance_entrusts (e : h.Entrusts (l.belongings ++ rest)) :
    (l.advance h).Entrusts belongings l.sources rest := by
  rw [belongings] at e
  have turn := l.advance_turn h
  generalize l.advance h = progress, l.requests h = asked at turn
  cases turn with
  | waits | starves | lacks => trivial
  | armed phase next =>
    rw [phase] at e
    exact e
  | @arms cells source phase next =>
    rw [phase] at e
    have armed := Hub.Entrusts.arm e source l.mailbox
    refine ⟨armed.copies, armed.blanks, fun cell hc => ?_, armed.subscriptions⟩
    have mine := armed.cells cell hc
    change cell ∈ (cells ++ [(h.arm source l.mailbox).1]) ++ rest.cells
    rw [List.append_assoc]
    exact List.perm_middle.mem_iff.2 mine
  | abandons phase waited =>
    rw [phase] at e
    have counted := e.same (Hub.SameCustody.wait waited)
    exact (counted.cancelAll l.sources).dropCells
  | takes phase waited =>
    rw [phase] at e
    exact take_entrusts (e.same (Hub.SameCustody.wait waited))
  | acquires phase named taken =>
    rw [phase] at e
    exact e.acquire taken
  | transforms phase read shown made =>
    rw [phase] at e
    exact (e.same (.write h _ _)).chain List.mem_cons_self
  | faults phase read shown made =>
    rw [phase] at e
    exact (e.same (.write h _ _)).dropBlank.release
  | publishes phase | unheard phase =>
    rw [phase] at e
    exact e.publish l.publisher

theorem InRound.blankless (r : l.InRound h₀ ops)
    (step : l.advance (h₀.applyAll ops) = .blocked) : l.phase.blank? = none := by
  rcases advance_blocked step with
    ⟨cells, phase, -⟩ | ⟨source, phase, -⟩ | ⟨source, blank, phase, unread⟩
  · rw [phase]
    rfl
  · rw [phase]
    rfl
  · obtain ⟨v, old, -, read, shown⟩ := r.ready phase
    exact absurd ⟨read, shown⟩ (unread v old)

theorem InRound.round_le (r : l.InRound h₀ ops) {s : Nat} (hs : s ∈ l.sources) :
    l.round h₀ ops ≤ l.joins ∧ l.joins ≤ (h₀.departed s ops).length := by
  constructor
  · have prepared := r.prepared
    rw [joins]
    cases phase : l.phase <;> rw [phase] at prepared <;> simp only [Prepared] at prepared ⊢ <;> omega
  · have joining := r.engaged.joining
    obtain ⟨i, hi⟩ := List.getElem?_of_mem hs
    by_cases armed : i < l.phase.cells.length
    · cases joining.gathered i s _ hi (List.getElem?_eq_getElem armed) with
      | arrived full idle last count => omega
      | awaited empty armed count => omega
      | missed there spent idle gone drained count => omega
    · exact Nat.le_of_eq (joining.rest i s (Nat.le_of_not_lt armed) hi).2.symm

theorem InRound.departed_le (r : l.InRound h₀ ops) {s : Nat} (hs : s ∈ l.sources) :
    (h₀.departed s ops).length ≤ l.round h₀ ops + 1 := by
  have prepared := r.prepared
  have joining := r.engaged.joining
  obtain ⟨i, hi⟩ := List.getElem?_of_mem hs
  have few : l.joins + min l.phase.cells.length 1 ≤ l.round h₀ ops + 1 := by
    rw [joins]
    cases phase : l.phase <;> rw [phase] at prepared <;>
      simp only [Prepared, AggregatorPhase.cells, List.length_nil] at prepared ⊢ <;> omega
  by_cases armed : i < l.phase.cells.length
  · cases joining.gathered i s _ hi (List.getElem?_eq_getElem armed) with
    | arrived full idle last count => omega
    | awaited empty armed count => omega
    | missed there spent idle gone drained count => omega
  · have count := (joining.rest i s (Nat.le_of_not_lt armed) hi).2
    omega

theorem InRound.brought (r : l.InRound h₀ ops) {c : Copy}
    (has : l.phase.source? = some c ∨
      ∃ cell ∈ l.phase.cells, (h₀.applyAll ops).cells.get? cell = some (some c)) :
    ∃ s ∈ l.sources, c ∈ h₀.departed s ops ∧
      l.round h₀ ops < (h₀.departed s ops).length := by
  rcases has with inHand | ⟨cell, hcell, full⟩
  · refine ⟨l.primary, List.mem_cons_self, r.inHand inHand, ?_⟩
    have prepared := r.prepared
    cases phase : l.phase with
    | arming | waiting | publishing =>
      simp [phase, AggregatorPhase.source?] at inHand
    | acquiring source =>
      rw [phase] at prepared
      obtain ⟨count, joined⟩ := prepared
      exact count ▸ (List.getElem?_eq_some_iff.1 joined.last).1
    | transforming source blank =>
      rw [phase] at prepared
      obtain ⟨count, joined, -⟩ := prepared
      exact count ▸ (List.getElem?_eq_some_iff.1 joined.last).1
  · have joining := r.engaged.joining
    obtain ⟨i, hi⟩ := List.getElem?_of_mem hcell
    have short : i < l.sources.length :=
      Nat.lt_of_lt_of_le (List.getElem?_eq_some_iff.1 hi).1 joining.within
    have source := List.getElem?_eq_getElem short
    have mine := List.mem_of_getElem? source
    have round := (r.round_le mine).1
    refine ⟨_, mine, ?_⟩
    cases joining.gathered i _ cell source hi with
    | arrived there idle last count =>
      obtain rfl := Option.some.inj (Option.some.inj (full.symm.trans there))
      exact ⟨List.mem_of_getElem? last, by omega⟩
    | awaited empty armed count =>
      simp [full] at empty
    | missed there spent idle gone drained count =>
      have nothing := spent.empty
      simp [Hub.contents?, full] at nothing

end AggregatorLoop

namespace Loop

variable {l : Loop}

def belongings : Loop → Belongings
  | relay l => l.belongings
  | aggregator l => l.belongings

theorem blanks_belongings (l : Loop) : l.belongings.blanks = l.blank?.toList := by
  cases l <;> rfl

theorem subscriptions_belongings (l : Loop) : l.belongings.subscriptions = l.sources := by
  cases l <;> rfl

theorem advance_entrusts (e : h.Entrusts (l.belongings ++ rest)) :
    (l.advance h).Entrusts belongings l.sources rest := by
  cases l with
  | relay l =>
    have stepped := RelayLoop.advance_entrusts e
    rw [advance_relay]
    cases step : l.advance h <;> rw [step] at stepped <;> exact stepped
  | aggregator l =>
    have stepped := AggregatorLoop.advance_entrusts e
    rw [advance_aggregator]
    cases step : l.advance h <;> rw [step] at stepped <;> exact stepped

theorem closing_entrusts (e : h.Entrusts ({ subscriptions := l.sources } ++ rest)) :
    (h.applyAll l.closing).Entrusts rest := by
  have torn := e.same (.dropPublisher h l.publisher)
  rw [closing_eq, Hub.applyAll_cons, Hub.applyAll, List.foldl_map]
  exact torn.dropSubscriptions

theorem InRound.round_le (r : l.InRound h₀ ops) {s : Nat} (hs : s ∈ l.sources) :
    (h₀.publishedBy l.publisher ops).length ≤ (h₀.departed s ops).length := by
  cases l with
  | relay l => exact absurd hs List.not_mem_nil
  | aggregator l =>
    obtain ⟨joined, left⟩ := AggregatorLoop.InRound.round_le r hs
    exact Nat.le_trans joined left

theorem InRound.departed_le (r : l.InRound h₀ ops) {s : Nat} (hs : s ∈ l.sources) :
    (h₀.departed s ops).length ≤ (h₀.publishedBy l.publisher ops).length + 1 := by
  cases l with
  | relay l => exact absurd hs List.not_mem_nil
  | aggregator l => exact AggregatorLoop.InRound.departed_le r hs

theorem InRound.brought (r : l.InRound h₀ ops) {c : Copy}
    (has : c ∈ l.belongings.copies ∨
      ∃ cell ∈ l.belongings.cells, (h₀.applyAll ops).cells.get? cell = some (some c)) :
    ∃ s ∈ l.sources, c ∈ h₀.departed s ops ∧
      (h₀.publishedBy l.publisher ops).length < (h₀.departed s ops).length := by
  cases l with
  | relay l => rcases has with hc | ⟨cell, hcell, -⟩ <;> contradiction
  | aggregator l => exact AggregatorLoop.InRound.brought r (has.imp_left Option.mem_toList.1)

theorem InRound.blocked (r : l.InRound h₀ ops) (step : l.advance (h₀.applyAll ops) = .blocked) :
    l.blank? = none ∧
      ((∃ s ∈ l.sources, ((h₀.applyAll ops).publisherOf? s).isSome ∧
          (h₀.supply s ops).length = (h₀.publishedBy l.publisher ops).length) ∨
        (h₀.applyAll ops).acquireFor? l.publisher = none) := by
  cases l with
  | relay l =>
    rw [advance_relay] at step
    obtain ⟨blankless, starved⟩ := RelayLoop.InRound.blocked r (Progress.map_eq_blocked step)
    exact ⟨blankless, .inr starved⟩
  | aggregator l =>
    rw [advance_aggregator] at step
    have step := Progress.map_eq_blocked step
    exact ⟨AggregatorLoop.InRound.blankless r step, (AggregatorLoop.InRound.blocked r step).2⟩

end Loop

end BufferFlow
