import BufferFlow.Proofs.Hub.Supply
import BufferFlow.Stage.Loop

set_option autoImplicit false

namespace BufferFlow

namespace Progress

variable {α : Type}

def hub? : Progress α → Option Hub
  | .blocked => none
  | .running h _ => some h
  | .stopped h _ => some h
  | .faulted h _ => some h

end Progress

namespace Hub

variable {h h' : Hub}

theorem apply_wait {mailbox : Nat} {verdict : Bool} (hw : h.wait? mailbox = some (verdict, h')) :
    h.apply (.wait mailbox) = h' := by
  simp only [apply, hw]

theorem apply_acquire {pool : Nat} {blank : SlotRef} (ha : h.acquire? pool = some (blank, h')) :
    h.apply (.acquire pool) = h' := by
  simp only [apply, ha]

theorem acquireFor?_eq_some {publisher : Nat} {blank : SlotRef}
    (ha : h.acquireFor? publisher = some (blank, h')) :
    ∃ pool, h.poolOf? publisher = some pool ∧ h.acquire? pool = some (blank, h') :=
  Option.bind_eq_some_iff.1 ha

end Hub

namespace AggregatorLoop

variable {h h' : Hub} {l l' : AggregatorLoop}

theorem takeCell_eq (h : Hub) (cell : Nat) :
    h.takeCell cell = (h.contents? cell, h.apply (.takeCell cell)) := by
  rw [Hub.apply, Hub.contents?]
  simp only [Hub.takeCell]
  cases (h.cells.get? cell).bind id <;> rfl

def gateRequests (h : Hub) (cell : Nat) : List Operation :=
  .takeCell cell :: ((h.contents? cell).map .release).toList ++ [.dropCell cell]

def gatesRequests : Hub → List Nat → List Operation
  | _, [] => []
  | h, cell :: cells =>
    gateRequests h cell ++ gatesRequests (h.applyAll (gateRequests h cell)) cells

theorem takeGate_hub (h : Hub) (cell : Nat) :
    (takeGate h cell).2 = h.applyAll (gateRequests h cell) := by
  rw [takeGate, gateRequests, takeCell_eq]
  cases h.contents? cell <;> rfl

theorem takeGates_fold (cells : List Nat) (isOpen : Bool) (h : Hub) :
    cells.foldl (fun (isOpen, h) cell => (isOpen && (takeGate h cell).1, (takeGate h cell).2))
      (isOpen, h) = (isOpen && (takeGates h cells).1, h.applyAll (gatesRequests h cells)) := by
  induction cells generalizing isOpen h with
  | nil => simp [takeGates, gatesRequests, Hub.applyAll]
  | cons cell cells ih =>
    have first : (takeGates h (cell :: cells)).1 =
        ((takeGate h cell).1 && (takeGates (takeGate h cell).2 cells).1) := by
      rw [takeGates, List.foldl_cons, ih, Bool.true_and]
    rw [List.foldl_cons, ih, first, gatesRequests, Hub.applyAll_append, takeGate_hub,
      Bool.and_assoc]

theorem takeGates_hub (h : Hub) (cells : List Nat) :
    (takeGates h cells).2 = h.applyAll (gatesRequests h cells) := by
  rw [takeGates, takeGates_fold]

theorem takeGates_cons (h : Hub) (cell : Nat) (cells : List Nat) :
    (takeGates h (cell :: cells)).1 =
      ((takeGate h cell).1 && (takeGates (h.applyAll (gateRequests h cell)) cells).1) := by
  rw [takeGates, List.foldl_cons, takeGates_fold, takeGate_hub, Bool.true_and]

theorem take_cons (l : AggregatorLoop) (h : Hub) (primary : Nat) (gates : List Nat) :
    l.take h (primary :: gates) =
      let g := h.applyAll (gatesRequests h gates)
      let g' := g.applyAll [.takeCell primary, .dropCell primary]
      match g.contents? primary with
      | none => .stopped g' .sourceGone
      | some source =>
        if (takeGates h gates).1 then .running g' { l with phase := .acquiring source }
        else .stopped (g'.apply (.release source)) .gateClosed := by
  have taken : takeGates h gates = ((takeGates h gates).1, h.applyAll (gatesRequests h gates)) := by
    rw [← takeGates_hub]
  rw [take, taken]
  simp only [takeCell_eq]
  cases (h.applyAll (gatesRequests h gates)).contents? primary <;> rfl

def takeRequests (h : Hub) (cells : List Nat) : List Operation :=
  match cells with
  | [] => []
  | primary :: gates =>
    gatesRequests h gates ++ [.takeCell primary, .dropCell primary] ++
      if (takeGates h gates).1 then []
      else (((h.applyAll (gatesRequests h gates)).contents? primary).map .release).toList

theorem take_hub? (cells : List Nat) :
    (l.take h cells).hub? = some (h.applyAll (takeRequests h cells)) := by
  cases cells with
  | nil => rfl
  | cons primary gates =>
    rw [take_cons, takeRequests, Hub.applyAll_append, Hub.applyAll_append]
    dsimp only
    cases (takeGates h gates).1 <;>
      cases (h.applyAll (gatesRequests h gates)).contents? primary <;> rfl

/-- What the loop asks of the hub in its next step. -/
def requests (l : AggregatorLoop) (h : Hub) : List Operation :=
  match l.phase with
  | .arming cells => ((l.sources[cells.length]?).map (.arm · l.mailbox)).toList
  | .waiting cells =>
    match h.wait? l.mailbox with
    | none => []
    | some (true, h) => .wait l.mailbox :: takeRequests h cells
    | some (false, _) => .wait l.mailbox :: l.sources.map .cancel ++ cells.map .dropCell
  | .acquiring _ => ((h.poolOf? l.publisher).map .acquire).toList
  | .transforming source blank =>
    match h.read? source, h.payload? blank with
    | some payload, some old =>
      .write blank (l.transform l.calls payload old).payload ::
        match (l.transform l.calls payload old).fault with
        | none => [.chain blank source]
        | some _ => [.dropBlank blank, .release source]
    | _, _ => []
  | .publishing blank => [.publish l.publisher blank]

theorem abandon_hub (l : AggregatorLoop) (h : Hub) (cells : List Nat) :
    l.abandon h cells = h.applyAll (l.sources.map .cancel ++ cells.map .dropCell) := by
  rw [Hub.applyAll_append, Hub.applyAll, Hub.applyAll, List.foldl_map, List.foldl_map]
  rfl

/-- The ways that a step can go, with what it asks. -/
inductive Turn (l : AggregatorLoop) (h : Hub) : Progress AggregatorLoop → List Operation → Prop
  | armed {cells : List Nat} (phase : l.phase = .arming cells)
      (next : l.sources[cells.length]? = none) :
      Turn l h (.running h { l with phase := .waiting cells }) []
  | arms {cells : List Nat} {source : Nat} (phase : l.phase = .arming cells)
      (next : l.sources[cells.length]? = some source) :
      Turn l h (.running (h.arm source l.mailbox).2
        { l with phase := .arming (cells ++ [(h.arm source l.mailbox).1]) })
        [.arm source l.mailbox]
  | waits {cells : List Nat} (phase : l.phase = .waiting cells)
      (waited : h.wait? l.mailbox = none) : Turn l h .blocked []
  | abandons {cells : List Nat} {g : Hub} (phase : l.phase = .waiting cells)
      (waited : h.wait? l.mailbox = some (false, g)) :
      Turn l h (.stopped (l.abandon g cells) .sourceGone)
        (.wait l.mailbox :: l.sources.map .cancel ++ cells.map .dropCell)
  | takes {cells : List Nat} {g : Hub} (phase : l.phase = .waiting cells)
      (waited : h.wait? l.mailbox = some (true, g)) :
      Turn l h (l.take g cells) (.wait l.mailbox :: takeRequests g cells)
  | starves {source : Copy} (phase : l.phase = .acquiring source)
      (acquired : h.acquireFor? l.publisher = none) :
      Turn l h .blocked ((h.poolOf? l.publisher).map .acquire).toList
  | acquires {source : Copy} {blank : SlotRef} {pool : Nat} {g : Hub}
      (phase : l.phase = .acquiring source) (named : h.poolOf? l.publisher = some pool)
      (taken : h.acquire? pool = some (blank, g)) :
      Turn l h (.running g { l with phase := .transforming source blank }) [.acquire pool]
  | lacks {source : Copy} {blank : SlotRef} (phase : l.phase = .transforming source blank)
      (unread : ∀ v old, ¬ (h.read? source = some v ∧ h.payload? blank = some old)) :
      Turn l h .blocked []
  | transforms {source : Copy} {blank : SlotRef} {v old payload : Payload}
      (phase : l.phase = .transforming source blank) (read : h.read? source = some v)
      (shown : h.payload? blank = some old) (made : l.transform l.calls v old = ⟨payload, none⟩) :
      Turn l h (.running ((h.write blank payload).chain blank source)
        { l with calls := l.calls + 1, phase := .publishing blank })
        [.write blank payload, .chain blank source]
  | faults {source : Copy} {blank : SlotRef} {v old payload : Payload} {fault : Fault}
      (phase : l.phase = .transforming source blank) (read : h.read? source = some v)
      (shown : h.payload? blank = some old)
      (made : l.transform l.calls v old = ⟨payload, some fault⟩) :
      Turn l h (.faulted (((h.write blank payload).dropBlank blank).release source) fault)
        [.write blank payload, .dropBlank blank, .release source]
  | publishes {blank : SlotRef} (phase : l.phase = .publishing blank)
      (heard : (h.publish l.publisher blank).1 ≠ 0) :
      Turn l h (.running (h.publish l.publisher blank).2 { l with phase := .arming [] })
        [.publish l.publisher blank]
  | unheard {blank : SlotRef} (phase : l.phase = .publishing blank)
      (unheard : (h.publish l.publisher blank).1 = 0) :
      Turn l h (.stopped (h.publish l.publisher blank).2 .noListeners)
        [.publish l.publisher blank]

theorem advance_turn (l : AggregatorLoop) (h : Hub) : Turn l h (l.advance h) (l.requests h) := by
  rw [advance, requests]
  cases phase : l.phase with
  | arming cells =>
    dsimp only
    cases next : l.sources[cells.length]? with
    | none => exact .armed phase next
    | some source => exact .arms phase next
  | waiting cells =>
    dsimp only
    rcases waited : h.wait? l.mailbox with _ | ⟨_ | _, g⟩
    · exact .waits phase waited
    · exact .abandons phase waited
    · exact .takes phase waited
  | acquiring source =>
    dsimp only
    cases acquired : h.acquireFor? l.publisher with
    | none => exact .starves phase acquired
    | some taken =>
      obtain ⟨blank, g⟩ := taken
      obtain ⟨pool, named, taken⟩ := Hub.acquireFor?_eq_some acquired
      rw [named]
      exact .acquires phase named taken
  | transforming source blank =>
    dsimp only
    cases read : h.read? source with
    | none => exact .lacks phase fun v old both => by simp [read] at both
    | some v =>
      cases shown : h.payload? blank with
      | none => exact .lacks phase fun v old both => by simp [shown] at both
      | some old =>
        dsimp only
        generalize made : l.transform l.calls v old = written
        obtain ⟨payload, _ | fault⟩ := written
        · exact .transforms phase read shown made
        · exact .faults phase read shown made
  | publishing blank =>
    dsimp only
    split
    · rename_i unheard
      exact .unheard phase unheard
    · rename_i heard
      exact .publishes phase heard

theorem advance_asks (step : (l.advance h).hub? = some h') :
    h' = h.applyAll (l.requests h) ∨
      ∃ source, l.requests h = [.arm source l.mailbox] ∧ h' = (h.arm source l.mailbox).2 := by
  have turn := l.advance_turn h
  generalize l.advance h = progress at step turn
  generalize l.requests h = asked at turn ⊢
  cases turn with
  | waits | starves | lacks => simp [Progress.hub?] at step
  | armed | transforms | faults | publishes | unheard => exact .inl (Option.some.inj step).symm
  | arms => exact .inr ⟨_, rfl, (Option.some.inj step).symm⟩
  | abandons _ waited =>
    rw [Progress.hub?, abandon_hub] at step
    rw [List.cons_append, Hub.applyAll_cons, Hub.apply_wait waited]
    exact .inl (Option.some.inj step).symm
  | takes _ waited =>
    rw [take_hub?] at step
    rw [Hub.applyAll_cons, Hub.apply_wait waited]
    exact .inl (Option.some.inj step).symm
  | acquires _ _ taken =>
    obtain rfl := Option.some.inj step
    exact .inl (Hub.apply_acquire taken).symm

theorem advance_hub? (there : h.mailboxes.contains l.mailbox)
    (step : (l.advance h).hub? = some h') : h' = h.applyAll (l.requests h) := by
  rcases advance_asks step with asked | ⟨source, asked, rfl⟩
  · exact asked
  · rw [asked]
    exact (if_pos there).symm

theorem take_goes (l : AggregatorLoop) (h : Hub) (cells : List Nat) :
    (∃ g source, l.take h cells = .running g { l with phase := .acquiring source }) ∨
      ∃ g reason, l.take h cells = .stopped g reason := by
  obtain _ | ⟨primary, gates⟩ := cells
  · exact .inr ⟨_, _, rfl⟩
  rw [take_cons]
  dsimp only
  split
  · exact .inr ⟨_, _, rfl⟩
  · split
    · exact .inl ⟨_, _, rfl⟩
    · exact .inr ⟨_, _, rfl⟩

theorem take_running {cells : List Nat} (step : l.take h cells = .running h' l') :
    ∃ source, l' = { l with phase := .acquiring source } := by
  rcases l.take_goes h cells with ⟨g, source, goes⟩ | ⟨g, reason, goes⟩
  · exact ⟨source, (Progress.running.inj (step.symm.trans goes)).2⟩
  · exact nomatch step.symm.trans goes

theorem advance_blocked (step : l.advance h = .blocked) :
    (∃ cells, l.phase = .waiting cells ∧ h.wait? l.mailbox = none) ∨
    (∃ source, l.phase = .acquiring source ∧ h.acquireFor? l.publisher = none) ∨
    ∃ source blank, l.phase = .transforming source blank ∧
      ∀ v old, ¬ (h.read? source = some v ∧ h.payload? blank = some old) := by
  have turn := l.advance_turn h
  rw [step] at turn
  generalize outcome : Progress.blocked = progress, l.requests h = asked at turn
  cases turn with
  | waits phase waited => exact .inl ⟨_, phase, waited⟩
  | starves phase acquired => exact .inr (.inl ⟨_, phase, acquired⟩)
  | lacks phase unread => exact .inr (.inr ⟨_, _, phase, unread⟩)
  | @takes cells g =>
    rcases l.take_goes g cells with ⟨g, source, goes⟩ | ⟨g, reason, goes⟩
    · exact nomatch outcome.trans goes
    · exact nomatch outcome.trans goes
  | _ => exact nomatch outcome

theorem advance_stopped {reason : Termination} (step : l.advance h = .stopped h' reason) :
    (∃ cells g, l.phase = .waiting cells ∧ h.wait? l.mailbox = some (false, g) ∧
      reason = .sourceGone) ∨
    (∃ cells g, l.phase = .waiting cells ∧ h.wait? l.mailbox = some (true, g) ∧
      l.take g cells = .stopped h' reason) ∨
    ∃ blank, l.phase = .publishing blank ∧ (h.publish l.publisher blank).1 = 0 ∧
      reason = .noListeners := by
  have turn := l.advance_turn h
  rw [step] at turn
  generalize outcome : Progress.stopped h' reason = progress, l.requests h = asked at turn
  cases turn with
  | abandons phase waited => exact .inl ⟨_, _, phase, waited, (Progress.stopped.inj outcome).2⟩
  | takes phase waited => exact .inr (.inl ⟨_, _, phase, waited, rfl⟩)
  | unheard phase unheard =>
    exact .inr (.inr ⟨_, phase, unheard, (Progress.stopped.inj outcome).2⟩)
  | _ => exact nomatch outcome

theorem advance_faulted {fault : Fault} (step : l.advance h = .faulted h' fault) :
    ∃ source blank v old payload, l.phase = .transforming source blank ∧
      h.read? source = some v ∧ h.payload? blank = some old ∧
      l.transform l.calls v old = ⟨payload, some fault⟩ := by
  have turn := l.advance_turn h
  rw [step] at turn
  generalize outcome : Progress.faulted h' fault = progress, l.requests h = asked at turn
  cases turn with
  | faults phase read shown made =>
    obtain rfl := (Progress.faulted.inj outcome).2
    exact ⟨_, _, _, _, _, phase, read, shown, made⟩
  | @takes cells g =>
    rcases l.take_goes g cells with ⟨g, source, goes⟩ | ⟨g, reason, goes⟩
    · exact nomatch outcome.trans goes
    · exact nomatch outcome.trans goes
  | _ => exact nomatch outcome

theorem advance_keeps (step : l.advance h = .running h' l') :
    ∃ calls phase, l' = { l with calls, phase } := by
  have turn := l.advance_turn h
  generalize l.requests h = asked at turn
  generalize l.advance h = progress at step turn
  cases turn with
  | takes =>
    obtain ⟨source, rfl⟩ := take_running step
    exact ⟨_, _, rfl⟩
  | armed | arms | acquires | transforms | publishes =>
    obtain ⟨-, rfl⟩ := Progress.running.inj step
    exact ⟨_, _, rfl⟩
  | _ => simp at step

def closing (l : AggregatorLoop) : List Operation :=
  .dropPublisher l.publisher :: l.sources.map .dropSubscription

theorem close_hub (l : AggregatorLoop) (h : Hub) : l.close h = h.applyAll l.closing := by
  rw [closing, Hub.applyAll, List.foldl_cons, List.foldl_map]
  rfl

end AggregatorLoop

end BufferFlow
