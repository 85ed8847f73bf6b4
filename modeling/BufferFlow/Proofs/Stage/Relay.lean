import BufferFlow.Proofs.Checked
import BufferFlow.Proofs.Stage.Rounds

set_option autoImplicit false

namespace BufferFlow

namespace RelayPhase

def blank? : RelayPhase → Option SlotRef
  | acquiring => none
  | filling blank | publishing blank => some blank

end RelayPhase

namespace RelayLoop

variable {h₀ h h' : Hub} {l l' : RelayLoop} {ops : List Operation} {op : Operation}

def requests (l : RelayLoop) (h : Hub) : List Operation :=
  match l.phase with
  | .acquiring => ((h.poolOf? l.publisher).map .acquire).toList
  | .filling blank =>
    match h.payload? blank with
    | none => []
    | some old =>
      .write blank (l.fill l.step.toNat old).payload ::
        match (l.fill l.step.toNat old).fault with
        | none => []
        | some _ => [.dropBlank blank]
  | .publishing blank => [.publish l.publisher blank]

/-- The ways that a step can go, with what it asks. -/
inductive Turn (l : RelayLoop) (h : Hub) : Progress RelayLoop → List Operation → Prop
  | starves (phase : l.phase = .acquiring) (acquired : h.acquireFor? l.publisher = none) :
      Turn l h .blocked ((h.poolOf? l.publisher).map .acquire).toList
  | acquires {blank : SlotRef} {pool : Nat} {h' : Hub} (phase : l.phase = .acquiring)
      (named : h.poolOf? l.publisher = some pool) (taken : h.acquire? pool = some (blank, h')) :
      Turn l h (.running h' { l with phase := .filling blank }) [.acquire pool]
  | lacks {blank : SlotRef} (phase : l.phase = .filling blank) (shown : h.payload? blank = none) :
      Turn l h .blocked []
  | fills {blank : SlotRef} {old payload : Payload} (phase : l.phase = .filling blank)
      (shown : h.payload? blank = some old) (filled : l.fill l.step.toNat old = ⟨payload, none⟩) :
      Turn l h (.running (h.write blank payload) { l with phase := .publishing blank })
        [.write blank payload]
  | faults {blank : SlotRef} {old payload : Payload} {fault : Fault}
      (phase : l.phase = .filling blank) (shown : h.payload? blank = some old)
      (filled : l.fill l.step.toNat old = ⟨payload, some fault⟩) :
      Turn l h (.faulted ((h.write blank payload).dropBlank blank) fault)
        [.write blank payload, .dropBlank blank]
  | publishes {blank : SlotRef} {step : UInt64} (phase : l.phase = .publishing blank)
      (next : Checked.add l.step 1 = .ok step) (heard : (h.publish l.publisher blank).1 ≠ 0) :
      Turn l h (.running (h.publish l.publisher blank).2 { l with step, phase := .acquiring })
        [.publish l.publisher blank]
  | overruns {blank : SlotRef} {fault : Fault} (phase : l.phase = .publishing blank)
      (overflow : Checked.add l.step 1 = .error fault) :
      Turn l h (.faulted (h.publish l.publisher blank).2 fault) [.publish l.publisher blank]
  | unheard {blank : SlotRef} {step : UInt64} (phase : l.phase = .publishing blank)
      (next : Checked.add l.step 1 = .ok step) (unheard : (h.publish l.publisher blank).1 = 0) :
      Turn l h (.stopped (h.publish l.publisher blank).2 .noListeners)
        [.publish l.publisher blank]

theorem advance_turn (l : RelayLoop) (h : Hub) : Turn l h (l.advance h) (l.requests h) := by
  rw [advance, requests]
  cases phase : l.phase with
  | acquiring =>
    cases acquired : h.acquireFor? l.publisher with
    | none => exact .starves phase acquired
    | some taken =>
      obtain ⟨blank, h'⟩ := taken
      obtain ⟨pool, named, taken⟩ := Hub.acquireFor?_eq_some acquired
      rw [named]
      exact .acquires phase named taken
  | filling blank =>
    dsimp only
    cases shown : h.payload? blank with
    | none => exact .lacks phase shown
    | some old =>
      dsimp only
      generalize filled : l.fill l.step.toNat old = written
      obtain ⟨payload, _ | fault⟩ := written
      · exact .fills phase shown filled
      · exact .faults phase shown filled
  | publishing blank =>
    dsimp only
    cases next : Checked.add l.step 1 with
    | error fault => exact .overruns phase next
    | ok step =>
      dsimp only
      split
      · rename_i unheard
        exact .unheard phase next unheard
      · rename_i heard
        exact .publishes phase next heard

theorem advance_hub? (step : (l.advance h).hub? = some h') : h' = h.applyAll (l.requests h) := by
  have turn := l.advance_turn h
  generalize l.advance h = progress at step turn
  generalize l.requests h = asked at turn
  cases turn with
  | starves | lacks => simp [Progress.hub?] at step
  | acquires _ _ taken =>
    obtain rfl := Option.some.inj step
    exact (Hub.apply_acquire taken).symm
  | fills | faults | publishes | overruns | unheard => exact (Option.some.inj step).symm

def closing (l : RelayLoop) : List Operation := [.dropPublisher l.publisher]

/-- Whether the operation of somebody else leaves alone all that is the loop's own. -/
structure Spares (l : RelayLoop) (op : Operation) : Prop where
  publisher : op ≠ .dropPublisher l.publisher
  unpublished : ∀ blank, op ≠ .publish l.publisher blank
  blank : ∀ b, l.phase.blank? = some b →
    (∀ p, op ≠ .publish p b) ∧ (∀ payload, op ≠ .write b payload) ∧ op ≠ .dropBlank b

/-- What was published so far are the fillings of the steps, in order. -/
def Filled (l : RelayLoop) (h₀ : Hub) (ops : List Operation) : Prop :=
  ∀ (j : Nat) pub, (h₀.publishedBy l.publisher ops)[j]? = some pub →
    ∃ old, l.fill j old = ⟨pub.payload, none⟩

/-- What a loop has published, and that it still can. -/
structure Linked (l : RelayLoop) (h₀ : Hub) (ops : List Operation) : Prop where
  sound : h₀.Sound
  alive : (h₀.applyAll ops).publishers.contains l.publisher
  filled : l.Filled h₀ ops
  count : (h₀.publishedBy l.publisher ops).length = l.step.toNat

def Prepared (l : RelayLoop) (h : Hub) : RelayPhase → Prop
  | .acquiring => True
  | .filling blank => blank ∈ h.blanks
  | .publishing blank => blank ∈ h.blanks ∧
      ∃ payload old, h.payload? blank = some payload ∧ l.fill l.step.toNat old = ⟨payload, none⟩

/-- What holds of a loop between its steps, after a run that it takes part in. -/
structure InRound (l : RelayLoop) (h₀ : Hub) (ops : List Operation) : Prop where
  linked : l.Linked h₀ ops
  prepared : l.Prepared (h₀.applyAll ops) l.phase

namespace Linked

theorem soundly (k : l.Linked h₀ ops) : (h₀.applyAll ops).Sound := k.sound.applyAll ops

theorem withPhase (k : l.Linked h₀ ops) (phase : RelayPhase) : Linked { l with phase } h₀ ops :=
  ⟨k.sound, k.alive, k.filled, k.count⟩

theorem alive_apply (k : l.Linked h₀ ops) (kept : op ≠ .dropPublisher l.publisher) :
    (h₀.applyAll (ops ++ [op])).publishers.contains l.publisher := by
  obtain ⟨P, hP⟩ := Option.isSome_iff_exists.1 k.alive
  rw [Hub.applyAll_snoc, (Hub.publisher_apply (Table.get?_lt hP) kept).1]
  exact k.alive

theorem apply (k : l.Linked h₀ ops) (kept : op ≠ .dropPublisher l.publisher)
    (unpublished : ∀ blank, op ≠ .publish l.publisher blank) : l.Linked h₀ (ops ++ [op]) := by
  have same : h₀.publishedBy l.publisher (ops ++ [op]) = h₀.publishedBy l.publisher ops :=
    Hub.publishedBy_quiet unpublished
  refine ⟨k.sound, k.alive_apply kept, ?_, ?_⟩
  · rw [Filled, same]
    exact k.filled
  · rw [same]
    exact k.count

theorem published (k : l.Linked h₀ ops) {blank : SlotRef} {payload old : Payload}
    (owned : blank ∈ (h₀.applyAll ops).blanks)
    (shown : (h₀.applyAll ops).payload? blank = some payload)
    (filled : l.fill l.step.toNat old = ⟨payload, none⟩) :
    l.Filled h₀ (ops ++ [.publish l.publisher blank]) ∧
      (h₀.publishedBy l.publisher (ops ++ [.publish l.publisher blank])).length =
        l.step.toNat + 1 := by
  have published := Hub.publishedBy_publish k.alive owned shown
  constructor
  · intro j pub hpub
    rw [published] at hpub
    rcases Hub.getElem?_snoc hpub with early | ⟨rfl, rfl⟩
    · exact k.filled j pub early
    · exact ⟨old, k.count ▸ filled⟩
  · rw [published, List.length_append, k.count]
    rfl

theorem publish (k : l.Linked h₀ ops) {blank : SlotRef} {payload old : Payload} {step : UInt64}
    (owned : blank ∈ (h₀.applyAll ops).blanks)
    (shown : (h₀.applyAll ops).payload? blank = some payload)
    (filled : l.fill l.step.toNat old = ⟨payload, none⟩) (next : Checked.add l.step 1 = .ok step) :
    Linked { l with step } h₀ (ops ++ [.publish l.publisher blank]) := by
  have kept : Operation.publish l.publisher blank ≠ .dropPublisher l.publisher := nofun
  obtain ⟨all, count⟩ := k.published owned shown filled
  exact ⟨k.sound, k.alive_apply kept, all, count.trans (Checked.add_one_eq_ok.1 next).symm⟩

end Linked

theorem InRound.other (r : l.InRound h₀ ops) (spares : l.Spares op) :
    l.InRound h₀ (ops ++ [op]) := by
  refine ⟨r.linked.apply spares.publisher spares.unpublished, ?_⟩
  have prepared := r.prepared
  have kept := spares.blank
  rw [Hub.applyAll_snoc]
  cases phase : l.phase with
  | acquiring => trivial
  | filling blank =>
    rw [phase] at prepared kept
    obtain ⟨unpublished, -, undropped⟩ := kept blank rfl
    exact Hub.blanks_apply prepared unpublished undropped
  | publishing blank =>
    rw [phase] at prepared kept
    obtain ⟨unpublished, unwritten, undropped⟩ := kept blank rfl
    obtain ⟨owned, payload, old, shown, filled⟩ := prepared
    exact ⟨Hub.blanks_apply owned unpublished undropped, payload, old,
      AggregatorLoop.payload?_blank r.linked.soundly owned shown unwritten, filled⟩

theorem InRound.own (r : l.InRound h₀ ops) (step : l.advance (h₀.applyAll ops) = .running h' l') :
    l'.InRound h₀ (ops ++ l.requests (h₀.applyAll ops)) ∧
      h' = h₀.applyAll (ops ++ l.requests (h₀.applyAll ops)) := by
  refine ⟨?_, by rw [Hub.applyAll_append]; exact advance_hub? (by rw [step]; rfl)⟩
  have turn := l.advance_turn (h₀.applyAll ops)
  rw [step] at turn
  generalize l.requests (h₀.applyAll ops) = asked at turn ⊢
  obtain ⟨linked, prepared⟩ := r
  cases turn with
  | @acquires blank pool _ phase named taken =>
    have still : l.Linked h₀ (ops ++ [.acquire pool]) := linked.apply nofun fun _ => nofun
    refine ⟨still.withPhase _, ?_⟩
    rw [Hub.applyAll_snoc, Hub.apply_acquire taken]
    obtain ⟨p, free, -, -, -, rfl⟩ := Hub.acquire?_eq_some taken
    exact List.mem_cons_self
  | @fills blank old payload phase shown filled =>
    rw [phase] at prepared
    have still : l.Linked h₀ (ops ++ [.write blank payload]) := linked.apply nofun fun _ => nofun
    refine ⟨still.withPhase _, ?_⟩
    rw [Hub.applyAll_snoc]
    exact ⟨Hub.blanks_apply prepared (fun _ => nofun) nofun, _, _,
      Hub.payload?_write linked.soundly.accounted prepared, filled⟩
  | publishes phase next heard =>
    rw [phase] at prepared
    obtain ⟨owned, payload, old, shown, filled⟩ := prepared
    exact ⟨(linked.publish owned shown filled next).withPhase _, trivial⟩

theorem InRound.heard (r : l.InRound h₀ ops) (step : l.advance (h₀.applyAll ops) = .running h' l') :
    (∀ op ∈ l.requests (h₀.applyAll ops), ∀ p blank, op ≠ .publish p blank) ∨
      (h₀.applyAll ops).receivers l.publisher ≠ [] := by
  have turn := l.advance_turn (h₀.applyAll ops)
  have prepared := r.prepared
  rw [step] at turn
  generalize l.requests (h₀.applyAll ops) = asked at turn ⊢
  cases turn with
  | acquires | fills => exact .inl (List.forall_mem_singleton.2 fun _ _ => nofun)
  | publishes phase next heard =>
    rw [phase] at prepared
    rw [AggregatorLoop.fanOut_eq prepared.1] at heard
    exact .inr fun nobody => heard (List.length_eq_zero_iff.2 nobody)

theorem InRound.stopped (r : l.InRound h₀ ops) {reason : Termination}
    (step : l.advance (h₀.applyAll ops) = .stopped h' reason) :
    reason = .noListeners ∧ (h₀.applyAll ops).receivers l.publisher = [] ∧
      (h₀.publishedBy l.publisher (ops ++ l.requests (h₀.applyAll ops))).length < 2 ^ 64 := by
  have turn := l.advance_turn (h₀.applyAll ops)
  rw [step] at turn
  generalize l.requests (h₀.applyAll ops) = asked at turn ⊢
  obtain ⟨linked, prepared⟩ := r
  cases turn with
  | @unheard blank next phase counted nobody =>
    rw [phase] at prepared
    obtain ⟨owned, payload, old, shown, filled⟩ := prepared
    rw [AggregatorLoop.fanOut_eq owned] at nobody
    refine ⟨rfl, List.length_eq_zero_iff.1 nobody, ?_⟩
    rw [(linked.published owned shown filled).2, ← Checked.add_one_eq_ok.1 counted]
    exact next.toNat_lt

theorem InRound.faulted (r : l.InRound h₀ ops) {fault : Fault}
    (step : l.advance (h₀.applyAll ops) = .faulted h' fault) :
    (∃ old, (l.fill l.step.toNat old).fault = some fault) ∨
      Checked.overrun? l.step.toNat = some fault ∧
        2 ^ 64 ≤ (h₀.publishedBy l.publisher (ops ++ l.requests (h₀.applyAll ops))).length := by
  have turn := l.advance_turn (h₀.applyAll ops)
  rw [step] at turn
  generalize l.requests (h₀.applyAll ops) = asked at turn
  obtain ⟨linked, prepared⟩ := r
  cases turn with
  | faults phase shown filled => exact .inl ⟨_, by rw [filled]⟩
  | overruns phase overflow =>
    rw [phase] at prepared
    obtain ⟨owned, payload, old, shown, filled⟩ := prepared
    obtain ⟨last, rfl⟩ := Checked.add_one_eq_error.1 overflow
    have all := (linked.published owned shown filled).2.trans last
    exact .inr ⟨Checked.overrun?_eq_some.2 ⟨Nat.le_of_eq last.symm, rfl⟩, Nat.le_of_eq all.symm⟩

theorem advance_keeps (step : l.advance h = .running h' l') :
    ∃ n phase, l' = { l with step := n, phase } ∧ ∀ b, phase.blank? = some b →
      l.phase.blank? = some b ∨ h.poolOf? l.publisher = some b.pool := by
  have turn := l.advance_turn h
  rw [step] at turn
  generalize l.requests h = asked at turn
  cases turn with
  | acquires phase named taken =>
    refine ⟨_, _, rfl, fun b hb => .inr ?_⟩
    obtain rfl := Option.some.inj hb
    obtain ⟨p, free, -, -, same, -⟩ := Hub.acquire?_eq_some taken
    rw [named, same]
  | fills phase shown filled => exact ⟨_, _, rfl, fun b hb => .inl (by rw [phase]; exact hb)⟩
  | publishes => exact ⟨_, _, rfl, fun b hb => by simp [RelayPhase.blank?] at hb⟩

end RelayLoop

end BufferFlow
