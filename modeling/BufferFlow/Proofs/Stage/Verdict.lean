import BufferFlow.Proofs.Stage.Rounds

set_option autoImplicit false

namespace BufferFlow.AggregatorLoop

variable {h₀ h h' : Hub} {l l' : AggregatorLoop} {ops : List Operation}

def Supplied (l : AggregatorLoop) (h₀ : Hub) (ops : List Operation) : Prop :=
  ∀ s ∈ l.sources, l.round h₀ ops < (h₀.supply s ops).length

/-- Why the loop is to stop in its round: a source is gone without a buffer for it; or all have one,
and a gate's is closed; or all have one, the gates' are open, and nobody listens. -/
def Due (l : AggregatorLoop) (h₀ : Hub) (ops : List Operation) : Termination → Prop
  | .sourceGone => ∃ s ∈ l.sources, (h₀.applyAll ops).publisherOf? s = none ∧
      (h₀.supply s ops).length ≤ l.round h₀ ops
  | .gateClosed => l.Supplied h₀ ops ∧
      ∃ g ∈ l.gates, ∃ v, (h₀.supply g ops)[l.round h₀ ops]? = some v ∧ v.isOpen = false
  | .noListeners => l.Supplied h₀ ops ∧ l.GatesOpen h₀ ops (l.round h₀ ops) ∧
      (h₀.applyAll ops).receivers l.publisher = []

/-- Steps that the loop has left in its round, or more. -/
def rank (l : AggregatorLoop) : Nat :=
  match l.phase with
  | .arming cells => l.sources.length - cells.length + 5
  | .waiting _ => 4
  | .acquiring _ => 3
  | .transforming _ _ => 2
  | .publishing _ => 1

theorem Supplied.not_gone (supplied : l.Supplied h₀ ops) : ¬ l.Due h₀ ops .sourceGone := by
  rintro ⟨s, hs, -, short⟩
  exact Nat.not_le.2 (supplied s hs) short

theorem GatesOpen.not_closed (isOpen : l.GatesOpen h₀ ops (l.round h₀ ops)) :
    ¬ l.Due h₀ ops .gateClosed := by
  rintro ⟨-, g, hg, v, hv, closed⟩
  obtain ⟨w, hw, opened⟩ := isOpen g hg
  obtain rfl : v = w := Option.some.inj (hv.symm.trans hw)
  simp [closed] at opened

theorem Due.unique {a b : Termination} (ha : l.Due h₀ ops a) (hb : l.Due h₀ ops b) : a = b := by
  cases a <;> cases b <;> first | rfl | exfalso
  · exact ha.1.not_gone hb
  · exact ha.2.1.not_closed hb
  · exact hb.1.not_gone ha
  · exact hb.1.not_gone ha
  · exact hb.2.1.not_closed ha
  · exact ha.1.not_gone hb

theorem Engaged.left_le {k : Nat} {cells : List Nat} (e : l.Engaged h₀ ops k cells) {s : Nat}
    (hs : s ∈ l.sources) : (h₀.departed s ops).length ≤ (h₀.supply s ops).length := by
  rw [e.length_supply hs]
  exact Nat.le_add_right _ _

theorem InRound.supplied (r : l.InRound h₀ ops) (joined : l.joins = l.round h₀ ops + 1)
    (cells : l.phase.cells = []) : l.Supplied h₀ ops := by
  intro s hs
  obtain ⟨i, hi⟩ := List.getElem?_of_mem hs
  have engaged := r.engaged
  rw [cells] at engaged
  obtain ⟨-, count⟩ := engaged.joining.rest i s (Nat.zero_le i) hi
  have le := engaged.left_le hs
  omega

theorem InRound.begins (r : l.InRound h₀ ops) (phase : l.phase = .arming []) :
    ∀ s ∈ l.sources, (h₀.departed s ops).length = l.round h₀ ops := by
  intro s hs
  obtain ⟨engaged, prepared⟩ := r
  rw [joins, phase] at engaged
  rw [phase] at prepared
  obtain ⟨i, hi⟩ := List.getElem?_of_mem hs
  exact (engaged.joining.rest i s (Nat.zero_le i) hi).2.trans prepared.symm

theorem InRound.waits (r : l.InRound h₀ ops) {cells : List Nat} (phase : l.phase = .waiting cells) :
    l.Engaged h₀ ops (l.round h₀ ops) cells ∧ cells.length = l.sources.length := by
  obtain ⟨engaged, prepared⟩ := r
  rw [joins, phase] at engaged
  rw [phase] at prepared
  obtain ⟨count, all⟩ := prepared
  rw [count]
  exact ⟨engaged, all⟩

theorem Engaged.supplied {cells : List Nat} (e : l.Engaged h₀ ops (l.round h₀ ops) cells)
    (all : cells.length = l.sources.length)
    (waited : ((h₀.applyAll ops).wait? l.mailbox).map (·.1) = some true) : l.Supplied h₀ ops := by
  intro s hs
  obtain ⟨i, hi⟩ := List.getElem?_of_mem hs
  have short : i < cells.length := all ▸ (List.getElem?_eq_some_iff.1 hi).1
  obtain ⟨c, v, -, -, count, -⟩ := e.come waited hi (List.getElem?_eq_getElem short)
  have le := e.left_le hs
  omega

theorem InRound.due (r : l.InRound h₀ ops) {reason : Termination}
    (step : l.advance (h₀.applyAll ops) = .stopped h' reason) : l.Due h₀ ops reason := by
  rcases advance_stopped step with
    ⟨cells, g, phase, waited, rfl⟩ | ⟨cells, g, phase, waited, taken⟩ | ⟨blank, phase, unheard, rfl⟩
  · obtain ⟨engaged, -⟩ := r.waits phase
    have verdict : ((h₀.applyAll ops).wait? l.mailbox).map (·.1) = some false := by
      rw [waited]
      rfl
    obtain ⟨s, hs, gone, drained, count⟩ := engaged.joining.abandoned engaged.soundly verdict
    refine ⟨s, hs, gone, ?_⟩
    rw [engaged.length_supply hs, drained, count]
    exact Nat.le_refl _
  · obtain ⟨engaged, all⟩ := r.waits phase
    have supplied := engaged.supplied all (by rw [waited]; rfl)
    obtain ⟨primary, gates, source, rfl, -, full, isOpen⟩ := engaged.joined all waited
    simp only [take_cons, full] at taken
    split at taken
    · exact nomatch taken
    · rename_i closed
      obtain ⟨-, rfl⟩ := Progress.stopped.inj taken
      refine ⟨supplied, ?_⟩
      by_contra none_closed
      refine closed (isOpen.2 fun g hg => ?_)
      have hv := List.getElem?_eq_getElem (supplied g (List.mem_cons_of_mem _ hg))
      refine ⟨_, hv, ?_⟩
      by_contra shut
      exact none_closed ⟨g, hg, _, hv, by simpa using shut⟩
  · have prepared := r.prepared
    rw [phase] at prepared
    obtain ⟨count, owned, payload, -, v, old, -, -, gates⟩ := prepared
    rw [fanOut_eq owned] at unheard
    refine ⟨r.supplied ?_ (by rw [phase]; rfl), gates, List.length_eq_zero_iff.1 unheard⟩
    rw [joins, phase]
    exact count.symm

theorem InRound.going (r : l.InRound h₀ ops) (joined : l.joins = l.round h₀ ops + 1)
    (cells : l.phase.cells = []) (gates : l.GatesOpen h₀ ops (l.round h₀ ops)) {reason : Termination}
    (due : l.Due h₀ ops reason) : reason = .noListeners := by
  cases reason with
  | sourceGone => exact absurd due (r.supplied joined cells).not_gone
  | gateClosed => exact absurd due gates.not_closed
  | noListeners => rfl

theorem InRound.ready (r : l.InRound h₀ ops) {source : Copy} {blank : SlotRef}
    (phase : l.phase = .transforming source blank) :
    ∃ v old, (h₀.supply l.primary ops)[l.calls]? = some v ∧
      (h₀.applyAll ops).read? source = some v ∧ (h₀.applyAll ops).payload? blank = some old := by
  have prepared := r.prepared
  rw [phase] at prepared
  obtain ⟨-, joined, owned⟩ := prepared
  exact joined.shown r.engaged owned

theorem InRound.opened (r : l.InRound h₀ ops) {source : Copy} {blank : SlotRef}
    (phase : l.phase = .transforming source blank) :
    l.round h₀ ops = l.calls ∧ l.GatesOpen h₀ ops l.calls := by
  have prepared := r.prepared
  rw [phase] at prepared
  obtain ⟨count, joined, -⟩ := prepared
  exact ⟨count, joined.gates⟩

theorem InRound.blocked (r : l.InRound h₀ ops) (step : l.advance (h₀.applyAll ops) = .blocked) :
    (∀ reason, l.Due h₀ ops reason → reason = .noListeners) ∧
      ((∃ s ∈ l.sources, ((h₀.applyAll ops).publisherOf? s).isSome ∧
          (h₀.supply s ops).length = l.round h₀ ops) ∨
        (h₀.applyAll ops).acquireFor? l.publisher = none) := by
  rcases advance_blocked step with
    ⟨cells, phase, waited⟩ | ⟨source, phase, starves⟩ | ⟨source, blank, phase, unread⟩
  · obtain ⟨engaged, all⟩ := r.waits phase
    obtain ⟨⟨s, hs, alive, drained, count⟩, gone⟩ :=
      engaged.joining.blocked engaged.soundly all waited
    have short : (h₀.supply s ops).length = l.round h₀ ops := by
      rw [engaged.length_supply hs, drained, count]
      rfl
    refine ⟨fun reason due => ?_, .inl ⟨s, hs, alive, short⟩⟩
    cases reason with
    | sourceGone =>
      obtain ⟨t, ht, lost, less⟩ := due
      have more := gone t ht lost
      have le := engaged.left_le ht
      omega
    | gateClosed => exact absurd (due.1 s hs) (short ▸ Nat.lt_irrefl _)
    | noListeners => rfl
  · have prepared := r.prepared
    rw [phase] at prepared
    obtain ⟨count, joined⟩ := prepared
    refine ⟨fun reason due => ?_, .inr starves⟩
    refine r.going ?_ (by rw [phase]; rfl) (count ▸ joined.gates) due
    rw [joins, phase, count]
  · obtain ⟨v, old, -, read, shown⟩ := r.ready phase
    exact absurd ⟨read, shown⟩ (unread v old)

theorem InRound.faulted (r : l.InRound h₀ ops) {fault : Fault}
    (step : l.advance (h₀.applyAll ops) = .faulted h' fault) :
    (∀ reason, l.Due h₀ ops reason → reason = .noListeners) ∧
      ∃ v old, (h₀.supply l.primary ops)[l.round h₀ ops]? = some v ∧
        (l.transform (l.round h₀ ops) v old).fault = some fault := by
  obtain ⟨source, blank, v, old, payload, phase, read, shown, made⟩ := advance_faulted step
  obtain ⟨v', old', supplied, read', shown'⟩ := r.ready phase
  obtain rfl := Option.some.inj (read.symm.trans read')
  obtain rfl := Option.some.inj (shown.symm.trans shown')
  obtain ⟨count, gates⟩ := r.opened phase
  have found : l.joins = l.round h₀ ops + 1 := by rw [joins, phase, count]
  refine ⟨fun reason => r.going found (by rw [phase]; rfl) (count ▸ gates), v, old, ?_, ?_⟩
  · rw [count]
    exact supplied
  · rw [count, made]

theorem InRound.progress (r : l.InRound h₀ ops)
    (step : l.advance (h₀.applyAll ops) = .running h' l') :
    (l'.round h₀ (ops ++ l.requests (h₀.applyAll ops)) = l.round h₀ ops ∧ l'.rank < l.rank) ∨
      (l'.round h₀ (ops ++ l.requests (h₀.applyAll ops)) = l.round h₀ ops + 1 ∧
        ∀ reason, ¬ l.Due h₀ ops reason) := by
  have later := (r.own step).1.prepared
  have now := r.prepared
  have turn := l.advance_turn (h₀.applyAll ops)
  generalize l.requests (h₀.applyAll ops) = asked at later turn ⊢
  generalize l.advance (h₀.applyAll ops) = progress at step turn
  rw [rank, rank]
  cases turn with
  | armed phase =>
    obtain ⟨-, rfl⟩ := Progress.running.inj step
    rw [phase] at now ⊢
    exact .inl ⟨later.1.trans now.symm, by simp⟩
  | arms phase next =>
    obtain ⟨-, rfl⟩ := Progress.running.inj step
    rw [phase] at now ⊢
    have short := (List.getElem?_eq_some_iff.1 next).1
    refine .inl ⟨later.trans now.symm, ?_⟩
    simp only [sources, List.length_append, List.length_singleton] at short ⊢
    omega
  | takes phase =>
    obtain ⟨source, rfl⟩ := take_running step
    rw [phase] at now ⊢
    exact .inl ⟨later.1.trans now.1.symm, by simp⟩
  | acquires phase =>
    obtain ⟨-, rfl⟩ := Progress.running.inj step
    rw [phase] at now ⊢
    exact .inl ⟨later.1.trans now.1.symm, by simp⟩
  | transforms phase =>
    obtain ⟨-, rfl⟩ := Progress.running.inj step
    rw [phase] at now ⊢
    exact .inl ⟨(Nat.succ.inj later.1).trans now.1.symm, by simp⟩
  | publishes phase heard =>
    obtain ⟨-, rfl⟩ := Progress.running.inj step
    rw [phase] at now
    obtain ⟨count, owned, payload, -, v, old, -, -, gates⟩ := now
    refine .inr ⟨later.trans count.symm, fun reason due => ?_⟩
    have joined : l.joins = l.round h₀ ops + 1 := by rw [joins, phase, count]
    obtain rfl := r.going joined (by rw [phase]; rfl) gates due
    rw [fanOut_eq owned, due.2.2] at heard
    exact heard rfl
  | _ => cases step

theorem InRound.taken (r : l.InRound h₀ ops) {cells : List Nat} (phase : l.phase = .waiting cells)
    (waited : ((h₀.applyAll ops).wait? l.mailbox).map (·.1) = some true)
    (step : (l.advance (h₀.applyAll ops)).hub? = some h') :
    (∀ i s cell : Nat, l.sources[i]? = some s → cells[i]? = some cell → ∃ c,
      (h₀.applyAll ops).contents? cell = some c ∧
        (h₀.departed s ops)[l.round h₀ ops]? = some c) ∧
    (∀ s ∈ l.sources,
      (h₀.departed s (ops ++ l.requests (h₀.applyAll ops))).length = l.round h₀ ops + 1) ∧
    ∀ cell ∈ cells, h'.cells.contains cell = false := by
  obtain ⟨engaged, all⟩ := r.waits phase
  have asked := advance_hub? engaged.joining.contains_mailbox step
  obtain ⟨⟨completed, h⟩, verdict, rfl⟩ := Option.map_eq_some_iff.1 waited
  have requested : l.requests (h₀.applyAll ops) = .wait l.mailbox :: takeRequests h cells := by
    rw [requests, phase]
    simp only [verdict]
  refine ⟨fun i s cell hs hc => ?_, fun s hs => ?_, fun cell hc => ?_⟩
  · obtain ⟨c, v, full, last, -⟩ := engaged.come waited hs hc
    exact ⟨c, Hub.contents?_eq_some.2 full, last⟩
  · have heeds : ∀ op ∈ .wait l.mailbox :: takeRequests h cells, op.Heeds l [] := heeds_taking
    have later := (engaged.next all waited).applyAll heeds
    obtain ⟨i, hi⟩ := List.getElem?_of_mem hs
    rw [requested]
    exact (later.joining.rest i s (Nat.zero_le i) hi).2
  · rw [asked, requested, Hub.applyAll_cons]
    exact Hub.dropped_applyAll takeRequests_empties (dropCell_mem_takeRequests hc)

theorem Due.mono {reason : Termination} {more : List Operation} {k : Nat} {cells : List Nat}
    (due : l.Due h₀ ops reason) (lasting : reason ≠ .noListeners)
    (e : l.Engaged h₀ (ops ++ more) k cells)
    (same : l.round h₀ (ops ++ more) = l.round h₀ ops) : l.Due h₀ (ops ++ more) reason := by
  cases reason with
  | sourceGone =>
    obtain ⟨s, hs, gone, short⟩ := due
    obtain ⟨sub, hsub⟩ := Option.isSome_iff_exists.1 (e.present s hs)
    obtain ⟨gone', length⟩ := Hub.supply_detached e.sound hsub (e.kept s hs) gone
    exact ⟨s, hs, gone', by rw [length, same]; exact short⟩
  | gateClosed =>
    obtain ⟨supplied, g, hg, v, hv, closed⟩ := due
    refine ⟨fun s hs => ?_, g, hg, v, by rw [same]; exact supply_mono more hv, closed⟩
    rw [same]
    exact Nat.lt_of_lt_of_le (supplied s hs) (h₀.supply_append s ops more).length_le
  | noListeners => exact absurd rfl lasting

end BufferFlow.AggregatorLoop
