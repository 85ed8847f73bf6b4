import BufferFlow.Proofs.Hub.Releases
import BufferFlow.Proofs.Hub.Totals
import BufferFlow.Proofs.Network.Requests
import BufferFlow.Stats

set_option autoImplicit false

namespace BufferFlow

namespace Hub

variable {h : Hub}

theorem putBacks_append (h : Hub) (a b : List Operation) :
    h.putBacks (a ++ b) = h.putBacks a ++ (h.applyAll a).putBacks b := by
  rw [putBacks, trace_append, List.filterMap_append]
  rfl

theorem fanOuts_append (h : Hub) (a b : List Operation) :
    h.fanOuts (a ++ b) = h.fanOuts a ++ (h.applyAll a).fanOuts b :=
  append_of_cons (fun _ => rfl) (fun _ _ _ => rfl) h a b

theorem verdicts_append (h : Hub) (a b : List Operation) :
    h.verdicts (a ++ b) = h.verdicts a ++ (h.applyAll a).verdicts b :=
  append_of_cons (fun _ => rfl) (fun _ _ _ => rfl) h a b

theorem counters_applyAll {ops : List Operation}
    (untallied : ∀ op ∈ ops, ∀ counters log, op ≠ .tally counters log) :
    (h.applyAll ops).counters = h.counters.recordAll (h.occurred ops) := by
  induction ops generalizing h with
  | nil => rfl
  | cons op ops ih =>
    rw [occurred, Counters.recordAll_append, ← counters_apply (untallied op List.mem_cons_self)]
    exact ih fun later member => untallied later (List.mem_cons_of_mem _ member)

end Hub

theorem Reports.ofStages {events : List Event} (stages : ∀ e ∈ events, e.IsOfStage) (n : Nat) :
    Reports events [] [] [] [] n n := by
  induction events with
  | nil => exact .nil n
  | cons e events ih =>
    exact (Reports.ofStage (stages e List.mem_cons_self) n).append
      (ih fun x member => stages x (List.mem_cons_of_mem _ member))

namespace Network

variable {n : Network} {a : Action} {actions : List Action}

theorem ofThreads_ofStages (n : Network) (a : Action) : ∀ e ∈ n.ofThreads a, e.IsOfStage := by
  intro e member
  rcases List.mem_append.1 member with start | stop
  · obtain ⟨i, -, rfl⟩ := List.mem_map.1 start
    trivial
  · obtain ⟨x, -, rfl⟩ := List.mem_map.1 stop
    trivial

theorem asks_untallied (s : Stage) (h : Hub) :
    ∀ op ∈ s.asks h, ∀ counters log, op ≠ .tally counters log := by
  intro op member
  rcases List.mem_append.1 member with own | last
  · exact (s.loop.requests_ofRounds h op own).untallied
  · split at last
    · exact absurd last List.not_mem_nil
    · exact absurd last List.not_mem_nil
    · exact s.loop.closing_untallied op last
    · exact s.loop.closing_untallied op last

theorem asked_untallied (proper : a.Proper) :
    ∀ op ∈ n.asked a, ∀ counters log, op ≠ .tally counters log := by
  intro op member
  cases a with
  | hub op' =>
    obtain rfl := List.mem_singleton.1 member
    exact proper
  | newRelay | newAggregator | newSink | subscribe =>
    rw [asked] at member
    split at member <;> simp at member <;> grind
  | start | join => exact absurd member List.not_mem_nil
  | dropStage stage =>
    rw [asked] at member
    split at member
    · exact absurd member List.not_mem_nil
    · split at member
      · exact Loop.closing_untallied _ op member
      · exact absurd member List.not_mem_nil
  | advance stage =>
    rw [asked] at member
    split at member
    · exact absurd member List.not_mem_nil
    · split at member
      · exact absurd member List.not_mem_nil
      · exact asks_untallied _ _ op member

theorem Fit.counters_act (fit : n.Fit) (proper : a.Proper) :
    (n.act a).hub.counters = n.hub.counters.recordAll (n.counted a) := by
  obtain ⟨log, hub⟩ := fit.accounts a
  rw [hub, counted, Counters.recordAll_append, ← Hub.counters_applyAll (asked_untallied proper)]

theorem Fit.counters_actAll (fit : n.Fit) (proper : ∀ a ∈ actions, a.Proper) :
    (n.actAll actions).hub.counters = n.hub.counters.recordAll (n.happenings actions) := by
  induction actions generalizing n with
  | nil => rfl
  | cons a actions ih =>
    have first := proper a List.mem_cons_self
    rw [happenings, Counters.recordAll_append, ← fit.counters_act first]
    exact ih (fit.act first) fun b member => proper b (List.mem_cons_of_mem _ member)

theorem Fit.reports_act (fit : n.Fit) (a : Action) :
    Reports (n.counted a) (n.hub.takings (n.asked a)) (n.hub.putBacks (n.asked a))
      (n.hub.fanOuts (n.asked a)) (n.hub.verdicts (n.asked a)) n.hub.subscribed
      (n.act a).hub.subscribed := by
  obtain ⟨log, hub⟩ := fit.accounts a
  have all := (n.hub.reports_applyAll (n.asked a)).append (.ofStages (n.ofThreads_ofStages a) _)
  simp only [List.append_nil] at all
  rw [hub]
  exact all

theorem Fit.reports_actAll (fit : n.Fit) (proper : ∀ a ∈ actions, a.Proper) :
    Reports (n.happenings actions) (n.hub.takings (n.operations actions))
      (n.hub.putBacks (n.operations actions)) (n.hub.fanOuts (n.operations actions))
      (n.hub.verdicts (n.operations actions)) n.hub.subscribed (n.actAll actions).hub.subscribed := by
  induction actions generalizing n with
  | nil => exact .nil _
  | cons a actions ih =>
    have first := proper a List.mem_cons_self
    have rest := ih (fit.act first) fun b member => proper b (List.mem_cons_of_mem _ member)
    have all := (fit.reports_act a).append rest
    rw [fit.hub_act a, Hub.applyAll_append] at all
    rw [operations, List.append_assoc, Hub.takings_append, Hub.putBacks_append, Hub.fanOuts_append,
      Hub.verdicts_append]
    exact all

theorem starts_le_happenings (n : Network) (actions : List Action) :
    (n.starts actions).length ≤ (n.happenings actions).length := by
  induction actions generalizing n with
  | nil => exact Nat.le_refl _
  | cons a actions ih =>
    have rest := ih (n.act a)
    simp only [starts, happenings, counted, ofThreads, List.length_append, List.length_map]
    omega

theorem stagesStarted_add (proper : ∀ a ∈ actions, a.Proper)
    (few : (({} : Network).happenings actions).length < 2 ^ 64) :
    let c := (({} : Network).actAll actions).hub.counters
    c.stagesStarted.toNat = c.stagesRunning.toNat + c.stagesTerminated.toNat := by
  intro c
  have told := told_actAll proper
  obtain ⟨begun, running, past⟩ := ofStages_eq_iff.1 told.counted
  have underway := told.booked.underway_add
  have started := Nat.lt_of_le_of_lt (({} : Network).starts_le_happenings actions) few
  generalize ({} : Network).starts actions = S at begun running underway started
  generalize ({} : Network).endings actions = E at running past underway
  have stopped : E.countP (!·.2.isFaulted) ≤ E.length := List.countP_le_length
  have exact : ∀ {k : Nat}, k ≤ S.length → (UInt64.ofNat k).toNat = k := fun le =>
    UInt64.toNat_ofNat_of_lt' (Nat.lt_of_le_of_lt le started)
  have all := exact (Nat.le_refl S.length)
  have ended := exact (show E.countP (!·.2.isFaulted) ≤ S.length by omega)
  rw [begun, running, past, UInt64.toNat_sub_of_le _ _ (UInt64.le_iff_toNat_le.2 (by omega)), all,
    ended]
  omega

/-- After any actions, unless one of them wraps, the counters are the sums over all pools and the
numbers of publications, joins and stages, and the statistics page shows how many buffers are in
flight. -/
theorem counters_exact (actions : List Action) (proper : ∀ a ∈ actions, a.Proper)
    (few : (({} : Network).happenings actions).length +
      (({} : Hub).fanOuts (({} : Network).operations actions)).sum < 2 ^ 64) :
    let n := ({} : Network).actAll actions
    let ops := ({} : Network).operations actions
    let c := n.hub.counters
    n.hub = ({} : Hub).applyAll ops ∧
    (∀ pool < n.hub.pools.next, n.hub.pools.contains pool) ∧
    c.Exact n.hub (({} : Hub).fanOuts ops) (({} : Hub).verdicts ops) ∧
    c.stagesStarted.toNat = c.stagesRunning.toNat + c.stagesTerminated.toNat ∧
    Stats.body c = .ofFields ((("version", .ofText version) :: Stats.snapshotFields c) ++
      [("buffers_in_flight", .integer n.hub.inUse)]) := by
  intro n ops c
  have hub : n.hub = ({} : Hub).applyAll ops := Fit.empty.hub_actAll proper
  have counted : c = ({} : Counters).recordAll (({} : Network).happenings actions) :=
    Fit.empty.counters_actAll proper
  have reports := Fit.empty.reports_actAll proper
  have ledger := Hub.Ledger.empty.applyAll Hub.Sound.empty ops
  have sound := Hub.Sound.empty.applyAll ops
  have exact : c.Exact n.hub (({} : Hub).fanOuts ops) (({} : Hub).verdicts ops) := by
    rw [counted]
    exact reports.exact (hub ▸ ledger) (hub ▸ sound.accounted) few
  refine ⟨hub, hub ▸ ledger.lasting, exact,
    stagesStarted_add proper (Nat.lt_of_le_of_lt (Nat.le_add_right _ _) few), ?_⟩
  rw [Stats.body, Json.ofWord, exact.inFlight]

/-- Two frames are acquired and one is given back, with a subscription to nobody left over. -/
theorem counters_exact_relayed : ∃ actions : List Action,
    (∀ a ∈ actions, a.Proper) ∧
    (({} : Network).happenings actions).length +
      (({} : Hub).fanOuts (({} : Network).operations actions)).sum < 2 ^ 64 ∧
    (({} : Network).actAll actions).hub.counters.inFlight.toNat = 1 ∧
    (({} : Network).actAll actions).hub.counters.deliveries.toNat = 1 ∧
    (({} : Network).actAll actions).hub.counters.subscriptionsActive.toNat = 2 ∧
    (({} : Network).actAll actions).hub.counters.stagesStarted.toNat = 1 := by
  let actions : List Action :=
    [.newRelay "camera" 2 Payload.Shape.signal.factory Filler.idle, .subscribe 0 false,
      .hub (.subscribeDetached true), .start 0, .advance 0, .advance 0, .advance 0, .advance 0,
      .hub (.pull 0), .hub (.release ⟨⟨0, 0⟩, 0, false⟩)]
  have proper : ∀ a ∈ actions, a.Proper := by simp [actions, Action.Proper]
  have few : (({} : Network).happenings actions).length +
      (({} : Hub).fanOuts (({} : Network).operations actions)).sum < 2 ^ 64 := by
    decide +kernel
  obtain ⟨-, -, exact, stages, -⟩ := counters_exact actions proper few
  refine ⟨actions, proper, few, exact.inFlight.trans (by decide +kernel),
    exact.deliveries.trans (by decide +kernel), exact.subscriptionsActive.trans (by decide +kernel),
    stages.trans (by decide +kernel)⟩

end Network

end BufferFlow
