import BufferFlow.Proofs.Hub.Capacity
import BufferFlow.Proofs.Hub.Roster
import BufferFlow.Proofs.Pipeline.Reasons
import BufferFlow.Proofs.Stage.Hands

set_option autoImplicit false

namespace BufferFlow.Pipeline

variable {config : PipelineConfig} {n₀ n n' : Network} {ops more : List Operation} {i j s : Nat}

theorem working_modify {f : Stage → Stage} (stages : n'.stages = n.stages.modify i f) :
    n'.Working j ↔ ∃ s, n.stages.get? j = some s ∧ (if j = i then f s else s).Works := by
  rw [Network.Working, stages, Table.get?_modify]
  split
  · cases n.stages.get? j <;> simp
  · rfl

theorem running_of_works {st : Stage} {l : RelayLoop} {h : Hub} (loop : st.loop = .relay l)
    (moves : st.loop.advance h ≠ .blocked) (works : (st.after (st.loop.advance h)).Works) :
    ∃ h' l', l.advance h = .running h' l' := by
  rw [loop, Loop.advance_relay] at works moves
  cases progress : l.advance h with
  | blocked => exact absurd (congrArg _ progress) moves
  | running h' l' => exact ⟨h', l', rfl⟩
  | stopped | faulted => simp [progress, Progress.map, Stage.after, Stage.Works] at works

theorem gateOpen_iff (finite : config.steps ≠ 0) (hj : j ≤ config.steps.toNat) :
    config.gateOpen j.toUInt64 = true ↔ j < config.steps.toNat := by
  have same : j.toUInt64.toNat = j :=
    UInt64.toNat_ofNat_of_lt' (Nat.lt_of_le_of_lt hj config.steps.toNat_lt)
  rw [PipelineConfig.gateOpen, Bool.or_eq_true, beq_iff_eq, decide_eq_true_eq,
    UInt64.lt_iff_toNat_lt, same]
  exact or_iff_right finite

namespace Underway

variable (u : Underway config n₀.hub ops n) (laid : Planned config n₀)

include u laid

theorem length_queue_le (hj : j < gateCount config + 3) (hs : s ∈ sourcesOf config j)
    (works : n.Working j) : (n.hub.queueOf s).length ≤ config.buffers.toNat := by
  have kept := u.kept works hs
  have given := sourcesOf_given hj hs
  have reached : n.hub.Reachable := u.orderly.hub ▸ laid.reached.applyAll ops
  have once : ((n.hub.queueOf s).map (·.serial)).Nodup := by
    have all : ((n₀.hub.departed s ops ++ n.hub.queueOf s).map (·.serial)).Nodup := by
      rw [u.brought laid given kept, List.map_map]
      exact Hub.published_serials n₀.hub (outletOf config s) ops
    rw [List.map_append] at all
    exact (List.nodup_append'.1 all).2.1
  have sized : n.hub.capacityOf? (outletOf config s) = some config.buffers.toNat := by
    rw [u.orderly.hub]
    exact Hub.capacityOf?_applyAll (laid.sized _ (outletOf_given given)) ops
  refine reached.length_le_capacity (fun c hc => ?_) once (fun c hc => ?_) sized
  · cases found : n.hub.subscriptions.get? s with
    | none => simp [Hub.queueOf, found] at hc
    | some sub =>
      rw [Hub.queueOf, found] at hc
      exact Hub.mem_copies_of_queue found hc
  · exact u.pool_brought laid given kept (List.mem_append_right _ hc)

/-- A stage is at most one round and its pool ahead of a working stage that has subscribed to it. -/
theorem lead (hj : j < gateCount config + 3) (hs : s ∈ sourcesOf config j) (works : n.Working j) :
    count n₀ ops (outletOf config s) ≤ count n₀ ops j + 1 + config.buffers.toNat := by
  have queued := u.length_queue_le laid hj hs works
  have given := sourcesOf_given hj hs
  have supply := Hub.length_supply laid.reached.sound (laid.subscription s given) (u.kept works hs)
  rw [laid.length_supply ops hj hs, ← u.orderly.hub] at supply
  obtain ⟨stage, found, runs⟩ := works
  have left := (u.orderly.working j stage found runs).departed_le (u.sources found ▸ hs)
  rw [u.publisher found] at left
  change _ = (n₀.hub.departed s ops).length + _ at supply
  change _ ≤ count n₀ ops j + 1 at left
  omega

theorem audience (hi : i < gateCount config + 2) (heard : n.hub.receivers i ≠ []) :
    ∃ j s, j < gateCount config + 3 ∧ s ∈ sourcesOf config j ∧ outletOf config s = i ∧
      n.Working j := by
  obtain ⟨s, hs⟩ := List.exists_mem_of_ne_nil _ heard
  have named := hs
  rw [Hub.mem_receivers (u.orderly.hub ▸ laid.reached.sound.applyAll ops).enrolled] at named
  rw [u.orderly.hub] at hs
  obtain ⟨given, kept⟩ := laid.reached.receives (u.closed i) hs
  rw [laid.subscriptionCount] at given
  have outlet : outletOf config s = i := by
    rcases (u.named laid given kept).2 with ⟨-, here⟩ | ⟨-, lost⟩
    · exact Option.some.inj (here.symm.trans named)
    · exact nomatch lost.symm.trans named
  obtain ⟨j, hj, mine⟩ : ∃ j < gateCount config + 3, s ∈ sourcesOf config j := by
    by_cases fire : s ≤ gateCount config
    · exact ⟨gateCount config + 1, by omega, mem_sourcesOf_fire.2 fire⟩
    by_cases sink : s ≤ 2 * gateCount config + 1
    · exact ⟨gateCount config + 2, by omega, mem_sourcesOf_sink.2 ⟨by omega, sink⟩⟩
    · rw [outletOf, if_neg (by omega), if_neg sink] at outlet
      omega
  refine ⟨j, s, hj, mine, outlet, ?_⟩
  obtain ⟨stage, found, -⟩ := u.stage j hj
  by_contra ended
  have idle : ¬ stage.Works := fun works => ended ⟨stage, found, works⟩
  exact kept (u.orderly.dropped j stage found idle s (u.sources found ▸ mine))

theorem audience_after {f : Stage → Stage} (hi : i < gateCount config + 2)
    (heard : n.hub.receivers i ≠ []) (stages : n'.stages = n.stages.modify i f) :
    ∃ j s, j < gateCount config + 3 ∧ s ∈ sourcesOf config j ∧ outletOf config s = i ∧
      n'.Working j := by
  obtain ⟨j, s, hj, hs, outlet, t, found, works⟩ := u.audience laid hi heard
  have apart : j ≠ i := fun same => by
    have := outletOf_lt hj hs
    omega
  exact ⟨j, s, hj, hs, outlet, (working_modify stages).2 ⟨t, found, by rwa [if_neg apart]⟩⟩

variable (pos : 0 < config.firingPeriod.toNat) (finite : config.steps ≠ 0)

include pos finite

theorem count_fire_le (gated : 0 < gateCount config) :
    count n₀ ops (gateCount config + 1) ≤ config.steps.toNat := by
  refine Nat.le_of_not_lt fun more => ?_
  obtain ⟨-, gates⟩ := u.fire_made laid pos (List.getElem?_eq_getElem more)
  obtain ⟨signal, found, isOpen⟩ := gates 1 Nat.one_pos gated
  rw [u.gate_made laid Nat.one_pos gated found, gateOpen_iff finite (Nat.le_refl _)] at isOpen
  exact Nat.lt_irrefl _ isOpen

omit pos in
theorem closed_at (first : 0 < i) (last : i ≤ gateCount config) {pub : Publication}
    (hj : j ≤ config.steps.toNat) (hpub : (made n₀ ops i)[j]? = some pub)
    (closed : pub.payload.isOpen = false) : j = config.steps.toNat := by
  rw [u.gate_made laid first last hpub] at closed
  have := mt (gateOpen_iff finite hj).2 (by simp [closed])
  omega

/-- A stage that somebody hears is at most one round and its pool ahead of the closed gates. -/
theorem lead_heard (gated : 0 < gateCount config) (hj : j < gateCount config + 3)
    (hs : s ∈ sourcesOf config j) (works : n.Working j) :
    count n₀ ops (outletOf config s) ≤ config.steps.toNat + 1 + config.buffers.toNat := by
  have ahead := u.lead laid hj hs works
  have fire := u.count_fire_le laid pos finite gated
  rcases joins_of_mem_sourcesOf hj hs with rfl | rfl
  · omega
  · have mine : gateCount config + 1 ∈ sourcesOf config (gateCount config + 2) :=
      mem_sourcesOf_sink.2 ⟨Nat.le_refl _, by omega⟩
    have short := u.count_le laid hj mine
    rw [outletOf, if_pos (Nat.le_refl _)] at short
    omega

end Underway

/-- A relay that works is at most one round and its pool ahead of the closed gates. -/
def Leads (config : PipelineConfig) (n₀ n : Network) (ops : List Operation) : Prop :=
  ∀ i ≤ gateCount config, n.Working i →
    count n₀ ops i ≤ config.steps.toNat + 1 + config.buffers.toNat

theorem leads_nil (config : PipelineConfig) (n₀ : Network) : Leads config n₀ n₀ [] :=
  fun _ _ _ => Nat.zero_le _

theorem Leads.quiet (leads : Leads config n₀ n ops) (works : ∀ j, n'.Working j → n.Working j)
    (quiet : ∀ op ∈ more, ∀ p blank, op ≠ .publish p blank) : Leads config n₀ n' (ops ++ more) := by
  intro i relay working
  rw [count, made, Hub.publishedBy_quiet_all fun op hop => quiet op hop i]
  exact leads i relay (works i working)

theorem Underway.count_others (u : Underway config n₀.hub ops n) (laid : Planned config n₀) {st : Stage}
    (counters : Counters) (log : List Record) (found : n.stages.get? i = some st) (runs : st.Works)
    (other : j ≠ i) :
    count n₀ (ops ++ (st.asks n.hub ++ [.tally counters log])) j = count n₀ ops j := by
  have within := u.orderly.asks_within counters log found runs
  rw [st.loop.kit_reset, u.reset found, laid.kit_eq (u.within i st found)] at within
  rw [count, made, Hub.publishedBy_quiet_all]
  rintro _ hop blank rfl
  exact other (List.mem_singleton.1 (within _ hop).1)

theorem Leads.advance (leads : Leads config n₀ n ops) (u : Underway config n₀.hub ops n)
    (laid : Planned config n₀) (pos : 0 < config.firingPeriod.toNat) (finite : config.steps ≠ 0)
    (gated : 0 < gateCount config) {st : Stage} {counters : Counters} {log : List Record}
    (found : n.stages.get? i = some st) (runs : st.thread = .running)
    (moves : st.loop.advance n.hub ≠ .blocked)
    (stages : n'.stages = n.stages.modify i fun _ => st.after (st.loop.advance n.hub))
    (u' : Underway config n₀.hub (ops ++ (st.asks n.hub ++ [.tally counters log])) n') :
    Leads config n₀ n' (ops ++ (st.asks n.hub ++ [.tally counters log])) := by
  intro j relay working
  obtain ⟨t, ht, works⟩ := (working_modify stages).1 working
  by_cases here : j = i
  · subst here
    have before := leads j relay ⟨st, found, .inr runs⟩
    rw [if_pos rfl] at works
    cases loop : st.loop with
    | aggregator l => exact absurd relay (Nat.not_le.2 (u.joins found loop))
    | relay l =>
      have r : (Loop.relay l).InRound n₀.hub ops := loop ▸ u.orderly.working j st found (.inr runs)
      have publisher : l.publisher = j := by
        have := u.publisher found
        rwa [loop] at this
      obtain ⟨h', l', step⟩ := running_of_works loop moves works
      rcases RelayLoop.InRound.heard r (u.orderly.hub ▸ step) with quiet | heard
      · rw [count_asks, loop, count, made, Hub.publishedBy_quiet_all]
        · exact before
        · exact fun op hop => quiet op (u.orderly.hub ▸ hop) j
      · rw [← u.orderly.hub, publisher] at heard
        obtain ⟨k, s, hk, hs, outlet, awake⟩ := u.audience_after laid (by omega) heard stages
        exact outlet ▸ u'.lead_heard laid pos finite gated hk hs awake
  · rw [u.count_others laid counters log found (.inr runs) here]
    rw [if_neg here] at works
    exact leads j relay ⟨t, ht, works⟩

end BufferFlow.Pipeline
