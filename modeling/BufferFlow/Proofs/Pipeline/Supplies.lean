import BufferFlow.Proofs.Pipeline.Underway

set_option autoImplicit false

namespace BufferFlow.Pipeline

variable {config : PipelineConfig} {n₀ n : Network} {ops : List Operation} {i j s : Nat}
  {pub : Publication}

abbrev made (n₀ : Network) (ops : List Operation) (stage : Nat) : List Publication :=
  n₀.hub.publishedBy stage ops

theorem Laid.supply_eq (laid : Planned config n₀) (ops : List Operation)
    (hs : s < 2 * gateCount config + 3) :
    n₀.hub.supply s ops = (made n₀ ops (outletOf config s)).map (·.payload) := by
  rw [Hub.supply, Hub.backlog, laid.queueOf hs, Hub.publishedTo, laid.publisherOf? hs]
  rfl

namespace Underway

variable (u : Underway config n₀.hub ops n)

include u

theorem alive_of_working (works : n.Working i) : n.hub.publishers.contains i := by
  obtain ⟨s, found, works⟩ := works
  have alive := (u.orderly.working i s found works).alive
  rwa [← u.orderly.hub, u.publisher found] at alive

theorem working_iff (hi : i < gateCount config + 3) :
    n.Working i ↔ n.hub.publishers.contains i = true := by
  refine ⟨u.alive_of_working, fun alive => ?_⟩
  obtain ⟨s, found, -⟩ := u.stage i hi
  by_cases works : s.Works
  · exact ⟨s, found, works⟩
  · have dead := u.orderly.closed i s found works
    rw [u.publisher found, alive] at dead
    simp at dead

theorem recorded (hi : i < gateCount config + 3) : (loopOf config i).Recorded n₀.hub ops := by
  obtain ⟨s, found, reset, -⟩ := u.stage i hi
  rw [← reset, Loop.recorded_reset]
  exact u.orderly.recorded i s found

theorem kept (works : n.Working i) (hs : s ∈ sourcesOf config i) : .dropSubscription s ∉ ops := by
  obtain ⟨stage, found, works⟩ := works
  exact (u.orderly.working i stage found works).kept s (u.sources found ▸ hs)

variable (laid : Planned config n₀)

include laid

theorem extent_made (hi : i < gateCount config + 3) :
    ∀ pub ∈ made n₀ ops i, pub.payload.extent = extentOf config i :=
  Hub.publishedBy_extent u.fits fun r v pool shown => by
    rw [laid.extent r v shown, Option.some.inj (pool.symm.trans (laid.publisher i hi))]

theorem exchange_made (pos : 0 < config.firingPeriod.toNat) (hpub : (made n₀ ops 0)[j]? = some pub) :
    pub.payload = .exchange (exchangeAt config j) := by
  have recorded := u.recorded (i := 0) (by omega)
  have extent := u.extent_made laid (i := 0) (by omega) pub (List.mem_of_getElem? hpub)
  rw [loopOf, if_pos rfl] at recorded
  obtain ⟨old, filled⟩ := recorded j pub hpub
  exact exchange_filled pos filled (extent.trans (if_pos rfl))

theorem gate_made (first : 0 < i) (last : i ≤ gateCount config)
    (hpub : (made n₀ ops i)[j]? = some pub) : pub.payload.isOpen = config.gateOpen j.toUInt64 := by
  have recorded := u.recorded (i := i) (by omega)
  have extent := u.extent_made laid (i := i) (by omega) pub (List.mem_of_getElem? hpub)
  rw [loopOf, if_neg (by omega), if_pos last] at recorded
  rw [extentOf, if_neg (by omega), if_pos last] at extent
  obtain ⟨old, filled⟩ := recorded j pub hpub
  have same := fillGate_extent config j old
  have value : (fillGate config j old).payload = pub.payload := congrArg (·.payload) filled
  rw [value, extent] at same
  rw [← value]
  cases old with
  | signal v => rfl
  | _ => simp [Payload.extent] at same

theorem derived (hi : i < gateCount config + 3) {l : AggregatorLoop}
    (loop : loopOf config i = .aggregator l) (hpub : (made n₀ ops i)[j]? = some pub) :
    (∃ source old, (made n₀ ops (outletOf config l.primary))[j]? = some source ∧
      l.transform j source.payload old = ⟨pub.payload, none⟩) ∧
    ∀ g ∈ l.gates, ∃ signal, (made n₀ ops (outletOf config g))[j]? = some signal ∧
      signal.payload.isOpen = true := by
  have supplied : ∀ t ∈ l.sources, ∀ v, (n₀.hub.supply t ops)[j]? = some v →
      ∃ source, (made n₀ ops (outletOf config t))[j]? = some source ∧ source.payload = v := by
    intro t ht v hv
    have member : t ∈ sourcesOf config i := by rw [sourcesOf, loop]; exact ht
    rw [laid.supply_eq ops (sourcesOf_given hi member), List.getElem?_map] at hv
    exact Option.map_eq_some_iff.1 hv
  have recorded := u.recorded hi
  have named : l.publisher = i := by
    have := publisher_loopOf config i
    rwa [loop] at this
  rw [loop] at recorded
  obtain ⟨v, old, hv, transformed, gates⟩ := recorded j pub (named ▸ hpub)
  obtain ⟨source, hsource, rfl⟩ := supplied l.primary List.mem_cons_self v hv
  refine ⟨⟨source, old, hsource, transformed⟩, fun g hg => ?_⟩
  obtain ⟨w, hw, isOpen⟩ := gates g hg
  obtain ⟨signal, hsignal, rfl⟩ := supplied g (List.mem_cons_of_mem _ hg) w hw
  exact ⟨signal, hsignal, isOpen⟩

theorem fire_made (pos : 0 < config.firingPeriod.toNat)
    (hpub : (made n₀ ops (gateCount config + 1))[j]? = some pub) :
    pub.payload = .fire ⟨(exchangeAt config j).words, j.toUInt64⟩ ∧
      ∀ g, 0 < g → g ≤ gateCount config → ∃ signal, (made n₀ ops g)[j]? = some signal ∧
        signal.payload.isOpen = true := by
  obtain ⟨⟨source, old, hsource, derived⟩, gates⟩ :=
    u.derived laid (by omega) (loopOf_fire config) hpub
  have extent := u.extent_made laid (by omega) pub (List.mem_of_getElem? hpub)
  rw [extentOf, if_neg (by omega), if_neg (by omega), if_pos rfl] at extent
  have exchange := u.exchange_made laid pos (hsource : (made n₀ ops 0)[j]? = some source)
  rw [exchange] at derived
  refine ⟨fire_derived derived pos extent, fun g first last => ?_⟩
  have found := gates g (List.mem_map.2 ⟨g - 1, List.mem_range.2 (by omega), by omega⟩)
  rwa [outletOf, if_pos (by omega)] at found

theorem report_made (pos : 0 < config.firingPeriod.toNat)
    (hpub : (made n₀ ops (gateCount config + 2))[j]? = some pub) :
    j < (made n₀ ops (gateCount config + 1)).length ∧ (firingsAt config j < 2 ^ 32 →
      ∃ b ones, pub.payload = .sink b ∧ b.countOnes = .ok ones ∧ ones.toNat = firingsAt config j) := by
  obtain ⟨⟨source, old, hsource, derived⟩, -⟩ :=
    u.derived laid (by omega) (loopOf_sink config) hpub
  have extent := u.extent_made laid (by omega) pub (List.mem_of_getElem? hpub)
  rw [extentOf, if_neg (by omega), if_neg (by omega), if_neg (by omega)] at extent
  rw [outletOf, if_pos (Nat.le_refl _)] at hsource
  obtain ⟨fire, -⟩ := u.fire_made laid pos hsource
  rw [fire] at derived
  change collectFire j _ old = _ at derived
  exact ⟨(List.getElem?_eq_some_iff.1 hsource).1, report_counts pos derived extent⟩

theorem named (hs : s < 2 * gateCount config + 3) (kept : .dropSubscription s ∉ ops) :
    n.hub.subscriptions.contains s ∧
      ((n.Working (outletOf config s) ∧ n.hub.publisherOf? s = some (outletOf config s)) ∨
        (¬ n.Working (outletOf config s) ∧ n.hub.publisherOf? s = none)) := by
  have hp : outletOf config s < gateCount config + 3 := outletOf_given hs
  obtain ⟨sub, found, -, ⟨-, follows⟩, -⟩ :=
    Hub.departed_append_queue laid.reached.sound (laid.subscription s hs)
      ⟨laid.publisherCount ▸ hp, .inl rfl⟩ kept
  have sound := laid.reached.sound.applyAll ops
  rw [← u.orderly.hub] at found follows sound
  have publisher : n.hub.publisherOf? s = sub.publisher := by rw [Hub.publisherOf?, found]; rfl
  refine ⟨Hub.contains_of_get? found, ?_⟩
  rw [u.working_iff hp, publisher]
  rcases follows with here | ⟨gone, dead⟩
  · exact .inl ⟨sound.enrolled.alive s _ (publisher.trans here), here⟩
  · exact .inr ⟨by simp [dead], gone⟩

theorem pool_made (hi : i < gateCount config + 3)
    (hpub : pub ∈ made n₀ ops i) : pub.ref.pool = i := by
  obtain ⟨past, named⟩ := List.mem_filter.1 hpub
  obtain rfl := of_decide_eq_true named
  exact Option.some.inj ((Hub.history_pool u.fits pub past).symm.trans (laid.publisher _ hi))

/-- What left a subscription and what is queued is what its stage has published, in order. -/
theorem brought (hs : s < 2 * gateCount config + 3) (kept : .dropSubscription s ∉ ops) :
    n₀.hub.departed s ops ++ n.hub.queueOf s =
      (made n₀ ops (outletOf config s)).map (·.copy false) := by
  have order := Hub.departed_append_queueOf laid.reached.sound (laid.subscription s hs) kept
  rw [Hub.publishedTo, laid.publisherOf? hs, ← u.orderly.hub] at order
  exact order

theorem pool_brought {c : Copy} (hs : s < 2 * gateCount config + 3)
    (kept : .dropSubscription s ∉ ops) (hc : c ∈ n₀.hub.departed s ops ++ n.hub.queueOf s) :
    c.ref.pool = outletOf config s := by
  rw [u.brought laid hs kept] at hc
  obtain ⟨pub, hpub, rfl⟩ := List.mem_map.1 hc
  exact u.pool_made laid (outletOf_given hs) hpub

theorem heard (hs : s < 2 * gateCount config + 3) (kept : .dropSubscription s ∉ ops)
    (works : n.Working (outletOf config s)) : s ∈ n.hub.receivers (outletOf config s) := by
  have sound := laid.reached.sound.applyAll ops
  rw [← u.orderly.hub] at sound
  rw [Hub.mem_receivers sound.enrolled]
  rcases (u.named laid hs kept).2 with ⟨-, named⟩ | ⟨idle, -⟩
  · exact named
  · exact absurd works idle

end Underway

end BufferFlow.Pipeline
