import BufferFlow.Proofs.Orderly
import BufferFlow.Proofs.Pipeline.Layout
import BufferFlow.Proofs.Stage.Zip

set_option autoImplicit false

namespace BufferFlow.Pipeline

variable {config : PipelineConfig} {n₀ n n' : Network} {ops more : List Operation} {i j s : Nat}

abbrev sourcesOf (config : PipelineConfig) (stage : Nat) : List Nat := (loopOf config stage).sources

theorem loopOf_relay (hi : i ≤ gateCount config) :
    ∃ fill, loopOf config i = .relay { publisher := i, fill } := by
  rw [loopOf]
  split
  · rename_i first
    exact ⟨_, by rw [first]⟩
  · exact ⟨_, rfl⟩

theorem sourcesOf_relay (hi : i ≤ gateCount config) : sourcesOf config i = [] := by
  obtain ⟨fill, same⟩ := loopOf_relay hi
  rw [sourcesOf, same]
  rfl

theorem mem_sourcesOf_fire : s ∈ sourcesOf config (gateCount config + 1) ↔ s ≤ gateCount config := by
  rw [sourcesOf, loopOf_fire, Loop.sources, AggregatorLoop.sources]
  simp only [List.mem_cons, List.mem_map, List.mem_range]
  constructor
  · rintro (rfl | ⟨i, hi, rfl⟩) <;> omega
  · intro hs
    by_cases first : s = 0
    · exact .inl first
    · exact .inr ⟨s - 1, by omega, by omega⟩

theorem mem_sourcesOf_sink : s ∈ sourcesOf config (gateCount config + 2) ↔
    gateCount config + 1 ≤ s ∧ s ≤ 2 * gateCount config + 1 := by
  rw [sourcesOf, loopOf_sink, Loop.sources, AggregatorLoop.sources]
  simp only [List.mem_cons, List.mem_map, List.mem_range]
  constructor
  · rintro (rfl | ⟨i, hi, rfl⟩) <;> omega
  · intro hs
    by_cases first : s = gateCount config + 1
    · exact .inl first
    · exact .inr ⟨s - (gateCount config + 2), by omega, by omega⟩

theorem joins_of_mem_sourcesOf (hi : i < gateCount config + 3) (hs : s ∈ sourcesOf config i) :
    i = gateCount config + 1 ∨ i = gateCount config + 2 := by
  by_cases relay : i ≤ gateCount config
  · simp [sourcesOf_relay relay] at hs
  · omega

theorem sourcesOf_lt (hi : i < gateCount config + 3) (hs : s ∈ sourcesOf config i) :
    s < 2 * gateCount config + 2 := by
  rcases joins_of_mem_sourcesOf hi hs with rfl | rfl
  · have := mem_sourcesOf_fire.1 hs
    omega
  · have := (mem_sourcesOf_sink.1 hs).2
    omega

theorem sourcesOf_given (hi : i < gateCount config + 3) (hs : s ∈ sourcesOf config i) :
    s < 2 * gateCount config + 3 :=
  Nat.lt_succ_of_lt (sourcesOf_lt hi hs)

theorem sourcesOf_disjoint (hi : i < gateCount config + 3) (hj : j < gateCount config + 3)
    (hij : i ≠ j) : (sourcesOf config i).Disjoint (sourcesOf config j) := by
  intro s hs ht
  rcases joins_of_mem_sourcesOf hi hs with rfl | rfl <;>
    rcases joins_of_mem_sourcesOf hj ht with rfl | rfl
  · exact hij rfl
  · have := mem_sourcesOf_fire.1 hs
    have := (mem_sourcesOf_sink.1 ht).1
    omega
  · have := (mem_sourcesOf_sink.1 hs).1
    have := mem_sourcesOf_fire.1 ht
    omega
  · exact hij rfl

theorem sourcesOf_nodup (hi : i < gateCount config + 3) : (sourcesOf config i).Nodup := by
  by_cases relay : i ≤ gateCount config
  · rw [sourcesOf_relay relay]
    exact List.nodup_nil
  have numbered : ∀ k, ((List.range (gateCount config)).map (· + k)).Nodup := fun k =>
    List.nodup_range.map fun a b hab => Nat.add_right_cancel hab
  by_cases fire : i = gateCount config + 1
  · rw [fire, sourcesOf, loopOf_fire]
    refine List.nodup_cons.2 ⟨fun hm => ?_, numbered 1⟩
    obtain ⟨k, -, hk⟩ := List.mem_map.1 hm
    exact Nat.succ_ne_zero k hk
  · obtain rfl : i = gateCount config + 2 := by omega
    rw [sourcesOf, loopOf_sink]
    refine List.nodup_cons.2 ⟨fun hm => ?_, numbered _⟩
    obtain ⟨k, -, hk⟩ := List.mem_map.1 hm
    have first : k + (gateCount config + 2) = gateCount config + 1 := hk
    omega

theorem publisher_loopOf (config : PipelineConfig) (i : Nat) : (loopOf config i).publisher = i := by
  rw [loopOf]
  split
  · exact Eq.symm ‹_›
  · split
    · rfl
    · split <;> rfl

theorem reset_loopOf (config : PipelineConfig) (i : Nat) :
    (loopOf config i).reset = loopOf config i := by
  rw [loopOf]
  split
  · rfl
  · split
    · rfl
    · split <;> rfl

theorem outletOf_lt (hi : i < gateCount config + 3) (hs : s ∈ sourcesOf config i) :
    outletOf config s < i := by
  rcases joins_of_mem_sourcesOf hi hs with rfl | rfl
  · have := mem_sourcesOf_fire.1 hs
    rw [outletOf]
    split <;> omega
  · have := mem_sourcesOf_sink.1 hs
    rw [outletOf]
    split
    · omega
    · split <;> omega

theorem outletOf_given : s < 2 * gateCount config + 3 → outletOf config s < gateCount config + 3 := by
  intro given
  rw [outletOf]
  split
  · omega
  · split <;> omega

/-- What the reader works with: its subscription, which brings it reports. -/
def readerKit (config : PipelineConfig) : Kit where
  subscriptions := [2 * gateCount config + 2]
  senders := [gateCount config + 2]

/-- The stage whose buffers a stage may keep in hand. -/
def upstreamOf (config : PipelineConfig) (stage : Nat) : Option Nat :=
  if stage = gateCount config + 1 then some 0
  else if stage = gateCount config + 2 then some (gateCount config + 1)
  else none

abbrev Planned (config : PipelineConfig) (n₀ : Network) : Prop :=
  Laid config n₀ (gateCount config + 3) (2 * gateCount config + 3) 2

namespace Laid

variable (laid : Planned config n₀)

include laid

theorem publisherOf? (hs : s < 2 * gateCount config + 3) :
    n₀.hub.publisherOf? s = some (outletOf config s) := by
  rw [Hub.publisherOf?, laid.subscription s hs]
  rfl

theorem queueOf (hs : s < 2 * gateCount config + 3) : n₀.hub.queueOf s = [] := by
  rw [Hub.queueOf, laid.subscription s hs]
  rfl

theorem armedOf? (s : Nat) : n₀.hub.armedOf? s = none := by
  by_cases hs : s < 2 * gateCount config + 3
  · rw [Hub.armedOf?, laid.subscription s hs]
    rfl
  · have absent : n₀.hub.subscriptions.get? s = none :=
      Table.get?_of_le (by rw [laid.subscriptionCount]; omega)
    rw [Hub.armedOf?, absent]
    rfl

theorem kit_eq (hi : i < gateCount config + 3) : (loopOf config i).kit n₀.hub =
    { publishers := [i], pools := [i], subscriptions := sourcesOf config i,
      mailboxes := if i ≤ gateCount config then [] else [i - (gateCount config + 1)]
      senders := (sourcesOf config i).map (outletOf config)
      retained := (upstreamOf config i).toList } := by
  have pool : (n₀.hub.poolOf? i).toList = [i] := by rw [laid.publisher i hi]; rfl
  have senders : (sourcesOf config i).filterMap n₀.hub.publisherOf? =
      (sourcesOf config i).map (outletOf config) := by
    rw [← List.filterMap_eq_map]
    exact List.filterMap_congr fun s hs => laid.publisherOf? (sourcesOf_given hi hs)
  by_cases relay : i ≤ gateCount config
  · obtain ⟨fill, same⟩ := loopOf_relay relay
    rw [same, Loop.kit, RelayLoop.kit, pool, sourcesOf_relay relay, if_pos relay, upstreamOf,
      if_neg (by omega), if_neg (by omega)]
    rfl
  rw [if_neg relay]
  by_cases fire : i = gateCount config + 1
  · have first := laid.publisherOf? (s := 0) (by omega)
    subst fire
    rw [upstreamOf, if_pos rfl, ← senders]
    rw [sourcesOf, loopOf_fire, Loop.kit, AggregatorLoop.kit, Loop.sources, pool, first]
    simp [AggregatorPhase.cells, outletOf]
  · obtain rfl : i = gateCount config + 2 := by omega
    have first := laid.publisherOf? (s := gateCount config + 1) (by omega)
    rw [upstreamOf, if_neg (by omega), if_pos rfl, ← senders]
    rw [sourcesOf, loopOf_sink, Loop.kit, AggregatorLoop.kit, Loop.sources, pool, first]
    simp [AggregatorPhase.cells, outletOf]

theorem kits_apart (hi : i < gateCount config + 3) (hj : j < gateCount config + 3) (hij : i ≠ j) :
    ((loopOf config i).kit n₀.hub).Apart ((loopOf config j).kit n₀.hub) := by
  rw [laid.kit_eq hi, laid.kit_eq hj]
  have numbers : [i].Disjoint [j] := List.disjoint_singleton.2 fun hm => hij (List.mem_singleton.1 hm).symm
  refine ⟨numbers, numbers, sourcesOf_disjoint hi hj hij, ?_, List.disjoint_nil_left _, ?_⟩
  · dsimp only
    split
    · exact List.disjoint_nil_left _
    · split
      · exact List.disjoint_nil_right _
      · refine List.disjoint_singleton.2 fun hm => ?_
        have := List.mem_singleton.1 hm
        omega
  · -- Nobody but a stage itself is sent what it keeps in hand.
    intro p hp hq
    obtain ⟨t, ht, rfl⟩ := List.mem_map.1 hp
    dsimp only at hq
    rw [upstreamOf] at hq
    rcases joins_of_mem_sourcesOf hi ht with rfl | rfl
    · have := outletOf_lt hi ht
      split at hq
      · omega
      · split at hq
        · have := List.mem_singleton.1 hq
          omega
        · simp at hq
    · have := mem_sourcesOf_sink.1 ht
      split at hq
      · have := List.mem_singleton.1 hq
        rw [outletOf] at this
        split at this
        · omega
        · split at this <;> omega
      · split at hq
        · omega
        · simp at hq

theorem reader_apart (hi : i < gateCount config + 3) :
    (readerKit config).Apart ((loopOf config i).kit n₀.hub) := by
  rw [laid.kit_eq hi]
  refine ⟨List.disjoint_nil_left _, List.disjoint_nil_left _, ?_, List.disjoint_nil_left _,
    List.disjoint_nil_left _, ?_⟩
  · intro s hs ht
    obtain rfl := List.mem_singleton.1 hs
    have := sourcesOf_lt hi ht
    omega
  · intro p hp hq
    obtain rfl := List.mem_singleton.1 hp
    dsimp only at hq
    rw [upstreamOf] at hq
    split at hq
    · simp at hq
    · split at hq <;> simp at hq

theorem seated (hi : i < gateCount config + 3) : (loopOf config i).Seated n₀.hub := by
  refine ⟨?_, fun s hs => ?_, fun b hb => ?_⟩
  · obtain ⟨P, hP, -⟩ := Option.map_eq_some_iff.1 (laid.publisher i hi)
    rw [publisher_loopOf, Table.contains, hP]
    rfl
  · exact laid.queueOf (sourcesOf_given hi hs)
  · have nothing : (loopOf config i).reset.blank? = none := by cases loopOf config i <;> rfl
    rw [reset_loopOf, hb] at nothing
    simp at nothing

theorem contains_publisher (hi : i < gateCount config + 3) : n₀.hub.publishers.contains i := by
  have known := (laid.seated hi).known
  rwa [publisher_loopOf] at known

theorem inRound (hi : i < gateCount config + 3) : (loopOf config i).InRound n₀.hub [] := by
  have sound := laid.reached.sound
  have alive := laid.contains_publisher hi
  by_cases relay : i ≤ gateCount config
  · obtain ⟨fill, same⟩ := loopOf_relay relay
    rw [same]
    exact ⟨⟨sound, alive, fun j pub hpub => by simp [Hub.publishedBy, Hub.history] at hpub, rfl⟩,
      trivial⟩
  have start : ∀ l : AggregatorLoop, loopOf config i = .aggregator l → l.calls = 0 →
      l.phase = .arming [] → l.mailbox < 2 → l.InRound n₀.hub [] := by
    intro l same calls phase mailbox
    have sources : l.sources = sourcesOf config i := by rw [sourcesOf, same]; rfl
    have publisher : l.publisher = i := by
      have := publisher_loopOf config i
      rwa [same] at this
    refine .start sound ?_ ?_ ?_ (publisher ▸ alive) (laid.mailbox _ mailbox)
      (fun s a armed => ?_) calls phase
    · rw [sources]
      exact sourcesOf_nodup hi
    · rw [sources]
      intro s hs
      exact ⟨_, laid.subscription s (sourcesOf_given hi hs), rfl⟩
    · rw [sources, publisher]
      intro s hs named
      rw [laid.publisherOf? (sourcesOf_given hi hs)] at named
      have := outletOf_lt hi hs
      have := Option.some.inj named
      omega
    · rw [laid.armedOf? s] at armed
      simp at armed
  by_cases fire : i = gateCount config + 1
  · subst fire
    rw [loopOf_fire]
    exact start _ (loopOf_fire config) rfl rfl (Nat.succ_pos 1)
  · obtain rfl : i = gateCount config + 2 := by omega
    rw [loopOf_sink]
    exact start _ (loopOf_sink config) rfl rfl (Nat.lt_succ_self 1)

theorem orderly : n₀.Orderly n₀.hub [] := by
  have stage : ∀ (i : Nat) s, n₀.stages.get? i = some s →
      i < gateCount config + 3 ∧ s.loop = loopOf config i ∧ s.Works := by
    intro i s found
    have hi : i < gateCount config + 3 := laid.stageCount ▸ Table.get?_lt found
    obtain ⟨name, -, same⟩ := laid.stage i hi
    obtain rfl := Option.some.inj (found.symm.trans same)
    exact ⟨hi, rfl, .inl rfl⟩
  refine .of_inOrder rfl (fun i s found => ?_) fun i j s t hij hs ht _ _ => ?_
  · obtain ⟨hi, loop, works⟩ := stage i s found
    exact .ofRound (loop ▸ laid.seated hi) (loop ▸ laid.inRound hi) works
  · obtain ⟨hi, loop, -⟩ := stage i s hs
    obtain ⟨hj, loop', -⟩ := stage j t ht
    rw [loop, loop']
    exact laid.kits_apart hi hj hij

end Laid

end BufferFlow.Pipeline
