import BufferFlow.Proofs.Building
import BufferFlow.Proofs.Description
import BufferFlow.Proofs.Hub.Extents
import BufferFlow.Proofs.Hub.Turnover
import BufferFlow.Proofs.Stage.Names
import BufferFlow.Pipeline

set_option autoImplicit false

namespace BufferFlow.Pipeline

variable {config : PipelineConfig} {n n' : Network} {k m b stage : Nat}

abbrev gateCount (config : PipelineConfig) : Nat := config.gates.toNat

def outletOf (config : PipelineConfig) (s : Nat) : Nat :=
  if s ≤ gateCount config + 1 then s
  else if s ≤ 2 * gateCount config + 1 then s - (gateCount config + 1)
  else gateCount config + 2

/-- The loop of a stage as it is made. -/
def loopOf (config : PipelineConfig) (stage : Nat) : Loop :=
  if stage = 0 then .relay { publisher := 0, fill := fillExchange config.firingPeriod.toNat }
  else if stage ≤ gateCount config then .relay { publisher := stage, fill := fillGate config }
  else if stage = gateCount config + 1 then
    .aggregator
      { publisher := stage, primary := 0, gates := (List.range (gateCount config)).map (· + 1)
        transform := deriveFire, mailbox := 0 }
  else
    .aggregator
      { publisher := stage, primary := gateCount config + 1
        gates := (List.range (gateCount config)).map (· + (gateCount config + 2))
        transform := collectFire, mailbox := 1 }

def extentOf (config : PipelineConfig) (pool : Nat) : Payload.Kind × Nat × Nat :=
  if pool = 0 then (.exchange, config.vectorSize.toNat, Bits.numWords config.vectorSize.toNat)
  else if pool ≤ gateCount config then (.signal, 0, 0)
  else if pool = gateCount config + 1 then (.fire, 0, Bits.numWords config.vectorSize.toNat)
  else (.sink, 0, Bits.numWords config.vectorSize.toNat * 8)

def partsOf (config : PipelineConfig) : Parts where
  reports := 2 * gateCount config + 2
  sink := gateCount config + 2
  fire := gateCount config + 1
  gates := (List.range (gateCount config)).map (· + 1)
  exchange := 0

/-- A network in which so many stages, subscriptions and mailboxes are as planned, and there is
nothing else. -/
structure Laid (config : PipelineConfig) (n : Network) (stages subs mailboxes : Nat) : Prop where
  reached : n.hub.Reachable
  stageCount : n.stages.next = stages
  stage : ∀ i < stages, ∃ name, (∀ c ∈ name.toList, c ≠ '\x00') ∧
    n.stages.get? i = some { name, outlet := i, loop := loopOf config i }
  poolCount : n.hub.pools.next = stages
  publisherCount : n.hub.publishers.next = stages
  publisher : ∀ i < stages, n.hub.poolOf? i = some i
  subscriptionCount : n.hub.subscriptions.next = subs
  subscription : ∀ s < subs, n.hub.subscriptions.get? s =
    some { erased := false, publisher := some (outletOf config s) }
  mailboxCount : n.hub.mailboxes.next = mailboxes
  mailbox : ∀ i < mailboxes, n.hub.failedAt? i = some false
  extent : ∀ r v, n.hub.payload? r = some v → v.extent = extentOf config r.pool
  roomy : ∀ i < stages, (n.hub.slot? ⟨i, 0⟩).isSome
  sized : ∀ i < stages, n.hub.capacityOf? i = some config.buffers.toNat
  unused : n.hub.serial = 0 ∧ n.hub.blanks = [] ∧ n.hub.cells = {}

theorem laid_empty (config : PipelineConfig) : Laid config {} 0 0 0 := by
  refine ⟨⟨[], rfl⟩, rfl, ?_, rfl, rfl, ?_, rfl, ?_, rfl, ?_, ?_, ?_, ?_, ⟨rfl, rfl, rfl⟩⟩
  · exact fun i hi => absurd hi (Nat.not_lt_zero i)
  · exact fun i hi => absurd hi (Nat.not_lt_zero i)
  · exact fun i hi => absurd hi (Nat.not_lt_zero i)
  · exact fun i hi => absurd hi (Nat.not_lt_zero i)
  · exact fun r v shown => by simp [Hub.payload?, Hub.slot?, Table.get?] at shown
  · exact fun i hi => absurd hi (Nat.not_lt_zero i)
  · exact fun i hi => absurd hi (Nat.not_lt_zero i)

theorem payload?_newPool {h : Hub} {name : String} {capacity : Nat} {factory : Payload.Factory}
    {pool : Pool} {r : SlotRef} {v : Payload} (made : Pool.new name capacity factory = .ok pool)
    (shown : ({ h with pools := (h.pools.insert pool).2 } : Hub).payload? r = some v) :
    r.pool = h.pools.next ∧ (∃ i, factory.make i = .ok v) ∨ h.payload? r = some v := by
  rw [Hub.payload?] at shown
  obtain ⟨slot, hslot, rfl⟩ := Option.map_eq_some_iff.1 shown
  obtain ⟨p, hp, found⟩ := Hub.slot?_eq_some.1 hslot
  rw [Table.get?_insert] at hp
  split at hp
  · rename_i here
    obtain rfl := Option.some.inj hp
    exact .inl ⟨here, ((Pool.new_untouched made).fresh slot (Array.mem_of_getElem? found)).made⟩
  · refine .inr ?_
    rw [Hub.payload?, Hub.slot?_eq_some.2 ⟨p, hp, found⟩]
    rfl

theorem slot?_newPool {h : Hub} {name : String} {capacity : Nat} {factory : Payload.Factory}
    {pool : Pool} (made : Pool.new name capacity factory = .ok pool) :
    (({ h with pools := (h.pools.insert pool).2 } : Hub).slot? ⟨h.pools.next, 0⟩).isSome := by
  have positive : capacity ≠ 0 := by
    rintro rfl
    simp [Pool.new] at made
  have size := (Pool.new_untouched made).size
  have some_slot : 0 < pool.slots.size := by omega
  rw [Hub.slot?, Table.get?_insert, if_pos rfl]
  simp [some_slot]

theorem slot?_insert {h : Hub} {pool : Pool} {r : SlotRef} (present : (h.slot? r).isSome) :
    (({ h with pools := (h.pools.insert pool).2 } : Hub).slot? r).isSome := by
  obtain ⟨slot, hs⟩ := Option.isSome_iff_exists.1 present
  obtain ⟨p, hp, -⟩ := Hub.slot?_eq_some.1 hs
  rw [Hub.slot?, Table.get?_insert, if_neg (Nat.ne_of_lt (Table.get?_lt hp))]
  exact present

theorem Laid.addStage (laid : Laid config n k m b) {name : String}
    {factory : Payload.Factory} {pool : Pool} {log : List Record} {mailboxes : Table Mailbox}
    {b' : Nat} (made : Pool.new name config.buffers.toNat factory = .ok pool)
    (proper : ∀ c ∈ name.toList, c ≠ '\x00')
    (extent : ∀ i v, factory.make i = .ok v → v.extent = extentOf config k)
    (reached : ({ n.hub.furnish name pool log with mailboxes } : Hub).Reachable)
    (mailboxCount : mailboxes.next = b')
    (mailbox : ∀ i < b', (mailboxes.get? i).map (·.failed) = some false) :
    Laid config ⟨{ n.hub.furnish name pool log with mailboxes },
      (n.stages.insert { name, outlet := k, loop := loopOf config k }).2⟩ (k + 1) m b' := by
  refine ⟨reached, congrArg (· + 1) laid.stageCount, fun i hi => ?_,
    congrArg (· + 1) laid.poolCount, congrArg (· + 1) laid.publisherCount, fun i hi => ?_,
    laid.subscriptionCount, laid.subscription, mailboxCount, mailbox, fun r v shown => ?_,
    fun i hi => ?_, fun i hi => ?_, laid.unused⟩
  · rw [Table.get?_insert, laid.stageCount]
    split
    · rename_i here
      exact ⟨name, proper, by rw [here]⟩
    · exact laid.stage i (by omega)
  · change ((n.hub.publishers.insert _).2.get? i).map (·.pool) = some i
    rw [Table.get?_insert, laid.publisherCount]
    split
    · rename_i here
      rw [Option.map_some, laid.poolCount, here]
    · exact laid.publisher i (by omega)
  · rcases payload?_newPool made (h := n.hub) shown with ⟨here, i, made⟩ | before
    · rw [here, laid.poolCount]
      exact extent i v made
    · exact laid.extent r v before
  · by_cases here : i = k
    · rw [here, ← laid.poolCount]
      exact slot?_newPool made
    · exact slot?_insert (laid.roomy i (by omega))
  · change ((n.hub.pools.insert pool).2.get? i).map (·.slots.size) = _
    rw [Table.get?_insert, laid.poolCount]
    split
    · rw [Option.map_some, (Pool.new_untouched made).size]
    · exact laid.sized i (by omega)

theorem Laid.newRelay (laid : Laid config n k m b) {name : String}
    {factory : Payload.Factory} {fill : Filler}
    (made : n.newRelay name config.buffers.toNat factory fill = .ok (stage, n'))
    (proper : ∀ c ∈ name.toList, c ≠ '\x00')
    (extent : ∀ i v, factory.make i = .ok v → v.extent = extentOf config k)
    (planned : loopOf config k = .relay { publisher := k, fill }) :
    stage = k ∧ Laid config n' (k + 1) m b := by
  obtain ⟨pool, log, fresh, rfl, rfl⟩ := Network.newRelay_eq_ok made
  refine ⟨laid.stageCount, ?_⟩
  have reached : (n.hub.furnish name pool log).Reachable := by
    rw [Hub.furnish_eq fresh]
    exact laid.reached.applyAll _
  have added := laid.addStage fresh proper extent reached laid.mailboxCount laid.mailbox
  rw [planned] at added
  rw [laid.publisherCount]
  exact added

theorem Laid.equip (laid : Laid config n k m b) {name : String}
    {factory : Payload.Factory} {pool : Pool} {log : List Record} {primary : Nat} {gates : List Nat}
    {transform : Transform} (fresh : Pool.new name config.buffers.toNat factory = .ok pool)
    (proper : ∀ c ∈ name.toList, c ≠ '\x00')
    (extent : ∀ i v, factory.make i = .ok v → v.extent = extentOf config k)
    (planned : loopOf config k =
      .aggregator { publisher := k, primary, gates, transform, mailbox := b }) :
    Laid config ⟨n.hub.equip name pool log, (n.stages.insert
      { name, outlet := n.hub.publishers.next
        loop := .aggregator (n.nextLoop primary gates transform) }).2⟩ (k + 1) m (b + 1) := by
  have reached : (n.hub.equip name pool log).Reachable := by
    rw [Hub.equip_eq fresh]
    exact laid.reached.applyAll _
  have added := laid.addStage fresh proper extent reached
    (show _ = b + 1 from congrArg (· + 1) laid.mailboxCount) fun i hi => by
      rw [Table.get?_insert, laid.mailboxCount]
      split
      · rfl
      · exact laid.mailbox i (by omega)
  rw [planned] at added
  rw [Network.nextLoop, laid.publisherCount, laid.mailboxCount]
  exact added

theorem Laid.newAggregator (laid : Laid config n k m b) {name : String}
    {factory : Payload.Factory} {primary : Nat} {gates : List Nat} {transform : Transform}
    (made : n.newAggregator name config.buffers.toNat factory primary gates transform = (.ok stage, n'))
    (proper : ∀ c ∈ name.toList, c ≠ '\x00')
    (extent : ∀ i v, factory.make i = .ok v → v.extent = extentOf config k)
    (planned : loopOf config k =
      .aggregator { publisher := k, primary, gates, transform, mailbox := b }) :
    stage = k ∧ Laid config n' (k + 1) m (b + 1) := by
  obtain ⟨pool, log, fresh, rfl, rfl⟩ := Network.newAggregator_eq_ok made
  exact ⟨laid.stageCount, laid.equip fresh proper extent planned⟩

theorem Laid.newSink (laid : Laid config n k m b) {name : String} {description : Description}
    {primary : Nat} {gates : List Nat} {transform : Transform}
    (made : n.newSink name description config.buffers.toNat primary gates transform = (.ok stage, n'))
    (proper : ∀ c ∈ name.toList, c ≠ '\x00')
    (extent : ∀ i v, (Payload.Shape.sink description).factory.make i = .ok v →
      v.extent = extentOf config k)
    (planned : loopOf config k =
      .aggregator { publisher := k, primary, gates, transform, mailbox := b }) :
    stage = k ∧ Laid config n' (k + 1) m (b + 1) := by
  obtain ⟨pool, log, fresh, rfl, rfl⟩ := Network.newSink_eq_ok made
  exact ⟨laid.stageCount, laid.equip fresh proper extent planned⟩

theorem Laid.subscribe (laid : Laid config n k m b) (given : stage < k)
    (planned : outletOf config m = stage) :
    (n.subscribe stage false).1 = m ∧ Laid config (n.subscribe stage false).2 k (m + 1) b := by
  obtain ⟨name, -, found⟩ := laid.stage stage given
  have same : n.subscribe stage false = ((n.hub.subscribe stage false).1,
      { n with hub := n.hub.apply (.subscribe stage false) }) := by
    rw [Network.subscribe, found]
    rfl
  have named := laid.publisher stage given
  obtain ⟨P, hP, -⟩ := Option.map_eq_some_iff.1 named
  rw [same]
  rcases Hub.subscribe_cases n.hub stage false with ⟨new, ⟨gone, -⟩ | ⟨Q, counters, log, hQ, after⟩⟩
  · simp [gone] at hP
  have pools : ∀ i, i < k → (n.hub.apply (.subscribe stage false)).poolOf? i = some i := by
    intro i hi
    have before := laid.publisher i hi
    obtain ⟨R, hR, -⟩ := Option.map_eq_some_iff.1 before
    have kept : Operation.subscribe stage false ≠ .dropPublisher i := nofun
    rw [(Hub.poolOf?_apply (Table.get?_lt hR) kept).1, before]
  refine ⟨new.trans laid.subscriptionCount, laid.reached.applyAll [.subscribe stage false],
    laid.stageCount, laid.stage, ?_, ?_, pools, ?_, fun s hs => ?_, ?_, ?_, fun r v shown => ?_,
    fun i hi => ?_, fun i hi => ?_, ?_⟩
  all_goals simp only [Hub.apply, after] at *
  · exact laid.poolCount
  · exact laid.publisherCount
  · exact congrArg (· + 1) laid.subscriptionCount
  · rw [Table.get?_insert, laid.subscriptionCount]
    split
    · rename_i here
      rw [here, planned]
    · exact laid.subscription s (by omega)
  · exact laid.mailboxCount
  · exact laid.mailbox
  · exact laid.extent r v shown
  · exact laid.roomy i hi
  · exact laid.sized i hi
  · exact laid.unused

theorem Laid.subscribeAll (laid : Laid config n k m b) {stages : List Nat}
    (given : ∀ stage ∈ stages, stage < k)
    (planned : ∀ i stage : Nat, stages[i]? = some stage → outletOf config (m + i) = stage) :
    (subscribeAll n stages).1 = (List.range stages.length).map (m + ·) ∧
      Laid config (subscribeAll n stages).2 k (m + stages.length) b := by
  have along : ∀ (stages subs : List Nat) (n : Network) (m : Nat), Laid config n k m b →
      (∀ stage ∈ stages, stage < k) →
      (∀ i stage : Nat, stages[i]? = some stage → outletOf config (m + i) = stage) →
      ∃ n', stages.foldl subscribeNext (subs, n) =
        (subs ++ (List.range stages.length).map (m + ·), n') ∧
          Laid config n' k (m + stages.length) b := by
    intro stages
    induction stages with
    | nil => exact fun subs n m laid _ _ => ⟨n, by simp, laid⟩
    | cons stage stages ih =>
      intro subs n m laid given planned
      obtain ⟨new, laid'⟩ := laid.subscribe (given stage List.mem_cons_self) (planned 0 stage rfl)
      obtain ⟨n', found, last⟩ := ih (subs ++ [m]) _ (m + 1) laid'
        (fun s hs => given s (List.mem_cons_of_mem _ hs)) fun i s hs => by
          rw [Nat.add_right_comm, Nat.add_assoc]
          exact planned (i + 1) s hs
      refine ⟨n', ?_, ?_⟩
      · rw [List.foldl_cons, subscribeNext]
        dsimp only
        rw [new, found, List.length_cons, List.range_succ_eq_map, List.map_cons, List.map_map,
          List.append_assoc]
        have shift : ∀ i, m + 1 + i = m + (i + 1) := fun i => by omega
        simp [Function.comp_def, shift]
      · rw [List.length_cons]
        have sum : m + 1 + stages.length = m + (stages.length + 1) := by omega
        rwa [sum] at last
  obtain ⟨n', found, last⟩ := along stages [] n m laid given planned
  have same : Pipeline.subscribeAll n stages = ([] ++ (List.range stages.length).map (m + ·), n') :=
    found
  rw [same]
  exact ⟨rfl, last⟩

theorem Laid.addGates {indices gates : List Nat} (laid : Laid config n k 0 0)
    (within : ∀ i < indices.length, 0 < k + i ∧ k + i ≤ gateCount config)
    (added : addGates config n indices = .ok (gates, n')) :
    gates = (List.range indices.length).map (k + ·) ∧
      Laid config n' (k + indices.length) 0 0 := by
  have along : ∀ (indices gates₀ : List Nat) (n : Network) (k : Nat), Laid config n k 0 0 →
      (∀ i < indices.length, 0 < k + i ∧ k + i ≤ gateCount config) →
      indices.foldlM (addGate config) (gates₀, n) = Except.ok (gates, n') →
      gates = gates₀ ++ (List.range indices.length).map (k + ·) ∧
        Laid config n' (k + indices.length) 0 0 := by
    intro indices
    induction indices with
    | nil =>
      intro gates₀ n k laid _ found
      obtain ⟨rfl, rfl⟩ := Prod.mk.inj (Except.ok.inj found)
      exact ⟨by simp, laid⟩
    | cons index indices ih =>
      intro gates₀ n k laid within found
      rw [List.foldlM_cons, addGate] at found
      cases made : n.newRelay s!"gate-{index}" config.buffers.toNat Payload.Shape.signal.factory
          (fillGate config) with
      | error failure =>
        simp only [made, bind, Except.bind, reduceCtorEq] at found
      | ok built =>
        obtain ⟨gate, n₁⟩ := built
        simp only [made, bind, Except.bind, pure, Except.pure] at found
        obtain ⟨first, last⟩ := within 0 (Nat.succ_pos _)
        rw [Nat.add_zero] at first last
        obtain ⟨rfl, laid'⟩ := laid.newRelay made (proper_numbered (by simp [toString]) index)
          (fun i v hv => by
            obtain rfl := Except.ok.inj hv
            rw [extentOf, if_neg (Nat.ne_of_gt first), if_pos last]
            rfl)
          (by rw [loopOf, if_neg (Nat.ne_of_gt first), if_pos last])
        obtain ⟨same, laid''⟩ := ih (gates₀ ++ [gate]) n₁ (gate + 1) laid'
          (fun i hi => by
            obtain ⟨pos, le⟩ := within (i + 1) (Nat.succ_lt_succ hi)
            exact ⟨by omega, by omega⟩) found
        have shift : ∀ i, gate + 1 + i = gate + (i + 1) := fun i => by omega
        refine ⟨?_, ?_⟩
        · rw [same, List.length_cons, List.range_succ_eq_map, List.map_cons, List.map_map,
            List.append_assoc]
          simp [Function.comp_def, shift]
        · rw [List.length_cons]
          have sum : gate + 1 + indices.length = gate + (indices.length + 1) := by omega
          rwa [sum] at laid''
  obtain ⟨same, last⟩ := along indices [] n k laid within added
  exact ⟨same, last⟩

theorem extent_sink {i : Nat} {v : Payload}
    (made : (Payload.Shape.sink ⟨.bit, config.vectorSize, 0⟩).factory.make i = .ok v) :
    v.extent = (.sink, 0, Bits.numWords config.vectorSize.toNat * 8) := by
  simp only [Payload.Shape.factory, Payload.Shape.make, SinkBuffer.new, bind, Except.bind,
    Except.map] at made
  cases sized : (Description.mk .bit config.vectorSize 0).byteSize with
  | error fault => simp [sized] at made
  | ok size =>
    have bytes : size.toNat = Bits.numWords config.vectorSize.toNat * 8 :=
      (Description.byteSize_eq_ok.1 sized).2
    simp only [sized, Memory.reserve] at made
    split at made
    · cases made
    · rename_i b new
      obtain rfl := Except.ok.inj made
      split at new
      · cases new
      · rename_i room reserved
        split at reserved
        · cases reserved
        · obtain rfl := Except.ok.inj reserved
          obtain rfl := Except.ok.inj new
          rw [Payload.extent, List.length_replicate, bytes]

theorem loopOf_fire (config : PipelineConfig) : loopOf config (gateCount config + 1) =
    .aggregator
      { publisher := gateCount config + 1, primary := 0
        gates := (List.range (gateCount config)).map (· + 1), transform := deriveFire
        mailbox := 0 } := by
  rw [loopOf, if_neg (by omega), if_neg (by omega), if_pos rfl]

theorem loopOf_sink (config : PipelineConfig) : loopOf config (gateCount config + 2) =
    .aggregator
      { publisher := gateCount config + 2, primary := gateCount config + 1
        gates := (List.range (gateCount config)).map (· + (gateCount config + 2))
        transform := collectFire, mailbox := 1 } := by
  rw [loopOf, if_neg (by omega), if_neg (by omega), if_neg (by omega)]

/-- A pipeline that was built is laid out as planned. -/
theorem build_laid {p : Parts} (built : build config = .ok (p, n)) :
    p = partsOf config ∧
      Laid config n (gateCount config + 3) (2 * gateCount config + 3) 2 := by
  simp only [build, bind, Except.bind] at built
  split at built
  · simp at built
  rename_i exchange made
  obtain ⟨e, n₁⟩ := exchange
  obtain ⟨rfl, laid₁⟩ := (laid_empty config).newRelay made (by simp) (fun i v hv => by
    obtain rfl := Except.ok.inj hv
    simp [Payload.extent, ExchangeVector.new, extentOf]) (if_pos rfl)
  dsimp only at built
  split at built
  · simp at built
  rename_i gates added
  obtain ⟨gates, n₂⟩ := gates
  obtain ⟨hgates, laid₂⟩ := laid₁.addGates (fun i hi => by
    rw [List.length_range, ← gateCount] at hi
    omega) added
  have succ : ∀ i, 0 + 1 + i = i + 1 := fun i => by omega
  rw [List.length_range] at hgates laid₂
  change gates = (List.range (gateCount config)).map _ at hgates
  change Laid config n₂ (0 + 1 + gateCount config) 0 0 at laid₂
  simp only [succ] at hgates laid₂
  dsimp only at built
  have length : gates.length = gateCount config := by
    rw [hgates, List.length_map, List.length_range]
  have numbered : ∀ i gate : Nat, gates[i]? = some gate → gate = i + 1 ∧ i < gateCount config := by
    intro i gate hgate
    have short := (List.getElem?_eq_some_iff.1 hgate).1
    rw [length] at short
    rw [hgates, List.getElem?_map, List.getElem?_range short] at hgate
    exact ⟨(Option.some.inj hgate).symm, short⟩
  have within : ∀ gate ∈ gates, gate < gateCount config + 1 := by
    intro gate hgate
    obtain ⟨i, hi⟩ := List.getElem?_of_mem hgate
    have := numbered i gate hi
    omega
  -- The aggregator and its sources.
  obtain ⟨source, laid₃⟩ := laid₂.subscribe (show 0 < _ by omega) (by simp [outletOf])
  generalize n₂.subscribe 0 false = subscribed at built source laid₃
  obtain ⟨s, n₃⟩ := subscribed
  obtain rfl : s = 0 := source
  obtain ⟨signals, laid₄⟩ := laid₃.subscribeAll within fun i gate hg => by
    obtain ⟨rfl, short⟩ := numbered i gate hg
    rw [outletOf, if_pos (by omega)]
    omega
  dsimp only at built
  generalize subscribeAll n₃ gates = subscribed at built signals laid₄
  obtain ⟨gateSubs, n₄⟩ := subscribed
  simp only [length, succ] at built signals laid₄
  generalize aggregated : n₄.newAggregator _ _ _ _ _ _ = aggregator at built
  obtain ⟨failure | fire, n₅⟩ := aggregator
  · simp at built
  obtain ⟨rfl, laid₅⟩ := laid₄.newAggregator aggregated (by simp) (fun i v hv => by
    obtain rfl := Except.ok.inj hv
    simp [Payload.extent, FireVector.new, extentOf]) (by rw [loopOf_fire, signals])
  dsimp only at built
  -- The sink and its sources.
  obtain ⟨source, laid₆⟩ := laid₅.subscribe (show gateCount config + 1 < _ by omega)
    (if_pos (Nat.le_refl _))
  generalize n₅.subscribe (gateCount config + 1) false = subscribed at built source laid₆
  obtain ⟨s, n₆⟩ := subscribed
  obtain rfl : s = gateCount config + 1 := source
  obtain ⟨signals, laid₇⟩ := laid₆.subscribeAll
    (fun gate hg => Nat.lt_succ_of_lt (within gate hg)) fun i gate hg => by
      obtain ⟨rfl, short⟩ := numbered i gate hg
      rw [outletOf, if_neg (by omega), if_pos (by omega)]
      omega
  dsimp only at built
  generalize subscribeAll n₆ gates = subscribed at built signals laid₇
  obtain ⟨gateSubs, n₇⟩ := subscribed
  have shift : ∀ i, gateCount config + 1 + 1 + i = i + (gateCount config + 2) := fun i => by omega
  simp only [length, shift] at built signals laid₇
  generalize collected : n₇.newSink _ _ _ _ _ _ = sink at built
  obtain ⟨failure | sink, n₈⟩ := sink
  · simp at built
  obtain ⟨rfl, laid₈⟩ := laid₇.newSink collected (by simp) (fun i v hv => by
    rw [extent_sink hv, extentOf, if_neg (by omega), if_neg (by omega), if_neg (by omega)])
    (by rw [loopOf_sink, signals])
  dsimp only at built
  -- The reader.
  obtain ⟨reports, laid₉⟩ := laid₈.subscribe (show gateCount config + 1 + 1 < _ by omega) (by
    rw [outletOf, if_neg (by omega), if_neg (by omega)])
  generalize n₈.subscribe (gateCount config + 1 + 1) false = subscribed at built reports laid₉
  obtain ⟨r, n₉⟩ := subscribed
  dsimp only at reports built
  obtain ⟨rfl, rfl⟩ := Prod.mk.inj (Except.ok.inj built)
  have last : gateCount config + (gateCount config + 2) + 1 = 2 * gateCount config + 3 := by omega
  rw [last] at laid₉
  refine ⟨?_, laid₉⟩
  rw [partsOf, hgates, reports]
  congr 1
  omega

end BufferFlow.Pipeline
