import BufferFlow.Proofs.Hub.Reports
import Mathlib.Algebra.Order.BigOperators.Group.List
import Mathlib.Algebra.Order.Group.Nat
import Mathlib.Data.Bool.Count
import Mathlib.Data.UInt

set_option autoImplicit false

namespace BufferFlow

namespace Counters

variable {α : Type}

theorem recordAll_filterMap (f : Counters → UInt64) (read : Event → Option α) (move : α → UInt64)
    (moves : ∀ c e, f (c.record e) = f c + ((read e).map move).getD 0) (c : Counters)
    (events : List Event) :
    f (c.recordAll events) = f c + ((events.filterMap read).map move).sum := by
  induction events generalizing c with
  | nil => simp [recordAll]
  | cons e events ih =>
    have step := moves c e
    rw [show c.recordAll (e :: events) = (c.record e).recordAll events from rfl, ih, step,
      List.filterMap_cons]
    cases read e with
    | none => simp
    | some a => simp [UInt64.add_assoc]

theorem sum_map_ofNat (l : List Nat) : (l.map Nat.toUInt64).sum = .ofNat l.sum := by
  induction l with
  | nil => rfl
  | cons n l ih =>
    rw [List.map_cons, List.sum_cons, List.sum_cons, ih, UInt64.ofNat_add]

theorem sum_map_ite [DecidableEq α] (a : α) (l : List α) :
    (l.map fun b => if b = a then (1 : UInt64) else 0).sum = .ofNat (l.count a) := by
  induction l with
  | nil => rfl
  | cons b l ih =>
    rw [List.map_cons, List.sum_cons, ih, List.count_cons, UInt64.ofNat_add, UInt64.add_comm]
    by_cases here : b = a <;> simp [here]

theorem sum_map_one (l : List α) : (l.map fun _ => (1 : UInt64)).sum = .ofNat l.length := by
  induction l with
  | nil => rfl
  | cons b l ih =>
    rw [List.map_cons, List.sum_cons, ih, List.length_cons, UInt64.ofNat_add, UInt64.add_comm]
    rfl

theorem recordAll_count [DecidableEq α] (f : Counters → UInt64) (read : Event → Option α) (a : α)
    (moves : ∀ c e, f (c.record e) = f c + if read e = some a then 1 else 0) (c : Counters)
    (events : List Event) :
    f (c.recordAll events) = f c + .ofNat ((events.filterMap read).count a) := by
  rw [recordAll_filterMap f read (fun b => if b = a then 1 else 0), sum_map_ite]
  intro c e
  rw [moves]
  cases read e <;> simp

variable (events : List Event)

theorem buffersAcquired_recordAll : (({} : Counters).recordAll events).buffersAcquired =
    .ofNat (events.count .bufferAcquired) := by
  rw [recordAll_count buffersAcquired some .bufferAcquired, List.filterMap_some]
  · exact UInt64.zero_add _
  · intro c e
    fun_cases record c e <;> simp

theorem buffersRecycled_recordAll : (({} : Counters).recordAll events).buffersRecycled =
    .ofNat (events.count .bufferRecycled) := by
  rw [recordAll_count buffersRecycled some .bufferRecycled, List.filterMap_some]
  · exact UInt64.zero_add _
  · intro c e
    fun_cases record c e <;> simp

theorem publishes_recordAll : (({} : Counters).recordAll events).publishes =
    .ofNat (events.filterMap Event.fanOut?).length := by
  rw [recordAll_filterMap publishes Event.fanOut? fun _ => 1, sum_map_one]
  · exact UInt64.zero_add _
  · intro c e
    fun_cases record c e <;> simp [Event.fanOut?]

theorem emptyPublishes_recordAll : (({} : Counters).recordAll events).emptyPublishes =
    .ofNat ((events.filterMap Event.fanOut?).count 0) := by
  rw [recordAll_count emptyPublishes Event.fanOut? 0]
  · exact UInt64.zero_add _
  · intro c e
    fun_cases record c e <;> simp_all [Event.fanOut?]

theorem deliveries_recordAll : (({} : Counters).recordAll events).deliveries =
    (events.filterMap Event.fanOut?).sum := by
  rw [recordAll_filterMap deliveries Event.fanOut? id, List.map_id]
  · exact UInt64.zero_add _
  · intro c e
    fun_cases record c e <;> simp_all [Event.fanOut?]

theorem joinsCompleted_recordAll : (({} : Counters).recordAll events).joinsCompleted =
    .ofNat ((events.filterMap Event.verdict?).count true) := by
  rw [recordAll_count joinsCompleted Event.verdict? true]
  · exact UInt64.zero_add _
  · intro c e
    fun_cases record c e <;> simp [Event.verdict?]

theorem joinsFailed_recordAll : (({} : Counters).recordAll events).joinsFailed =
    .ofNat ((events.filterMap Event.verdict?).count false) := by
  rw [recordAll_count joinsFailed Event.verdict? false]
  · exact UInt64.zero_add _
  · intro c e
    fun_cases record c e <;> simp [Event.verdict?]

theorem subscriptionsActive_recordAll (c : Counters) (events : List Event) :
    (c.recordAll events).subscriptionsActive + .ofNat (events.count .subscriptionClosed) =
      c.subscriptionsActive + .ofNat (events.count .subscriptionOpened) := by
  induction events generalizing c with
  | nil => rfl
  | cons e events ih =>
    have rest := ih (c.record e)
    change ((c.record e).recordAll events).subscriptionsActive + _ = _
    rw [List.count_cons, List.count_cons, UInt64.ofNat_add, UInt64.ofNat_add, ← UInt64.add_assoc, rest]
    cases e with
    | published fanOut =>
      rw [record]
      split <;> simp
    | subscriptionOpened | subscriptionClosed =>
      simp [record]
      grind
    | _ => simp [record]

end Counters

namespace Table

theorem sum_count {α : Type} (t : Table α) (numbers : List Nat)
    (used : ∀ id ∈ numbers, t.contains id) :
    (t.ids.map fun id => numbers.count id).sum = numbers.length := by
  have once : t.ids.Nodup := t.newestFirst.of_cons.imp fun older => Nat.ne_of_gt older
  induction numbers with
  | nil => simp
  | cons id numbers ih =>
    obtain ⟨a, found⟩ := Option.isSome_iff_exists.1 (used id List.mem_cons_self)
    have member : id ∈ t.ids := List.mem_map.2 ⟨(id, a), mem_entries.2 found, rfl⟩
    have here : ∀ ids : List Nat, (ids.map fun i => if id = i then 1 else 0).sum = ids.count id := by
      intro ids
      induction ids with
      | nil => rfl
      | cons i ids ih =>
        rw [List.map_cons, List.sum_cons, ih, List.count_cons, Nat.add_comm]
        simp only [beq_iff_eq, @eq_comm _ id]
    simp only [List.count_cons, beq_iff_eq, List.sum_map_add, List.length_cons]
    rw [ih fun i hi => used i (List.mem_cons_of_mem _ hi), here, List.count_eq_one_of_mem once member]

end Table

def Pool.inUse (p : Pool) : Nat := (List.range p.capacity).countP (· ∉ p.free)

theorem Pool.inUse_add {p : Pool} (once : p.free.Nodup) (bound : ∀ i ∈ p.free, i < p.slots.size) :
    p.inUse + p.free.length = p.slots.size := by
  have stacked : (List.range p.capacity).countP (· ∈ p.free) = p.free.length := by
    rw [List.countP_eq_length_filter]
    refine List.Perm.length_eq ((List.perm_ext_iff_of_nodup (List.nodup_range.filter _) once).2
      fun i => ?_)
    rw [List.mem_filter, List.mem_range, decide_eq_true_iff]
    exact ⟨And.right, fun member => ⟨bound i member, member⟩⟩
  have split := List.length_eq_countP_add_countP (· ∈ p.free) (l := List.range p.capacity)
  rw [stacked, List.length_range] at split
  simp only [inUse, capacity] at split ⊢
  simpa [Nat.add_comm] using split.symm

namespace Hub

variable {h : Hub} {T B : List SlotRef}

/-- How many slots are not on the stack of their pool. -/
def inUse (h : Hub) : Nat := (h.pools.values.map Pool.inUse).sum

theorem sum_entries {L : List SlotRef} (known : ∀ r ∈ L, h.pools.contains r.pool) :
    (h.pools.entries.map fun e => (L.map (·.pool)).count e.1).sum = L.length := by
  have summed := Table.sum_count h.pools (L.map (·.pool)) fun id member => by
    obtain ⟨r, hr, rfl⟩ := List.mem_map.1 member
    exact known r hr
  rwa [Table.ids, List.map_map, List.length_map] at summed

theorem sum_pools {f : Pool → Nat} {L : List SlotRef} (known : ∀ r ∈ L, h.pools.contains r.pool)
    (each : ∀ id p, h.pools.get? id = some p → f p = (L.map (·.pool)).count id) :
    (h.pools.values.map f).sum = L.length := by
  rw [← sum_entries known, Table.values, List.map_map]
  exact congrArg List.sum (List.map_congr_left fun e member =>
    each e.1 e.2 (Table.mem_entries.1 member))

namespace Ledger

variable (l : h.Ledger T B)

include l

theorem sum_acquires (few : T.length < 2 ^ 64) :
    (h.pools.values.map fun p => p.acquires.toNat).sum = T.length := by
  refine sum_pools (fun r member => l.known r (List.mem_append_left _ member)) fun id p found => ?_
  rw [(l.each id p found).acquires]
  refine UInt64.toNat_ofNat_of_lt' (Nat.lt_of_le_of_lt List.count_le_length ?_)
  rwa [List.length_map]

theorem sum_recycles (few : B.length < 2 ^ 64) :
    (h.pools.values.map fun p => p.recycles.toNat).sum = B.length := by
  refine sum_pools (fun r member => l.known r (List.mem_append_right _ member)) fun id p found => ?_
  rw [(l.each id p found).recycles]
  refine UInt64.toNat_ofNat_of_lt' (Nat.lt_of_le_of_lt List.count_le_length ?_)
  rwa [List.length_map]

theorem inUse_add (ha : h.Accounted) : h.inUse + B.length = T.length := by
  rw [← sum_entries fun r member => l.known r (List.mem_append_left _ member),
    ← sum_entries fun r member => l.known r (List.mem_append_right _ member), inUse, Table.values,
    List.map_map, ← List.sum_map_add]
  refine congrArg List.sum (List.map_congr_left fun e member => ?_)
  have found := Table.mem_entries.1 member
  obtain ⟨once, bound⟩ := Balanced.free_lt ha found
  have inUse := Pool.inUse_add once bound
  have turnover := (l.each e.1 e.2 found).free
  change e.2.inUse + _ = _
  omega

end Ledger

end Hub

/-- The counters are the totals of what the pools count and of what was told of publications and
joins. Of buffers they know how many are out, and of subscriptions how many there are. -/
structure Counters.Exact (c : Counters) (h : Hub) (fanOuts : List Nat) (verdicts : List Bool) :
    Prop where
  acquired : c.buffersAcquired.toNat = (h.pools.values.map fun p => p.acquires.toNat).sum
  recycled : c.buffersRecycled.toNat = (h.pools.values.map fun p => p.recycles.toNat).sum
  unclamped : c.buffersRecycled ≤ c.buffersAcquired
  inFlight : c.inFlight.toNat = h.inUse
  publishes : c.publishes.toNat = fanOuts.length
  emptyPublishes : c.emptyPublishes.toNat = fanOuts.count 0
  deliveries : c.deliveries.toNat = fanOuts.sum
  subscriptionsActive : c.subscriptionsActive.toNat = h.subscribed
  joinsCompleted : c.joinsCompleted.toNat = verdicts.count true
  joinsFailed : c.joinsFailed.toNat = verdicts.count false
  joins : c.joinsCompleted.toNat + c.joinsFailed.toNat = verdicts.length

namespace Reports

variable {h : Hub} {events : List Event} {T B : List SlotRef} {F : List Nat} {V : List Bool}

theorem exact (told : Reports events T B F V 0 h.subscribed) (ledger : h.Ledger T B)
    (ha : h.Accounted) (few : events.length + F.sum < 2 ^ 64) :
    (({} : Counters).recordAll events).Exact h F V := by
  have fits : ∀ {n : Nat}, n ≤ events.length + F.sum → (UInt64.ofNat n).toNat = n := fun le =>
    UInt64.toNat_ofNat_of_lt' (Nat.lt_of_le_of_lt le few)
  have counted : ∀ e, events.count e ≤ events.length + F.sum := fun e =>
    Nat.le_trans List.count_le_length (Nat.le_add_right _ _)
  have read : ∀ {α : Type} (f : Event → Option α),
      (events.filterMap f).length ≤ events.length + F.sum := fun f =>
    Nat.le_trans (List.length_filterMap_le f events) (Nat.le_add_right _ _)
  have taken : T.length ≤ events.length + F.sum := told.taken ▸ counted _
  have back : B.length ≤ events.length + F.sum := told.back ▸ counted _
  have balance := ledger.inUse_add ha
  have acquired : (({} : Counters).recordAll events).buffersAcquired = .ofNat T.length := by
    rw [Counters.buffersAcquired_recordAll, told.taken]
  have recycled : (({} : Counters).recordAll events).buffersRecycled = .ofNat B.length := by
    rw [Counters.buffersRecycled_recordAll, told.back]
  have unclamped : (({} : Counters).recordAll events).buffersRecycled ≤
      (({} : Counters).recordAll events).buffersAcquired := by
    rw [acquired, recycled, UInt64.le_iff_toNat_le, fits taken, fits back]
    omega
  have completed : (({} : Counters).recordAll events).joinsCompleted.toNat = V.count true := by
    rw [Counters.joinsCompleted_recordAll, fits (Nat.le_trans List.count_le_length (read _)),
      told.verdicts]
  have failed : (({} : Counters).recordAll events).joinsFailed.toNat = V.count false := by
    rw [Counters.joinsFailed_recordAll, fits (Nat.le_trans List.count_le_length (read _)),
      told.verdicts]
  constructor
  case acquired =>
    rw [ledger.sum_acquires (Nat.lt_of_le_of_lt taken few), acquired, fits taken]
  case recycled =>
    rw [ledger.sum_recycles (Nat.lt_of_le_of_lt back few), recycled, fits back]
  case unclamped => exact unclamped
  case inFlight =>
    rw [Counters.inFlight, if_pos unclamped, UInt64.toNat_sub_of_le _ _ unclamped, acquired, recycled,
      fits taken, fits back]
    omega
  case publishes =>
    rw [Counters.publishes_recordAll, fits (read _), told.fanOuts, List.length_map]
  case emptyPublishes =>
    rw [Counters.emptyPublishes_recordAll, fits (Nat.le_trans List.count_le_length (read _)),
      told.fanOuts]
    -- no fan-out is so large that it looks like none
    refine (List.countP_map ..).trans (List.countP_congr fun k member => ?_)
    have small : k ≤ events.length + F.sum :=
      Nat.le_trans (List.le_sum_of_mem member) (Nat.le_add_left _ _)
    have same : k.toUInt64 = 0 ↔ k = 0 := by
      rw [← UInt64.toNat_inj]
      exact iff_of_eq (congrArg (· = 0) (fits small))
    simpa using same
  case deliveries =>
    rw [Counters.deliveries_recordAll, told.fanOuts, Counters.sum_map_ofNat,
      fits (Nat.le_add_left _ _)]
  case subscriptionsActive =>
    have left := Counters.subscriptionsActive_recordAll {} events
    have opened : events.count .subscriptionOpened =
        h.subscribed + events.count .subscriptionClosed := by
      simpa using told.subscribed
    rw [opened, UInt64.ofNat_add, ← UInt64.add_assoc] at left
    have active := ((UInt64.add_left_inj _).1 left).trans (UInt64.zero_add _)
    rw [active, fits]
    exact Nat.le_trans (Nat.le_add_right _ _) (opened ▸ counted .subscriptionOpened)
  case joinsCompleted => exact completed
  case joinsFailed => exact failed
  case joins =>
    rw [completed, failed]
    exact List.count_true_add_count_false V

end Reports

end BufferFlow
