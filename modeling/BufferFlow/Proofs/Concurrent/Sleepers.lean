import BufferFlow.Proofs.Concurrent.Deliveries
import BufferFlow.Payload.Shape

set_option autoImplicit false

/-! # Sleepers for slots and copies

A thread that takes a blank sleeps while no slot is free, and one that pulls sleeps while nothing is
queued and the publisher is there. Whoever puts a slot back tells one of those who sleep for the pool,
and whoever queues a copy or ends a stream tells all who sleep for the subscription, each after the
lock is given back. Others may take the slot or the copy before a thread that was told looks again. -/

namespace BufferFlow

/-- What threads sleep for. A thread that was told is to look again. -/
structure Bell where
  asleep : List (Nat × Nat) := []
  woken : List (Nat × Nat) := []
  /-- Objects of which somebody is still to tell. -/
  due : List Nat := []

namespace Bell

def sleep (b : Bell) (t o : Nat) : Bell := { b with asleep := (t, o) :: b.asleep }

def owe (b : Bell) (objects : List Nat) : Bell := { b with due := objects ++ b.due }

def tellOne (b : Bell) (t o : Nat) : Bell :=
  if o ∈ b.due then
    if b.asleep.contains (t, o) then
      ⟨b.asleep.erase (t, o), (t, o) :: b.woken, b.due.erase o⟩
    else if ∃ w ∈ b.asleep, w.2 = o then b
    else { b with due := b.due.erase o }
  else b

def tellAll (b : Bell) (o : Nat) : Bell :=
  if o ∈ b.due then
    ⟨b.asleep.filter (·.2 ≠ o), b.asleep.filter (·.2 = o) ++ b.woken, b.due.erase o⟩
  else b

def rise (b : Bell) (t o : Nat) : Bell := { b with woken := b.woken.erase (t, o) }

def leave (b : Bell) (t o : Nat) : Bell := { b with asleep := b.asleep.erase (t, o) }

def waits (b : Bell) (t : Nat) : Bool := (b.asleep ++ b.woken).any (·.1 = t)

/-- Those who were woken for the object, and those who are still to be. -/
def transit (b : Bell) (o : Nat) : Nat := b.woken.countP (·.2 = o) + b.due.count o

end Bell

def Operation.isBrief : Operation → Bool
  | newPool .. | newPublisher .. | newMailbox | subscribe .. | subscribeDetached _ | acquire _
  | write .. | pull _ | arm .. | cancel _ | wait _ | takeCell _ | erase _ | tally .. => true
  | chain .. | publish .. | dropBlank _ | dropCell _ | release _ | dropSubscription _
  | dropPublisher _ => false

/-- What threads that wait for nothing do under one lock. What gives up copies, publishes or tears a
publisher down is a row of these. -/
inductive Section
  | brief (op : Operation)
  | move (m : Move)
  | push (r : SlotRef) (serial subscription : Nat)
  | invalidate (subscription : Nat)
  | discard (cell : Nat)

namespace Section

def run (h : Hub) : Section → Hub
  | brief op => if op.isBrief then h.apply op else h
  | move m => h.perform m
  | push r serial s => h.push r serial s
  | invalidate s => h.invalidate s
  | discard cell => { h with cells := h.cells.erase cell }

def freed : Section → List Nat
  | move (.returned r) => [r.pool]
  | _ => []

/-- The subscriptions of which all threads are to be told. Of a copy that goes into an armed cell they
are not. -/
def tells (h : Hub) : Section → List Nat
  | push _ _ s => if h.awaits s then [] else [s]
  | invalidate s => [s]
  | _ => []

end Section

/-- A hub with the threads that wait for slots and for copies. -/
structure Blocking where
  hub : Hub
  takers : Bell := {}
  pullers : Bell := {}

namespace Blocking

inductive Step
  | part (x : Section)
  | acquire (thread pool : Nat)
  | pull (thread subscription : Nat)
  | tellTaker (thread pool : Nat)
  | tellPullers (subscription : Nat)
  | retake (thread pool : Nat)
  | repull (thread subscription : Nat)
  | expire (thread subscription : Nat)

def waits (b : Blocking) (t : Nat) : Bool := b.takers.waits t || b.pullers.waits t

def take (b : Blocking) (t p : Nat) : Blocking :=
  match b.hub.acquire? p with
  | some (_, hub) => { b with hub }
  | none => if b.hub.pools.contains p then { b with takers := b.takers.sleep t p } else b

def attend (b : Blocking) (t s : Nat) : Blocking :=
  match b.hub.pull s with
  | (.empty, _) => { b with pullers := b.pullers.sleep t s }
  | (_, hub) => { b with hub }

def step (b : Blocking) : Step → Blocking
  | .part x =>
    { hub := x.run b.hub, takers := b.takers.owe x.freed, pullers := b.pullers.owe (x.tells b.hub) }
  | .acquire t p => if b.waits t then b else b.take t p
  | .pull t s => if b.waits t then b else b.attend t s
  | .tellTaker t p => { b with takers := b.takers.tellOne t p }
  | .tellPullers s => { b with pullers := b.pullers.tellAll s }
  | .retake t p =>
    if b.takers.woken.contains (t, p) then { b with takers := b.takers.rise t p }.take t p else b
  | .repull t s =>
    if b.pullers.woken.contains (t, s) then { b with pullers := b.pullers.rise t s }.attend t s else b
  | .expire t s => { b with pullers := b.pullers.leave t s }

def run (b : Blocking) (steps : List Step) : Blocking := steps.foldl step b

end Blocking

namespace Hub

variable {h h' : Hub} {p s : Nat}

def freeAt (h : Hub) (p : Nat) : Nat := ((h.pools.get? p).map (·.free.length)).getD 0

def Idle (h : Hub) (s : Nat) : Prop :=
  ∃ sub, h.subscriptions.get? s = some sub ∧ sub.queue = [] ∧ sub.publisher.isSome

theorem freeAt_congr (pools : h'.pools = h.pools) :
    h'.pools.contains p = h.pools.contains p ∧ h'.freeAt p = h.freeAt p := by
  rw [freeAt, freeAt, pools]
  exact ⟨rfl, rfl⟩

theorem freeAt_modifyPool {q : Nat} {f : Pool → Pool} {gain : Nat}
    (more : ∀ P, (f P).free.length = P.free.length + gain) :
    (h.modifyPool q f).pools.contains p = h.pools.contains p ∧
      (h.modifyPool q f).freeAt p ≤ h.freeAt p + if p = q then gain else 0 := by
  refine ⟨Table.contains_modify _ _ _ _, ?_⟩
  rw [freeAt, freeAt, modifyPool, Table.get?_modify]
  split
  · cases h.pools.get? p with
    | none => exact Nat.zero_le _
    | some P => exact Nat.le_of_eq (more P)
  · exact Nat.le_refl _

theorem freeAt_discount (h : Hub) (r : SlotRef) :
    (h.discount r).pools.contains p = h.pools.contains p ∧
      (h.discount r).freeAt p ≤ h.freeAt p := by
  have same : ∀ P : Pool, (P.discount r.slot).free.length = P.free.length + 0 := by
    intro P
    rw [Pool.discount, Pool.modifySlot, Pool.expect]
    split <;> rfl
  obtain ⟨there, less⟩ := freeAt_modifyPool (h := h) (p := p) (q := r.pool) same
  exact ⟨there, Nat.le_trans less (by simp)⟩

theorem freeAt_modifySlot (h : Hub) (r : SlotRef) (f : BufferSlot → BufferSlot) :
    (h.modifySlot r f).pools.contains p = h.pools.contains p ∧
      (h.modifySlot r f).freeAt p ≤ h.freeAt p := by
  have same : ∀ P : Pool, (P.modifySlot r.slot f).free.length = P.free.length + 0 := fun _ => rfl
  obtain ⟨there, less⟩ := freeAt_modifyPool (h := h) (p := p) (q := r.pool) same
  exact ⟨there, Nat.le_trans less (by simp)⟩

theorem freeAt_perform (h : Hub) (m : Move) :
    (h.perform m).pools.contains p = h.pools.contains p ∧
      (h.perform m).freeAt p ≤ h.freeAt p + (Section.move m).freed.count p := by
  cases m with
  | released c => exact freeAt_discount h c.ref
  | unchained r c =>
    obtain ⟨there, less⟩ := freeAt_modifySlot (p := p) h r ({ · with chained := none })
    obtain ⟨there', less'⟩ := freeAt_discount (p := p) (h.unchain r) c.ref
    exact ⟨there'.trans there, Nat.le_trans less' less⟩
  | returned r =>
    have back : ∀ P : Pool, (P.put r.slot).free.length = P.free.length + 1 := fun _ => rfl
    obtain ⟨there, more⟩ := freeAt_modifyPool (h := h) (p := p) (q := r.pool) back
    refine ⟨there, Nat.le_trans more (Nat.le_of_eq ?_)⟩
    by_cases here : p = r.pool
    · simp [Section.freed, here]
    · simp [Section.freed, here, Ne.symm here]

theorem freeAt_acquire {q : Nat} {blank : SlotRef} (taken : h.acquire? q = some (blank, h')) :
    h'.pools.contains p = h.pools.contains p ∧
      h'.freeAt p + (if p = q then 1 else 0) = h.freeAt p := by
  obtain ⟨P, free, found, stack, rfl, rfl⟩ := acquire?_eq_some taken
  refine ⟨Table.contains_modify _ _ _ _, ?_⟩
  change ((((h.pools.modify blank.pool _).get? p).map _).getD 0) + _ = _
  rw [Table.get?_modify, freeAt]
  split
  · rename_i here
    rw [here, found, Option.map_some, Option.map_some, Option.map_some, Option.getD_some,
      Option.getD_some, stack]
    rfl
  · rfl

theorem freeAt_of_starved (starved : h.acquire? p = none) : h.freeAt p = 0 := by
  rw [freeAt]
  cases found : h.pools.get? p with
  | none => rfl
  | some P =>
    rw [acquire?, found] at starved
    cases stack : P.free with
    | nil => simp [stack]
    | cons slot free => simp [Pool.take?, stack] at starved

theorem freeAt_brief {op : Operation} (brief : op.isBrief = true) (there : h.pools.contains p) :
    (h.apply op).pools.contains p = true ∧ (h.apply op).freeAt p ≤ h.freeAt p := by
  have same : ∀ {g : Hub}, g.pools = h.pools → g.pools.contains p = true ∧ g.freeAt p ≤ h.freeAt p := by
    intro g pools
    obtain ⟨contains, free⟩ := freeAt_congr (p := p) pools
    exact ⟨contains.trans there, Nat.le_of_eq free⟩
  cases op with
  | newPool name capacity factory =>
    simp only [apply, newPool, bind, Except.bind]
    cases made : Pool.new name capacity factory with
    | error failure => exact ⟨there, Nat.le_refl _⟩
    | ok P =>
      obtain ⟨Q, found⟩ := Option.isSome_iff_exists.1 there
      have old : (h.pools.insert P).2.get? p = h.pools.get? p := by
        rw [Table.get?_insert, if_neg (Nat.ne_of_lt (Table.get?_lt found))]
      refine ⟨?_, ?_⟩
      · change ((h.pools.insert P).2.get? p).isSome = true
        rw [old]
        exact there
      · change (((h.pools.insert P).2.get? p).map _).getD 0 ≤ _
        rw [old]
        exact Nat.le_refl _
  | acquire q =>
    rw [apply]
    split
    · exact ⟨there, Nat.le_refl _⟩
    · rename_i taken
      obtain ⟨contains, free⟩ := freeAt_acquire (p := p) taken
      exact ⟨contains.trans there, Nat.le.intro free⟩
  | write blank payload =>
    rw [apply, write]
    split
    · obtain ⟨contains, free⟩ := freeAt_modifySlot (p := p) h blank ({ · with payload })
      exact ⟨contains.trans there, free⟩
    · exact ⟨there, Nat.le_refl _⟩
  | subscribe q erased => exact same (SameStock.subscribe h q erased).pools
  | pull t => exact same (SameStock.pull h t).pools
  | cancel t => exact same (SameStock.cancel h t).pools
  | takeCell cell => exact same (SameStock.takeCell h cell).pools
  | arm t mailbox =>
    rw [apply]
    split
    · exact same (SameStock.arm h t mailbox).pools
    · exact same rfl
  | wait mailbox =>
    obtain ⟨counters, waited⟩ := wait_cases h mailbox
    exact same (by rw [waited])
  | erase c =>
    refine same ?_
    simp only [apply, erase]
    split <;> rfl
  | newPublisher | newMailbox | subscribeDetached | tally => exact same rfl
  | chain | publish | dropBlank | dropCell | release | dropSubscription | dropPublisher =>
    simp [Operation.isBrief] at brief

theorem freeAt_run (x : Section) (there : h.pools.contains p) :
    (x.run h).pools.contains p = true ∧ (x.run h).freeAt p ≤ h.freeAt p + x.freed.count p := by
  have same : ∀ {g : Hub}, g.pools = h.pools →
      g.pools.contains p = true ∧ g.freeAt p ≤ h.freeAt p + 0 := by
    intro g pools
    obtain ⟨contains, free⟩ := freeAt_congr (p := p) pools
    exact ⟨contains.trans there, Nat.le_of_eq free⟩
  cases x with
  | brief op =>
    rw [Section.run]
    split
    · exact freeAt_brief ‹_› there
    · exact same rfl
  | move m =>
    obtain ⟨contains, free⟩ := freeAt_perform (p := p) h m
    exact ⟨contains.trans there, free⟩
  | push r serial s => exact same (SameStock.push h r serial s).pools
  | invalidate s => exact same (SameStock.invalidate h s).pools
  | discard cell => exact same rfl

theorem Idle.congr (idle : h.Idle s) (subscriptions : h'.subscriptions = h.subscriptions) :
    h'.Idle s := by
  rw [Idle, subscriptions]
  exact idle

theorem Idle.modify (idle : h.Idle s) {t : Nat} {f : Subscription → Subscription}
    (hf : t = s → ∀ sub, sub.queue = [] → sub.publisher.isSome →
      (f sub).queue = [] ∧ (f sub).publisher.isSome) :
    { h with subscriptions := h.subscriptions.modify t f }.Idle s := by
  obtain ⟨sub, found, empty, active⟩ := idle
  rw [Idle, Table.get?_modify]
  split
  · rename_i here
    obtain ⟨empty', active'⟩ := hf here.symm sub empty active
    exact ⟨f sub, by rw [found]; rfl, empty', active'⟩
  · exact ⟨sub, found, empty, active⟩

theorem Idle.insert (idle : h.Idle s) {sub : Subscription}
    (subscriptions : h'.subscriptions = (h.subscriptions.insert sub).2) : h'.Idle s := by
  obtain ⟨old, found, rest⟩ := idle
  rw [Idle, subscriptions, Table.get?_insert, if_neg (Nat.ne_of_lt (Table.get?_lt found))]
  exact ⟨old, found, rest⟩

theorem Idle.cancel (idle : h.Idle s) (t : Nat) : (h.cancel t).Idle s := by
  rcases cancel_cases h t with ⟨-, same⟩ | ⟨sub, a, -, -, same⟩ <;> rw [same]
  · exact idle
  · exact idle.modify fun _ _ empty active => ⟨empty, active⟩

theorem Idle.pull (idle : h.Idle s) (t : Nat) : (h.pull t).2.Idle s := by
  rcases pull_cases h t with ⟨same, -⟩ | ⟨sub, c, queue, found, full, -, same⟩ <;> rw [same]
  · exact idle
  · refine idle.modify fun here => ?_
    obtain ⟨sub', found', empty, -⟩ := idle
    obtain rfl := here
    obtain rfl := Option.some.inj (found.symm.trans found')
    exact absurd (full.symm.trans empty) (List.cons_ne_nil _ _)

theorem Idle.arm (idle : h.Idle s) (t mailbox : Nat) : (h.arm t mailbox).2.Idle s := by
  have cancelled := idle.cancel t
  rcases arm_cases h t mailbox with
    ⟨-, ⟨-, same⟩ | ⟨sub, found, ⟨c, queue, full, same⟩ | ⟨-, -, same⟩ | ⟨-, -, same⟩⟩⟩ <;>
    rw [same]
  · exact cancelled.congr rfl
  · refine cancelled.modify fun here => ?_
    obtain ⟨sub', found', empty, -⟩ := cancelled
    obtain rfl := here
    obtain rfl := Option.some.inj (found.symm.trans found')
    exact absurd (full.symm.trans empty) (List.cons_ne_nil _ _)
  · exact cancelled.modify fun _ _ empty active => ⟨empty, active⟩
  · exact cancelled.congr rfl

theorem Idle.brief {op : Operation} (idle : h.Idle s) (brief : op.isBrief = true) :
    (h.apply op).Idle s := by
  by_cases onBuffers : op.OnBuffers
  · exact idle.congr (SameLinks.apply h onBuffers).subscriptions
  cases op with
  | pull t => exact idle.pull t
  | cancel t => exact idle.cancel t
  | arm t mailbox =>
    rw [apply]
    split
    · exact idle.arm t mailbox
    · exact idle
  | subscribe p erased =>
    rcases subscribe_cases h p erased with ⟨-, ⟨-, same⟩ | ⟨P, counters, log, -, same⟩⟩ <;>
      rw [apply, same]
    · exact idle.insert rfl
    · exact idle.insert rfl
  | subscribeDetached erased => exact idle.insert rfl
  | takeCell cell =>
    rcases takeCell_cases h cell with ⟨-, -, same⟩ | ⟨c, -, -, same⟩ <;> rw [apply, same]
    · exact idle
    · exact idle.congr rfl
  | newPublisher | newMailbox => exact idle.congr rfl
  | newPool | acquire | write | wait | erase | tally => exact absurd trivial onBuffers
  | chain | publish | dropBlank | dropCell | release | dropSubscription | dropPublisher =>
    simp [Operation.isBrief] at brief

theorem Idle.run (idle : h.Idle s) (x : Section) (untold : s ∉ x.tells h) : (x.run h).Idle s := by
  cases x with
  | brief op =>
    rw [Section.run]
    split
    · exact idle.brief ‹_›
    · exact idle
  | move m => cases m <;> exact idle.congr rfl
  | push r serial t =>
    have elsewhere : h.awaits t = false → t ≠ s := by
      rintro full rfl
      exact untold (by simp [Section.tells, full])
    rw [Section.run]
    rcases push_cases h t r serial with
      ⟨-, same⟩ | ⟨sub, found, ⟨idle', same⟩ | ⟨a, armed, ⟨-, same⟩ | ⟨gone, same⟩⟩⟩ <;> rw [same]
    · exact idle
    · refine idle.modify fun here => absurd here (elsewhere ?_)
      simp [awaits, armedOf?, found, idle']
    · exact idle.modify fun _ _ empty active => ⟨empty, active⟩
    · refine idle.modify fun here => absurd here (elsewhere ?_)
      simp [awaits, armedOf?, found, armed, gone]
  | invalidate t =>
    have elsewhere : t ≠ s := by
      rintro rfl
      exact untold List.mem_cons_self
    obtain ⟨sub, found, rest⟩ := idle
    refine ⟨sub, ?_, rest⟩
    rw [Section.run, get?_invalidate, if_neg (Ne.symm elsewhere)]
    exact found
  | discard cell => exact idle.congr rfl

end Hub

namespace Bell

variable {b : Bell} {t o : Nat}

theorem mem_asleep_tellOne {w : Nat × Nat} (member : w ∈ (b.tellOne t o).asleep) : w ∈ b.asleep := by
  rw [tellOne] at member
  split at member
  · split at member
    · exact List.mem_of_mem_erase member
    · split at member <;> exact member
  · exact member

theorem transit_tellOne {w : Nat × Nat} (member : w ∈ (b.tellOne t o).asleep) :
    (b.tellOne t o).transit w.2 = b.transit w.2 := by
  rw [tellOne] at member ⊢
  split
  · rename_i due
    rw [if_pos due] at member
    split
    · rw [transit, transit, List.countP_cons, List.count_erase]
      by_cases here : o = w.2
      · have some_due : 0 < b.due.count o := List.count_pos_iff.2 due
        subst here
        simp only [decide_true, ↓reduceIte, beq_self_eq_true]
        omega
      · simp [here]
    · rename_i awake
      rw [if_neg awake] at member
      split
      · rfl
      · rename_i nobody
        rw [if_neg nobody] at member
        have other : o ≠ w.2 := fun here => nobody ⟨w, member, here.symm⟩
        simp [transit, List.count_erase, other]
  · rfl

theorem mem_tellAll {w : Nat × Nat} (member : w ∈ (b.tellAll o).asleep) :
    w ∈ b.asleep ∧ (w.2 ∈ b.due → w.2 ∈ (b.tellAll o).due) := by
  rw [tellAll] at member ⊢
  split
  · rename_i due
    rw [if_pos due] at member
    obtain ⟨member, other⟩ := List.mem_filter.1 member
    exact ⟨member, fun here => (List.mem_erase_of_ne (of_decide_eq_true other)).2 here⟩
  · rename_i undue
    rw [if_neg undue] at member
    exact ⟨member, fun here => here⟩

theorem transit_rise {p : Nat} (woken : (t, o) ∈ b.woken) :
    (b.rise t o).transit p + (if p = o then 1 else 0) = b.transit p := by
  have counted := (List.perm_cons_erase woken).countP_eq (·.2 = p)
  rw [List.countP_cons] at counted
  have same : (decide (o = p) = true) = (p = o) := by simp [eq_comm]
  simp only [same] at counted
  rw [rise, transit, transit, counted]
  exact Nat.add_right_comm _ _ _

end Bell

namespace Blocking

open Hub

variable {b : Blocking} {t p s : Nat}

/-- For each pool, as many of its sleepers as it has free slots are woken and have still to look, or
have still to be notified. A sleeper of a subscription finds nothing there, or is still to be
notified. -/
structure Attended (b : Blocking) : Prop where
  known : ∀ w ∈ b.takers.asleep, b.hub.pools.contains w.2
  covered : ∀ w ∈ b.takers.asleep, b.hub.freeAt w.2 ≤ b.takers.transit w.2
  heard : ∀ w ∈ b.pullers.asleep, b.hub.Idle w.2 ∨ w.2 ∈ b.pullers.due

theorem Attended.part (a : b.Attended) (x : Section) : (b.step (.part x)).Attended where
  known w member := (freeAt_run x (a.known w member)).1
  covered w member := by
    have free := (freeAt_run x (a.known w member)).2
    have before := a.covered w member
    change _ ≤ b.takers.woken.countP _ + (x.freed ++ b.takers.due).count w.2
    rw [List.count_append]
    rw [Bell.transit] at before
    change (x.run b.hub).freeAt w.2 ≤ _
    omega
  heard w member := by
    by_cases told : w.2 ∈ x.tells b.hub
    · exact .inr (List.mem_append_left _ told)
    · exact (a.heard w member).imp (fun idle => idle.run x told) (List.mem_append_right _)

theorem Attended.take (known : ∀ w ∈ b.takers.asleep, b.hub.pools.contains w.2)
    (covered : ∀ w ∈ b.takers.asleep,
      b.hub.freeAt w.2 ≤ b.takers.transit w.2 + if w.2 = p then 1 else 0)
    (heard : ∀ w ∈ b.pullers.asleep, b.hub.Idle w.2 ∨ w.2 ∈ b.pullers.due) :
    (b.take t p).Attended := by
  have starved : b.hub.acquire? p = none → ∀ w ∈ b.takers.asleep,
      b.hub.freeAt w.2 ≤ b.takers.transit w.2 := by
    intro none_free w member
    by_cases here : w.2 = p
    · rw [here, freeAt_of_starved none_free]
      exact Nat.zero_le _
    · simpa [here] using covered w member
  rw [Blocking.take]
  split
  · rename_i blank hub taken
    refine ⟨fun w member => ?_, fun w member => ?_, fun w member => ?_⟩
    · rw [(freeAt_acquire taken).1]
      exact known w member
    · have fewer := (freeAt_acquire (p := w.2) taken).2
      have before := covered w member
      change hub.freeAt w.2 ≤ b.takers.transit w.2
      omega
    · obtain ⟨P, free, -, -, -, rfl⟩ := acquire?_eq_some taken
      exact (heard w member).imp_left fun idle => idle.congr rfl
  · rename_i none_free
    split
    · rename_i there
      refine ⟨fun w member => ?_, fun w member => ?_, heard⟩ <;>
        rcases List.mem_cons.1 member with rfl | member
      · exact there
      · exact known w member
      · rw [freeAt_of_starved none_free]
        exact Nat.zero_le _
      · exact starved none_free w member
    · exact ⟨known, starved none_free, heard⟩

theorem Attended.attend (a : b.Attended) (t s : Nat) : (b.attend t s).Attended := by
  have stock := SameStock.pull b.hub s
  have idle : ∀ {u : Nat}, b.hub.Idle u → (b.hub.pull s).2.Idle u := fun idle => idle.pull s
  have pulled : { b with hub := (b.hub.pull s).2 }.Attended :=
    ⟨fun w member => by rw [(freeAt_congr stock.pools).1]; exact a.known w member,
      fun w member => by rw [(freeAt_congr stock.pools).2]; exact a.covered w member,
      fun w member => (a.heard w member).imp_left idle⟩
  rw [Blocking.attend]
  split
  · rename_i hub nothing
    refine ⟨a.known, a.covered, fun w member => ?_⟩
    rcases List.mem_cons.1 member with rfl | member
    · refine .inl ?_
      rw [pull] at nothing
      split at nothing
      · cases nothing
      · rename_i sub found
        split at nothing
        · cases nothing
        · rename_i empty
          refine ⟨sub, found, empty, ?_⟩
          by_contra gone
          simp [Subscription.isActive, gone] at nothing
    · exact a.heard w member
  · rename_i found hub got
    rw [got] at pulled
    exact pulled

theorem Attended.step (a : b.Attended) (x : Step) : (b.step x).Attended := by
  have lessCovered : ∀ {p : Nat}, ∀ w ∈ b.takers.asleep,
      b.hub.freeAt w.2 ≤ b.takers.transit w.2 + if w.2 = p then 1 else 0 := fun w member =>
    Nat.le_add_right_of_le (a.covered w member)
  cases x with
  | part x => exact a.part x
  | acquire t p =>
    rw [Blocking.step]
    split
    · exact a
    · exact .take a.known lessCovered a.heard
  | pull t s =>
    rw [Blocking.step]
    split
    · exact a
    · exact a.attend t s
  | tellTaker t p =>
    refine ⟨fun w member => a.known w (Bell.mem_asleep_tellOne member), fun w member => ?_, a.heard⟩
    change _ ≤ (b.takers.tellOne t p).transit w.2
    rw [Bell.transit_tellOne member]
    exact a.covered w (Bell.mem_asleep_tellOne member)
  | tellPullers s =>
    refine ⟨a.known, a.covered, fun w member => ?_⟩
    obtain ⟨before, due⟩ := Bell.mem_tellAll member
    exact (a.heard w before).imp_right due
  | retake t p =>
    rw [Blocking.step]
    split
    · rename_i woken
      refine .take a.known (fun w member => ?_) a.heard
      have risen := Bell.transit_rise (p := w.2) (List.contains_iff_mem.1 woken)
      have before := a.covered w member
      change b.hub.freeAt w.2 ≤ (b.takers.rise t p).transit w.2 + _
      omega
    · exact a
  | repull t s =>
    rw [Blocking.step]
    split
    · have risen : { b with pullers := b.pullers.rise t s }.Attended := ⟨a.known, a.covered, a.heard⟩
      exact risen.attend t s
    · exact a
  | expire t s =>
    exact ⟨a.known, a.covered, fun w member => a.heard w (List.mem_of_mem_erase member)⟩

theorem Attended.run (a : b.Attended) (steps : List Step) : (b.run steps).Attended := by
  induction steps generalizing b with
  | nil => exact a
  | cons x steps ih => exact ih (a.step x)

/-- After any steps: where a slot is free and a thread sleeps for its pool, a woken thread has still
to look, or a notification is still due. Where a copy is queued or the publisher is gone and a
thread sleeps for the subscription, the notification of all its sleepers is still due. -/
theorem told_in_time (h : Hub) (steps : List Step) :
    (∀ t p P, (t, p) ∈ (run { hub := h } steps).takers.asleep →
      (run { hub := h } steps).hub.pools.get? p = some P → P.free ≠ [] →
      (∃ u, (u, p) ∈ (run { hub := h } steps).takers.woken) ∨
        p ∈ (run { hub := h } steps).takers.due) ∧
    ∀ t s sub, (t, s) ∈ (run { hub := h } steps).pullers.asleep →
      (run { hub := h } steps).hub.subscriptions.get? s = some sub →
      sub.queue ≠ [] ∨ sub.publisher = none →
      s ∈ (run { hub := h } steps).pullers.due := by
  have start : Attended { hub := h } :=
    ⟨fun _ => nofun, fun _ => nofun, fun _ => nofun⟩
  have a := start.run steps
  refine ⟨fun t p P asleep found free => ?_, fun t s sub asleep found news => ?_⟩
  · have covered := a.covered _ asleep
    rw [freeAt, found] at covered
    have some_free := List.length_pos_of_ne_nil free
    have on_the_way : 0 < (run { hub := h } steps).takers.transit p :=
      Nat.lt_of_lt_of_le some_free covered
    rcases Nat.add_pos_iff_pos_or_pos.1 on_the_way with woken | due
    · obtain ⟨⟨u, q⟩, member, here⟩ := List.countP_pos_iff.1 woken
      obtain rfl : q = p := of_decide_eq_true here
      exact .inl ⟨u, member⟩
    · exact .inr (List.count_pos_iff.1 due)
  · refine (a.heard _ asleep).resolve_left ?_
    rintro ⟨sub', found', empty, active⟩
    obtain rfl := Option.some.inj (found.symm.trans found')
    rcases news with full | gone
    · exact full empty
    · simp [gone] at active

/-- A thread that asks for a slot may get it before the one that was woken, which sleeps again. -/
example :
    let stolen := run { hub := {} } [
      .part (.brief (.newPool "frames" 1 Payload.Shape.signal.factory)), .acquire 1 0, .acquire 2 0,
      .part (.move (.returned ⟨0, 0⟩)), .tellTaker 2 0, .acquire 3 0]
    stolen.takers.woken = [(2, 0)] ∧ stolen.takers.asleep = [] ∧
      (stolen.step (.retake 2 0)).takers.asleep = [(2, 0)] := by
  decide +kernel

end Blocking

end BufferFlow
