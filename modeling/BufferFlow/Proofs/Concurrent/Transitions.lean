import BufferFlow.Hub.Concurrent
import BufferFlow.Proofs.Hub.Steps

set_option autoImplicit false

namespace BufferFlow

namespace Operation

/-- One critical section. -/
def Atomic : Operation → Prop
  | publish .. | dropSubscription _ | dropPublisher _ => False
  | _ => True

theorem Atomic.quiet {op : Operation} (one : op.Atomic) (p : Nat) (blank : SlotRef) :
    op ≠ .publish p blank := by
  rintro rfl
  exact one

def owner? : Operation → Option Nat
  | pull s | arm s _ | cancel s => some s
  | _ => none

end Operation

namespace Concurrent

variable {c : Concurrent} {id i : Nat} {call call' : Call} {hub : Hub} {α : Type}

theorem get?_begin (c : Concurrent) (hub : Hub) (call : Call) (i : Nat) :
    (c.begin hub call).calls.get? i = if i = c.calls.next then some call else c.calls.get? i :=
  Table.get?_insert _ _ _

theorem get?_proceed (found : c.calls.get? id = some call) (hub : Hub) (call' : Call) (i : Nat) :
    (c.proceed id hub call').calls.get? i = if i = id then some call' else c.calls.get? i := by
  rw [proceed, Table.get?_modify]
  split
  · rename_i here
    rw [here, found]
    rfl
  · rfl

theorem get?_finish (c : Concurrent) (id : Nat) (hub : Hub) (i : Nat) :
    (c.finish id hub).calls.get? i = if i = id then none else c.calls.get? i :=
  Table.get?_erase _ _ _

theorem locked_iff {p : Nat} :
    c.locked p = true ↔ ∃ id call, c.calls.get? id = some call ∧ call.locks = some p := by
  simp only [locked, List.any_eq_true, decide_eq_true_eq, Table.mem_values]
  exact ⟨fun ⟨call, ⟨id, found⟩, locks⟩ => ⟨id, call, found, locks⟩,
    fun ⟨id, call, found, locks⟩ => ⟨call, ⟨id, found⟩, locks⟩⟩

theorem dropping_iff {s : Nat} :
    c.dropping s = true ↔ ∃ id call, c.calls.get? id = some call ∧ call.drops = some s := by
  simp only [dropping, List.any_eq_true, decide_eq_true_eq, Table.mem_values]
  exact ⟨fun ⟨call, ⟨id, found⟩, drops⟩ => ⟨id, call, found, drops⟩,
    fun ⟨id, call, found, drops⟩ => ⟨call, ⟨id, found⟩, drops⟩⟩

def gathered (c : Concurrent) (f : Call → List α) : List α := c.calls.values.flatMap f

theorem gathered_begin (c : Concurrent) (hub : Hub) (call : Call) (f : Call → List α) :
    (c.begin hub call).gathered f = f call ++ c.gathered f := rfl

theorem gathered_finish (found : c.calls.get? id = some call) (hub : Hub) (f : Call → List α) :
    (c.gathered f).Perm (f call ++ (c.finish id hub).gathered f) :=
  (Table.values_perm found).flatMap_right f

theorem gathered_proceed (found : c.calls.get? id = some call) (hub : Hub) (call' : Call)
    (f : Call → List α) : ((c.proceed id hub call').gathered f).Perm
      (f call' ++ (c.finish id hub).gathered f) :=
  (Table.values_modify_perm found fun _ => call').flatMap_right f

theorem gathered_map {β : Type} (c : Concurrent) (f : Call → List α) (g : α → β) :
    (c.gathered f).map g = c.gathered fun call => (f call).map g :=
  List.map_flatMap

theorem mem_gathered {f : Call → List α} {a : α} :
    a ∈ c.gathered f ↔ ∃ id call, c.calls.get? id = some call ∧ a ∈ f call := by
  simp only [gathered, List.mem_flatMap, Table.mem_values]
  exact ⟨fun ⟨call, ⟨id, found⟩, member⟩ => ⟨id, call, found, member⟩,
    fun ⟨id, call, found, member⟩ => ⟨call, ⟨id, found⟩, member⟩⟩

theorem gathered_exchange (found : c.calls.get? id = some call) (hub : Hub) (call' : Call)
    (f : Call → List α) :
    (f call ++ (c.proceed id hub call').gathered f).Perm (f call' ++ c.gathered f) := by
  have before := gathered_finish found hub f
  have after := gathered_proceed found hub call' f
  refine (after.append_left _).trans (List.Perm.trans ?_ (before.symm.append_left _))
  rw [← List.append_assoc, ← List.append_assoc]
  exact List.perm_append_comm.append_right _

theorem gathered_moved (found : c.calls.get? id = some call) (hub : Hub) {f : Call → List α}
    {a b l l' : List α} (moved : (a ++ (f call ++ l)).Perm (b ++ (f call' ++ l'))) :
    (a ++ (c.gathered f ++ l)).Perm (b ++ ((c.proceed id hub call').gathered f ++ l')) := by
  have apart : ∀ {k g own rest l : List α}, g.Perm (own ++ rest) →
      (k ++ (g ++ l)).Perm ((k ++ (own ++ l)) ++ rest) := by
    intro k g own rest l split
    rw [List.append_assoc, List.append_assoc]
    refine List.Perm.append_left k ((split.append_right l).trans ?_)
    rw [List.append_assoc]
    exact List.perm_append_comm.append_left own
  have before := apart (gathered_finish found hub f) (k := a) (l := l)
  have after := apart (gathered_proceed found hub call' f) (k := b) (l := l')
  exact before.trans ((moved.append_right _).trans after.symm)

theorem gathered_same (found : c.calls.get? id = some call) (hub : Hub) {f : Call → List α}
    (same : f call' = f call) : (c.gathered f).Perm ((c.proceed id hub call').gathered f) := by
  have exchanged := gathered_exchange found hub call' f
  rw [same] at exchanged
  exact ((List.perm_append_left_iff _).1 exchanged).symm

theorem gathered_over (found : c.calls.get? id = some call) (hub : Hub) {f : Call → List α}
    (nothing : f call = []) : (c.gathered f).Perm ((c.finish id hub).gathered f) := by
  have before := gathered_finish found hub f
  rwa [nothing] at before

def leaving (s : Nat) : Option Nat → Call
  | none => .draining s
  | some p => .unsubscribing s p

/-- The step may have to wait, or find that what it asks for is gone. -/
def MayWait (c : Concurrent) : Step → Prop
  | .start (.publish p r) => ¬ (r ∈ c.hub.blanks ∧ ¬ c.locked p)
  | .start (.subscribe p _) => c.locked p
  | .start (.pull s) | .start (.arm s _) | .start (.cancel s) => c.dropping s
  | .start (.dropSubscription _) | .start (.dropPublisher _) => True
  | .start _ => False
  | .resume id => ∀ call, c.calls.get? id = some call → ∃ s p, call = .unsubscribing s p

inductive Transition (c : Concurrent) : Step → Concurrent → Prop
  | idle {x : Step} (waits : c.MayWait x) : Transition c x c
  | atomic {op : Operation} (one : op.Atomic)
      (free : ∀ s, op.owner? = some s → ¬ c.dropping s)
      (unlocked : ∀ p erased, op = .subscribe p erased → ¬ c.locked p) :
      Transition c (.start op) { c with hub := c.hub.apply op }
  | published {p : Nat} {r : SlotRef} (owned : r ∈ c.hub.blanks) (unlocked : ¬ c.locked p) :
      Transition c (.start (.publish p r))
        (c.begin (c.hub.spend r) (.counting p r c.hub.serial (c.hub.receivers p)))
  | left {s : Nat} {sub : Subscription} (found : c.hub.subscriptions.get? s = some sub)
      (free : ¬ c.dropping s) :
      Transition c (.start (.dropSubscription s))
        (c.begin (c.hub.modifySubscription s ({ · with publisher := none }))
          (leaving s sub.publisher))
  | closed {p : Nat} {P : Publisher} (found : c.hub.publishers.get? p = some P)
      (unlocked : ¬ c.locked p) :
      Transition c (.start (.dropPublisher p)) (c.begin c.hub (.invalidating p P.fanOut))
  | unheard {id p : Nat} {r : SlotRef} {n : Nat}
      (found : c.calls.get? id = some (.counting p r n [])) :
      Transition c (.resume id) (c.proceed id c.hub (.recycling r n))
  | counted {id p : Nat} {r : SlotRef} {n : Nat} {l : List Nat}
      (found : c.calls.get? id = some (.counting p r n l)) (somebody : l ≠ []) :
      Transition c (.resume id)
        (c.proceed id (c.hub.addCopies r l.length) (.pushing p r n l.length l))
  | pushed {id p : Nat} {r : SlotRef} {n fanOut s : Nat} {rest : List Nat}
      (found : c.calls.get? id = some (.pushing p r n fanOut (s :: rest))) :
      Transition c (.resume id) (c.proceed id (c.hub.push r n s) (.pushing p r n fanOut rest))
  | unlocked {id p : Nat} {r : SlotRef} {n fanOut : Nat}
      (found : c.calls.get? id = some (.pushing p r n fanOut [])) :
      Transition c (.resume id) (c.finish id (c.hub.count (.published fanOut.toUInt64)))
  | recycled {id : Nat} {r : SlotRef} {n : Nat} (found : c.calls.get? id = some (.recycling r n)) :
      Transition c (.resume id) (c.finish id ((c.hub.recycle r).count (.published 0)))
  | delisted {id s p : Nat} (found : c.calls.get? id = some (.unsubscribing s p))
      (unlocked : ¬ c.locked p) :
      Transition c (.resume id) (c.proceed id (c.hub.delist p s) (.draining s))
  | drained {id s : Nat} {sub : Subscription} (found : c.calls.get? id = some (.draining s))
      (there : c.hub.subscriptions.get? s = some sub) :
      Transition c (.resume id)
        (c.proceed id (c.hub.modifySubscription s ({ · with queue := [], armed := none }))
          (.withdrawing s sub.queue sub.armed))
  | withdrawn {id s : Nat} {drained : List Copy} {armed : Option Armed} (log : List Record)
      (found : c.calls.get? id = some (.withdrawing s drained armed)) :
      Transition c (.resume id)
        (c.proceed id { c.hub.withdraw armed with log } (.releasing s drained))
  | released {id s : Nat} {x : Copy} {drained : List Copy}
      (found : c.calls.get? id = some (.releasing s (x :: drained))) :
      Transition c (.resume id) (c.proceed id (c.hub.giveUp x) (.releasing s drained))
  | ended {id s : Nat} (found : c.calls.get? id = some (.releasing s [])) :
      Transition c (.resume id)
        (c.finish id ({ c.hub with subscriptions := c.hub.subscriptions.erase s }.count
          .subscriptionClosed))
  | invalidated {id p invalidated s : Nat} {P : Publisher} {rest : List Nat}
      (found : c.calls.get? id = some (.invalidating p invalidated))
      (there : c.hub.publishers.get? p = some P) (first : P.receivers = s :: rest) :
      Transition c (.resume id)
        (c.proceed id ({ c.hub with
          publishers := c.hub.publishers.modify p (·.tail) }.invalidate s)
            (.invalidating p invalidated))
  | tornDown {id p invalidated : Nat} {P : Publisher} (log : List Record)
      (found : c.calls.get? id = some (.invalidating p invalidated))
      (there : c.hub.publishers.get? p = some P) (nobody : P.receivers = []) :
      Transition c (.resume id)
        (c.finish id { c.hub with publishers := c.hub.publishers.erase p, log })
  | lost {id : Nat} {call : Call} (found : c.calls.get? id = some call)
      (gone : (∃ s, call = .draining s ∧ c.hub.subscriptions.get? s = none) ∨
        ∃ p n, call = .invalidating p n ∧ c.hub.publishers.get? p = none) :
      Transition c (.resume id) (c.finish id c.hub)

theorem start_transition (c : Concurrent) (op : Operation) :
    Transition c (.start op) (c.start op) := by
  have atomic : op.Atomic → op.owner? = none → (∀ p erased, op ≠ .subscribe p erased) →
      Transition c (.start op) { c with hub := c.hub.apply op } := fun one nobodys other =>
    .atomic one (fun s hs => by simp [nobodys] at hs) fun p erased same => absurd same (other p erased)
  have owned : ∀ s, op.Atomic → op.owner? = some s → (∀ p erased, op ≠ .subscribe p erased) →
      (c.dropping s → c.MayWait (.start op)) → Transition c (.start op)
        (if c.dropping s then c else { c with hub := c.hub.apply op }) := by
    intro s one owner other waits
    split
    · rename_i drops
      exact .idle (waits drops)
    · rename_i free
      refine .atomic one (fun t ht => ?_) fun p erased same => absurd same (other p erased)
      obtain rfl : s = t := Option.some.inj (owner.symm.trans ht)
      exact free
  cases op with
  | publish p blank =>
    simp only [start]
    split
    · rename_i both
      exact .published both.1 both.2
    · rename_i refused
      exact .idle refused
  | dropSubscription s =>
    simp only [start]
    split
    · exact .idle trivial
    · rename_i sub found
      split
      · exact .idle trivial
      · rename_i free
        exact .left found free
  | dropPublisher p =>
    simp only [start]
    split
    · exact .idle trivial
    · rename_i P found
      split
      · exact .idle trivial
      · rename_i unlocked
        exact .closed found unlocked
  | subscribe p erased =>
    simp only [start]
    split
    · rename_i locked
      exact .idle locked
    · rename_i unlocked
      refine .atomic trivial (fun s hs => by simp [Operation.owner?] at hs) fun q e same => ?_
      obtain ⟨rfl, -⟩ := Operation.subscribe.inj same
      exact unlocked
  | pull s => exact owned s trivial rfl (fun _ _ => nofun) id
  | arm s mailbox => exact owned s trivial rfl (fun _ _ => nofun) id
  | cancel s => exact owned s trivial rfl (fun _ _ => nofun) id
  | _ => exact atomic trivial rfl fun _ _ => nofun

theorem advance_transition (found : c.calls.get? id = some call) :
    Transition c (.resume id) (c.advance id call) := by
  cases call with
  | counting p r n l =>
    cases l with
    | nil => exact .unheard found
    | cons s rest => exact .counted found (List.cons_ne_nil s rest)
  | pushing p r n fanOut rest =>
    cases rest with
    | nil => exact .unlocked found
    | cons s rest => exact .pushed found
  | recycling r n => exact .recycled found
  | unsubscribing s p =>
    simp only [advance]
    split
    · refine .idle fun call there => ⟨s, p, ?_⟩
      exact Option.some.inj (there.symm.trans found)
    · rename_i unlocked
      exact .delisted found unlocked
  | draining s =>
    simp only [advance]
    split
    · rename_i absent
      exact .lost found (.inl ⟨s, rfl, absent⟩)
    · rename_i sub there
      exact .drained found there
  | withdrawing s drained armed => exact .withdrawn _ found
  | releasing s drained =>
    cases drained with
    | nil => exact .ended found
    | cons x drained => exact .released found
  | invalidating p n =>
    simp only [advance]
    split
    · rename_i absent
      exact .lost found (.inr ⟨p, n, rfl, absent⟩)
    · rename_i P there
      split
      · rename_i s rest first
        exact .invalidated found there first
      · rename_i nobody
        exact .tornDown _ found there nobody

theorem step_transition (c : Concurrent) (x : Step) : Transition c x (c.step x) := by
  cases x with
  | start op => exact start_transition c op
  | resume id =>
    simp only [step, resume]
    split
    · rename_i nobody
      exact .idle fun call found => by simp [nobody] at found
    · rename_i call found
      exact advance_transition found

theorem run_append (c : Concurrent) (a b : List Step) : c.run (a ++ b) = (c.run a).run b :=
  List.foldl_append

def Reachable (c : Concurrent) : Prop := ∃ steps, c = run {} steps

theorem Reachable.step (hc : c.Reachable) (x : Step) : (c.step x).Reachable := by
  obtain ⟨steps, rfl⟩ := hc
  exact ⟨steps ++ [x], (run_append {} steps [x]).symm⟩

theorem Reachable.run (hc : c.Reachable) (steps : List Step) : (c.run steps).Reachable := by
  obtain ⟨before, rfl⟩ := hc
  exact ⟨before ++ steps, (run_append {} before steps).symm⟩

end Concurrent

end BufferFlow
