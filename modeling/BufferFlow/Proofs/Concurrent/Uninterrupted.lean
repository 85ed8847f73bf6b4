import BufferFlow.Proofs.Concurrent.Accounting

set_option autoImplicit false

namespace BufferFlow

namespace Table

variable {α : Type}

theorem modify_insert (t : Table α) (a b : α) :
    ((t.insert a).2.modify t.next fun _ => b) = (t.insert b).2 := by
  have older : t.entries.map (fun e => if e.1 = t.next then (e.1, b) else e) = t.entries := by
    conv_rhs => rw [← List.map_id t.entries]
    refine List.map_congr_left fun e he => if_neg (Nat.ne_of_lt ?_)
    exact t.lt_next (List.mem_map_of_mem he)
  simp only [insert, modify, List.map_cons, ↓reduceIte, older]

theorem get?_erase_insert (t : Table α) (a : α) (i : Nat) :
    ((t.insert a).2.erase t.next).get? i = t.get? i := by
  rw [get?_erase, get?_insert]
  split
  · rename_i here
    rw [here, get?_of_le (Nat.le_refl _)]
  · rfl

theorem erase_modify (t : Table α) (id : Nat) (f : α → α) :
    (t.modify id f).erase id = t.erase id := by
  simp only [erase, modify, mk.injEq, true_and]
  induction t.entries with
  | nil => rfl
  | cons e es ih =>
    rw [List.map_cons]
    by_cases he : e.1 = id
    · rw [if_pos he, List.filter_cons_of_neg (by simp [he]), List.filter_cons_of_neg (by simp [he]), ih]
    · rw [if_neg he, List.filter_cons_of_pos (by simpa using he),
        List.filter_cons_of_pos (by simpa using he), ih]

end Table

namespace Hub

variable {h : Hub}

theorem invalidate_publishers (h : Hub) (publishers : Table Publisher) (s : Nat) :
    { h with publishers }.invalidate s = { h.invalidate s with publishers } := by
  simp only [invalidate]
  split <;> rfl

theorem invalidateAll_publishers (h : Hub) (publishers : Table Publisher) (l : List Nat) :
    l.foldl invalidate { h with publishers } = { l.foldl invalidate h with publishers } := by
  induction l generalizing h with
  | nil => rfl
  | cons s l ih =>
    rw [List.foldl_cons, List.foldl_cons, invalidate_publishers]
    exact ih (h.invalidate s)

theorem recycleWith_subscriptions (subscriptions : Table Subscription) (fuel : Nat) (h : Hub)
    (r : SlotRef) : recycleWith fuel { h with subscriptions } r =
      { recycleWith fuel h r with subscriptions } := by
  induction fuel generalizing h r with
  | zero => rfl
  | succ fuel ih =>
    rw [recycleWith, recycleWith]
    have held : { h with subscriptions }.chainedAt r = h.chainedAt r := rfl
    rw [held]
    cases h.chainedAt r with
    | none => rfl
    | some c =>
      dsimp only
      have counted : ({ h with subscriptions }.unchain r).copiesAt c.ref =
          (h.unchain r).copiesAt c.ref := rfl
      rw [counted]
      split
      · exact congrArg (·.putBack r) (ih ((h.unchain r).discount c.ref) c.ref)
      · rfl

theorem giveUp_subscriptions (h : Hub) (subscriptions : Table Subscription) (c : Copy) :
    { h with subscriptions }.giveUp c = { h.giveUp c with subscriptions } := by
  rw [giveUp, giveUp]
  have counted : { h with subscriptions }.copiesAt c.ref = h.copiesAt c.ref := rfl
  rw [counted]
  split
  · exact recycleWith_subscriptions subscriptions _ (h.discount c.ref) c.ref
  · rfl

end Hub

namespace Concurrent

open Hub

variable {c : Concurrent} {hub : Hub}

/-- When only its newest call goes on, `d` comes to that hub and to the other calls of `c`. -/
def Completes (c d : Concurrent) (hub : Hub) : Prop :=
  ∃ k, (d.run (List.replicate k (.resume c.calls.next))).hub = hub ∧
    ∀ i, (d.run (List.replicate k (.resume c.calls.next))).calls.get? i = c.calls.get? i

theorem completes_finish (c : Concurrent) (hub hub' : Hub) (call : Call) :
    c.Completes ((c.begin hub call).finish c.calls.next hub') hub' :=
  ⟨0, rfl, Table.get?_erase_insert c.calls call⟩

theorem Completes.resume {hub' : Hub} {call : Call}
    (later : c.Completes ((c.begin hub call).advance c.calls.next call) hub') :
    c.Completes (c.begin hub call) hub' := by
  obtain ⟨k, same, calls⟩ := later
  have found := get?_begin c hub call c.calls.next
  rw [if_pos rfl] at found
  have first : (c.begin hub call).step (.resume c.calls.next) =
      (c.begin hub call).advance c.calls.next call := by
    simp only [step, Concurrent.resume, found]
  rw [← first] at same calls
  exact ⟨k + 1, same, calls⟩

@[simp] theorem hub_begin (c : Concurrent) (hub : Hub) (call : Call) :
    (c.begin hub call).hub = hub := rfl

theorem proceed_begin (c : Concurrent) (hub hub' : Hub) (call call' : Call) :
    (c.begin hub call).proceed c.calls.next hub' call' = c.begin hub' call' := by
  rw [proceed, begin, begin, Table.modify_insert]

theorem completes_pushing (c : Concurrent) (p : Nat) (r : SlotRef) (n fanOut : Nat) (l : List Nat)
    (hub : Hub) : c.Completes (c.begin hub (.pushing p r n fanOut l))
      ((hub.pushAll r n l).count (.published fanOut.toUInt64)) := by
  induction l generalizing hub with
  | nil => exact .resume (completes_finish c hub _ _)
  | cons s l ih =>
    refine .resume ?_
    rw [advance, proceed_begin]
    exact ih (hub.push r n s)

theorem completes_publish {p : Nat} {r : SlotRef} (owned : r ∈ c.hub.blanks)
    (unlocked : ¬ c.locked p) :
    c.Completes (c.step (.start (.publish p r))) (c.hub.apply (.publish p r)) := by
  have started : c.step (.start (.publish p r)) =
      c.begin (c.hub.spend r) (.counting p r c.hub.serial (c.hub.receivers p)) :=
    if_pos ⟨owned, unlocked⟩
  rw [started, apply]
  rcases publish_cases c.hub p r with ⟨foreign, -⟩ | ⟨-, -, ⟨nobody, same⟩ | ⟨somebody, same⟩⟩
  · exact absurd owned foreign
  · rw [same, nobody]
    refine .resume ?_
    rw [advance, proceed_begin]
    exact .resume (completes_finish c _ _ _)
  · rw [same]
    refine .resume ?_
    cases receivers : c.hub.receivers p with
    | nil => exact absurd receivers somebody
    | cons s rest =>
      rw [advance, proceed_begin]
      exact completes_pushing c p r c.hub.serial _ (s :: rest) _

theorem completes_invalidating (c : Concurrent) (p n : Nat) (l : List Nat) {P : Publisher}
    (there : hub.publishers.get? p = some P) (receivers : P.receivers = l) :
    c.Completes (c.begin hub (.invalidating p n))
      ({ l.foldl invalidate hub with publishers := hub.publishers.erase p }.note .debug
        "Publisher torn down" [("publisher", P.name), ("invalidated", toString n)]) := by
  induction l generalizing hub P with
  | nil =>
    refine .resume ?_
    simp only [advance, hub_begin, there, receivers]
    exact completes_finish c hub _ _
  | cons s l ih =>
    let tailed := { hub with publishers := hub.publishers.modify p (·.tail) }
    have next : (tailed.invalidate s).publishers.get? p = some P.tail := by
      rw [publishers_invalidate, Table.get?_modify, if_pos rfl, there]
      rfl
    have rest : P.tail.receivers = l := by rw [Publisher.receivers_tail, receivers, List.tail_cons]
    have name : P.tail.name = P.name := by
      rw [Publisher.tail]
      split <;> rfl
    refine .resume ?_
    simp only [advance, hub_begin, there, receivers, proceed_begin]
    have later := ih next rest
    rw [name, publishers_invalidate, Table.erase_modify, invalidate_publishers,
      invalidateAll_publishers] at later
    rw [invalidate_publishers]
    exact later

theorem completes_dropPublisher {p : Nat} {P : Publisher}
    (there : c.hub.publishers.get? p = some P) (unlocked : ¬ c.locked p) :
    c.Completes (c.step (.start (.dropPublisher p))) (c.hub.apply (.dropPublisher p)) := by
  have started : c.step (.start (.dropPublisher p)) = c.begin c.hub (.invalidating p P.fanOut) := by
    simp only [step, start, there]
    exact if_neg unlocked
  have done := completes_invalidating c p P.fanOut P.receivers there rfl
  rw [started, apply, dropPublisher, there]
  rw [← publishers_invalidateAll c.hub P.receivers] at done
  exact done

theorem completes_releasing (c : Concurrent) (s : Nat) (drained : List Copy) (hub : Hub) :
    c.Completes (c.begin hub (.releasing s drained))
      ({ hub with subscriptions := hub.subscriptions.erase s }.giveUpAll drained |>.count
        .subscriptionClosed) := by
  induction drained generalizing hub with
  | nil => exact .resume (completes_finish c hub _ _)
  | cons x drained ih =>
    refine .resume ?_
    rw [advance, proceed_begin]
    have later := ih (hub.giveUp x)
    have same := (SamePeers.giveUp hub x).links.subscriptions
    rwa [same, ← giveUp_subscriptions] at later

theorem completes_draining {s : Nat} {sub : Subscription}
    (there : hub.subscriptions.get? s = some sub) :
    c.Completes (c.begin hub (.draining s))
      ((({ hub.withdraw sub.armed with subscriptions := hub.subscriptions.erase s }.note .trace
        "Subscription dropped" [("released", toString sub.queue.length)]).giveUpAll sub.queue).count
          .subscriptionClosed) := by
  refine .resume ?_
  simp only [advance, hub_begin, there, proceed_begin]
  refine .resume ?_
  rw [advance, proceed_begin]
  have released := completes_releasing c s sub.queue
    (((hub.modifySubscription s ({ · with queue := [], armed := none })).withdraw sub.armed).note
      .trace "Subscription dropped" [("released", toString sub.queue.length)])
  have erased : ((hub.modifySubscription s ({ · with queue := [], armed := none })).withdraw
      sub.armed).subscriptions.erase s = hub.subscriptions.erase s := by
    cases sub.armed <;> exact Table.erase_modify hub.subscriptions s _
  simp only [note, erased] at released ⊢
  generalize sub.armed = armed at released ⊢
  cases armed <;> exact released

theorem detach_eq {h : Hub} {s : Nat} {sub : Subscription}
    (there : h.subscriptions.get? s = some sub) :
    h.detach s = { (match sub.publisher with
      | none => h
      | some p => h.delist p s).withdraw sub.armed with
        subscriptions := h.subscriptions.erase s } := by
  have waiting : ((h.unsubscribe s).subscriptions.get? s).bind (·.armed) = sub.armed := by
    rw [get?_unsubscribe, there]
    rfl
  rw [detach, cancel, waiting, unsubscribe, there]
  obtain ⟨erased, publisher, queue, armed⟩ := sub
  cases publisher <;> cases armed <;>
    simp only [Option.bind_some, withdraw, delist, disarm, modifySubscription, modifyMailbox,
      Table.erase_modify]

theorem completes_dropSubscription {s : Nat} {sub : Subscription}
    (there : c.hub.subscriptions.get? s = some sub) (free : ¬ c.dropping s)
    (unlocked : ∀ p, sub.publisher = some p → ¬ c.locked p) :
    c.Completes (c.step (.start (.dropSubscription s))) (c.hub.apply (.dropSubscription s)) := by
  have started : c.step (.start (.dropSubscription s)) =
      c.begin (c.hub.modifySubscription s ({ · with publisher := none }))
        (leaving s sub.publisher) := by
    simp only [step, start, there]
    exact if_neg free
  have left : (c.hub.modifySubscription s ({ · with publisher := none })).subscriptions.get? s =
      some { sub with publisher := none } := by
    rw [modifySubscription, Table.get?_modify, if_pos rfl, there]
    rfl
  have done : c.hub.apply (.dropSubscription s) =
      ((c.hub.detach s).note .trace "Subscription dropped"
        [("released", toString sub.queue.length)] |>.giveUpAll sub.queue).count .subscriptionClosed := by
    rw [apply, dropSubscription, there]
    rfl
  rw [started, done, detach_eq there]
  cases named : sub.publisher with
  | none =>
    have drained := completes_draining (c := c) left
    rw [modifySubscription, Table.erase_modify] at drained
    generalize sub.armed = armed at drained ⊢
    cases armed <;> exact drained
  | some p =>
    refine .resume ?_
    have still : ¬ (c.begin (c.hub.modifySubscription s ({ · with publisher := none }))
      (.unsubscribing s p)).locked p := unlocked p named
    rw [leaving, advance, if_neg still, proceed_begin]
    have delisted : ((c.hub.modifySubscription s ({ · with publisher := none })).delist p
        s).subscriptions.get? s = some { sub with publisher := none } := left
    have drained := completes_draining (c := c) delisted
    simp only [delist, modifySubscription, Table.erase_modify] at drained
    generalize sub.armed = armed at drained ⊢
    cases armed <;> exact drained

def Quiet (c : Concurrent) : Prop := ∀ id, c.calls.get? id = none

theorem Quiet.unlocked (quiet : c.Quiet) (p : Nat) : ¬ c.locked p := by
  rw [locked_iff]
  rintro ⟨id, call, found, -⟩
  simp [quiet id] at found

theorem Quiet.free (quiet : c.Quiet) (s : Nat) : ¬ c.dropping s := by
  rw [dropping_iff]
  rintro ⟨id, call, found, -⟩
  simp [quiet id] at found

theorem Completes.run {op : Operation} (quiet : c.Quiet)
    (completes : c.Completes (c.step (.start op)) hub) :
    ∃ steps, (c.run steps).hub = hub ∧ (c.run steps).Quiet := by
  obtain ⟨k, same, calls⟩ := completes
  exact ⟨.start op :: List.replicate k (.resume c.calls.next), same,
    fun id => (calls id).trans (quiet id)⟩

/-- Started when nobody is in the middle of anything and not interrupted, an operation does what it
does in one go. -/
theorem run_uninterrupted (quiet : c.Quiet) (op : Operation) :
    ∃ steps, (c.run steps).hub = c.hub.apply op ∧ (c.run steps).Quiet := by
  have refused : c.hub.apply op = c.hub →
      ∃ steps, (c.run steps).hub = c.hub.apply op ∧ (c.run steps).Quiet := fun same =>
    ⟨[], same.symm, quiet⟩
  have atomic : c.step (.start op) = { c with hub := c.hub.apply op } →
      ∃ steps, (c.run steps).hub = c.hub.apply op ∧ (c.run steps).Quiet := by
    intro same
    refine ⟨[.start op], ?_, ?_⟩ <;> rw [run, List.foldl_cons, List.foldl_nil, same]
    exact quiet
  cases op with
  | publish p r =>
    by_cases owned : r ∈ c.hub.blanks
    · exact (completes_publish owned (quiet.unlocked p)).run quiet
    · exact refused (by simp only [apply, publish, if_neg owned])
  | dropPublisher p =>
    cases there : c.hub.publishers.get? p with
    | none => exact refused (by simp only [apply, dropPublisher, there])
    | some P => exact (completes_dropPublisher there (quiet.unlocked p)).run quiet
  | dropSubscription s =>
    cases there : c.hub.subscriptions.get? s with
    | none => exact refused (by simp only [apply, dropSubscription, there])
    | some sub =>
      exact (completes_dropSubscription there (quiet.free s) fun p _ => quiet.unlocked p).run quiet
  | subscribe p erased => exact atomic (if_neg (quiet.unlocked p))
  | pull s => exact atomic (if_neg (quiet.free s))
  | arm s mailbox => exact atomic (if_neg (quiet.free s))
  | cancel s => exact atomic (if_neg (quiet.free s))
  | _ => exact atomic rfl

end Concurrent

/-- What operations lead to one after the other, threads can lead to. -/
theorem Hub.Reachable.concurrent {h : Hub} (reached : h.Reachable) :
    ∃ c : Concurrent, c.Reachable ∧ c.hub = h ∧ c.Quiet := by
  obtain ⟨ops, rfl⟩ := reached
  suffices ∀ {c : Concurrent}, c.Reachable → c.Quiet →
      ∃ c' : Concurrent, c'.Reachable ∧ c'.hub = c.hub.applyAll ops ∧ c'.Quiet from
    this ⟨[], rfl⟩ fun _ => rfl
  intro c reached quiet
  induction ops generalizing c with
  | nil => exact ⟨c, reached, rfl, quiet⟩
  | cons op ops ih =>
    obtain ⟨steps, same, quiet⟩ := Concurrent.run_uninterrupted quiet op
    obtain ⟨c', reached', hub, quiet'⟩ := ih (reached.run steps) quiet
    exact ⟨c', reached', hub.trans (congrArg (·.applyAll ops) same), quiet'⟩

end BufferFlow
