import BufferFlow.Proofs.Hub.Events
import BufferFlow.Proofs.Hub.Mail
import BufferFlow.Proofs.Hub.Roots
import BufferFlow.Proofs.Hub.Teardown
import BufferFlow.Proofs.Hub.Turnover
import Mathlib.Data.UInt

set_option autoImplicit false

namespace BufferFlow

/-- The publisher without these receivers. -/
def Publisher.without (P : Publisher) (given : List Nat) : Publisher :=
  { P with
    typed := P.typed.filter (· ∉ given)
    observers := P.observers.filter (· ∉ given) }

theorem Publisher.without_nil (P : Publisher) : P.without [] = P := by
  simp [without]

theorem Publisher.without_without (P : Publisher) (s : Nat) (given : List Nat) :
    (P.without [s]).without given = P.without (s :: given) := by
  simp [without, List.filter_filter, Bool.and_comm]

theorem Publisher.without_of_apart (P : Publisher) {s : Nat} (apart : s ∉ P.receivers) :
    P.without [s] = P := by
  have kept : ∀ l : List Nat, s ∉ l → l.filter (· ∉ [s]) = l := by
    intro l absent
    refine List.filter_eq_self.2 fun t member => ?_
    have other : t ≠ s := fun same => absent (same ▸ member)
    simpa using other
  rw [receivers, List.mem_append, not_or] at apart
  rw [without, kept _ apart.1, kept _ apart.2]

namespace Hub

variable {h h' h₁ h₂ : Hub} {given : List Nat} {ms ms₁ ms₂ : List Move} {s : Nat} {r : SlotRef}

theorem pools_perform_congr {g : Hub} (same : g.pools = h.pools) (m : Move) :
    (g.perform m).pools = (h.perform m).pools := by
  cases m <;> simp only [perform, discount, unchain, modifySlot, putBack, count, modifyPool, same]

theorem pools_performAll_congr {g : Hub} (same : g.pools = h.pools) (ms : List Move) :
    (g.performAll ms).pools = (h.performAll ms).pools := by
  induction ms generalizing g h with
  | nil => exact same
  | cons m ms ih => exact ih (pools_perform_congr same m)

def backs (ms : List Move) : Nat := (ms.filterMap Move.back?).length

theorem backs_append (a b : List Move) : backs (a ++ b) = backs a + backs b := by
  rw [backs, List.filterMap_append, List.length_append]
  rfl

theorem Silent.count_unchained (silent : Silent r ms) (c : Copy) : ms.count (.unchained r c) = 0 :=
  List.count_eq_zero.2 fun member => silent _ member rfl

theorem RecycledOnce.count_unchained {holds : Option Copy} (once : RecycledOnce r holds ms) (c : Copy) :
    ms.count (.unchained r c) = if holds = some c then 1 else 0 := by
  obtain ⟨x, y, z, rfl, silent_x, silent_y, silent_z⟩ := once
  have returned : [Move.returned r].count (.unchained r c) = 0 := rfl
  have own : (holds.toList.map (Move.unchained r)).count (.unchained r c) =
      if holds = some c then 1 else 0 := by
    cases holds with
    | none => rfl
    | some d => simp [List.count_singleton]
  rw [← List.singleton_append, List.count_append, List.count_append, List.count_append,
    List.count_append, silent_x.count_unchained, silent_y.count_unchained, silent_z.count_unchained,
    returned, own, Nat.zero_add, Nat.add_zero]

theorem recordAll_moves (c : Counters) (ms : List Move) :
    c.recordAll (ms.flatMap Move.events) =
      { c with buffersRecycled := c.buffersRecycled + .ofNat (backs ms) } := by
  induction ms generalizing c with
  | nil => exact congrArg (fun n => { c with buffersRecycled := n }) (UInt64.add_zero _).symm
  | cons m ms ih =>
    rw [List.flatMap_cons, Counters.recordAll_append, ih]
    cases m with
    | returned r =>
      have more : backs (.returned r :: ms) = 1 + backs ms := Nat.add_comm _ _
      rw [more, UInt64.ofNat_add, ← add_assoc]
      rfl
    | released | unchained => rfl

theorem Accounted.chainedAt_of_stacked (ha : h.Accounted) (present : (h.slot? r).isSome)
    (stacked : h.stackedAt r ≠ 0) : h.chainedAt r = none := by
  obtain ⟨state, inState⟩ := ha.inState present
  cases state with
  | free => exact inState.2.2.2.2
  | owned | published => exact absurd inState.1 stacked

theorem get?_publishers_unsubscribe (he : h.Enrolled) (s p : Nat) :
    (h.unsubscribe s).publishers.get? p = (h.publishers.get? p).map (·.without [s]) := by
  have apart : h.publisherOf? s ≠ some p →
      (h.publishers.get? p).map (·.without [s]) = h.publishers.get? p := by
    intro other
    cases there : h.publishers.get? p with
    | none => rfl
    | some P =>
      exact congrArg some (P.without_of_apart fun member => other ((he.paired p P there s).1 member))
  rcases unsubscribe_cases h s with ⟨detached, same⟩ | ⟨sub, q, found, named, same⟩ <;> rw [same]
  · refine (apart fun here => ?_).symm
    obtain ⟨sub, found, named⟩ := publisherOf?_eq_some.1 here
    cases (detached sub found).symm.trans named
  · rw [Table.get?_modify]
    split
    · refine congrArg (Option.map · _) (funext fun P => ?_)
      simp [Publisher.without]
    · rename_i other
      refine (apart fun here => other ?_).symm
      exact Option.some.inj (here.symm.trans (publisherOf?_eq_some.2 ⟨sub, found, named⟩))

theorem publishers_detach (h : Hub) (s : Nat) :
    (h.detach s).publishers = (h.unsubscribe s).publishers := by
  change ((h.unsubscribe s).cancel s).publishers = _
  rcases cancel_cases (h.unsubscribe s) s with ⟨-, same⟩ | ⟨sub, a, -, -, same⟩ <;> rw [same]

theorem blanks_detach (h : Hub) (s : Nat) : (h.detach s).blanks = h.blanks := by
  have unsubscribed : (h.unsubscribe s).blanks = h.blanks := by
    rcases unsubscribe_cases h s with ⟨-, same⟩ | ⟨sub, p, -, -, same⟩ <;> rw [same]
  change ((h.unsubscribe s).cancel s).blanks = h.blanks
  rw [← unsubscribed]
  rcases cancel_cases (h.unsubscribe s) s with ⟨-, same⟩ | ⟨sub, a, -, -, same⟩ <;> rw [same]

theorem get?_post_cancelMail (h : Hub) (s m : Nat) :
    (post h.mailboxes (h.cancelMail s)).get? m = (h.mailboxes.get? m).map fun M =>
      { M with pending := M.pending - [s].countP fun s => (h.armedOf? s).any (·.mailbox = m) } := by
  rw [cancelMail]
  cases armed : h.armedOf? s with
  | none =>
    have nothing : ([s].countP fun s => (h.armedOf? s).any (·.mailbox = m)) = 0 := by simp [armed]
    rw [nothing]
    change h.mailboxes.get? m = _
    cases h.mailboxes.get? m <;> rfl
  | some a =>
    refine (get?_post_one h.mailboxes ⟨a.mailbox, .withdrawn⟩ m).trans ?_
    split
    · rename_i here
      have once : ([s].countP fun s => (h.armedOf? s).any (·.mailbox = m)) = 1 := by
        simp [armed, here]
      rw [once]
      rfl
    · rename_i other
      have nothing : ([s].countP fun s => (h.armedOf? s).any (·.mailbox = m)) = 0 := by
        simp [armed, Ne.symm other]
      rw [nothing]
      cases h.mailboxes.get? m <;> rfl

theorem Expected.awaited (expected : h.Expected) {m : Nat} {M : Mailbox}
    (there : h.mailboxes.get? m = some M) (s : Nat) :
    ([s].countP fun s => (h.armedOf? s).any (·.mailbox = m)) ≤ M.pending := by
  by_cases here : (h.armedOf? s).any (·.mailbox = m)
  · obtain ⟨a, armed, same⟩ := (Option.any_eq_true _ _).1 here
    obtain rfl := of_decide_eq_true same
    rw [expected.pending _ M there]
    exact Nat.le_trans List.countP_le_length (armedWith_pos armed)
  · have nothing : ([s].countP fun s => (h.armedOf? s).any (·.mailbox = m)) = 0 := by simp [here]
    rw [nothing]
    exact Nat.zero_le _

/-- What is left when the given subscriptions are dropped, in these moves. -/
structure Forgoes (h h' : Hub) (given : List Nat) (ms : List Move) : Prop where
  subscriptions : ∀ t, h'.subscriptions.get? t = if t ∈ given then none else h.subscriptions.get? t
  publishers : ∀ p, h'.publishers.get? p = (h.publishers.get? p).map (·.without given)
  /-- What was armed is not waited for any more. No join fails because of it. -/
  mailboxes : ∀ m, h'.mailboxes.get? m = (h.mailboxes.get? m).map fun M =>
    { M with pending := M.pending - given.countP fun s => (h.armedOf? s).any (·.mailbox = m) }
  awaited : ∀ m M, h.mailboxes.get? m = some M →
    (given.countP fun s => (h.armedOf? s).any (·.mailbox = m)) ≤ M.pending
  cells : h'.cells = h.cells
  blanks : h'.blanks = h.blanks
  held : h'.held = h.held
  serial : h'.serial = h.serial
  counters : h'.counters = { h.counters with
    buffersRecycled := h.counters.buffersRecycled + .ofNat (backs ms)
    subscriptionsActive := h.counters.subscriptionsActive - .ofNat given.length }
  pools : h'.pools = (h.performAll ms).pools
  released : released ms = given.flatMap h.queueOf
  /-- A slot that goes back lets go of what it holds, and no other slot does. -/
  unchained : ∀ r, (h.slot? r).isSome →
    (∀ c, ms.count (.unchained r c) = if .returned r ∈ ms ∧ h.chainedAt r = some c then 1 else 0) ∧
      h'.chainedAt r = if .returned r ∈ ms then none else h.chainedAt r
  payloads : ∀ r, h'.payload? r = h.payload? r

namespace Forgoes

theorem refl (h : Hub) : Forgoes h h [] [] where
  subscriptions := fun t => (if_neg List.not_mem_nil).symm
  publishers := fun p => by
    cases h.publishers.get? p with
    | none => rfl
    | some P => exact congrArg some P.without_nil.symm
  mailboxes := fun m => by cases h.mailboxes.get? m <;> rfl
  awaited := fun _ M _ => Nat.zero_le M.pending
  cells := rfl
  blanks := rfl
  held := rfl
  serial := rfl
  counters := by
    change _ = { h.counters with
      buffersRecycled := h.counters.buffersRecycled + 0
      subscriptionsActive := h.counters.subscriptionsActive - 0 }
    rw [UInt64.add_zero, UInt64.sub_zero]
  pools := rfl
  released := rfl
  unchained := fun r _ => ⟨fun c => by simp, by simp⟩
  payloads := fun _ => rfl

theorem slot?_isSome (f : Forgoes h h' given ms) (r : SlotRef) :
    (h'.slot? r).isSome = (h.slot? r).isSome := by
  have same : h'.slot? r = (h.performAll ms).slot? r := by rw [slot?, f.pools, slot?]
  rw [same, slot?_performAll_isSome]

theorem cons (first : Forgoes h h₁ [s] ms₁) (rest : Forgoes h₁ h₂ given ms₂) (apart : s ∉ given) :
    Forgoes h h₂ (s :: given) (ms₁ ++ ms₂) := by
  have kept : ∀ t ∈ given, h₁.subscriptions.get? t = h.subscriptions.get? t := by
    intro t mine
    have other : t ∉ [s] := fun same => apart (by rwa [← List.mem_singleton.1 same])
    rw [first.subscriptions, if_neg other]
  have armed : ∀ t ∈ given, h₁.armedOf? t = h.armedOf? t := fun t mine => by
    rw [armedOf?, kept t mine, armedOf?]
  have queues : ∀ t ∈ given, h₁.queueOf t = h.queueOf t := fun t mine => by
    rw [queueOf, kept t mine, queueOf]
  have counted : ∀ m, (given.countP fun t => (h₁.armedOf? t).any (·.mailbox = m)) =
      given.countP fun t => (h.armedOf? t).any (·.mailbox = m) := fun m =>
    List.countP_congr fun t mine => by rw [armed t mine]
  have split : ∀ m, ((s :: given).countP fun t => (h.armedOf? t).any (·.mailbox = m)) =
      ([s].countP fun t => (h.armedOf? t).any (·.mailbox = m)) +
        given.countP fun t => (h.armedOf? t).any (·.mailbox = m) := fun m => by
    rw [← List.countP_append, List.singleton_append]
  refine ⟨fun t => ?_, fun p => ?_, fun m => ?_, fun m M found => ?_, rest.cells.trans first.cells,
    rest.blanks.trans first.blanks, rest.held.trans first.held, rest.serial.trans first.serial,
    ?_, ?_, ?_, fun r present => ?_, fun r => (rest.payloads r).trans (first.payloads r)⟩
  · rw [rest.subscriptions, first.subscriptions]
    simp only [List.mem_cons, List.not_mem_nil, or_false]
    split_ifs <;> simp_all
  · rw [rest.publishers, first.publishers, Option.map_map]
    exact congrArg (Option.map · _) (funext fun P => P.without_without s given)
  · rw [rest.mailboxes, first.mailboxes, Option.map_map]
    refine congrArg (Option.map · _) (funext fun M => ?_)
    simp only [Function.comp_apply, counted, split, Nat.sub_sub]
  · have found₁ : h₁.mailboxes.get? m = _ := first.mailboxes m
    rw [found] at found₁
    have before := first.awaited m M found
    have after := rest.awaited m _ found₁
    dsimp only at after
    rw [counted] at after
    rw [split]
    omega
  · have recycled : ∀ x : UInt64, x + .ofNat (backs ms₁) + .ofNat (backs ms₂) =
        x + .ofNat (backs (ms₁ ++ ms₂)) := fun x => by
      rw [backs_append, UInt64.ofNat_add, add_assoc]
    have active : ∀ x : UInt64, x - .ofNat [s].length - .ofNat given.length =
        x - .ofNat (s :: given).length := fun x => by
      have grown : (s :: given).length = [s].length + given.length := Nat.add_comm _ _
      rw [grown, UInt64.ofNat_add, sub_sub]
    rw [rest.counters, first.counters]
    simp only [recycled, active]
  · rw [rest.pools, pools_performAll_congr first.pools, performAll_append]
  · rw [released_append, first.released, rest.released, List.flatMap_cons, List.flatMap_congr queues]
    simp
  · obtain ⟨before, between⟩ := first.unchained r present
    obtain ⟨after, left⟩ := rest.unchained r ((first.slot?_isSome r).trans present)
    simp only [List.count_append, List.mem_append, before, after, between, left]
    by_cases once : .returned r ∈ ms₁ <;> simp [once]

theorem one (sound : h.Sound) (known : h.subscriptions.contains s) :
    Forgoes h (h.apply (.dropSubscription s)) [s] (h.moves (.dropSubscription s)) := by
  obtain ⟨sub, found⟩ := Option.isSome_iff_exists.1 known
  have lets : (Operation.dropSubscription s).LetsGo := trivial
  obtain ⟨log, same⟩ : ∃ log, h.apply (.dropSubscription s) =
      ({ h.detach s with log }.giveUpAll sub.queue).count .subscriptionClosed := by
    rcases dropSubscription_cases h s with ⟨absent, -⟩ | ⟨sub', log, found', same⟩
    · cases absent.symm.trans found
    · exact ⟨log, (Option.some.inj (found.symm.trans found')) ▸ same⟩
  have peers := SamePeers.giveUpAll { h.detach s with log } sub.queue
  have told : (h.apply (.dropSubscription s)).mailboxes = post h.mailboxes (h.cancelMail s) :=
    mailboxes_apply (by simp)
  have pools : (h.apply (.dropSubscription s)).pools =
      (h.performAll (h.moves (.dropSubscription s))).pools := by
    rw [pools_apply]
    exact pools_performAll_congr (pools_prepared_letsGo lets) _
  refine ⟨fun t => ?_, fun p => ?_, fun m => ?_, fun m M there => ?_, ?_, ?_, held_dropSubscription h s,
    serial_apply (by simp), ?_, ?_, ?_, fun r present => ?_, fun r => ?_⟩
  · rw [same]
    refine (congrArg (Table.get? · t) peers.links.subscriptions).trans ?_
    rw [get?_detach]
    simp
  · rw [same]
    refine (congrArg (Table.get? · p) peers.links.publishers).trans ?_
    change (h.detach s).publishers.get? p = _
    rw [publishers_detach, get?_publishers_unsubscribe sound.enrolled]
  · exact (congrArg (Table.get? · m) told).trans (get?_post_cancelMail h s m)
  · exact sound.expected.awaited there s
  · rw [same]
    exact peers.links.cells.trans (cells_detach h s)
  · rw [same]
    exact peers.blanks.trans (blanks_detach h s)
  · have own : h.ownEvents (.dropSubscription s) = [.subscriptionClosed] := if_pos known
    have counted : (h.apply (.dropSubscription s)).counters =
        h.counters.recordAll (h.events (.dropSubscription s)) := counters_apply (by simp)
    rw [counted, events, Counters.recordAll_append, recordAll_moves, own]
    rfl
  · exact pools
  · rw [released_moves]
    simp [handsBack]
  · have holds : (h.prepared (.dropSubscription s)).chainedAt r = h.chainedAt r := by
      rw [chainedAt, slot?, pools_prepared_letsGo lets]
      rfl
    rcases moves_once sound.accounted (.dropSubscription s) present with silent | once
    · refine ⟨fun c => ?_, ?_⟩
      · rw [silent.count_unchained, if_neg fun both => silent.unreturned both.1]
      · have unchained : ∀ u, Operation.dropSubscription s = .chain r u → r ∉ h.blanks := by simp
        rw [if_neg silent.unreturned]
        exact (chainedAt_apply sound.accounted present unchained silent.unreturned).1
    · have returned := once.returned
      refine ⟨fun c => ?_, ?_⟩
      · simp only [once.count_unchained, holds, returned, true_and]
      · rw [if_pos returned]
        refine (sound.apply _).accounted.chainedAt_of_stacked (present_apply present _) ?_
        have stacked := stackedAt_performAll present (h.moves (.dropSubscription s))
        rw [stackedAt, ← pools, ← stackedAt] at stacked
        have back := List.count_pos_iff.2 returned
        omega
  · exact payload?_apply_of_old (by simp) (by simp)

theorem all (sound : h.Sound) (once : given.Nodup) (known : ∀ s ∈ given, h.subscriptions.contains s) :
    Forgoes h (h.applyAll (given.map .dropSubscription)) given
      (h.trace (given.map .dropSubscription)) := by
  induction given generalizing h with
  | nil => exact .refl h
  | cons s given ih =>
    obtain ⟨apart, once⟩ := List.nodup_cons.1 once
    have first := one sound (known s List.mem_cons_self)
    refine first.cons (ih (sound.apply _) once fun t mine => ?_) apart
    have other : t ∉ [s] := fun same => apart (by rwa [← List.mem_singleton.1 same])
    rw [Table.contains, first.subscriptions, if_neg other]
    exact known t (List.mem_cons_of_mem s mine)

theorem relog (f : Forgoes h h' given ms) (log : List Record) :
    Forgoes h { h' with log } given ms :=
  ⟨f.subscriptions, f.publishers, f.mailboxes, f.awaited, f.cells, f.blanks, f.held, f.serial,
    f.counters, f.pools, f.released, f.unchained, f.payloads⟩

theorem returned (f : Forgoes h h' given ms) (reached : h.Reachable) (reached' : h'.Reachable)
    (present : (h.slot? r).isSome) : ms.count (.returned r) ≤ 1 ∧
      (.returned r ∈ ms ↔ h.Rooted r ∧ ¬ h'.Rooted r) := by
  have stacked := stackedAt_performAll present ms
  rw [stackedAt, ← f.pools, ← stackedAt] at stacked
  have present' : (h'.slot? r).isSome := (f.slot?_isSome r).trans present
  have atMostOnce : ∀ {g : Hub}, g.Sound → (g.slot? r).isSome → g.stackedAt r ≤ 1 := by
    intro g sound there
    obtain ⟨state, inState⟩ := sound.accounted.inState there
    cases state with
    | free => exact Nat.le_of_eq inState.1
    | owned | published => exact inState.1.le.trans (Nat.zero_le 1)
  have rooted_iff : ∀ {g : Hub}, g.Reachable → (g.slot? r).isSome → (g.Rooted r ↔ g.stackedAt r = 0) :=
    fun reached there => ⟨fun rooted => (rooted.unstacked reached.sound.accounted).2,
      rooted_of_unstacked reached.sound reached.descends there⟩
  have before := atMostOnce reached.sound present
  have after := atMostOnce reached'.sound present'
  rw [rooted_iff reached present, rooted_iff reached' present', ← List.count_pos_iff]
  omega

end Forgoes

end Hub

end BufferFlow
