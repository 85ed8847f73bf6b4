import BufferFlow.Network
import BufferFlow.Proofs.Hub.Supply

set_option autoImplicit false

namespace BufferFlow

namespace Hub

variable {h h' : Hub} {name : String} {capacity p : Nat} {factory : Payload.Factory}

theorem newPublisher_eq_ok
    (made : Network.newPublisher h name capacity factory = .ok (p, h')) :
    ∃ pool log, Pool.new name capacity factory = .ok pool ∧ p = h.publishers.next ∧
      h' = { h with
        pools := (h.pools.insert pool).2
        publishers := (h.publishers.insert { name, pool := h.pools.next }).2
        log } := by
  simp only [Network.newPublisher, newPool, bind, Except.bind] at made
  cases made' : Pool.new name capacity factory with
  | error failure => simp [made'] at made
  | ok pool =>
    rw [made'] at made
    obtain ⟨rfl, rfl⟩ := Prod.mk.inj (Except.ok.inj made)
    exact ⟨pool, _, rfl, rfl, rfl⟩

/-- The hub with a new pool and a publisher on it. -/
def furnish (h : Hub) (name : String) (pool : Pool) (log : List Record) : Hub :=
  { h with
    pools := (h.pools.insert pool).2
    publishers := (h.publishers.insert { name, pool := h.pools.next }).2
    log }

theorem furnish_eq {pool : Pool} (made : Pool.new name capacity factory = .ok pool)
    (log : List Record) :
    h.furnish name pool log = h.applyAll [.newPool name capacity factory,
      .newPublisher name h.pools.next, .tally h.counters log] := by
  simp only [applyAll, List.foldl_cons, List.foldl_nil, apply, newPool, made, bind, Except.bind]
  rfl

def equip (h : Hub) (name : String) (pool : Pool) (log : List Record) : Hub :=
  { h with
    pools := (h.pools.insert pool).2
    publishers := (h.publishers.insert { name, pool := h.pools.next }).2
    mailboxes := (h.mailboxes.insert {}).2
    log }

theorem equip_eq {pool : Pool} (made : Pool.new name capacity factory = .ok pool)
    (log : List Record) :
    h.equip name pool log = h.applyAll [.newPool name capacity factory,
      .newPublisher name h.pools.next, .newMailbox, .tally h.counters log] := by
  simp only [applyAll, List.foldl_cons, List.foldl_nil, apply, newPool, made, bind, Except.bind]
  rfl

theorem Reachable.applyAll (reached : h.Reachable) (ops : List Operation) :
    (h.applyAll ops).Reachable := by
  obtain ⟨before, rfl⟩ := reached
  exact ⟨before ++ ops, (applyAll_append _ before ops).symm⟩

end Hub

namespace Network

variable {n n' : Network} {name : String} {capacity primary stage : Nat} {gates : List Nat}
  {factory : Payload.Factory} {transform : Transform}

theorem newRelay_eq_ok {fill : Filler}
    (made : n.newRelay name capacity factory fill = .ok (stage, n')) :
    ∃ pool log, Pool.new name capacity factory = .ok pool ∧ stage = n.stages.next ∧
      n' = ⟨n.hub.furnish name pool log, (n.stages.insert
        { name, outlet := n.hub.publishers.next
          loop := .relay { publisher := n.hub.publishers.next, fill } }).2⟩ := by
  simp only [newRelay, bind, Except.bind] at made
  split at made
  · simp at made
  · rename_i built
    obtain ⟨pool, log, fresh, hp, hh⟩ := Hub.newPublisher_eq_ok built
    obtain ⟨rfl, rfl⟩ := Prod.mk.inj (Except.ok.inj made)
    rw [hp, hh]
    exact ⟨pool, log, fresh, rfl, rfl⟩

def nextLoop (n : Network) (primary : Nat) (gates : List Nat) (transform : Transform) :
    AggregatorLoop :=
  { publisher := n.hub.publishers.next, primary, gates, transform, mailbox := n.hub.mailboxes.next }

theorem newAggregator_eq_ok
    (made : n.newAggregator name capacity factory primary gates transform = (.ok stage, n')) :
    ∃ pool log, Pool.new name capacity factory = .ok pool ∧ stage = n.stages.next ∧
      n' = ⟨n.hub.equip name pool log, (n.stages.insert
        { name, outlet := n.hub.publishers.next
          loop := .aggregator (n.nextLoop primary gates transform) }).2⟩ := by
  rw [newAggregator] at made
  split at made
  · simp at made
  · rename_i publisher hub built
    obtain ⟨pool, log, fresh, rfl, rfl⟩ := Hub.newPublisher_eq_ok built
    obtain ⟨hstage, rfl⟩ := Prod.mk.inj made
    exact ⟨pool, _, fresh, (Except.ok.inj hstage).symm, rfl⟩

theorem newSink_eq_ok {description : Description} {buffers : Nat}
    (made : n.newSink name description buffers primary gates transform = (.ok stage, n')) :
    ∃ pool log, Pool.new name buffers (Payload.Shape.sink description).factory = .ok pool ∧
      stage = n.stages.next ∧ n' = ⟨n.hub.equip name pool log, (n.stages.insert
        { name, outlet := n.hub.publishers.next
          loop := .aggregator (n.nextLoop primary gates transform) }).2⟩ := by
  rw [newSink] at made
  split at made
  · simp at made
  split at made
  · simp at made
  split at made
  · simp at made
  split at made
  · simp at made
  · rename_i built
    obtain ⟨pool, log, fresh, rfl, rfl⟩ := newAggregator_eq_ok built
    obtain ⟨hstage, rfl⟩ := Prod.mk.inj made
    exact ⟨pool, _, fresh, (Except.ok.inj hstage).symm, rfl⟩

/-- An aggregator, or a sink, was built from the subscriptions. -/
inductive Builds (n : Network) (primary : Nat) (gates : List Nat) (transform : Transform)
    (stage : Nat) (n' : Network) : Prop
  | aggregator {name : String} {capacity : Nat} {factory : Payload.Factory}
      (made : n.newAggregator name capacity factory primary gates transform = (.ok stage, n'))
  | sink {name : String} {description : Description} {buffers : Nat}
      (made : n.newSink name description buffers primary gates transform = (.ok stage, n'))

theorem Builds.eq (built : n.Builds primary gates transform stage n') :
    ∃ name capacity factory pool log, Pool.new name capacity factory = .ok pool ∧
      stage = n.stages.next ∧ n' = ⟨n.hub.equip name pool log, (n.stages.insert
        { name, outlet := n.hub.publishers.next
          loop := .aggregator (n.nextLoop primary gates transform) }).2⟩ := by
  cases built with
  | aggregator made =>
    obtain ⟨pool, log, fresh, rest⟩ := newAggregator_eq_ok made
    exact ⟨_, _, _, pool, log, fresh, rest⟩
  | sink made =>
    obtain ⟨pool, log, fresh, rest⟩ := newSink_eq_ok made
    exact ⟨_, _, _, pool, log, fresh, rest⟩

end Network

end BufferFlow
