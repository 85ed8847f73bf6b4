import BufferFlow.Proofs.Hub.Reports
import BufferFlow.Proofs.Orderly
import BufferFlow.Proofs.Stage.Gauge
import BufferFlow.Proofs.Stage.Mailed

set_option autoImplicit false

namespace BufferFlow

namespace Hub

variable (h : Hub) (log : List Record)

theorem recycleWith_relog (fuel : Nat) (r : SlotRef) :
    recycleWith fuel { h with log } r = { recycleWith fuel h r with log } := by
  induction fuel generalizing h r with
  | zero => rfl
  | succ fuel ih =>
    have chained : chainedAt { h with log } r = h.chainedAt r := rfl
    rw [recycleWith, recycleWith, chained]
    cases h.chainedAt r with
    | none => rfl
    | some c =>
      dsimp only
      change (if (h.unchain r).copiesAt c.ref = 1 then _ else _) = _
      split
      · exact congrArg (putBack · r) (ih ((h.unchain r).discount c.ref) c.ref)
      · rfl

theorem giveUpAll_relog (cs : List Copy) :
    giveUpAll { h with log } cs = { h.giveUpAll cs with log } := by
  induction cs generalizing h with
  | nil => rfl
  | cons c cs ih =>
    have first : giveUp { h with log } c = { h.giveUp c with log } := by
      rw [giveUp, giveUp]
      change (if h.copiesAt c.ref = 1 then _ else _) = _
      split
      · exact recycleWith_relog (h.discount c.ref) log _ c.ref
      · rfl
    exact (congrArg (giveUpAll · cs) first).trans (ih (h.giveUp c))

theorem detach_relog (s : Nat) : detach { h with log } s = { h.detach s with log } := by
  have unsubscribed : unsubscribe { h with log } s = { h.unsubscribe s with log } := by
    rw [unsubscribe, unsubscribe]
    dsimp only
    cases (h.subscriptions.get? s).bind (·.publisher) <;> rfl
  have cancelled : ∀ g : Hub, cancel { g with log } s = { g.cancel s with log } := by
    intro g
    rw [cancel, cancel]
    dsimp only
    cases (g.subscriptions.get? s).bind (·.armed) <;> rfl
  rw [detach, unsubscribed, cancelled]
  rfl

theorem dropSubscription_relog (s : Nat) :
    ∃ log', dropSubscription { h with log } s = { h.dropSubscription s with log := log' } := by
  rcases dropSubscription_cases (h := { h with log }) (s := s) with
    ⟨absent, same⟩ | ⟨sub, log', found, same⟩
  · change h.subscriptions.get? s = none at absent
    refine ⟨log, ?_⟩
    rw [same, dropSubscription, absent]
  · change h.subscriptions.get? s = some sub at found
    rcases dropSubscription_cases (h := h) (s := s) with ⟨absent, -⟩ | ⟨sub', old, found', same'⟩
    · cases absent.symm.trans found
    · obtain rfl := Option.some.inj (found.symm.trans found')
      refine ⟨log', ?_⟩
      rw [same, same', detach_relog, giveUpAll_relog (h.detach s) old]
      exact congrArg (count · .subscriptionClosed) (giveUpAll_relog (h.detach s) log' sub.queue)

theorem dropSubscriptions_relog (l : List Nat) :
    ∃ log', l.foldl dropSubscription { h with log } =
      { l.foldl dropSubscription h with log := log' } := by
  induction l generalizing h log with
  | nil => exact ⟨log, rfl⟩
  | cons s l ih =>
    obtain ⟨between, same⟩ := dropSubscription_relog h log s
    rw [List.foldl_cons, List.foldl_cons, same]
    exact ih (h.dropSubscription s) between

theorem contains_new_mailbox (h : Hub) :
    (h.mailboxes.insert {}).2.contains h.mailboxes.next := by
  rw [Table.contains, Table.get?_insert, if_pos rfl]
  rfl

end Hub

namespace Network

variable {n n' : Network} {a : Action} {actions : List Action} {i : Nat} {s : Stage}

theorem letGo_hub (n : Network) (primary : Nat) (gates : List Nat) :
    (n.letGo primary gates).hub = n.hub.applyAll ((gates ++ [primary]).map .dropSubscription) := by
  rw [Hub.applyAll, List.foldl_map]
  rfl

/-- What the action asks of the hub, where every thread can be named. -/
def asked (n : Network) : Action → List Operation
  | .hub op => [op]
  | .newRelay name capacity factory fill =>
    match n.newRelay name capacity factory fill with
    | .error _ => []
    | .ok _ => [.newPool name capacity factory, .newPublisher name n.hub.pools.next]
  | .newAggregator name capacity factory primary gates transform =>
    match (n.newAggregator name capacity factory primary gates transform).1 with
    | .error _ => (gates ++ [primary]).map .dropSubscription
    | .ok _ => [.newPool name capacity factory, .newPublisher name n.hub.pools.next, .newMailbox]
  | .newSink name description buffers source dependents collect =>
    match (n.newSink name description buffers source dependents collect).1 with
    | .error _ => (dependents ++ [source]).map .dropSubscription
    | .ok _ => [.newPool name buffers (Payload.Shape.sink description).factory,
        .newPublisher name n.hub.pools.next, .newMailbox]
  | .subscribe stage erased =>
    match n.stages.get? stage with
    | none => [.subscribeDetached erased]
    | some s => [.subscribe s.outlet erased]
  | .start _ | .join _ => []
  | .dropStage stage =>
    match n.stages.get? stage with
    | none => []
    | some s =>
      match s.thread with
      | .unstarted => s.loop.closing
      | _ => []
  | .advance stage =>
    match n.running? stage with
    | none => []
    | some s =>
      match s.loop.advance n.hub with
      | .blocked => []
      | _ => s.asks n.hub

/-- What the action counts of threads: those that it starts, and those that end and say so. -/
def ofThreads (n : Network) (a : Action) : List Event :=
  (n.started? a).toList.map (fun _ => .stageStarted) ++
    ((n.ended? a).toList.filter (!·.2.isFaulted)).map fun _ => .stageTerminated

def counted (n : Network) (a : Action) : List Event := n.hub.occurred (n.asked a) ++ n.ofThreads a

/-- Every stage can name its thread, and finds its mailbox. -/
structure Fit (n : Network) : Prop where
  named : ∀ (i : Nat) s, n.stages.get? i = some s → s.nameFault? = none
  mailed : ∀ (i : Nat) s, n.stages.get? i = some s → s.loop.Mailed n.hub

/-- The action leaves the hub that its requests leave, with the events of threads counted besides. -/
def Accounts (n : Network) (a : Action) : Prop :=
  ∃ log, (n.act a).hub = { n.hub.applyAll (n.asked a) with
    counters := (n.hub.applyAll (n.asked a)).counters.recordAll (n.ofThreads a), log }

theorem counters_built (h : Hub) (name : String) (capacity : Nat) (factory : Payload.Factory)
    (publisher : String) (pool : Nat) : ∀ more, more = [] ∨ more = [.newMailbox] →
      (h.applyAll ([.newPool name capacity factory, .newPublisher publisher pool] ++ more)).counters =
        h.counters := by
  have pooled : (h.apply (.newPool name capacity factory)).counters = h.counters :=
    Hub.counters_apply nofun
  rintro more (rfl | rfl) <;> exact pooled

namespace Fit

theorem accounts_quiet (counters : Counters) (log : List Record) (threads : n.ofThreads a = [])
    (hub : (n.act a).hub = n.hub.applyAll (n.asked a ++ [.tally counters log]))
    (same : (n.hub.applyAll (n.asked a)).counters = counters) : n.Accounts a := by
  refine ⟨log, ?_⟩
  rw [hub, threads, applyAll_tally, ← same]
  rfl

theorem accounts_asked (threads : n.ofThreads a = [])
    (hub : ∃ log, (n.act a).hub = { n.hub.applyAll (n.asked a) with log }) : n.Accounts a := by
  obtain ⟨log, hub⟩ := hub
  refine ⟨log, ?_⟩
  rw [hub, threads]
  rfl

theorem accounts_start (fit : n.Fit) (stage : Nat) : n.Accounts (.start stage) := by
  simp only [Accounts, act, start, asked, ofThreads, started?, ended?, state?]
  cases found : n.stages.get? stage with
  | none => exact ⟨n.hub.log, rfl⟩
  | some s =>
    dsimp only [Option.map_some, Option.bind_some]
    split
    · rename_i idle
      rw [fit.named stage s found]
      exact ⟨_, rfl⟩
    · exact ⟨_, rfl⟩

theorem accounts_join (n : Network) (stage : Nat) : n.Accounts (.join stage) := by
  refine accounts_asked rfl ⟨n.hub.log, ?_⟩
  rw [act, join]
  cases found : n.stages.get? stage with
  | none => rfl
  | some s =>
    dsimp only
    split <;> rfl

theorem accounts_dropStage (n : Network) (stage : Nat) : n.Accounts (.dropStage stage) := by
  refine accounts_asked rfl ?_
  rw [act, asked]
  by_cases runs : (n.running? stage).isSome
  · obtain ⟨s, hs⟩ := Option.isSome_iff_exists.1 runs
    obtain ⟨found, thread⟩ := running?_eq_some.1 hs
    rw [if_pos runs, found]
    dsimp only
    rw [thread]
    exact ⟨n.hub.log, rfl⟩
  · rw [if_neg runs, dropStage]
    cases found : n.stages.get? stage with
    | none => exact ⟨n.hub.log, rfl⟩
    | some s =>
      dsimp only
      cases s.thread with
      | unstarted => exact ⟨_, s.loop.close_hub n.hub⟩
      | running | ended | gone => exact ⟨n.hub.log, rfl⟩
      | faulted fault => exact ⟨_, rfl⟩

theorem accounts_advance (fit : n.Fit) (stage : Nat) : n.Accounts (.advance stage) := by
  simp only [Accounts, act, asked, ofThreads, started?, ended?]
  cases runs : n.running? stage with
  | none =>
    rw [advanceStage?_eq_none runs]
    exact ⟨n.hub.log, rfl⟩
  | some s =>
    obtain ⟨found, thread⟩ := running?_eq_some.1 runs
    have asked : ∀ h', (s.loop.advance n.hub).hub? = some h' →
        h' = n.hub.applyAll (s.loop.requests n.hub) := fun _ =>
      (fit.mailed stage s found).hub
    simp only [advanceStage?, found, thread, bind, Option.bind, Stage.asks]
    cases progress : s.loop.advance n.hub with
    | blocked => exact ⟨n.hub.log, rfl⟩
    | running h' loop =>
      refine ⟨n.hub.log, ?_⟩
      rw [progress] at asked
      obtain rfl := asked h' rfl
      dsimp only
      rw [List.append_nil]
      rfl
    | stopped h' reason =>
      refine ⟨n.hub.log, ?_⟩
      rw [progress] at asked
      obtain rfl := asked h' rfl
      dsimp only
      rw [Hub.applyAll_append, ← s.loop.close_hub]
      rfl
    | faulted h' fault =>
      refine ⟨n.hub.log, ?_⟩
      rw [progress] at asked
      obtain rfl := asked h' rfl
      dsimp only
      rw [Hub.applyAll_append, ← s.loop.close_hub]
      rfl

theorem accounts (fit : n.Fit) (a : Action) : n.Accounts a := by
  cases a with
  | hub op => exact accounts_asked rfl ⟨(n.hub.apply op).log, rfl⟩
  | newRelay name capacity factory fill =>
    cases made : n.newRelay name capacity factory fill with
    | error failure =>
      refine accounts_asked rfl ⟨n.hub.log, ?_⟩
      rw [act, asked, made]
      rfl
    | ok found =>
      obtain ⟨stage, n'⟩ := found
      obtain ⟨pool, log, fresh, -, rfl⟩ := newRelay_eq_ok made
      refine accounts_quiet n.hub.counters log rfl ?_ ?_
      · rw [act, asked, made]
        exact Hub.furnish_eq fresh log
      · rw [asked, made]
        exact counters_built _ _ _ _ _ _ [] (.inl rfl)
  | newAggregator name capacity factory primary gates transform =>
    rcases made : n.newAggregator name capacity factory primary gates transform with ⟨_ | _, n'⟩
    · obtain rfl := newAggregator_refused made
      refine accounts_asked rfl ⟨((n.letGo primary gates).hub).log, ?_⟩
      rw [act, asked, made]
      dsimp only
      rw [letGo_hub]
    · obtain ⟨pool, log, fresh, -, rfl⟩ := newAggregator_eq_ok made
      refine accounts_quiet n.hub.counters log rfl ?_ ?_
      · rw [act, asked, made]
        exact Hub.equip_eq fresh log
      · rw [asked, made]
        exact counters_built _ _ _ _ _ _ [.newMailbox] (.inr rfl)
  | newSink name description buffers source dependents collect =>
    rcases made : n.newSink name description buffers source dependents collect with ⟨_ | _, n'⟩
    · obtain ⟨log, rfl⟩ := newSink_refused made
      obtain ⟨log', same⟩ := Hub.dropSubscriptions_relog n.hub log (dependents ++ [source])
      refine accounts_asked rfl ⟨log', ?_⟩
      rw [act, asked, made]
      exact same.trans (congrArg (fun h : Hub => { h with log := log' }) (letGo_hub n source dependents))
    · obtain ⟨pool, log, fresh, -, rfl⟩ := newSink_eq_ok made
      refine accounts_quiet n.hub.counters log rfl ?_ ?_
      · rw [act, asked, made]
        exact Hub.equip_eq fresh log
      · rw [asked, made]
        exact counters_built _ _ _ _ _ _ [.newMailbox] (.inr rfl)
  | subscribe stage erased =>
    refine accounts_asked rfl ⟨(n.act (.subscribe stage erased)).hub.log, ?_⟩
    rw [act, asked, subscribe]
    cases n.stages.get? stage <;> rfl
  | start stage => exact fit.accounts_start stage
  | join stage => exact accounts_join n stage
  | dropStage stage => exact accounts_dropStage n stage
  | advance stage => exact fit.accounts_advance stage

end Fit

/-- The stage was there before, with the same name and made from the same parts. -/
def Stems (n : Network) (i : Nat) (u : Stage) : Prop :=
  ∃ s, n.stages.get? i = some s ∧ u.name = s.name ∧ u.loop.reset = s.loop.reset

theorem stems_modify {j : Nat} {f : Stage → Stage} {u : Stage}
    (found : (n.stages.modify j f).get? i = some u)
    (kept : ∀ s, n.stages.get? j = some s → (f s).name = s.name ∧ (f s).loop.reset = s.loop.reset) :
    n.Stems i u := by
  rw [Table.get?_modify] at found
  split at found
  · rename_i here
    obtain ⟨s, hs, rfl⟩ := Option.map_eq_some_iff.1 found
    exact ⟨s, hs, kept s (here ▸ hs)⟩
  · exact ⟨u, found, rfl, rfl⟩

theorem stems_insert {t u : Stage} (found : (n.stages.insert t).2.get? i = some u) :
    n.Stems i u ∨ u = t := by
  rw [Table.get?_insert] at found
  split at found
  · exact .inr (Option.some.inj found).symm
  · exact .inl ⟨u, found, rfl, rfl⟩

theorem stems_advance {stage : Nat} {u : Stage}
    (found : (n.act (.advance stage)).stages.get? i = some u) : n.Stems i u := by
  rw [act] at found
  cases runs : n.running? stage with
  | none =>
    rw [advanceStage?_eq_none runs] at found
    exact ⟨u, found, rfl, rfl⟩
  | some s =>
    obtain ⟨here, thread⟩ := running?_eq_some.1 runs
    have own : ∀ {t : Stage}, n.stages.get? stage = some t → t = s := fun ht =>
      Option.some.inj (ht.symm.trans here)
    simp only [advanceStage?, here, thread] at found
    cases progress : s.loop.advance n.hub with
    | blocked =>
      rw [progress] at found
      exact ⟨u, found, rfl, rfl⟩
    | running h' loop =>
      rw [progress] at found
      exact stems_modify found fun t ht => ⟨rfl, own ht ▸ Loop.advance_reset progress⟩
    | stopped h' reason | faulted h' fault =>
      rw [progress] at found
      exact stems_modify found fun _ _ => ⟨rfl, rfl⟩

theorem stems_or_new {u : Stage} (found : (n.act a).stages.get? i = some u) :
    n.Stems i u ∨ (a.Proper → u.nameFault? = none) ∧ u.loop.Mailed (n.act a).hub := by
  have unchanged : n.stages.get? i = some u → n.Stems i u := fun same => ⟨u, same, rfl, rfl⟩
  cases a with
  | hub op => exact .inl (unchanged found)
  | newRelay name capacity factory fill =>
    rw [act] at found ⊢
    split at found
    · exact .inl (unchanged found)
    · rename_i made
      obtain ⟨pool, log, -, -, rfl⟩ := newRelay_eq_ok made
      refine (stems_insert found).imp_right ?_
      rintro rfl
      exact ⟨fun proper => Stage.nameFault?_eq_none proper, trivial⟩
  | newAggregator name capacity factory primary gates transform =>
    rw [act] at found ⊢
    rcases made : n.newAggregator name capacity factory primary gates transform with ⟨_ | _, n'⟩ <;>
      rw [made] at found
    · obtain rfl := newAggregator_refused made
      exact .inl (unchanged found)
    · obtain ⟨pool, log, -, -, rfl⟩ := newAggregator_eq_ok made
      refine (stems_insert found).imp_right ?_
      rintro rfl
      exact ⟨fun proper => Stage.nameFault?_eq_none proper, Hub.contains_new_mailbox n.hub⟩
  | newSink name description buffers source dependents collect =>
    rw [act] at found ⊢
    rcases made : n.newSink name description buffers source dependents collect with ⟨_ | _, n'⟩ <;>
      rw [made] at found
    · obtain ⟨log, rfl⟩ := newSink_refused made
      exact .inl (unchanged found)
    · obtain ⟨pool, log, -, -, rfl⟩ := newSink_eq_ok made
      refine (stems_insert found).imp_right ?_
      rintro rfl
      exact ⟨fun proper => Stage.nameFault?_eq_none proper, Hub.contains_new_mailbox n.hub⟩
  | subscribe stage erased => exact .inl (unchanged found)
  | start stage =>
    rw [act, start] at found
    split at found
    · exact .inl (unchanged found)
    split at found
    · split at found <;> exact .inl (stems_modify found fun _ _ => ⟨rfl, rfl⟩)
    · exact .inl (unchanged found)
  | join stage =>
    rw [act, join] at found
    split at found
    · exact .inl (unchanged found)
    dsimp only at found
    split at found <;>
      first | exact .inl (unchanged found) | exact .inl (stems_modify found fun _ _ => ⟨rfl, rfl⟩)
  | dropStage stage =>
    rw [act] at found
    split at found
    · exact .inl (unchanged found)
    rw [dropStage] at found
    split at found
    · exact .inl (unchanged found)
    have erased : (n.stages.erase stage).get? i = some u := by
      dsimp only at found
      split at found <;> exact found
    rw [Table.get?_erase] at erased
    split at erased
    · cases erased
    · exact .inl (unchanged erased)
  | advance stage => exact .inl (stems_advance found)

theorem Fit.act (fit : n.Fit) (proper : a.Proper) : (n.act a).Fit := by
  obtain ⟨log, hub⟩ := fit.accounts a
  refine ⟨fun i u found => ?_, fun i u found => ?_⟩
  · rcases stems_or_new found with ⟨s, before, name, -⟩ | ⟨named, -⟩
    · exact (Stage.nameFault?_congr name).trans (fit.named i s before)
    · exact named proper
  · rcases stems_or_new found with ⟨s, before, -, made⟩ | ⟨-, mailed⟩
    · refine (((fit.mailed i s before).applyAll (n.asked a)).reset made).congr ?_
      rw [hub]
    · exact mailed

theorem Fit.empty : ({} : Network).Fit :=
  ⟨fun _ _ found => by simp at found, fun _ _ found => by simp at found⟩

/-- What a run asks of the hub. After each action the counters and the log are set to what the action
left there, for threads count and log too. -/
def operations (n : Network) : List Action → List Operation
  | [] => []
  | a :: actions =>
    n.asked a ++ [.tally (n.act a).hub.counters (n.act a).hub.log] ++ (n.act a).operations actions

def happenings (n : Network) : List Action → List Event
  | [] => []
  | a :: actions => n.counted a ++ (n.act a).happenings actions

theorem Fit.hub_act (fit : n.Fit) (a : Action) :
    (n.act a).hub =
      n.hub.applyAll (n.asked a ++ [.tally (n.act a).hub.counters (n.act a).hub.log]) := by
  obtain ⟨log, hub⟩ := fit.accounts a
  rw [applyAll_tally, hub]

theorem Fit.hub_actAll (fit : n.Fit) (proper : ∀ a ∈ actions, a.Proper) :
    (n.actAll actions).hub = n.hub.applyAll (n.operations actions) := by
  induction actions generalizing n with
  | nil => rfl
  | cons a actions ih =>
    rw [operations, Hub.applyAll_append, ← fit.hub_act a]
    exact ih (fit.act (proper a List.mem_cons_self)) fun b member =>
      proper b (List.mem_cons_of_mem _ member)

end Network

end BufferFlow
