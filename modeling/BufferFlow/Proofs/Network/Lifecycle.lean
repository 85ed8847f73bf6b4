import BufferFlow.Proofs.Concurrent.Subjects
import BufferFlow.Proofs.Network.Ownership
import BufferFlow.Proofs.Stage.Unwinding

set_option autoImplicit false

namespace BufferFlow

inductive StageState.Next : StageState → StageState → Prop
  | stays (state : StageState) : Next state state
  | starts : Next .idle .running
  | ends (reason : Termination) : Next .running (.terminated reason)

theorem StageState.Next.terminated {a b : StageState} {reason : Termination} (next : a.Next b)
    (ended : a = .terminated reason) : b = .terminated reason := by
  cases next with
  | stays => exact ended
  | starts | ends => cases ended

namespace Answer

def start? : Answer → Option (Except Failure Unit)
  | started result => some result
  | _ => none

def reason? : Answer → Option Termination
  | joined (.ended reason) => some reason
  | _ => none

end Answer

def Way.rest (l : Loop) : Way → List Operation
  | rounds => l.closing
  | leaving _ rest => rest
  | told _ => []

namespace Hub

variable {h : Hub} {p t : Nat} {ops more : List Operation}

theorem dead_of_dropped (given : p < h.publishers.next) (dropped : .dropPublisher p ∈ ops) :
    (h.applyAll ops).publishers.contains p = false := by
  obtain ⟨a, b, rfl⟩ := List.append_of_mem dropped
  rw [applyAll_append, applyAll_cons]
  exact dead_applyAll (next_apply (next_applyAll given a) _) (dead_dropPublisher _ p) b

theorem contains_subscriptions_applyAll (sound : h.Sound) (known : h.subscriptions.contains t)
    (kept : .dropSubscription t ∉ ops) : (h.applyAll ops).subscriptions.contains t := by
  induction ops generalizing h with
  | nil => exact known
  | cons op ops ih =>
    have other : op ≠ .dropSubscription t := fun same => kept (same ▸ List.mem_cons_self)
    exact ih (sound.apply op) (contains_subscriptions_apply sound known other)
      fun later => kept (List.mem_cons_of_mem op later)

theorem pull_subscribeDetached {erased : Bool} (sound : h.Sound)
    (kept : .dropSubscription h.subscriptions.next ∉ ops) :
    (((h.apply (.subscribeDetached erased)).applyAll ops).pull h.subscriptions.next).1 = .gone := by
  have there : (h.apply (.subscribeDetached erased)).subscriptions.get? h.subscriptions.next =
      some { erased, publisher := none } :=
    (Table.get?_insert h.subscriptions _ _).trans (if_pos rfl)
  obtain ⟨sub, found, lost, order⟩ :=
    departed_append_queue_detached (sound.apply (.subscribeDetached erased)) there rfl kept
  have empty : sub.queue = [] := (List.append_eq_nil_iff.1 order).2
  simp only [pull, found, empty, Subscription.isActive, lost, Option.isSome_none, Bool.false_eq_true,
    ↓reduceIte]

/-- The subscription was there until it was dropped, which happened once. -/
def Drops (h : Hub) (t : Nat) (ops : List Operation) : Prop :=
  ∃ before after, ops = before ++ .dropSubscription t :: after ∧
    (h.applyAll before).subscriptions.contains t ∧ .dropSubscription t ∉ before ++ after

theorem Drops.append (drops : h.Drops t ops) (kept : .dropSubscription t ∉ more) :
    h.Drops t (ops ++ more) := by
  obtain ⟨before, after, rfl, known, once⟩ := drops
  refine ⟨before, after ++ more, by simp, known, ?_⟩
  rw [← List.append_assoc]
  exact fun again => (List.mem_append.1 again).elim once kept

theorem Drops.gone (drops : h.Drops t ops) : (h.applyAll ops).subscriptions.contains t = false := by
  obtain ⟨before, after, rfl, known, -⟩ := drops
  rw [applyAll_append, applyAll_cons, Table.contains, ((Gone.dropped known).applyAll after).1]
  rfl

end Hub

theorem Loop.closing_nodup {l : Loop} (once : l.sources.Nodup) : l.closing.Nodup := by
  rw [closing_eq, List.nodup_cons]
  refine ⟨fun mine => ?_, once.map fun _ _ => Operation.dropSubscription.inj⟩
  obtain ⟨t, -, same⟩ := List.mem_map.1 mine
  cases same

structure Stage.New (s : Stage) (h : Hub) : Prop where
  sound : h.Sound
  outlet : s.outlet = s.loop.publisher
  idle : s.state = .idle
  unstarted : s.thread = .unstarted
  mailed : s.loop.Mailed h
  alive : h.publishers.contains s.outlet
  once : s.loop.sources.Nodup
  known : ∀ t ∈ s.loop.sources, h.subscriptions.contains t

theorem Network.Makes.new {n n' : Network} {stage : Nat} {s : Stage} (makes : n.Makes stage n')
    (reached : n.hub.Reachable) (found : n'.stages.get? stage = some s) : s.New n'.hub := by
  obtain ⟨reached', ongoing⟩ := makes.ongoing reached found
  cases makes with
  | relay made =>
    obtain ⟨pool, log, -, rfl, rfl⟩ := newRelay_eq_ok made
    rw [Table.get?_insert, if_pos rfl] at found
    obtain rfl := Option.some.inj found
    exact ⟨reached'.sound, rfl, rfl, rfl, trivial, ongoing.alive, ongoing.once,
      fun t mine => absurd mine List.not_mem_nil⟩
  | joining built once present =>
    obtain ⟨name, capacity, factory, pool, log, -, rfl, rfl⟩ := built.eq
    rw [Table.get?_insert, if_pos rfl] at found
    obtain rfl := Option.some.inj found
    exact ⟨reached'.sound, rfl, rfl, rfl, Hub.contains_new_mailbox n.hub, ongoing.alive, once, present⟩

namespace Owned

variable {o o' : Owned} {stage : Nat} {s s' made : Stage} {x : Step} {answer : Option Answer}
  {asked ops : List Operation} {way' : Way} {visit' : Option Visit} {last' : Bool} {l : Loop} {h₀ : Hub}

/-- How the state, the thread and what that is at go together. -/
inductive Standing (l : Loop) : StageState → Thread → Way → Prop
  | idle : Standing l .idle .unstarted .rounds
  | running : Standing l .running .running .rounds
  | leaving {outcome : Except Fault Termination} {rest : List Operation} (part : rest <:+ l.closing) :
      Standing l .running .running (.leaving outcome rest)
  | told {reason : Termination} : Standing l (.terminated reason) .running (.told reason)
  | ended {reason : Termination} : Standing l (.terminated reason) (.ended reason) (.told reason)
  | joined {reason : Termination} : Standing l (.terminated reason) .gone (.told reason)
  | faulted {fault : Fault} : Standing l .running (.faulted fault) (.leaving (.error fault) [])
  | raised {fault : Fault} : Standing l .running .gone (.leaving (.error fault) [])

theorem Standing.rest_suffix {state : StageState} {thread : Thread} {way : Way}
    (standing : Standing l state thread way) : way.rest l <:+ l.closing := by
  cases standing with
  | leaving part => exact part
  | idle | running => exact List.suffix_rfl
  | _ => exact List.nil_suffix

/-- Of all starts that were answered the first succeeded, and no other. -/
inductive Starts (name : String) : StageState → List (Except Failure Unit) → Prop
  | none : Starts name .idle []
  | once {state : StageState} (k : Nat) (late : state ≠ .idle) :
      Starts name state (.ok () :: List.replicate k (.error (.refused (.alreadyStarted name))))

/-- A stage that has ended is joined once. -/
inductive Joins : StageState → Thread → List Termination → Prop
  | none {state : StageState} {thread : Thread}
      (unjoined : ∀ reason, state = .terminated reason → thread ≠ .gone) : Joins state thread []
  | once {reason : Termination} : Joins (.terminated reason) .gone [reason]

namespace Turn

theorem standing (turn : o.Turn s x answer asked way' visit' last' s')
    (standing : Standing l s.state s.thread o.way) (closing : s.loop.closing = l.closing) :
    Standing l s'.state s'.thread way' ∧ s.state.Next s'.state := by
  obtain ⟨name, outlet, loop, state, thread⟩ := s
  obtain ⟨network, way, visit, last⟩ := o
  dsimp only at standing closing
  cases turn with
  | started _ idle =>
    obtain rfl : state = .idle := idle
    cases standing
    exact ⟨.running, .starts⟩
  | joined _ ended =>
    obtain rfl : thread = .ended _ := ended
    cases standing
    exact ⟨.joined, .stays _⟩
  | raised _ faulted =>
    obtain rfl : thread = .faulted _ := faulted
    cases standing
    exact ⟨.raised, .stays _⟩
  | round runs here =>
    obtain rfl : way = .rounds := here
    exact ⟨standing, .stays _⟩
  | stops runs here | faults runs here =>
    obtain rfl : way = .rounds := here
    obtain rfl : thread = .running := runs
    cases standing
    exact ⟨.leaving (closing ▸ List.suffix_rfl), .stays _⟩
  | defers runs here | letsGo runs here =>
    obtain rfl : way = _ := here
    obtain rfl : thread = .running := runs
    cases standing with
    | leaving part => exact ⟨.leaving ((List.suffix_cons _ _).trans part), .stays _⟩
  | tells runs here =>
    obtain rfl : way = _ := here
    obtain rfl : thread = .running := runs
    cases standing
    exact ⟨.told, .ends _⟩
  | fails runs here =>
    obtain rfl : way = _ := here
    obtain rfl : thread = .running := runs
    cases standing
    exact ⟨.faulted, .stays _⟩
  | ends runs here =>
    obtain rfl : way = _ := here
    obtain rfl : thread = .running := runs
    cases standing
    exact ⟨.ended, .stays _⟩
  | _ => exact ⟨standing, .stays _⟩

theorem origin (turn : o.Turn s x answer asked way' visit' last' s') :
    s'.name = s.name ∧ s'.outlet = s.outlet ∧ s'.loop.reset = s.loop.reset := by
  cases turn with
  | round _ _ step => exact ⟨rfl, rfl, Loop.advance_reset step⟩
  | _ => exact ⟨rfl, rfl, rfl⟩

theorem sheds (turn : o.Turn s x answer asked way' visit' last' s')
    (closing : s.loop.closing = l.closing) :
    (way'.rest l = o.way.rest l ∧
      ∀ t, .dropSubscription t ∈ asked → x = .other (.dropSubscription t)) ∨
    ∃ op, o.way.rest l = op :: way'.rest l ∧
      (asked = [op] ∨ asked = [] ∧ last' = true ∧ ∃ p, op = .dropPublisher p) := by
  have rounds : ∀ t, .dropSubscription t ∉ s.loop.requests o.hub :=
    fun t mine => s.loop.requests_ofRounds o.hub _ mine
  have none_asked : ∀ t, .dropSubscription t ∈ ([] : List Operation) → x = .other (.dropSubscription t) :=
    fun t mine => absurd mine List.not_mem_nil
  cases turn with
  | detached | subscribes =>
    exact .inl ⟨rfl, fun t mine => Operation.noConfusion (List.mem_singleton.1 mine)⟩
  | leaves =>
    refine .inl ⟨rfl, fun t mine => ?_⟩
    split at mine
    · exact Operation.noConfusion (List.mem_singleton.1 mine)
    · exact absurd mine List.not_mem_nil
  | round _ here => exact .inl ⟨by rw [here], fun t mine => absurd mine (rounds t)⟩
  | stops _ here | faults _ here =>
    exact .inl ⟨by rw [here]; exact closing, fun t mine => absurd mine (rounds t)⟩
  | @defers outcome p rest v _ here _ =>
    exact .inr ⟨_, by rw [here]; rfl, .inr ⟨rfl, rfl, p, rfl⟩⟩
  | letsGo _ here => exact .inr ⟨_, by rw [here]; rfl, .inl rfl⟩
  | tells _ here => exact .inl ⟨by rw [here]; rfl, none_asked⟩
  | other op => exact .inl ⟨rfl, fun t mine => by rw [List.mem_singleton.1 mine]⟩
  | _ => exact .inl ⟨rfl, none_asked⟩

theorem last (turn : o.Turn s x answer asked way' visit' last' s') (owed : o.last = true) :
    last' = true ∨ .dropPublisher s.outlet ∈ asked := by
  cases turn with
  | leaves => exact .inr (by rw [if_pos owed]; exact List.mem_singleton_self _)
  | defers => exact .inl rfl
  | _ => exact .inl owed

theorem visited (turn : o.Turn s x answer asked way' visit' last' s')
    (visited : o.last = true → o.visit.isSome) : last' = true → visit'.isSome := by
  cases turn with
  | started free | refused free | nothing free | joined free | raised free =>
    exact fun owed => free ▸ visited owed
  | leaves => exact fun owed => absurd owed Bool.false_ne_true
  | defers _ _ here => exact fun _ => by rw [here]; rfl
  | entered | subscribes | looks => exact fun _ => rfl
  | _ => exact visited

theorem served (turn : o.Turn s x answer asked way' visit' last' s')
    (served : ∀ a, o.visit = some (.served a) → a.start? = none ∧ a.reason? = none) :
    ∀ a, visit' = some (.served a) → a.start? = none ∧ a.reason? = none := by
  cases turn with
  | started | refused | nothing | joined | raised | entered | leaves => exact fun a => nofun
  | subscribes | looks =>
    intro a same
    cases same
    exact ⟨rfl, rfl⟩
  | _ => exact served

theorem starts {results : List (Except Failure Unit)}
    (turn : o.Turn s x answer asked way' visit' last' s') (standing : Standing l s.state s.thread o.way)
    (served : ∀ a, o.visit = some (.served a) → a.start? = none ∧ a.reason? = none)
    (starts : Starts s.name s.state results) :
    Starts s.name s'.state (results ++ answer.toList.filterMap Answer.start?) := by
  obtain ⟨name, outlet, loop, state, thread⟩ := s
  obtain ⟨network, way, visit, last⟩ := o
  have none_new : ∀ {state' : StageState}, Starts name state' results →
      Starts name state' (results ++ []) := fun same => (List.append_nil results).symm ▸ same
  dsimp only at standing starts
  cases turn with
  | started _ idle =>
    obtain rfl : state = .idle := idle
    cases starts with
    | none => exact .once 0 nofun
    | once k late => exact absurd rfl late
  | refused _ late =>
    cases starts with
    | none => exact absurd rfl late
    | once k late =>
      have longer : Starts name state _ := .once (k + 1) late
      rwa [List.replicate_succ', ← List.cons_append] at longer
  | tells runs here =>
    obtain rfl : way = _ := here
    obtain rfl : thread = .running := runs
    cases standing
    cases starts with
    | once k late => exact none_new (.once k nofun)
  | leaves here =>
    obtain ⟨unstarted, -⟩ := served _ here
    rw [Option.toList_some, List.filterMap_cons_none unstarted]
    exact none_new starts
  | _ => exact none_new starts

theorem joins {reasons : List Termination}
    (turn : o.Turn s x answer asked way' visit' last' s') (standing : Standing l s.state s.thread o.way)
    (served : ∀ a, o.visit = some (.served a) → a.start? = none ∧ a.reason? = none)
    (joins : Joins s.state s.thread reasons) :
    Joins s'.state s'.thread (reasons ++ answer.toList.filterMap Answer.reason?) := by
  obtain ⟨name, outlet, loop, state, thread⟩ := s
  obtain ⟨network, way, visit, last⟩ := o
  have none_new : ∀ {state' : StageState} {thread' : Thread}, Joins state' thread' reasons →
      Joins state' thread' (reasons ++ []) := fun same => (List.append_nil reasons).symm ▸ same
  dsimp only at standing joins
  cases turn with
  | started _ idle =>
    obtain rfl : state = .idle := idle
    cases joins with
    | none => exact .none fun _ => nofun
  | joined _ ended =>
    obtain rfl : thread = .ended _ := ended
    cases standing
    cases joins with
    | none => exact .once
  | raised _ faulted =>
    obtain rfl : thread = .faulted _ := faulted
    cases standing
    cases joins with
    | none => exact .none fun _ => nofun
  | tells runs _ | ends runs _ | fails runs _ =>
    obtain rfl : thread = .running := runs
    cases joins with
    | none => exact .none fun _ _ => nofun
  | leaves here =>
    obtain ⟨-, unended⟩ := served _ here
    rw [Option.toList_some, List.filterMap_cons_none unended]
    exact none_new joins
  | _ => exact none_new joins

theorem spares {t : Nat} (turn : o.Turn s x answer asked way' visit' last' s')
    (closing : s.loop.closing = l.closing) (others : x ≠ .other (.dropSubscription t)) :
    (asked = [.dropSubscription t] ∧ o.way.rest l = .dropSubscription t :: way'.rest l) ∨
    (.dropSubscription t ∉ asked ∧
      (.dropSubscription t ∈ way'.rest l ↔ .dropSubscription t ∈ o.way.rest l)) := by
  rcases turn.sheds closing with ⟨same, kept⟩ | ⟨op, next, asks⟩
  · exact .inr ⟨fun mine => others (kept t mine), by rw [same]⟩
  · by_cases here : op = .dropSubscription t
    · subst here
      rcases asks with asks | ⟨-, -, p, same⟩
      · exact .inl ⟨asks, next⟩
      · cases same
    · refine .inr ⟨fun mine => ?_, ?_⟩
      · rcases asks with rfl | ⟨rfl, -⟩
        · exact here (List.mem_singleton.1 mine).symm
        · exact absurd mine List.not_mem_nil
      · rw [next, List.mem_cons]
        exact ⟨.inr, fun mine => mine.resolve_left (Ne.symm here)⟩

end Turn

def Step.Spares (made : Stage) (x : Step) : Prop :=
  ∀ t ∈ made.loop.sources, x ≠ .other (.dropSubscription t)

structure Kept (made : Stage) (h₀ : Hub) (o : Owned) (s : Stage) (ops : List Operation)
    (answers : List Answer) : Prop where
  name : s.name = made.name
  outlet : s.outlet = made.outlet
  reset : s.loop.reset = made.loop.reset
  hub : o.hub = h₀.applyAll ops
  standing : Standing made.loop s.state s.thread o.way
  visited : o.last = true → o.visit.isSome
  served : ∀ a, o.visit = some (.served a) → a.start? = none ∧ a.reason? = none
  publisher : .dropPublisher made.outlet ∉ o.way.rest made.loop →
    o.last = true ∨ o.hub.publishers.contains made.outlet = false
  sources : ∀ t ∈ made.loop.sources,
    .dropSubscription t ∈ o.way.rest made.loop ∧ o.hub.subscriptions.contains t ∧
        .dropSubscription t ∉ ops ∨
      .dropSubscription t ∉ o.way.rest made.loop ∧ h₀.Drops t ops
  starts : Starts made.name s.state (answers.filterMap Answer.start?)
  joins : Joins s.state s.thread (answers.filterMap Answer.reason?)

namespace Kept

variable {answers : List Answer}

theorem closing (kept : Kept made h₀ o s ops answers) : s.loop.closing = made.loop.closing := by
  rw [Loop.closing_eq, ← Loop.publisher_reset, ← Loop.sources_reset, kept.reset, Loop.publisher_reset,
    Loop.sources_reset, ← Loop.closing_eq]

theorem start (new : made.New o.hub) (way : o.way = .rounds) (free : o.visit = none)
    (unowed : o.last = false) : Kept made o.hub o made [] [] := by
  obtain ⟨network, way', visit, last⟩ := o
  obtain rfl : way' = .rounds := way
  obtain rfl : visit = none := free
  obtain rfl : last = false := unowed
  refine ⟨rfl, rfl, rfl, rfl, ?_, nofun, fun a => nofun, fun left => ?_, fun t mine => .inl ⟨?_, ?_, ?_⟩,
    ?_, ?_⟩
  · rw [new.idle, new.unstarted]
    exact .idle
  · refine absurd ?_ left
    rw [Way.rest, Loop.closing_eq, new.outlet]
    exact List.mem_cons_self
  · rw [Way.rest, Loop.closing_eq]
    exact List.mem_cons_of_mem _ (List.mem_map_of_mem mine)
  · exact new.known t mine
  · exact List.not_mem_nil
  · rw [new.idle]
    exact .none
  · rw [new.unstarted]
    exact .none fun _ _ => nofun

theorem publisher_act (new : made.New h₀) (kept : Kept made h₀ o s ops answers)
    (leads : o.Leads stage s x answer o' s')
    (left : .dropPublisher made.outlet ∉ o'.way.rest made.loop) :
    o'.last = true ∨ o'.hub.publishers.contains made.outlet = false := by
  have given : made.outlet < o.hub.publishers.next := by
    obtain ⟨P, there⟩ := Option.isSome_iff_exists.1 new.alive
    rw [kept.hub]
    exact Hub.next_applyAll (Table.get?_lt there) ops
  have gone : (o.hub.applyAll (o.asks s x)).publishers.contains made.outlet = false →
      o'.hub.publishers.contains made.outlet = false := by
    obtain ⟨counters, log, hub⟩ := leads.hub
    exact fun dead => hub ▸ dead
  -- The publisher was let go of before, and so it is gone or left to the visit.
  have before : .dropPublisher made.outlet ∉ o.way.rest made.loop →
      o'.last = true ∨ o'.hub.publishers.contains made.outlet = false := by
    intro already
    rcases kept.publisher already with owed | dead
    · rcases leads.turn.last owed with owed | torn
      · exact .inl owed
      · exact .inr (gone (Hub.dead_of_dropped given (kept.outlet ▸ torn)))
    · exact .inr (gone (Hub.dead_applyAll given dead _))
  rcases leads.turn.sheds kept.closing with ⟨same, -⟩ | ⟨op, next, asks⟩
  · exact before (same ▸ left)
  · by_cases here : op = .dropPublisher made.outlet
    · rcases asks with asks | ⟨-, owed, -⟩
      · refine .inr (gone (Hub.dead_of_dropped given ?_))
        rw [asks, here]
        exact List.mem_singleton_self _
      · exact .inl owed
    · refine before fun mine => ?_
      rcases List.mem_cons.1 (next ▸ mine) with same | mine
      · exact here same.symm
      · exact left mine

theorem sources_act (new : made.New h₀) (kept : Kept made h₀ o s ops answers)
    (leads : o.Leads stage s x answer o' s') (counters : Counters) (log : List Record)
    (hub : o'.hub = (o.hub.applyAll (o.asks s x ++ [.tally counters log]))) {t : Nat}
    (mine : t ∈ made.loop.sources) (others : x ≠ .other (.dropSubscription t)) :
    .dropSubscription t ∈ o'.way.rest made.loop ∧ o'.hub.subscriptions.contains t ∧
        .dropSubscription t ∉ ops ++ (o.asks s x ++ [.tally counters log]) ∨
      .dropSubscription t ∉ o'.way.rest made.loop ∧
        h₀.Drops t (ops ++ (o.asks s x ++ [.tally counters log])) := by
  have tallied : ∀ {asked : List Operation}, .dropSubscription t ∉ asked →
      .dropSubscription t ∉ asked ++ [.tally counters log] := by
    intro asked unasked again
    rcases List.mem_append.1 again with again | again
    · exact unasked again
    · cases List.mem_singleton.1 again
  rcases leads.turn.spares kept.closing others with ⟨asks, next⟩ | ⟨unasked, same⟩
  · have once : (o.way.rest made.loop).Nodup :=
      (Loop.closing_nodup new.once).sublist kept.standing.rest_suffix.sublist
    rw [next] at once
    refine .inr ⟨(List.nodup_cons.1 once).1, ?_⟩
    rcases kept.sources t mine with ⟨-, known, undropped⟩ | ⟨settled, -⟩
    · rw [asks]
      refine ⟨ops, [.tally counters log], rfl, kept.hub ▸ known, tallied undropped⟩
    · exact absurd (next ▸ List.mem_cons_self) settled
  · rcases kept.sources t mine with ⟨due, known, undropped⟩ | ⟨settled, drops⟩
    · refine .inl ⟨same.2 due, ?_, fun again => ?_⟩
      · rw [hub]
        have sound : o.hub.Sound := kept.hub ▸ new.sound.applyAll ops
        exact Hub.contains_subscriptions_applyAll sound known (tallied unasked)
      · exact (List.mem_append.1 again).elim undropped (tallied unasked)
    · exact .inr ⟨fun due => settled (same.1 due), drops.append (tallied unasked)⟩

theorem act (new : made.New h₀) (named : made.nameFault? = none) (kept : Kept made h₀ o s ops answers)
    (found : o.network.stages.get? stage = some s) (spares : x.Spares made) :
    ∃ s', (o.act stage x).1.network.stages.get? stage = some s' ∧ s.state.Next s'.state ∧
      Kept made h₀ (o.act stage x).1 s' (ops ++ o.operations stage [x])
        (answers ++ (o.act stage x).2.toList) := by
  have mailed : s.loop.Mailed o.hub := kept.hub ▸ (new.mailed.applyAll ops).reset kept.reset
  obtain ⟨s', leads⟩ := leads_act found ((Stage.nameFault?_congr kept.name).trans named) mailed x
  have asked : o.operations stage [x] = o.asks s x ++
      [.tally (o.act stage x).1.hub.counters (o.act stage x).1.hub.log] := by
    simp only [operations, found]
  have hub : (o.act stage x).1.hub = o.hub.applyAll (o.operations stage [x]) := by
    obtain ⟨counters, log, same⟩ := leads.hub
    rw [asked, Network.applyAll_tally, same]
  obtain ⟨name, outlet, reset⟩ := leads.turn.origin
  obtain ⟨standing, next⟩ := leads.turn.standing kept.standing kept.closing
  refine ⟨s', leads.found, next, name.trans kept.name, outlet.trans kept.outlet,
    reset.trans kept.reset, ?_, standing, leads.turn.visited kept.visited,
    leads.turn.served kept.served, kept.publisher_act new leads, fun t mine => ?_, ?_, ?_⟩
  · rw [hub, Hub.applyAll_append, kept.hub]
  · rw [asked] at hub ⊢
    exact kept.sources_act new leads _ _ hub mine (spares t mine)
  · rw [List.filterMap_append, ← kept.name]
    exact leads.turn.starts kept.standing kept.served (kept.name ▸ kept.starts)
  · rw [List.filterMap_append]
    exact leads.turn.joins kept.standing kept.served kept.joins

end Kept

theorem operations_cons (o : Owned) (stage : Nat) (x : Step) (steps : List Step) :
    o.operations stage (x :: steps) =
      o.operations stage [x] ++ (o.act stage x).1.operations stage steps := by
  simp only [operations, List.append_assoc, List.cons_append, List.nil_append]

theorem Kept.run {answers : List Answer} {steps : List Step} (new : made.New h₀)
    (named : made.nameFault? = none) (kept : Kept made h₀ o s ops answers)
    (found : o.network.stages.get? stage = some s) (spares : ∀ x ∈ steps, x.Spares made) :
    ∃ s', (o.after stage steps).network.stages.get? stage = some s' ∧
      (∀ reason, s.state = .terminated reason → s'.state = .terminated reason) ∧
      Kept made h₀ (o.after stage steps) s' (ops ++ o.operations stage steps)
        (answers ++ o.answers stage steps) := by
  induction steps generalizing o s ops answers with
  | nil =>
    rw [operations, Owned.answers, List.append_nil, List.append_nil]
    exact ⟨s, found, fun _ same => same, kept⟩
  | cons x steps ih =>
    obtain ⟨s', found', next, kept'⟩ := kept.act new named found (spares x List.mem_cons_self)
    obtain ⟨s'', found'', stays, kept''⟩ :=
      ih kept' found' fun y later => spares y (List.mem_cons_of_mem x later)
    refine ⟨s'', found'', fun reason ended => stays reason (next.terminated ended), ?_⟩
    rw [operations_cons, Owned.answers, ← List.append_assoc, ← List.append_assoc]
    exact kept''

def lastPull : List Copy → Hub.Pulled
  | [] => .gone
  | c :: _ => .ready c

/-- What is left of a stage that has ended, after all that was asked of the hub it began with. -/
structure Over (made : Stage) (stage : Nat) (h₀ : Hub) (o : Owned) (ops : List Operation) : Prop where
  sources : ∀ t ∈ made.loop.sources, o.hub.subscriptions.contains t = false ∧
    ∃ before after, ops = before ++ .dropSubscription t :: after ∧
      (h₀.applyAll before).subscriptions.contains t ∧
      Hub.released ((h₀.applyAll before).trace [.dropSubscription t]) =
        (h₀.applyAll before).queueOf t
  publisher : o.hub.publishers.contains made.outlet = false
  /-- Whoever has subscribed, whenever that was, gets in order what was published since, of which only
  its queue is left, and then nothing. -/
  listeners : ∀ first last more t sub, ops = first ++ last →
    (h₀.applyAll first).subscriptions.get? t = some sub → sub.publisher = some made.outlet →
    .dropSubscription t ∉ last ++ more →
    (h₀.applyAll first).departed t last ++ o.hub.queueOf t =
        sub.queue ++ ((h₀.applyAll first).publishedBy made.outlet last).map (·.copy sub.erased) ∧
      o.hub.departed t more ++ (o.hub.applyAll more).queueOf t = o.hub.queueOf t ∧
      ((o.hub.applyAll more).pull t).1 = lastPull ((o.hub.applyAll more).queueOf t)
  latecomers : ∀ erased, ∃ t, (o.act stage (.enter (.subscribe erased))).2 = some (.subscribed t) ∧
    ∀ more, .dropSubscription t ∉ more →
      (((o.act stage (.enter (.subscribe erased))).1.hub.applyAll more).pull t).1 = .gone
  stats : o.act stage (.enter .stats) = (o, some (.stats none))

theorem Kept.afterwards {answers : List Answer} {reason : Termination} (new : made.New h₀)
    (kept : Kept made h₀ o s ops answers) (found : o.network.stages.get? stage = some s)
    (ended : s.state = .terminated reason) (free : o.visit = none) : Over made stage h₀ o ops := by
  have done : o.way.rest made.loop = [] := by
    have standing := kept.standing
    rw [ended] at standing
    generalize o.way = way at standing ⊢
    generalize s.thread = thread at standing
    cases standing <;> rfl
  have dead : o.hub.publishers.contains made.outlet = false := by
    refine (kept.publisher (done ▸ List.not_mem_nil)).resolve_left fun owed => ?_
    have visited := kept.visited owed
    rw [free] at visited
    cases visited
  have dead' : o.hub.publishers.contains s.outlet = false := kept.outlet ▸ dead
  have sound : o.hub.Sound := kept.hub ▸ new.sound.applyAll ops
  refine ⟨fun t mine => ?_, dead, fun first last more t sub split there named unspared => ?_,
    fun erased => ?_, ?_⟩
  · rcases kept.sources t mine with ⟨due, -⟩ | ⟨-, drops⟩
    · exact absurd (done ▸ due) List.not_mem_nil
    · refine ⟨kept.hub ▸ drops.gone, ?_⟩
      obtain ⟨before, after, split, known, -⟩ := drops
      refine ⟨before, after, split, known, ?_⟩
      have released := Hub.released_dropSubscriptions (h := h₀.applyAll before)
        (List.nodup_singleton t)
      simpa using released
  · subst split
    have there' : o.hub = (h₀.applyAll first).applyAll last := kept.hub.trans (Hub.applyAll_append ..)
    have torn : ((h₀.applyAll first).applyAll last).publishers.contains made.outlet = false :=
      there' ▸ dead
    have sound' := new.sound.applyAll first
    obtain ⟨now, -⟩ := Hub.drains (b := []) sound' there named torn
      (by rw [List.append_nil]; exact fun dropped => unspared (List.mem_append_left more dropped))
    obtain ⟨later, pull⟩ := Hub.drains (b := more) sound' there named torn unspared
    rw [List.append_nil] at now
    rw [Hub.departed_append, Hub.applyAll_append, List.append_assoc] at later
    rw [Hub.applyAll_append] at pull
    rw [there']
    refine ⟨now, List.append_cancel_left (later.trans now.symm), pull.trans ?_⟩
    cases (((h₀.applyAll first).applyAll last).applyAll more).queueOf t <;> rfl
  · have act : o.act stage (.enter (.subscribe erased)) =
        (o.withHub (o.hub.subscribeDetached erased).2, some (.subscribed o.hub.subscriptions.next)) := by
      simp only [Owned.act, found, step, enter, free, dead', Bool.false_eq_true, ↓reduceIte]
      rfl
    rw [act]
    exact ⟨_, rfl, fun more unspared => Hub.pull_subscribeDetached sound unspared⟩
  · simp only [Owned.act, found, step, enter, free, dead', Bool.false_eq_true, ↓reduceIte]

/-- What holds of a stage and its owner after any steps since it was built. -/
structure Lifecycle (made : Stage) (stage : Nat) (o : Owned) (steps : List Step) : Prop where
  begins : o.network.state? stage = some .idle
  moves : ∀ first x last, steps = first ++ x :: last → ∃ a b : StageState,
    (o.after stage first).network.state? stage = some a ∧
      (o.after stage (first ++ [x])).network.state? stage = some b ∧ a.Next b
  final : ∀ first last reason, steps = first ++ last →
    (o.after stage first).network.state? stage = some (.terminated reason) →
      (o.after stage steps).network.state? stage = some (.terminated reason)
  starts : ∃ state, (o.after stage steps).network.state? stage = some state ∧
    Starts made.name state ((o.answers stage steps).filterMap Answer.start?)
  accepts : (o.after stage steps).network.state? stage = some .idle →
    (o.after stage steps).visit = none →
      ((o.after stage steps).act stage .start).2 = some (.started (.ok ()))
  /-- Any other cannot. It only tells the log. -/
  refuses : (o.after stage steps).network.state? stage ≠ some .idle →
    (o.after stage steps).visit = none → (o.after stage steps).act stage .start =
      ({ o.after stage steps with
          network := (o.after stage steps).network.note .warn "Stage already started"
            [("stage", made.name)] },
        some (.started (.error (.refused (.alreadyStarted made.name)))))
  joins : (o.answers stage steps).filterMap Answer.reason? = [] ∨
    ∃ reason, (o.answers stage steps).filterMap Answer.reason? = [reason] ∧
      (o.after stage steps).network.state? stage = some (.terminated reason)
  /-- Who has not joined a stage that has ended can, once the thread has counted its end. -/
  joinable : ∀ reason, (o.after stage steps).network.state? stage = some (.terminated reason) →
    (o.after stage steps).visit = none → (o.answers stage steps).filterMap Answer.reason? = [] →
      (o.after stage steps).answers stage [.thread, .join] = [.joined (.ended reason)]
  afterwards : ∀ reason, (o.after stage steps).network.state? stage = some (.terminated reason) →
    (o.after stage steps).visit = none →
      Over made stage o.hub (o.after stage steps) (o.operations stage steps)

theorem state?_eq (found : o.network.stages.get? stage = some s) :
    o.network.state? stage = some s.state := by
  rw [Network.state?, found]
  rfl

theorem Joins.cases {state : StageState} {thread : Thread} {reasons : List Termination}
    (joins : Joins state thread reasons) :
    reasons = [] ∨ ∃ reason, reasons = [reason] ∧ state = .terminated reason := by
  cases joins with
  | none => exact .inl rfl
  | once => exact .inr ⟨_, rfl, rfl⟩

theorem Kept.ending {answers : List Answer} {reason : Termination}
    (kept : Kept made h₀ o s ops answers) (past : s.state = .terminated reason)
    (unjoined : answers.filterMap Answer.reason? = []) :
    s.thread = .running ∧ o.way = .told reason ∨ s.thread = .ended reason := by
  have standing := kept.standing
  have joins := kept.joins
  rw [past] at standing joins
  rw [unjoined] at joins
  generalize s.thread = thread at standing joins ⊢
  generalize o.way = way at standing ⊢
  cases standing with
  | told => exact .inl ⟨rfl, rfl⟩
  | ended => exact .inr rfl
  | joined =>
    cases joins with
    | none unjoined => exact absurd rfl (unjoined reason rfl)

theorem answer_join {reason : Termination} (found : o.network.stages.get? stage = some s)
    (ended : s.thread = .ended reason) (free : o.visit = none) :
    (o.act stage .join).2 = some (.joined (.ended reason)) := by
  simp only [Owned.act, found, step, join, free, Network.join, ended]

theorem Kept.joinable {answers : List Answer} {reason : Termination}
    (kept : Kept made h₀ o s ops answers) (found : o.network.stages.get? stage = some s)
    (past : s.state = .terminated reason) (free : o.visit = none)
    (unjoined : answers.filterMap Answer.reason? = []) :
    o.answers stage [.thread, .join] = [.joined (.ended reason)] := by
  have next : ∀ o' : Owned, ∀ s' : Stage, o.act stage .thread = (o', none) →
      o'.network.stages.get? stage = some s' → s'.thread = .ended reason → o'.visit = none →
        o.answers stage [.thread, .join] = [.joined (.ended reason)] := by
    intro o' s' acts found' ended free'
    simp only [Owned.answers, acts, answer_join found' ended free', Option.toList_none,
      Option.toList_some, List.nil_append, List.append_nil]
  rcases kept.ending past unjoined with ⟨runs, told⟩ | ended
  · refine next ((o.onThread (o.hub.count .stageTerminated)).modify stage
      ({ · with thread := .ended reason })) _ ?_ (found_modify found _) rfl free
    simp only [Owned.act, found, step, runs, proceed, told]
  · exact next o s (by simp only [Owned.act, found, step, ended]) found ended free

theorem Kept.lifecycle {n : Network} {steps : List Step} (new : made.New n.hub)
    (found : n.stages.get? stage = some made) (named : made.nameFault? = none)
    (spares : ∀ x ∈ steps, x.Spares made) : Lifecycle made stage { network := n } steps := by
  have reach : ∀ {first : List Step}, (∀ x ∈ first, x.Spares made) → ∃ s,
      (after { network := n } stage first).network.stages.get? stage = some s ∧
        Kept made n.hub (after { network := n } stage first) s
          (operations stage { network := n } first) (Owned.answers stage { network := n } first) := by
    intro first spares
    obtain ⟨s, there, -, kept⟩ :=
      Kept.run new named (Kept.start (o := { network := n }) new rfl rfl rfl) found spares
    exact ⟨s, there, kept⟩
  obtain ⟨s, here, kept⟩ := reach spares
  have state := state?_eq here
  refine ⟨new.idle ▸ state?_eq (o := { network := n }) found, ?_, ?_,
    ⟨s.state, state, kept.starts⟩, fun idle free => ?_, fun late free => ?_, ?_, ?_, ?_⟩
  · rintro first x last rfl
    obtain ⟨u, there, kept⟩ := reach fun y mine => spares y (List.mem_append_left _ mine)
    obtain ⟨v, there', next, -⟩ := kept.act new named there
      (spares x (List.mem_append_right _ List.mem_cons_self))
    refine ⟨u.state, v.state, state?_eq there, ?_, next⟩
    rw [after_append]
    exact state?_eq there'
  · rintro first last reason rfl ended
    obtain ⟨u, there, kept⟩ := reach fun y mine => spares y (List.mem_append_left _ mine)
    obtain ⟨v, there', stays, -⟩ := kept.run new named there
      fun y mine => spares y (List.mem_append_right _ mine)
    rw [state?_eq there] at ended
    rw [after_append, state?_eq there', stays reason (Option.some.inj ended)]
  · have idle : s.state = .idle := Option.some.inj (state.symm.trans idle)
    have named : s.nameFault? = none := (Stage.nameFault?_congr kept.name).trans named
    simp only [Owned.act, here, step, Owned.start, free, Network.start_idle here idle named]
  · have late : s.state ≠ .idle := fun idle => late (state.trans (congrArg some idle))
    simp only [Owned.act, here, step, Owned.start, free, Network.start_late here late, kept.name]
  · rcases kept.joins.cases with unjoined | ⟨reason, joined, ended⟩
    · exact .inl unjoined
    · exact .inr ⟨reason, joined, state.trans (congrArg some ended)⟩
  · intro reason ended free unjoined
    exact kept.joinable here (Option.some.inj (state.symm.trans ended)) free unjoined
  · intro reason ended free
    exact kept.afterwards new here (Option.some.inj (state.symm.trans ended)) free

end Owned

namespace Network

/-- A stage that was built goes through its states in order, whatever its owner calls and whatever
its thread and all others do in between. -/
theorem stage_lifecycle {n n' : Network} {stage : Nat} {made : Stage} {steps : List Owned.Step}
    (reached : n.hub.Reachable) (makes : n.Makes stage n') (found : n'.stages.get? stage = some made)
    (named : made.nameFault? = none) (spares : ∀ x ∈ steps, x.Spares made) :
    Owned.Lifecycle made stage { network := n' } steps :=
  Owned.Kept.lifecycle (makes.new reached found) found named spares

def guarded : Network :=
  (doorstep.newAggregator "guard" 1 Payload.Shape.signal.factory 0 [1] fun _ v _ => ⟨v, none⟩).2

/-- The only round of a guard without listeners. Then the owner gets hold of the publisher and
subscribes, while the thread closes the loop and sets the state. -/
def lateVisit : List Owned.Step :=
  .start :: List.replicate 7 .thread ++
    [.enter (.subscribe false), .thread, .serve, .thread, .thread, .thread, .leave]

/-- When the state is terminated, the guard's queued frame is released, its subscription is gone,
and so is the publisher that the owner had got hold of. -/
theorem stage_lifecycle_visited : ∃ o, doorstep.Makes 0 guarded ∧
    o = ({ network := guarded } : Owned).after 0 lateVisit ∧
    o.network.state? 0 = some (.terminated .noListeners) ∧
    o.hub.subscriptions.contains 0 = false ∧ o.hub.publishers.contains 2 = false ∧
    (∃ t, (o.act 0 (.enter (.subscribe true))).2 = some (.subscribed t) ∧
      ((o.act 0 (.enter (.subscribe true))).1.hub.pull t).1 = .gone) ∧
    o.act 0 (.enter .stats) = (o, some (.stats none)) ∧
    o.answers 0 [.thread, .join] = [.joined (.ended .noListeners)] := by
  have built : doorstep.newAggregator "guard" 1 Payload.Shape.signal.factory 0 [1]
      (fun _ v _ => ⟨v, none⟩) = (.ok 0, guarded) := rfl
  have made : doorstep.Makes 0 guarded := .joining (.aggregator built) (by decide) (by decide)
  have spares : ∀ x ∈ lateVisit, ∀ op, x ≠ .other op := by
    intro x mine op same
    subst same
    simp [lateVisit] at mine
  have named : ∀ c ∈ "guard".toList, c ≠ '\x00' := by simp
  have life := stage_lifecycle ⟨_, rfl⟩ made rfl (by exact Stage.nameFault?_eq_none named)
    fun x mine t _ => spares x mine _
  have ended : (({ network := guarded } : Owned).after 0 lateVisit).network.state? 0 =
      some (.terminated .noListeners) := by decide +kernel
  have free : (({ network := guarded } : Owned).after 0 lateVisit).visit = none :=
    Option.isNone_iff_eq_none.1 (by decide +kernel)
  have unjoined : (({ network := guarded } : Owned).answers 0 lateVisit).filterMap Answer.reason? = [] :=
    by decide +kernel
  have left := life.afterwards _ ended free
  obtain ⟨t, subscribed, gone⟩ := left.latecomers true
  exact ⟨_, made, rfl, ended, (left.sources 0 List.mem_cons_self).1, left.publisher,
    ⟨t, subscribed, gone [] List.not_mem_nil⟩, left.stats, life.joinable _ ended free unjoined⟩

end Network

end BufferFlow
