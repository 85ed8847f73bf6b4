import BufferFlow.Proofs.Network.Requests

set_option autoImplicit false

/-! # A stage and its owner

A stage has one owner, whose calls come one after the other while the stage's thread goes on. When its
loop ends the thread gives up the publisher and the sources one by one, then says why it ended, then
counts that, and then it is over. Meanwhile the owner may have got hold of the publisher to subscribe
to it; then the publisher goes only when the owner is done with it. When nobody gets in between, all of
this is one action of the network. -/

namespace BufferFlow

namespace Hub

variable (h : Hub) (log : List Record)

theorem invalidate_relog (s : Nat) :
    invalidate { h with log } s = { h.invalidate s with log } := by
  rw [invalidate, invalidate]
  dsimp only
  cases (h.subscriptions.get? s).bind (·.armed) <;> rfl

theorem dropPublisher_relog (p : Nat) :
    ∃ log', dropPublisher { h with log } p = { h.dropPublisher p with log := log' } := by
  have each : ∀ (l : List Nat) (g : Hub),
      l.foldl invalidate { g with log } = { l.foldl invalidate g with log } := by
    intro l
    induction l with
    | nil => exact fun _ => rfl
    | cons s l ih =>
      intro g
      rw [List.foldl_cons, List.foldl_cons, invalidate_relog]
      exact ih (g.invalidate s)
  rw [dropPublisher, dropPublisher]
  dsimp only
  cases h.publishers.get? p with
  | none => exact ⟨log, rfl⟩
  | some P =>
    dsimp only
    rw [each]
    exact ⟨_, rfl⟩

end Hub

theorem Loop.relog_of_closing {l : Loop} {op : Operation} (mine : op ∈ l.closing) (h : Hub)
    (log : List Record) :
    ∃ log', Hub.apply { h with log } op = { h.apply op with log := log' } := by
  rcases closing_cases mine with rfl | ⟨s, -, rfl⟩
  · exact h.dropPublisher_relog log l.publisher
  · exact h.dropSubscription_relog log s

/-- What an owner needs the stage's publisher for. -/
inductive Errand
  | subscribe (erased : Bool)
  | stats

inductive Answer
  | started (result : Except Failure Unit)
  | joined (result : Network.Joined)
  | subscribed (subscription : Nat)
  | stats (stats : Option PoolStats)

/-- How far the owner is that keeps the publisher. -/
inductive Visit
  | entered (errand : Errand)
  | served (answer : Answer)

/-- How far a thread is that runs. -/
inductive Way
  | rounds
  /-- The loop is over, and this is still to be let go of. -/
  | leaving (outcome : Except Fault Termination) (rest : List Operation)
  | told (reason : Termination)

/-- A network with one stage whose thread and whose owner go on side by side. -/
structure Owned where
  network : Network
  way : Way := .rounds
  visit : Option Visit := none
  /-- Whether nobody keeps the publisher any more but the visit. -/
  last : Bool := false

namespace Network

variable {n : Network} {stage : Nat} {s : Stage}

theorem start_idle (found : n.stages.get? stage = some s) (idle : s.state = .idle)
    (named : s.nameFault? = none) : n.start stage = (.ok (),
      ({ n with hub := n.hub.count .stageStarted }.modifyStage stage
        ({ · with state := .running, thread := .running })).note .info "Stage started"
          [("stage", s.name)]) := by
  simp only [start, found, idle, ↓reduceIte, named]

theorem start_late (found : n.stages.get? stage = some s) (late : s.state ≠ .idle) :
    n.start stage = (.error (.refused (.alreadyStarted s.name)),
      n.note .warn "Stage already started" [("stage", s.name)]) := by
  simp only [start, found, late, ↓reduceIte]

end Network

namespace Owned

/-- What happens next: a part of a call of the owner's, a part of what the thread does, or something
that somebody else asks of the hub. -/
inductive Step
  | start
  | join
  | enter (errand : Errand)
  | serve
  | leave
  | thread
  | other (op : Operation)

def hub (o : Owned) : Hub := o.network.hub

def withHub (o : Owned) (hub : Hub) : Owned := { o with network := o.network.withHub hub }

def onThread (o : Owned) (hub : Hub) : Owned := { o with network := o.network.onThread hub }

def modify (o : Owned) (stage : Nat) (f : Stage → Stage) : Owned :=
  { o with network := o.network.modifyStage stage f }

variable (o : Owned) (stage : Nat) (s : Stage)

def start : Owned × Option Answer :=
  match o.visit with
  | some _ => (o, none)
  | none => ({ o with network := (o.network.start stage).2 },
      some (.started (o.network.start stage).1))

def join : Owned × Option Answer :=
  match o.visit with
  | some _ => (o, none)
  | none =>
    match o.network.join stage with
    | (.blocked, _) => (o, none)
    | (joined, n) => ({ o with network := n }, some (.joined joined))

def enter (errand : Errand) : Owned × Option Answer :=
  match o.visit with
  | some _ => (o, none)
  | none =>
    if o.hub.publishers.contains s.outlet then ({ o with visit := some (.entered errand) }, none)
    else
      match errand with
      | .subscribe erased =>
        (o.withHub (o.hub.subscribeDetached erased).2,
          some (.subscribed (o.hub.subscribeDetached erased).1))
      | .stats => (o, some (.stats none))

def serve : Owned :=
  match o.visit with
  | some (.entered (.subscribe erased)) =>
    { o.withHub (o.hub.subscribe s.outlet erased).2 with
      visit := some (.served (.subscribed (o.hub.subscribe s.outlet erased).1)) }
  | some (.entered .stats) =>
    { o with visit := some (.served (.stats ((o.hub.poolOf? s.outlet).bind o.hub.poolStats?))) }
  | _ => o

/-- The owner lets go of the publisher, which tears it down if nobody else keeps it. -/
def leave : Owned × Option Answer :=
  match o.visit with
  | some (.served answer) =>
    ({ o.withHub (if o.last then o.hub.dropPublisher s.outlet else o.hub) with
      visit := none
      last := false }, some answer)
  | _ => (o, none)

/-- The thread lets go of one thing. A publisher that the owner has got hold of stays. -/
def letGo (op : Operation) : Owned :=
  match op, o.visit with
  | .dropPublisher _, some _ => { o with last := true }
  | op, _ => o.onThread (o.hub.apply op)

def proceed : Owned :=
  match o.way with
  | .rounds =>
    match s.loop.advance o.hub with
    | .blocked => o
    | .running hub loop => (o.onThread hub).modify stage ({ · with loop })
    | .stopped hub reason => { o.onThread hub with way := .leaving (.ok reason) s.loop.closing }
    | .faulted hub fault => { o.onThread hub with way := .leaving (.error fault) s.loop.closing }
  | .leaving outcome (op :: rest) => { o.letGo op with way := .leaving outcome rest }
  | .leaving (.ok reason) [] =>
    { o.modify stage ({ · with state := .terminated reason }) with way := .told reason }
  | .leaving (.error fault) [] => o.modify stage ({ · with thread := .faulted fault })
  | .told reason =>
    (o.onThread (o.hub.count .stageTerminated)).modify stage ({ · with thread := .ended reason })

def step : Step → Owned × Option Answer
  | .start => o.start stage
  | .join => o.join stage
  | .enter errand => o.enter s errand
  | .serve => (o.serve s, none)
  | .leave => o.leave s
  | .thread =>
    match s.thread with
    | .running => (o.proceed stage s, none)
    | _ => (o, none)
  | .other op => (o.withHub (o.hub.apply op), none)

def act (x : Step) : Owned × Option Answer :=
  match o.network.stages.get? stage with
  | none => (o, none)
  | some s => o.step stage s x

def after (steps : List Step) : Owned := steps.foldl (fun o x => (o.act stage x).1) o

def answers : Owned → List Step → List Answer
  | _, [] => []
  | o, x :: steps => (o.act stage x).2.toList ++ answers (o.act stage x).1 steps

def asks (o : Owned) (s : Stage) : Step → List Operation
  | .start | .join | .enter .stats => []
  | .enter (.subscribe erased) =>
    match o.visit with
    | some _ => []
    | none => if o.hub.publishers.contains s.outlet then [] else [.subscribeDetached erased]
  | .serve =>
    match o.visit with
    | some (.entered (.subscribe erased)) => [.subscribe s.outlet erased]
    | _ => []
  | .leave =>
    match o.visit with
    | some (.served _) => if o.last then [.dropPublisher s.outlet] else []
    | _ => []
  | .thread =>
    match s.thread, o.way with
    | .running, .rounds =>
      match s.loop.advance o.hub with
      | .blocked => []
      | _ => s.loop.requests o.hub
    | .running, .leaving _ (op :: _) =>
      match op, o.visit with
      | .dropPublisher _, some _ => []
      | op, _ => [op]
    | _, _ => []
  | .other op => [op]

/-- What a run asks of the hub. After each step the counters and the log are set to what is there. -/
def operations (stage : Nat) : Owned → List Step → List Operation
  | _, [] => []
  | o, x :: steps =>
    (match o.network.stages.get? stage with
      | none => []
      | some s => o.asks s x) ++
      .tally (o.act stage x).1.hub.counters (o.act stage x).1.hub.log ::
        operations stage (o.act stage x).1 steps

/-- All that a step can do: what it gives, what it asks of the hub, and how the thread, the visit and
the stage stand after it. -/
inductive Turn (o : Owned) (s : Stage) :
    Step → Option Answer → List Operation → Way → Option Visit → Bool → Stage → Prop
  | waits (x : Step) : Turn o s x none [] o.way o.visit o.last s
  | started (free : o.visit = none) (idle : s.state = .idle) :
      Turn o s .start (some (.started (.ok ()))) [] o.way none o.last
        { s with state := .running, thread := .running }
  | refused (free : o.visit = none) (late : s.state ≠ .idle) :
      Turn o s .start (some (.started (.error (.refused (.alreadyStarted s.name))))) [] o.way none
        o.last s
  | nothing (free : o.visit = none) :
      Turn o s .join (some (.joined .nothing)) [] o.way none o.last s
  | joined {reason : Termination} (free : o.visit = none) (ended : s.thread = .ended reason) :
      Turn o s .join (some (.joined (.ended reason))) [] o.way none o.last { s with thread := .gone }
  | raised {fault : Fault} (free : o.visit = none) (faulted : s.thread = .faulted fault) :
      Turn o s .join (some (.joined (.faulted fault))) [] o.way none o.last { s with thread := .gone }
  | entered {errand : Errand} (free : o.visit = none)
      (alive : o.hub.publishers.contains s.outlet) :
      Turn o s (.enter errand) none [] o.way (some (.entered errand)) o.last s
  | detached {erased : Bool} (free : o.visit = none)
      (dead : o.hub.publishers.contains s.outlet = false) :
      Turn o s (.enter (.subscribe erased)) (some (.subscribed o.hub.subscriptions.next))
        [.subscribeDetached erased] o.way o.visit o.last s
  | statless (free : o.visit = none) (dead : o.hub.publishers.contains s.outlet = false) :
      Turn o s (.enter .stats) (some (.stats none)) [] o.way o.visit o.last s
  | subscribes {erased : Bool} {id : Nat} (here : o.visit = some (.entered (.subscribe erased))) :
      Turn o s .serve none [.subscribe s.outlet erased] o.way (some (.served (.subscribed id))) o.last s
  | looks {stats : Option PoolStats} (here : o.visit = some (.entered .stats)) :
      Turn o s .serve none [] o.way (some (.served (.stats stats))) o.last s
  | leaves {answer : Answer} (here : o.visit = some (.served answer)) :
      Turn o s .leave (some answer) (if o.last then [.dropPublisher s.outlet] else []) o.way none false s
  | round {h' : Hub} {loop : Loop} (runs : s.thread = .running) (way : o.way = .rounds)
      (step : s.loop.advance o.hub = .running h' loop) :
      Turn o s .thread none (s.loop.requests o.hub) .rounds o.visit o.last { s with loop }
  | stops {h' : Hub} {reason : Termination} (runs : s.thread = .running) (way : o.way = .rounds)
      (step : s.loop.advance o.hub = .stopped h' reason) :
      Turn o s .thread none (s.loop.requests o.hub) (.leaving (.ok reason) s.loop.closing) o.visit
        o.last s
  | faults {h' : Hub} {fault : Fault} (runs : s.thread = .running) (way : o.way = .rounds)
      (step : s.loop.advance o.hub = .faulted h' fault) :
      Turn o s .thread none (s.loop.requests o.hub) (.leaving (.error fault) s.loop.closing) o.visit
        o.last s
  | defers {outcome : Except Fault Termination} {p : Nat} {rest : List Operation} {v : Visit}
      (runs : s.thread = .running) (way : o.way = .leaving outcome (.dropPublisher p :: rest))
      (here : o.visit = some v) :
      Turn o s .thread none [] (.leaving outcome rest) o.visit true s
  | letsGo {outcome : Except Fault Termination} {op : Operation} {rest : List Operation}
      (runs : s.thread = .running) (way : o.way = .leaving outcome (op :: rest))
      (free : o.visit = none ∨ ∀ p, op ≠ .dropPublisher p) :
      Turn o s .thread none [op] (.leaving outcome rest) o.visit o.last s
  | tells {reason : Termination} (runs : s.thread = .running)
      (way : o.way = .leaving (.ok reason) []) :
      Turn o s .thread none [] (.told reason) o.visit o.last { s with state := .terminated reason }
  | fails {fault : Fault} (runs : s.thread = .running) (way : o.way = .leaving (.error fault) []) :
      Turn o s .thread none [] o.way o.visit o.last { s with thread := .faulted fault }
  | ends {reason : Termination} (runs : s.thread = .running) (way : o.way = .told reason) :
      Turn o s .thread none [] o.way o.visit o.last { s with thread := .ended reason }
  | other (op : Operation) : Turn o s (.other op) none [op] o.way o.visit o.last s

/-- How a step went, with the stage and the hub that it led to. What is counted and logged is nobody's
business here. -/
structure Leads (o : Owned) (stage : Nat) (s : Stage) (x : Step) (answer : Option Answer) (o' : Owned)
    (s' : Stage) : Prop where
  turn : o.Turn s x answer (o.asks s x) o'.way o'.visit o'.last s'
  found : o'.network.stages.get? stage = some s'
  hub : ∃ counters log, o'.hub = { o.hub.applyAll (o.asks s x) with counters, log }

variable {o : Owned} {stage : Nat} {s : Stage}

theorem found_modify (found : o.network.stages.get? stage = some s) (f : Stage → Stage) :
    (o.network.stages.modify stage f).get? stage = some (f s) := by
  rw [Table.get?_modify, if_pos rfl, found]
  rfl

namespace Leads

variable {x : Step} {answer : Option Answer} {asked : List Operation} {o' : Owned} {s' : Stage}

theorem of (asks : o.asks s x = asked) (turn : o.Turn s x answer asked o'.way o'.visit o'.last s')
    (found : o'.network.stages.get? stage = some s')
    (hub : ∃ counters log, o'.hub = { o.hub.applyAll asked with counters, log }) :
    o.Leads stage s x answer o' s' := by
  subst asks
  exact ⟨turn, found, hub⟩

theorem quiet (found : o.network.stages.get? stage = some s) (same : o'.network = o.network)
    (asks : o.asks s x = []) (turn : o.Turn s x answer [] o'.way o'.visit o'.last s) :
    o.Leads stage s x answer o' s :=
  .of asks turn (same ▸ found) ⟨o.hub.counters, o.hub.log, congrArg Network.hub same⟩

end Leads

theorem leads_start (found : o.network.stages.get? stage = some s) (named : s.nameFault? = none) :
    ∃ s', o.Leads stage s .start (o.start stage).2 (o.start stage).1 s' := by
  rw [start]
  cases free : o.visit with
  | some v => exact ⟨_, .quiet found rfl rfl (.waits .start)⟩
  | none =>
    dsimp only
    by_cases idle : s.state = .idle
    · rw [Network.start_idle found idle named]
      exact ⟨_, .of rfl (.started free idle) (found_modify found _) ⟨_, _, rfl⟩⟩
    · rw [Network.start_late found idle]
      exact ⟨_, .of rfl (.refused free idle) found ⟨_, _, rfl⟩⟩

theorem leads_join (found : o.network.stages.get? stage = some s) :
    ∃ s', o.Leads stage s .join (o.join stage).2 (o.join stage).1 s' := by
  rw [join]
  cases free : o.visit with
  | some v => exact ⟨_, .quiet found rfl rfl (.waits .join)⟩
  | none =>
    simp only [Network.join, found]
    cases thread : s.thread with
    | unstarted | gone => exact ⟨_, .quiet found rfl rfl (.nothing free)⟩
    | running => exact ⟨_, .quiet found rfl rfl (.waits .join)⟩
    | ended reason =>
      exact ⟨_, .of rfl (.joined free thread) (found_modify found _) ⟨o.hub.counters, o.hub.log, rfl⟩⟩
    | faulted fault =>
      exact ⟨_, .of rfl (.raised free thread) (found_modify found _) ⟨o.hub.counters, o.hub.log, rfl⟩⟩

theorem leads_enter (found : o.network.stages.get? stage = some s) (errand : Errand) :
    ∃ s', o.Leads stage s (.enter errand) (o.enter s errand).2 (o.enter s errand).1 s' := by
  simp only [enter]
  cases free : o.visit with
  | some v =>
    refine ⟨_, .quiet found rfl ?_ (.waits (.enter errand))⟩
    cases errand <;> simp only [asks, free]
  | none =>
    dsimp only
    by_cases alive : o.hub.publishers.contains s.outlet
    · rw [if_pos alive]
      refine ⟨_, .quiet found rfl ?_ (.entered free alive)⟩
      cases errand <;> simp only [asks, free, alive, ↓reduceIte]
    · have dead := Bool.eq_false_iff.2 alive
      rw [if_neg alive]
      cases errand with
      | subscribe erased =>
        refine ⟨_, .of ?_ (.detached free dead) found ⟨_, _, rfl⟩⟩
        simp only [asks, free, alive, ↓reduceIte, Bool.false_eq_true]
      | stats => exact ⟨_, .quiet found rfl rfl (.statless free dead)⟩

theorem leads_serve (found : o.network.stages.get? stage = some s) :
    ∃ s', o.Leads stage s .serve none (o.serve s) s' := by
  rw [serve]
  split
  · rename_i erased here
    exact ⟨_, .of (by simp only [asks, here]) (.subscribes here) found ⟨_, _, rfl⟩⟩
  · rename_i here
    exact ⟨_, .quiet found rfl (by simp only [asks, here]) (.looks here)⟩
  · rename_i unentered unlooked
    refine ⟨_, .quiet found rfl ?_ (.waits .serve)⟩
    rw [asks]
    split
    · rename_i erased here
      exact absurd here (unentered erased)
    · rfl

theorem leads_leave (found : o.network.stages.get? stage = some s) :
    ∃ s', o.Leads stage s .leave (o.leave s).2 (o.leave s).1 s' := by
  rw [leave]
  split
  · rename_i answer here
    refine ⟨_, .of (by simp only [asks, here]) (.leaves here) found ?_⟩
    cases o.last with
    | true => exact ⟨_, _, rfl⟩
    | false => exact ⟨_, _, rfl⟩
  · rename_i unserved
    refine ⟨_, .quiet found rfl ?_ (.waits .leave)⟩
    rw [asks]
    split
    · rename_i answer here
      exact absurd here (unserved answer)
    · rfl

theorem letGo_cases (o : Owned) (op : Operation) :
    (∃ p v, op = .dropPublisher p ∧ o.visit = some v ∧ o.letGo op = { o with last := true }) ∨
      ((o.visit = none ∨ ∀ p, op ≠ .dropPublisher p) ∧ o.letGo op = o.onThread (o.hub.apply op)) := by
  cases op with
  | dropPublisher p =>
    cases here : o.visit with
    | none => exact .inr ⟨.inl rfl, by simp only [letGo, here]⟩
    | some v => exact .inl ⟨p, v, rfl, rfl, by simp only [letGo, here]⟩
  | _ => exact .inr ⟨.inr fun _ => nofun, rfl⟩

theorem asks_letGo {outcome : Except Fault Termination} {op : Operation} {rest : List Operation}
    (runs : s.thread = .running) (way : o.way = .leaving outcome (op :: rest))
    (free : o.visit = none ∨ ∀ p, op ≠ .dropPublisher p) : o.asks s .thread = [op] := by
  rw [asks, runs, way]
  dsimp only
  split
  · rename_i p v here
    rcases free with free | apart
    · cases here.symm.trans free
    · exact absurd rfl (apart p)
  · rfl

theorem leads_proceed (found : o.network.stages.get? stage = some s) (runs : s.thread = .running)
    (mailed : s.loop.Mailed o.hub) :
    ∃ s', o.Leads stage s .thread none (o.proceed stage s) s' := by
  have asks_hub : ∀ h', (s.loop.advance o.hub).hub? = some h' →
      h' = o.hub.applyAll (s.loop.requests o.hub) := fun _ => mailed.hub
  rw [proceed]
  cases way : o.way with
  | rounds =>
    dsimp only
    cases step : s.loop.advance o.hub with
    | blocked =>
      exact ⟨_, .quiet found rfl (by simp only [asks, runs, way, step]) (.waits .thread)⟩
    | running h' loop =>
      obtain rfl := asks_hub h' (by rw [step]; rfl)
      exact ⟨_, .of (by simp only [asks, runs, way, step]) (way ▸ .round runs way step)
        (found_modify found _) ⟨_, _, rfl⟩⟩
    | stopped h' reason =>
      obtain rfl := asks_hub h' (by rw [step]; rfl)
      exact ⟨_, .of (by simp only [asks, runs, way, step]) (.stops runs way step) found ⟨_, _, rfl⟩⟩
    | faulted h' fault =>
      obtain rfl := asks_hub h' (by rw [step]; rfl)
      exact ⟨_, .of (by simp only [asks, runs, way, step]) (.faults runs way step) found ⟨_, _, rfl⟩⟩
  | leaving outcome rest =>
    cases rest with
    | nil =>
      cases outcome with
      | ok reason =>
        exact ⟨_, .of (by simp only [asks, runs, way]) (.tells runs way) (found_modify found _)
          ⟨_, _, rfl⟩⟩
      | error fault =>
        exact ⟨_, .of (by simp only [asks, runs, way]) (.fails runs way) (found_modify found _)
          ⟨_, _, rfl⟩⟩
    | cons op rest =>
      dsimp only
      rcases o.letGo_cases op with ⟨p, v, rfl, here, same⟩ | ⟨free, same⟩ <;> rw [same]
      · exact ⟨_, .quiet found rfl (by simp only [asks, runs, way, here]) (.defers runs way here)⟩
      · exact ⟨_, .of (asks_letGo runs way free) (.letsGo runs way free) found ⟨_, _, rfl⟩⟩
  | told reason =>
    exact ⟨_, .of (by simp only [asks, runs, way]) (.ends runs way) (found_modify found _)
      ⟨_, _, rfl⟩⟩

theorem leads_act (found : o.network.stages.get? stage = some s) (named : s.nameFault? = none)
    (mailed : s.loop.Mailed o.hub) (x : Step) :
    ∃ s', o.Leads stage s x (o.act stage x).2 (o.act stage x).1 s' := by
  rw [act, found]
  cases x with
  | start => exact leads_start found named
  | join => exact leads_join found
  | enter errand => exact leads_enter found errand
  | serve => exact leads_serve found
  | leave => exact leads_leave found
  | thread =>
    simp only [step]
    split
    · rename_i runs
      exact leads_proceed found runs mailed
    · rename_i waits
      refine ⟨_, .quiet found rfl ?_ (.waits .thread)⟩
      rw [asks]
      split
      · rename_i runs _
        exact absurd runs waits
      · rename_i runs _
        exact absurd runs waits
      · rfl
  | other op => exact ⟨_, .of rfl (.other op) found ⟨_, _, rfl⟩⟩

theorem after_cons (o : Owned) (stage : Nat) (x : Step) (steps : List Step) :
    o.after stage (x :: steps) = (o.act stage x).1.after stage steps := rfl

theorem after_append (o : Owned) (stage : Nat) (steps more : List Step) :
    o.after stage (steps ++ more) = (o.after stage steps).after stage more :=
  List.foldl_append

theorem subscribe_uninterrupted (found : o.network.stages.get? stage = some s)
    (free : o.visit = none) (kept : o.last = false) (erased : Bool) :
    o.after stage [.enter (.subscribe erased), .serve, .leave] =
        { o with network := (o.network.subscribe stage erased).2 } ∧
      o.answers stage [.enter (.subscribe erased), .serve, .leave] =
        [.subscribed (o.network.subscribe stage erased).1] := by
  obtain ⟨n, way, visit, last⟩ := o
  obtain rfl : visit = none := free
  obtain rfl : last = false := kept
  have found : n.stages.get? stage = some s := found
  by_cases alive : n.hub.publishers.contains s.outlet
  · constructor <;>
      simp [after, answers, act, found, step, enter, serve, leave, hub, alive, withHub,
        Network.withHub, Network.subscribe]
  · have absent := Option.not_isSome_iff_eq_none.1 alive
    constructor <;>
      simp [after, answers, act, found, step, enter, serve, leave, hub, alive, withHub,
        Network.withHub, Network.subscribe, Hub.subscribe, absent]

theorem stats_uninterrupted (found : o.network.stages.get? stage = some s)
    (free : o.visit = none) (kept : o.last = false) :
    o.after stage [.enter .stats, .serve, .leave] = o ∧
      o.answers stage [.enter .stats, .serve, .leave] = [.stats (o.network.poolStats? stage)] := by
  obtain ⟨n, way, visit, last⟩ := o
  obtain rfl : visit = none := free
  obtain rfl : last = false := kept
  have found : n.stages.get? stage = some s := found
  by_cases alive : n.hub.publishers.contains s.outlet
  · constructor <;>
      simp [after, answers, act, found, step, enter, serve, leave, hub, alive, withHub,
        Network.withHub, Network.poolStats?]
  · have absent := Option.not_isSome_iff_eq_none.1 alive
    constructor <;>
      simp [after, answers, act, found, step, enter, serve, leave, hub, alive,
        Network.poolStats?, Hub.poolOf?, absent]

theorem letsGo_uninterrupted {l : Loop} {rest : List Operation} (within : ∀ op ∈ rest, op ∈ l.closing)
    (free : o.visit = none) (found : o.network.stages.get? stage = some s)
    (runs : s.thread = .running) {outcome : Except Fault Termination} (way : o.way = .leaving outcome rest)
    {h : Hub} (here : o.hub = { h with log := o.hub.log }) :
    o.after stage (List.replicate rest.length .thread) =
      { o.onThread (h.applyAll rest) with way := .leaving outcome [] } := by
  induction rest generalizing o h with
  | nil =>
    obtain ⟨n, way', visit, last⟩ := o
    obtain rfl : way' = _ := way
    have same : n.hub = { h with log := n.hub.log } := here
    rw [onThread, Network.onThread, Hub.applyAll, List.foldl_nil]
    dsimp only
    rw [← same]
    rfl
  | cons op rest ih =>
    have steps : (o.act stage .thread).1 =
        { o.onThread (o.hub.apply op) with way := .leaving outcome rest } := by
      simp only [act, found, step, runs, proceed, way]
      rcases o.letGo_cases op with ⟨p, v, -, taken, -⟩ | ⟨-, same⟩
      · cases taken.symm.trans free
      · rw [same]
    obtain ⟨log, dropped⟩ := Loop.relog_of_closing (within op List.mem_cons_self) h o.hub.log
    have next : o.hub.apply op = { h.apply op with log } := here ▸ dropped
    rw [List.length_cons, List.replicate_succ, after_cons, steps]
    refine (ih (o := { o.onThread (o.hub.apply op) with way := .leaving outcome rest })
      (fun x hx => within x (List.mem_cons_of_mem _ hx)) free found rfl (h := h.apply op) ?_).trans rfl
    exact congrArg (fun g : Hub => { g with log := o.hub.log }) next

theorem closes_uninterrupted {n : Network} (found : n.stages.get? stage = some s)
    (runs : s.thread = .running) (outcome : Except Fault Termination) (h : Hub) :
    ({ network := n.onThread h, way := .leaving outcome s.loop.closing } : Owned).after stage
        (List.replicate s.loop.closing.length .thread) =
      { network := n.onThread (s.loop.close h), way := .leaving outcome [] } := by
  rw [s.loop.close_hub h]
  exact letsGo_uninterrupted (fun _ mine => mine) rfl found runs rfl rfl

theorem tells_uninterrupted {n : Network} (found : n.stages.get? stage = some s)
    (runs : s.thread = .running) (reason : Termination) :
    ({ network := n, way := .leaving (.ok reason) [] } : Owned).after stage
        (List.replicate 2 .thread) =
      { network := (n.onThread (n.hub.count .stageTerminated)).modifyStage stage
          ({ · with state := .terminated reason, thread := .ended reason })
        way := .told reason } := by
  have there : (n.stages.modify stage ({ · with state := .terminated reason })).get? stage =
      some { s with state := .terminated reason } := by
    rw [Table.get?_modify, if_pos rfl, found]
    rfl
  have tells : (({ network := n, way := .leaving (.ok reason) [] } : Owned).act stage .thread).1 =
      { network := n.modifyStage stage ({ · with state := .terminated reason })
        way := .told reason } := by
    simp only [act, found, step, runs, proceed]
    rfl
  have ends : (({ network := n.modifyStage stage ({ · with state := .terminated reason })
                  way := .told reason } : Owned).act stage .thread).1 =
      { network := (n.onThread (n.hub.count .stageTerminated)).modifyStage stage
          ({ · with state := .terminated reason, thread := .ended reason })
        way := .told reason } := by
    simp only [act, Network.modifyStage, there, step, runs, proceed, modify, onThread, hub,
      Network.onThread, Table.modify_modify]
  exact (congrArg (fun o => (act o stage .thread).1) tells).trans ends

theorem fails_uninterrupted {n : Network} (found : n.stages.get? stage = some s)
    (runs : s.thread = .running) (fault : Fault) :
    ({ network := n, way := .leaving (.error fault) [] } : Owned).after stage
        (List.replicate 1 .thread) =
      { network := n.modifyStage stage ({ · with thread := .faulted fault })
        way := .leaving (.error fault) [] } := by
  simp only [List.replicate, after, List.foldl_cons, List.foldl_nil, act, found, step, runs, proceed]
  rfl

theorem after_threads (o : Owned) (stage a b : Nat) :
    o.after stage (List.replicate (a + b) .thread) =
      (o.after stage (List.replicate a .thread)).after stage (List.replicate b .thread) := by
  rw [List.replicate_add, after_append]

/-- A thread with nobody in between does what a step of the network does at once. -/
theorem thread_uninterrupted {n n' : Network} (step : n.advanceStage? stage = some n') :
    ∃ k way, ({ network := n } : Owned).after stage (List.replicate k .thread) =
      { network := n', way } := by
  rw [Network.advanceStage?] at step
  cases found : n.stages.get? stage with
  | none => simp only [found] at step; cases step
  | some s =>
    have first : ({ network := n } : Owned).after stage (List.replicate 1 .thread) =
        (({ network := n } : Owned).step stage s .thread).1 := by
      simp only [List.replicate, after, List.foldl_cons, List.foldl_nil, act, found]
    simp only [found] at step
    split at step
    · rename_i runs
      simp only [Owned.step, runs, proceed, hub] at first
      split at step
      · cases step
      · rename_i h loop advanced
        cases step
        simp only [advanced] at first
        exact ⟨1, .rounds, first⟩
      · rename_i h reason advanced
        cases step
        simp only [advanced] at first
        -- The round that ends the loop, then all that is let go of, then the report and the count.
        refine ⟨1 + s.loop.closing.length + 2, .told reason, ?_⟩
        rw [after_threads, after_threads, first]
        exact (congrArg (after · stage _) (closes_uninterrupted found runs (.ok reason) h)).trans
          (tells_uninterrupted (n := n.onThread (s.loop.close h)) found runs reason)
      · rename_i h fault advanced
        cases step
        simp only [advanced] at first
        refine ⟨1 + s.loop.closing.length + 1, .leaving (.error fault) [], ?_⟩
        rw [after_threads, after_threads, first]
        exact (congrArg (after · stage _) (closes_uninterrupted found runs (.error fault) h)).trans
          (fails_uninterrupted (n := n.onThread (s.loop.close h)) found runs fault)
    · cases step

end Owned

end BufferFlow
