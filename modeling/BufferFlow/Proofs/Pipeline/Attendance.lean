import BufferFlow.Pipeline.Schedule
import BufferFlow.Proofs.Pipeline.Ending

set_option autoImplicit false

namespace BufferFlow

namespace Hub

variable {h : Hub} {s : Nat} {c : Copy} {ops : List Operation}

theorem held_applyAll (hc : c ∈ h.held) (kept : ∀ op ∈ ops, ¬ op.Consumes c) :
    c ∈ (h.applyAll ops).held := by
  induction ops generalizing h with
  | nil => exact hc
  | cons op ops ih =>
    exact ih (held_apply hc fun consumed => absurd consumed (kept op List.mem_cons_self))
      fun op hop => kept op (List.mem_cons_of_mem _ hop)

theorem pull_ready {h' : Hub} (pulled : h.pull s = (.ready c, h')) :
    h' = h.apply (.pull s) ∧ h.departures s (.pull s) = [c] ∧ c ∈ h'.held := by
  refine ⟨by rw [apply, pulled], by rw [departures, if_pos rfl, pulled], ?_⟩
  rw [pull] at pulled
  split at pulled
  · simp at pulled
  · split at pulled
    · obtain ⟨found, rfl⟩ := Prod.mk.inj pulled
      obtain rfl := Pulled.ready.inj found
      exact List.mem_cons_self
    · split at pulled <;> simp at pulled

theorem pull_gone {h' : Hub} (pulled : h.pull s = (.gone, h')) :
    h.publisherOf? s = none ∧ h.queueOf s = [] := by
  rw [publisherOf?, queueOf]
  cases found : h.subscriptions.get? s with
  | none => exact ⟨rfl, rfl⟩
  | some sub =>
    have ends := (pull_gone_iff found).1 (congrArg (·.1) pulled)
    exact ⟨ends.1, ends.2⟩

theorem pull_empty {h' : Hub} (pulled : h.pull s = (.empty, h')) : h.queueOf s = [] := by
  rw [pull] at pulled
  rw [queueOf]
  cases found : h.subscriptions.get? s with
  | none => rfl
  | some sub =>
    simp only [found] at pulled
    cases queue : sub.queue with
    | nil => simpa using queue
    | cons c rest => simp [queue] at pulled

end Hub

namespace Stage

def started (s : Stage) : Stage := { s with state := .running, thread := .running }

def joined (s : Stage) : Stage := { s with thread := .gone }

end Stage

namespace Network

variable {n : Network} {i : Nat} {s : Stage}

theorem start_eq (found : n.stages.get? i = some s) (idle : s.state = .idle)
    (proper : s.nameFault? = none) : ∃ counters log,
      n.start i = (.ok (), ⟨{ n.hub with counters, log }, n.stages.modify i Stage.started⟩) := by
  simp only [start, found, idle, if_true, proper]
  exact ⟨_, _, rfl⟩

theorem join_eq {reason : Termination} (found : n.stages.get? i = some s)
    (ended : s.thread = .ended reason) :
    n.join i = (.ended reason, ⟨n.hub, n.stages.modify i Stage.joined⟩) := by
  simp only [join, found, ended]
  rfl

theorem join_eq_faulted {fault : Fault} (found : n.stages.get? i = some s)
    (faulted : s.thread = .faulted fault) :
    n.join i = (.faulted fault, ⟨n.hub, n.stages.modify i Stage.joined⟩) := by
  simp only [join, found, faulted]
  rfl

end Network

namespace Pipeline

variable {config : PipelineConfig} {n₀ n n' : Network} {ops more : List Operation} {i : Nat}
  {c : Copy}

/-- Which stages were not started yet, and which were joined. -/
structure Threads (n : Network) (idle joined : List Nat) : Prop where
  unstarted : ∀ (i : Nat) s, n.stages.get? i = some s → (s.thread = .unstarted ↔ i ∈ idle)
  gone : ∀ (i : Nat) s, n.stages.get? i = some s → (s.thread = .gone ↔ i ∈ joined)

theorem Threads.advance {idle joined : List Nat} (t : Threads n idle joined) {s : Stage}
    {progress : Progress Loop} (found : n.stages.get? i = some s) (runs : s.thread = .running)
    (stages : n'.stages = n.stages.modify i fun _ => s.after progress) :
    Threads n' idle joined := by
  have after : (s.after progress).thread ≠ .unstarted ∧ (s.after progress).thread ≠ .gone := by
    cases progress <;> simp [Stage.after, runs]
  have same : ∀ (j : Nat) u, n'.stages.get? j = some u →
      ∃ s, n.stages.get? j = some s ∧ (u.thread = .unstarted ↔ s.thread = .unstarted) ∧
        (u.thread = .gone ↔ s.thread = .gone) := by
    intro j u hu
    rw [stages, Table.get?_modify] at hu
    split at hu
    · rename_i here
      rw [here, found] at hu
      obtain rfl := Option.some.inj hu
      exact ⟨s, here ▸ found, by simp [after.1, runs], by simp [after.2, runs]⟩
    · exact ⟨u, hu, Iff.rfl, Iff.rfl⟩
  refine ⟨fun j u hu => ?_, fun j u hu => ?_⟩
  · obtain ⟨s, hs, unstarted, -⟩ := same j u hu
    exact unstarted.trans (t.unstarted j s hs)
  · obtain ⟨s, hs, -, gone⟩ := same j u hu
    exact gone.trans (t.gone j s hs)

theorem Threads.withHub {idle joined : List Nat} (t : Threads n idle joined) (hub : Hub) :
    Threads (n.withHub hub) idle joined :=
  ⟨t.unstarted, t.gone⟩

theorem Threads.start {rest joined : List Nat} (t : Threads n (i :: rest) joined)
    (once : (i :: rest).Nodup) (stages : n'.stages = n.stages.modify i Stage.started) :
    Threads n' rest joined := by
  refine ⟨fun j u hu => ?_, fun j u hu => ?_⟩ <;> rw [stages, Table.get?_modify] at hu <;>
    split at hu
  · rename_i here
    subst here
    obtain ⟨s, -, rfl⟩ := Option.map_eq_some_iff.1 hu
    simp [Stage.started, (List.nodup_cons.1 once).1]
  · rename_i other
    rw [t.unstarted j u hu]
    simp [other]
  · rename_i here
    subst here
    obtain ⟨s, hs, rfl⟩ := Option.map_eq_some_iff.1 hu
    have unstarted := (t.unstarted j s hs).2 List.mem_cons_self
    rw [← t.gone j s hs, unstarted]
    simp [Stage.started]
  · exact t.gone j u hu

theorem Threads.join {idle joined : List Nat} (t : Threads n idle joined) (running : i ∉ idle)
    (stages : n'.stages = n.stages.modify i Stage.joined) :
    Threads n' idle (joined ++ [i]) := by
  refine ⟨fun j u hu => ?_, fun j u hu => ?_⟩ <;> rw [stages, Table.get?_modify] at hu <;>
    split at hu
  · rename_i here
    subst here
    obtain ⟨s, -, rfl⟩ := Option.map_eq_some_iff.1 hu
    simp [Stage.joined, running]
  · exact t.unstarted j u hu
  · rename_i here
    subst here
    obtain ⟨s, -, rfl⟩ := Option.map_eq_some_iff.1 hu
    simp [Stage.joined]
  · rename_i other
    rw [t.gone j u hu]
    simp [other]

theorem mem_starts : i ∈ (partsOf config).starts ↔ i < gateCount config + 3 := by
  simp only [Parts.starts, partsOf, List.cons_append, List.mem_cons, List.mem_append, List.mem_map,
    List.mem_range, List.not_mem_nil, or_false]
  constructor
  · rintro (rfl | ⟨k, hk, rfl⟩ | rfl | rfl) <;> omega
  · intro hi
    by_cases first : i = 0
    · exact .inl first
    by_cases gate : i ≤ gateCount config
    · exact .inr (.inl ⟨i - 1, by omega, by omega⟩)
    · omega

theorem starts_nodup (config : PipelineConfig) : (partsOf config).starts.Nodup := by
  have gates : ((List.range (gateCount config)).map (· + 1)).Nodup :=
    List.nodup_range.map fun a b hab => Nat.add_right_cancel hab
  simp only [Parts.starts, partsOf, List.cons_append, List.nodup_cons, List.nodup_append', gates,
    List.mem_append, List.mem_map, List.mem_range, List.mem_cons, List.not_mem_nil, List.Disjoint]
  refine ⟨?_, ?_⟩ <;> simp
  omega

theorem Laid.threads (laid : Planned config n₀) : Threads n₀ (partsOf config).starts [] := by
  have unstarted : ∀ (i : Nat) s, n₀.stages.get? i = some s →
      i < gateCount config + 3 ∧ s.thread = .unstarted := by
    intro i s found
    have hi : i < gateCount config + 3 := laid.stageCount ▸ Table.get?_lt found
    obtain ⟨name, -, same⟩ := laid.stage i hi
    obtain rfl := Option.some.inj (found.symm.trans same)
    exact ⟨hi, rfl⟩
  refine ⟨fun i s found => ?_, fun i s found => ?_⟩
  · obtain ⟨hi, thread⟩ := unstarted i s found
    simp [thread, mem_starts, hi]
  · simp [(unstarted i s found).2]

theorem Underway.start {rest joined : List Nat} (u : Underway config n₀.hub ops n)
    (t : Threads n (i :: rest) joined) (hi : i < gateCount config + 3) :
    ∃ counters log, n.start i =
        (.ok (), ⟨{ n.hub with counters, log }, n.stages.modify i Stage.started⟩) ∧
      Underway config n₀.hub (ops ++ [.tally counters log])
        ⟨{ n.hub with counters, log }, n.stages.modify i Stage.started⟩ ∧
      ∀ s, n.stages.get? i = some s → s.thread = .unstarted := by
  obtain ⟨s, found, -, proper, tells⟩ := u.stage i hi
  have unstarted := (t.unstarted i s found).2 List.mem_cons_self
  have only : ∀ s, n.stages.get? i = some s → s.thread = .unstarted :=
    fun s found => (t.unstarted i s found).2 List.mem_cons_self
  have idle : s.state = .idle := by
    rw [Stage.Tells, unstarted] at tells
    exact tells
  obtain ⟨counters, log, started⟩ := Network.start_eq found idle proper
  exact ⟨counters, log, started, u.retitle rfl rfl (fun _ => ⟨rfl, rfl⟩)
    (fun s found => ⟨fun _ => .inl (only s found), fun _ => .inr rfl⟩) fun _ _ => rfl, only⟩

theorem Ending.retitle (e : Ending config n₀ n ops) (u : Underway config n₀.hub ops n)
    (laid : Planned config n₀) {f : Stage → Stage} {counters : Counters} {log : List Record}
    (stages : n'.stages = n.stages.modify i f) (loop : ∀ s, (f s).loop = s.loop)
    (works : ∀ s, n.stages.get? i = some s → ((f s).Works ↔ s.Works))
    (state : ∀ s, n.stages.get? i = some s →
      (f s).state = s.state ∨ (f s).Works ∧ (f s).state = .running) :
    Ending config n₀ n' (ops ++ [.tally counters log]) := by
  have same : ∀ j, n'.Working j ↔ n.Working j := by
    intro j
    rw [working_modify stages, Network.Working]
    refine exists_congr fun s => and_congr_right fun hs => ?_
    split
    · rename_i here
      exact works s (here ▸ hs)
    · rfl
  refine e.same u laid same (e.leads.quiet (fun j => (same j).1)
    (List.forall_mem_singleton.2 fun p blank same => by cases same)) fun j t ht => ?_
  rw [stages, Table.get?_modify] at ht
  split at ht
  · rename_i here
    obtain ⟨s, hs, rfl⟩ := Option.map_eq_some_iff.1 ht
    rcases state s (here ▸ hs) with kept | ⟨runs, running⟩
    · exact .inr ⟨s, hs, kept, loop s, works s (here ▸ hs)⟩
    · exact .inl ⟨runs, fun reason ended => by cases running.symm.trans ended⟩
  · exact .inr ⟨t, ht, rfl, rfl, Iff.rfl⟩

theorem Underway.join (u : Underway config n₀.hub ops n) (laid : Planned config n₀)
    (e : Ending config n₀ n ops) {s : Stage} (found : n.stages.get? i = some s) (ended : ¬ s.Works) :
    Underway config n₀.hub (ops ++ [.tally n.hub.counters n.hub.log])
        ⟨n.hub, n.stages.modify i Stage.joined⟩ ∧
      Ending config n₀ ⟨n.hub, n.stages.modify i Stage.joined⟩
        (ops ++ [.tally n.hub.counters n.hub.log]) ∧
      ∀ j, Network.Working ⟨n.hub, n.stages.modify i Stage.joined⟩ j → n.Working j := by
  have gone : ¬ s.joined.Works := by simp [Stage.Works, Stage.joined]
  have works : ∀ t, n.stages.get? i = some t → (t.joined.Works ↔ t.Works) := by
    intro t ht
    obtain rfl := Option.some.inj (found.symm.trans ht)
    exact iff_of_false gone ended
  refine ⟨u.retitle rfl rfl (fun _ => ⟨rfl, rfl⟩) works fun t ht => ?_,
    e.retitle u laid rfl (fun _ => rfl) works fun _ _ => .inl rfl, fun j working => ?_⟩
  · obtain rfl := Option.some.inj (found.symm.trans ht)
    obtain ⟨t, same, -, -, tells⟩ := u.stage i (u.within i s found)
    obtain rfl := Option.some.inj (found.symm.trans same)
    exact (tells.ended ended).imp_right fun exhausted => ⟨gone, exhausted.state, exhausted.rounds⟩
  · obtain ⟨t, ht, runs⟩ := (working_modify (n := n) rfl).1 working
    refine ⟨t, ht, ?_⟩
    split at runs
    · rename_i here
      exact (works t (here ▸ ht)).1 runs
    · exact runs

abbrev reportsOf (config : PipelineConfig) : Nat := 2 * gateCount config + 2

theorem reportsOf_given : reportsOf config < 2 * gateCount config + 3 := Nat.lt_succ_self _

theorem outletOf_reports : outletOf config (reportsOf config) = gateCount config + 2 := by
  rw [outletOf, reportsOf, if_neg (by omega), if_neg (by omega)]

abbrev pulled (config : PipelineConfig) (n₀ : Network) (ops : List Operation) : List Copy :=
  n₀.hub.departed (reportsOf config) ops

/-- The reader has its subscription and pulls from it only. -/
structure Attends (config : PipelineConfig) (n : Network) (ops : List Operation) : Prop where
  kept : .dropSubscription (reportsOf config) ∉ ops
  idle : n.hub.armedOf? (reportsOf config) = none

theorem Laid.attends (laid : Planned config n₀) : Attends config n₀ [] :=
  ⟨List.not_mem_nil, laid.armedOf? _⟩

namespace Underway

variable (u : Underway config n₀.hub ops n) (laid : Planned config n₀)

include u laid

theorem reader (within : ∀ op ∈ more, op.Within (readerKit config) n₀.hub ops)
    (fits : ∀ op ∈ more, op.Fits n₀.hub) :
    Underway config n₀.hub (ops ++ more) (n.withHub (n.hub.applyAll more)) := by
  refine u.others within fits fun i s found _ => ?_
  have apart := laid.reader_apart (u.within i s found)
  rw [s.loop.kit_reset, u.reset found]
  exact apart.withCells' fun cell hc => absurd hc List.not_mem_nil

theorem spares_reports {s : Stage} (found : n.stages.get? i = some s)
    (within : ∀ op ∈ more, op.Within (s.loop.kit n₀.hub) n₀.hub ops) :
    ∀ op ∈ more, ¬ op.Addresses (reportsOf config) := by
  intro op hop own
  have hi := u.within i s found
  have mine := (within op hop).addresses own
  rw [s.loop.kit_reset, u.reset found, laid.kit_eq hi] at mine
  exact absurd (sourcesOf_lt hi mine) (Nat.lt_irrefl _)

theorem spares_hands {s : Stage} (found : n.stages.get? i = some s)
    (within : ∀ op ∈ more, op.Within (s.loop.kit n₀.hub) n₀.hub ops)
    (sent : n₀.hub.Sends (gateCount config + 2) ops c) : ∀ op ∈ more, ¬ op.Consumes c := by
  intro op hop consumed
  have hi := u.within i s found
  obtain ⟨p, hp, theirs⟩ := (within op hop).consumes consumed
  rw [s.loop.kit_reset, u.reset found, laid.kit_eq hi] at hp
  obtain ⟨t, ht, rfl⟩ := List.mem_map.1 hp
  have := outletOf_lt hi ht
  have := sent.unique theirs
  omega

end Underway

namespace Attends

variable (a : Attends config n ops) (u : Underway config n₀.hub ops n) (laid : Planned config n₀)

include a

theorem spared (hub : n'.hub = n.hub.applyAll more)
    (spares : ∀ op ∈ more, ¬ op.Addresses (reportsOf config)) : Attends config n' (ops ++ more) := by
  refine ⟨fun dropped => ?_, ?_⟩
  · rcases List.mem_append.1 dropped with before | now
    · exact a.kept before
    · exact spares _ now rfl
  · rw [hub]
    exact (Hub.idle_applyAll a.idle spares).1

theorem pull (hub : n'.hub = n.hub.apply (.pull (reportsOf config))) :
    Attends config n' (ops ++ [.pull (reportsOf config)]) := by
  refine ⟨fun dropped => a.kept (by simpa using dropped), ?_⟩
  refine Option.eq_none_iff_forall_not_mem.2 fun armed ha => ?_
  rw [hub] at ha
  rcases Hub.armedOf?_apply ha with before | arms
  · rw [a.idle] at before
    simp at before
  · simp at arms

include laid in
theorem sent (hc : c ∈ pulled config n₀ ops) : n₀.hub.Sends (gateCount config + 2) ops c := by
  have found := laid.subscription _ reportsOf_given
  obtain ⟨p, named, sent⟩ := Hub.sends_departed laid.reached.sound (Hub.contains_of_get? found)
    (laid.queueOf reportsOf_given) a.kept hc
  rw [laid.publisherOf? reportsOf_given, outletOf_reports] at named
  exact Option.some.inj named ▸ sent

include u

theorem pulled_spared (spares : ∀ op ∈ more, ¬ op.Addresses (reportsOf config)) :
    pulled config n₀ (ops ++ more) = pulled config n₀ ops := by
  rw [pulled, Hub.departed_append, ← u.orderly.hub, (Hub.idle_applyAll a.idle spares).2,
    List.append_nil]

include laid

theorem pulled_append : pulled config n₀ ops ++ n.hub.queueOf (reportsOf config) =
    (made n₀ ops (gateCount config + 2)).map (·.copy false) := by
  have order := u.brought laid reportsOf_given a.kept
  rwa [outletOf_reports] at order

theorem shown {k : Nat} (hc : (pulled config n₀ ops)[k]? = some c) (inHand : c ∈ n.hub.held) :
    ∃ pub, (made n₀ ops (gateCount config + 2))[k]? = some pub ∧
      n.hub.read? c = some pub.payload := by
  have found := laid.subscription _ reportsOf_given
  have short := (List.getElem?_eq_some_iff.1 hc).1
  have order := congrArg (·[k]?) (a.pulled_append u laid)
  simp only [List.getElem?_append_left short, hc, List.getElem?_map] at order
  obtain ⟨pub, hpub, -⟩ := Option.map_eq_some_iff.1 order.symm
  have shown := Hub.supply_shown laid.reached.sound found a.kept
    (i := k) (by rw [List.getElem?_append_left short, hc])
    (Hub.mem_copies_of_held (u.orderly.hub ▸ inHand))
  rw [laid.supply_eq ops reportsOf_given, outletOf_reports, List.getElem?_map, hpub, ← u.orderly.hub]
    at shown
  exact ⟨pub, hpub, by rw [Hub.read?, if_pos inHand, ← shown]; rfl⟩

end Attends

end Pipeline

end BufferFlow
