import BufferFlow.Proofs.Pipeline.Attendance

set_option autoImplicit false

/-! # The report of a run

In whichever order the reader and the stages take their steps, the reader counts every report that
the sink publishes, and it joins every stage after that has ended. So all runs that end give the same
report. -/

namespace BufferFlow.Pipeline

variable {config : PipelineConfig} {n₀ n n' : Network} {ops more : List Operation} {i : Nat}

/-! ## What is reported -/

def firings (config : PipelineConfig) : Nat :=
  ((List.range config.steps.toNat).product (List.range config.vectorSize.toNat)).countP
    fun (s, i) => i % config.firingPeriod.toNat = s % config.firingPeriod.toNat

def firingsUpTo (config : PipelineConfig) (k : Nat) : Nat :=
  ((List.range k).map (firingsAt config)).sum

theorem firings_eq (config : PipelineConfig) :
    firings config = firingsUpTo config config.steps.toNat := by
  rw [firings, List.product, List.countP_flatMap, firingsUpTo]
  refine congrArg List.sum (List.map_congr_left fun s _ => ?_)
  rw [Function.comp, List.countP_map]
  rfl

theorem firingsUpTo_succ (config : PipelineConfig) (k : Nat) :
    firingsUpTo config (k + 1) = firingsUpTo config k + firingsAt config k := by
  rw [firingsUpTo, List.range_succ, List.map_append, List.sum_append, firingsUpTo]
  simp

theorem firingsUpTo_mono {k m : Nat} (hk : k ≤ m) : firingsUpTo config k ≤ firingsUpTo config m := by
  induction hk with
  | refl => exact Nat.le_refl _
  | step _ ih =>
    rw [firingsUpTo_succ]
    exact Nat.le_trans ih (Nat.le_add_right _ _)

/-- What the reader has counted after so many reports. -/
def reportUpTo (config : PipelineConfig) (k : Nat) : RunReport where
  steps := k.toUInt64
  fired := (firingsUpTo config k).toUInt64

def finalReport (config : PipelineConfig) : RunReport where
  steps := config.steps
  fired := (firings config).toUInt64
  sink := some .sourceGone
  fire := some .gateClosed
  exchange := some .noListeners

/-- No sum of the reader's overflows. -/
structure Countable (config : PipelineConfig) : Prop where
  each : ∀ k < config.steps.toNat, firingsAt config k < 2 ^ 32
  total : firings config < 2 ^ 64

theorem reportUpTo_add {k : Nat} {b : SinkBuffer} {ones : UInt32} (countable : Countable config)
    (hk : k < config.steps.toNat) (counted : b.countOnes = .ok ones)
    (fires : ones.toNat = firingsAt config k) :
    (reportUpTo config k).add (.sink b) = .ok (reportUpTo config (k + 1)) := by
  have steps : k.toUInt64.toNat = k :=
    UInt64.toNat_ofNat_of_lt' (Nat.lt_trans hk config.steps.toNat_lt)
  have few : k + 1 < UInt64.size := Nat.lt_of_le_of_lt hk config.steps.toNat_lt
  have all : firingsUpTo config (k + 1) < UInt64.size :=
    Nat.lt_of_le_of_lt (firingsUpTo_mono hk) (firings_eq config ▸ countable.total)
  have fired : (firingsUpTo config k).toUInt64.toNat = firingsUpTo config k :=
    UInt64.toNat_ofNat_of_lt' (Nat.lt_of_le_of_lt (firingsUpTo_mono (Nat.le_succ k)) all)
  rw [firingsUpTo_succ, ← fires] at all
  simp only [RunReport.add, reportUpTo, Checked.add, counted, bind, Except.bind, steps, fired,
    UInt32.toNat_toUInt64, UInt64.toNat_one, if_pos few, if_pos all]
  rw [firingsUpTo_succ, ← fires]
  simp [UInt64.ofNat_add, pure, Except.pure]

def joinedReport (config : PipelineConfig) (joined : List Nat) : RunReport :=
  joined.foldl (fun r stage => r.join (partsOf config) stage (some (reasonOf config stage)))
    (reportUpTo config config.steps.toNat)

theorem joinedReport_all (config : PipelineConfig) :
    joinedReport config (partsOf config).joins = finalReport config := by
  have gates : ∀ (l : List Nat) (r : RunReport), (∀ g ∈ l, 0 < g ∧ g ≤ gateCount config) →
      l.foldl (fun r stage => r.join (partsOf config) stage (some (reasonOf config stage))) r = r := by
    intro l
    induction l with
    | nil => exact fun r _ => rfl
    | cons g l ih =>
      intro r within
      obtain ⟨first, last⟩ := within g List.mem_cons_self
      rw [List.foldl_cons, RunReport.join, partsOf, if_neg (by dsimp only; omega),
        if_neg (by dsimp only; omega), if_neg (by dsimp only; omega)]
      exact ih r fun g hg => within g (List.mem_cons_of_mem _ hg)
  have within : ∀ g ∈ (partsOf config).gates, 0 < g ∧ g ≤ gateCount config := by
    intro g hg
    obtain ⟨k, hk, rfl⟩ := List.mem_map.1 hg
    have := List.mem_range.1 hk
    omega
  rw [joinedReport, Parts.joins, List.cons_append, List.cons_append, List.foldl_cons,
    List.foldl_cons, List.foldl_append, gates _ _ within]
  simp [RunReport.join, partsOf, reasonOf, reportUpTo, finalReport, firings_eq]

/-! ## How far the reader is -/

/-- What holds in each phase of the reader. While it reads it has counted what it pulled, and all of
that is in the report once the sink has ended and nothing is queued any more. -/
inductive Reads (config : PipelineConfig) (n₀ n : Network) (ops : List Operation) : Reader → Prop
  | starting {rest : List Nat} (attends : Attends config n ops) (threads : Threads n rest [])
      (once : rest.Nodup) (within : ∀ i ∈ rest, i < gateCount config + 3)
      (nothing : pulled config n₀ ops = []) : Reads config n₀ n ops (.starting rest)
  | reading (attends : Attends config n ops) (threads : Threads n [] []) :
      Reads config n₀ n ops (.reading (reportUpTo config (pulled config n₀ ops).length))
  | counting {c : Copy} {k : Nat} (attends : Attends config n ops) (threads : Threads n [] [])
      (inHand : c ∈ n.hub.held) (last : (pulled config n₀ ops)[k]? = some c)
      (count : (pulled config n₀ ops).length = k + 1) :
      Reads config n₀ n ops (.counting (reportUpTo config k) c)
  | leaving (attends : Attends config n ops) (threads : Threads n [] [])
      (ended : ¬ n.Working (gateCount config + 2)) :
      Reads config n₀ n ops (.leaving (reportUpTo config config.steps.toNat))
  | joining {joined rest : List Nat} (threads : Threads n [] joined)
      (ended : ¬ n.Working (gateCount config + 2)) (all : (partsOf config).joins = joined ++ rest) :
      Reads config n₀ n ops (.joining (joinedReport config joined) rest)
  | done (ended : ¬ n.Working (gateCount config + 2)) :
      Reads config n₀ n ops (.done (finalReport config))
  | failed (ended : ¬ n.Working (gateCount config + 2))
      (beyond : 2 ^ 64 ≤ config.steps.toNat + config.buffers.toNat + 2) :
      Reads config n₀ n ops (.failed (.faulted .addOverflow))

theorem Reads.attached {reader : Reader} (r : Reads config n₀ n ops reader)
    (works : n.Working (gateCount config + 2)) :
    .dropSubscription (reportsOf config) ∉ ops := by
  cases r with
  | starting attends | reading attends | counting attends | leaving attends => exact attends.kept
  | joining _ ended | done ended | failed ended => exact absurd works ended

structure Proceeds (config : PipelineConfig) (n₀ : Network) (ops : List Operation) (s : Session) :
    Prop where
  underway : Underway config n₀.hub ops s.network
  ending : Ending config n₀ s.network ops
  reads : Reads config n₀ s.network ops s.reader

theorem joins_nodup (config : PipelineConfig) : (partsOf config).joins.Nodup := by
  have gates : ((List.range (gateCount config)).map (· + 1)).Nodup :=
    List.nodup_range.map fun a b hab => Nat.add_right_cancel hab
  simp only [Parts.joins, partsOf, List.cons_append, List.nodup_cons, List.nodup_append', gates,
    List.mem_append, List.mem_map, List.mem_range, List.mem_cons, List.not_mem_nil, List.Disjoint]
  refine ⟨?_, ?_, ?_⟩ <;> simp

theorem mem_joins : i ∈ (partsOf config).joins → i < gateCount config + 3 := by
  intro hi
  simp only [Parts.joins, partsOf, List.cons_append, List.mem_cons, List.mem_append, List.mem_map,
    List.mem_range, List.not_mem_nil, or_false] at hi
  rcases hi with rfl | rfl | ⟨k, hk, rfl⟩ | rfl <;> omega

theorem Laid.proceeds (laid : Planned config n₀) :
    Proceeds config n₀ [] (.start (partsOf config) n₀) :=
  ⟨laid.underway, laid.ending, .starting laid.attends laid.threads (starts_nodup config)
    (fun _ => mem_starts.1) rfl⟩

/-! ## Steps of the stages -/

section

variable (laid : Planned config n₀) (pos : 0 < config.firingPeriod.toNat) (finite : config.steps ≠ 0)
  (gated : 0 < gateCount config)

include laid pos finite gated

theorem Proceeds.stage {s : Session} (p : Proceeds config n₀ ops s)
    (step : s.network.advanceStage? i = some n') :
    ∃ more, Proceeds config n₀ (ops ++ more) { s with network := n' } := by
  obtain ⟨u, e, r⟩ := p
  obtain ⟨st, counters, log, found, runs, moves, stages, hub⟩ := u.orderly.advanceStage? step
  have u' := u.advance pos found runs moves stages hub
  have within := u.orderly.asks_within counters log found (.inr runs)
  have e' : Ending config n₀ n' (ops ++ (st.asks s.network.hub ++ [.tally counters log])) :=
    e.advance u laid pos finite gated r.attached found runs moves stages u'
  generalize st.asks s.network.hub ++ [.tally counters log] = more at hub u' within e'
  refine ⟨more, u', e', ?_⟩
  have spares := u.spares_reports laid found within
  have attends := fun a : Attends config s.network ops => a.spared hub spares
  have same := fun a : Attends config s.network ops => a.pulled_spared u spares
  have threads : ∀ {idle joined}, Threads s.network idle joined → Threads n' idle joined :=
    fun t => t.advance found runs stages
  have still : ¬ s.network.Working (gateCount config + 2) → ¬ n'.Working (gateCount config + 2) := by
    intro ended works
    obtain ⟨t, ht, works⟩ := (working_modify stages).1 works
    split at works
    · rename_i here
      exact ended ⟨st, here ▸ found, .inr runs⟩
    · exact ended ⟨t, ht, works⟩
  cases s with | mk n reader =>
  dsimp only at *
  cases r with
  | starting a t once rest nothing =>
    exact .starting (attends a) (threads t) once rest ((same a).trans nothing)
  | reading a t =>
    rw [← same a]
    exact .reading (attends a) (threads t)
  | @counting c k a t inHand last count =>
    refine .counting (attends a) (threads t) ?_ ((same a).symm ▸ last) ((same a).symm ▸ count)
    rw [hub]
    exact Hub.held_applyAll inHand
      (u.spares_hands laid found within (a.sent laid (List.mem_of_getElem? last)))
  | leaving a t ended => exact .leaving (attends a) (threads t) (still ended)
  | joining t ended all => exact .joining (threads t) (still ended) all
  | done ended => exact .done (still ended)
  | failed ended beyond => exact .failed (still ended) beyond

end

/-! ## Steps of the reader -/

theorem Ending.withHub (e : Ending config n₀ n ops) (u : Underway config n₀.hub ops n)
    (laid : Planned config n₀) (hub : Hub) (quiet : ∀ op ∈ more, ∀ p blank, op ≠ .publish p blank) :
    Ending config n₀ (n.withHub hub) (ops ++ more) :=
  e.same u laid (fun _ => Iff.rfl) (e.leads.quiet (fun _ => id) quiet) fun _ t ht =>
    .inr ⟨t, ht, rfl, rfl, Iff.rfl⟩

/-- Only a relay faults, by an overflow of its count of rounds. -/
theorem Ending.faulted {st : Stage} {fault : Fault} (e : Ending config n₀ n ops)
    (u : Underway config n₀.hub ops n) (found : n.stages.get? i = some st)
    (thread : st.thread = .faulted fault) : i ≤ gateCount config ∧ fault = .addOverflow ∧
      2 ^ 64 ≤ config.steps.toNat + config.buffers.toNat + 2 := by
  obtain ⟨t, same, -, -, tells⟩ := u.stage i (u.within i st found)
  obtain rfl := Option.some.inj (found.symm.trans same)
  obtain ⟨rfl, exhausted⟩ := tells.faulted thread
  refine ⟨Nat.le_of_not_lt fun later => ?_, rfl, e.exhausted i st found exhausted⟩
  cases exhausted.state.symm.trans (e.complete i st found exhausted.ended later).1

namespace Proceeds

variable {rest : List Nat} {r : RunReport} {c : Copy} {next : Reader}
  (laid : Planned config n₀)

include laid

theorem starting (p : Proceeds config n₀ ops ⟨n, .starting rest⟩)
    (step : Reader.advance? (partsOf config) n (.starting rest) = some (next, n')) :
    ∃ more, Proceeds config n₀ (ops ++ more) ⟨n', next⟩ := by
  obtain ⟨u, e, reads⟩ := p
  obtain ⟨a, t, once, within, nothing⟩ := reads
  cases rest with
  | nil =>
    obtain ⟨rfl, rfl⟩ := Prod.mk.inj (Option.some.inj step)
    refine ⟨[], ?_⟩
    rw [List.append_nil]
    have first : Reads config n₀ n ops (.reading (reportUpTo config (pulled config n₀ ops).length)) :=
      .reading a t
    rw [nothing] at first
    exact ⟨u, e, first⟩
  | cons i rest =>
    obtain ⟨counters, log, started, u', unstarted⟩ := u.start t (within i List.mem_cons_self)
    rw [Reader.advance?, started] at step
    obtain ⟨rfl, rfl⟩ := Prod.mk.inj (Option.some.inj step)
    have spares : ∀ op ∈ [Operation.tally counters log], ¬ op.Addresses (reportsOf config) :=
      List.forall_mem_singleton.2 fun own => own
    exact ⟨[.tally counters log], u',
      e.retitle u laid rfl (fun _ => rfl)
        (fun s found => ⟨fun _ => .inl (unstarted s found), fun _ => .inr rfl⟩)
        fun _ _ => .inr ⟨.inr rfl, rfl⟩,
      .starting (a.spared rfl spares) (t.start once rfl) (List.nodup_cons.1 once).2
        (fun j hj => within j (List.mem_cons_of_mem _ hj)) ((a.pulled_spared u spares).trans nothing)⟩

theorem reading (p : Proceeds config n₀ ops ⟨n, .reading r⟩)
    (step : Reader.advance? (partsOf config) n (.reading r) = some (next, n')) :
    ∃ more, Proceeds config n₀ (ops ++ more) ⟨n', next⟩ := by
  obtain ⟨u, e, reads⟩ := p
  obtain _ | ⟨a, t⟩ := reads
  rw [Reader.advance?] at step
  cases found : n.hub.pull (partsOf config).reports with | mk outcome hub =>
  rw [found] at step
  cases outcome with
  | empty => simp at step
  | gone =>
    obtain ⟨rfl, rfl⟩ := Prod.mk.inj (Option.some.inj step)
    obtain ⟨lost, drained⟩ := Hub.pull_gone found
    have ended : ¬ n.Working (gateCount config + 2) := by
      rcases (u.named laid reportsOf_given a.kept).2 with ⟨-, named⟩ | ⟨ended, -⟩
      · exact absurd (lost.symm.trans named) (by simp)
      · rwa [outletOf_reports] at ended
    have all := congrArg List.length (a.pulled_append u laid)
    rw [List.length_append, show n.hub.queueOf (reportsOf config) = [] from drained,
      List.length_map] at all
    refine ⟨[], ?_⟩
    rw [List.append_nil, show (pulled config n₀ ops).length = config.steps.toNat from
      all.trans (e.sink ended).2]
    exact ⟨u, e, .leaving a t ended⟩
  | ready c =>
    obtain ⟨rfl, rfl⟩ := Prod.mk.inj (Option.some.inj step)
    obtain ⟨rfl, departs, inHand⟩ := Hub.pull_ready found
    have within : ∀ op ∈ [Operation.pull (reportsOf config)], op.Within (readerKit config) n₀.hub ops :=
      List.forall_mem_singleton.2 (List.mem_singleton.2 rfl)
    have after : pulled config n₀ (ops ++ [.pull (reportsOf config)]) = pulled config n₀ ops ++ [c] := by
      rw [pulled, Hub.departed_snoc, ← u.orderly.hub]
      exact congrArg _ departs
    refine ⟨[.pull (reportsOf config)], u.reader laid within (List.forall_mem_singleton.2 trivial),
      e.withHub u laid _ (List.forall_mem_singleton.2 fun p blank same => by cases same),
      .counting (a.pull rfl) (t.withHub _) inHand ?_ ?_⟩
    · rw [after, List.getElem?_concat_length]
    · rw [after, List.length_append]
      rfl

theorem counting (pos : 0 < config.firingPeriod.toNat) (finite : config.steps ≠ 0)
    (gated : 0 < gateCount config) (countable : Countable config)
    (p : Proceeds config n₀ ops ⟨n, .counting r c⟩)
    (step : Reader.advance? (partsOf config) n (.counting r c) = some (next, n')) :
    ∃ more, Proceeds config n₀ (ops ++ more) ⟨n', next⟩ := by
  obtain ⟨u, e, reads⟩ := p
  obtain _ | _ | ⟨a, t, inHand, last, count⟩ := reads
  rename_i k
  obtain ⟨pub, hpub, read⟩ := a.shown u laid last inHand
  obtain ⟨earlier, counts⟩ := u.report_made laid pos hpub
  have short : k < config.steps.toNat :=
    Nat.lt_of_lt_of_le earlier (u.count_fire_le laid pos finite gated)
  obtain ⟨b, ones, payload, counted, fires⟩ := counts (countable.each k short)
  have added := reportUpTo_add countable short counted fires
  rw [← payload] at added
  rw [Reader.advance?, read] at step
  simp only [added] at step
  obtain ⟨rfl, rfl⟩ := Prod.mk.inj (Option.some.inj step)
  have within : ∀ op ∈ [Operation.release c], op.Within (readerKit config) n₀.hub ops :=
    List.forall_mem_singleton.2
      ⟨_, List.mem_singleton.2 rfl, a.sent laid (List.mem_of_getElem? last)⟩
  have spares : ∀ op ∈ [Operation.release c], ¬ op.Addresses (reportsOf config) :=
    List.forall_mem_singleton.2 fun own => own
  have same := a.pulled_spared u spares
  refine ⟨[.release c], u.reader laid within (List.forall_mem_singleton.2 trivial),
    e.withHub u laid _ (List.forall_mem_singleton.2 fun p blank same => by cases same), ?_⟩
  rw [← count, ← same]
  exact .reading (a.spared rfl spares) (t.withHub _)

theorem leaving (p : Proceeds config n₀ ops ⟨n, .leaving r⟩)
    (step : Reader.advance? (partsOf config) n (.leaving r) = some (next, n')) :
    ∃ more, Proceeds config n₀ (ops ++ more) ⟨n', next⟩ := by
  obtain ⟨u, e, reads⟩ := p
  obtain _ | _ | _ | ⟨a, t, ended⟩ := reads
  obtain ⟨rfl, rfl⟩ := Prod.mk.inj (Option.some.inj step)
  refine ⟨[.dropSubscription (reportsOf config)], u.reader laid
    (List.forall_mem_singleton.2 (List.mem_singleton.2 rfl)) (List.forall_mem_singleton.2 trivial),
    e.withHub u laid _ (List.forall_mem_singleton.2 fun p blank same => by cases same), ?_⟩
  rw [show reportUpTo config config.steps.toNat = joinedReport config [] from rfl]
  exact .joining (t.withHub _) ended rfl

theorem joining (p : Proceeds config n₀ ops ⟨n, .joining r rest⟩)
    (step : Reader.advance? (partsOf config) n (.joining r rest) = some (next, n')) :
    ∃ more, Proceeds config n₀ (ops ++ more) ⟨n', next⟩ := by
  obtain ⟨u, e, reads⟩ := p
  obtain _ | _ | _ | _ | ⟨t, ended, all⟩ := reads
  rename_i joined
  cases rest with
  | nil =>
    obtain ⟨rfl, rfl⟩ := Prod.mk.inj (Option.some.inj step)
    refine ⟨[], ?_⟩
    rw [List.append_nil] at all ⊢
    rw [← all, joinedReport_all]
    exact ⟨u, e, .done ended⟩
  | cons i rest =>
    have once := joins_nodup config
    rw [all] at once
    have unjoined : i ∉ joined := fun hi =>
      List.disjoint_of_nodup_append once hi List.mem_cons_self
    have hi : i < gateCount config + 3 :=
      mem_joins (all ▸ List.mem_append_right _ List.mem_cons_self)
    obtain ⟨s, found, -, -, tells⟩ := u.stage i hi
    rw [Reader.advance?] at step
    cases thread : s.thread with
    | unstarted => exact absurd ((t.unstarted i s found).1 thread) List.not_mem_nil
    | gone => exact absurd ((t.gone i s found).1 thread) unjoined
    | running => simp [Network.join, found, thread] at step
    | ended reason =>
      rw [Stage.Tells, thread] at tells
      obtain ⟨rfl, -⟩ := e.reasons i s reason found tells
      rw [Network.join_eq found thread] at step
      obtain ⟨rfl, rfl⟩ := Prod.mk.inj (Option.some.inj step)
      obtain ⟨u', e', still⟩ := u.join laid e found (by simp [Stage.Works, thread])
      have report : (joinedReport config joined).join (partsOf config) i (some (reasonOf config i)) =
          joinedReport config (joined ++ [i]) := by
        rw [joinedReport, joinedReport, List.foldl_append]
        rfl
      refine ⟨_, u', e', ?_⟩
      rw [report]
      refine .joining (t.join List.not_mem_nil rfl) (mt (still _) ended) ?_
      rw [all, List.append_assoc]
      rfl
    | faulted fault =>
      obtain ⟨-, rfl, beyond⟩ := e.faulted u found thread
      rw [Network.join_eq_faulted found thread] at step
      obtain ⟨rfl, rfl⟩ := Prod.mk.inj (Option.some.inj step)
      obtain ⟨u', e', still⟩ := u.join laid e found (by simp [Stage.Works, thread])
      exact ⟨_, u', e', .failed (mt (still _) ended) beyond⟩

theorem reader (pos : 0 < config.firingPeriod.toNat) (finite : config.steps ≠ 0)
    (gated : 0 < gateCount config) (countable : Countable config) {s : Session}
    (p : Proceeds config n₀ ops s)
    (step : s.reader.advance? (partsOf config) s.network = some (next, n')) :
    ∃ more, Proceeds config n₀ (ops ++ more) ⟨n', next⟩ := by
  obtain ⟨n, before⟩ := s
  cases before with
  | starting rest => exact p.starting laid step
  | reading r => exact p.reading laid step
  | counting r c => exact p.counting laid pos finite gated countable step
  | leaving r => exact p.leaving laid step
  | joining r rest => exact p.joining laid step
  | done r => simp [Reader.advance?] at step
  | failed failure => simp [Reader.advance?] at step

theorem follow (pos : 0 < config.firingPeriod.toNat) (finite : config.steps ≠ 0)
    (gated : 0 < gateCount config) (countable : Countable config) {schedule : List Party}
    {s s' : Session} (p : Proceeds config n₀ ops s)
    (run : s.follow? (partsOf config) schedule = some s') :
    ∃ more, Proceeds config n₀ (ops ++ more) s' := by
  induction schedule generalizing s ops with
  | nil =>
    obtain rfl := Option.some.inj run
    exact ⟨[], (List.append_nil ops).symm ▸ p⟩
  | cons party schedule ih =>
    obtain ⟨s₁, step, run⟩ := Option.bind_eq_some_iff.1 run
    obtain ⟨first, p₁⟩ : ∃ first, Proceeds config n₀ (ops ++ first) s₁ := by
      cases party with
      | reader =>
        obtain ⟨⟨next, network⟩, moved, rfl⟩ := Option.map_eq_some_iff.1 step
        exact p.reader laid pos finite gated countable moved
      | stage i =>
        obtain ⟨network, moved, rfl⟩ := Option.map_eq_some_iff.1 step
        exact p.stage laid pos finite gated moved
    obtain ⟨later, p'⟩ := ih p₁ run
    exact ⟨first ++ later, (List.append_assoc ops first later) ▸ p'⟩

end Proceeds

/-! ## The same report from every run -/

theorem Ending.terminated (e : Ending config n₀ n ops) (u : Underway config n₀.hub ops n)
    (later : gateCount config < i) (hi : i < gateCount config + 3) (ended : ¬ n.Working i) :
    n.state? i = some (.terminated (reasonOf config i)) := by
  obtain ⟨s, found, -⟩ := u.stage i hi
  have idle : ¬ s.Works := fun works => ended ⟨s, found, works⟩
  rw [Network.state?, found]
  exact congrArg some (e.complete i s found idle later).1

/-- With gates that close after some number of steps, every schedule whose run ends gives the same
report: the aggregator stops at the closed gates after all steps, the sink when its source is gone
and everything is collected, and the relays for want of listeners. A run fails only where a relay's
count of rounds overflows, for which the steps and the buffers of a pool have to come within two of
the end of 64 bits, and no other stage faults. -/
theorem report_schedule_independent {p : Parts} {schedule : List Party} {s : Session}
    (valid : config.validate = .ok ()) (gated : config.gates ≠ 0) (finite : config.steps ≠ 0)
    (countable : Countable config) (built : build config = .ok (p, n))
    (run : Session.follow? p schedule (.start p n) = some s) :
    (∀ r, s.reader = .done r → r.steps = config.steps ∧ r.fired.toNat = firings config ∧
      r.fire = some .gateClosed ∧ r.sink = some .sourceGone ∧ r.exchange = some .noListeners) ∧
    (∀ failure, s.reader = .failed failure → failure = .faulted .addOverflow ∧
      2 ^ 64 ≤ config.steps.toNat + config.buffers.toNat + 2) ∧
    (∀ (i : Nat) stage fault, s.network.stages.get? i = some stage → stage.thread = .faulted fault →
      i ≠ p.fire ∧ i ≠ p.sink ∧ fault = .addOverflow ∧
        2 ^ 64 ≤ config.steps.toNat + config.buffers.toNat + 2) ∧
    ∀ (i : Nat) stage reason, s.network.stages.get? i = some stage →
      stage.state = .terminated reason →
      (i = p.fire → reason = .gateClosed ∧ stage.loop.rounds = config.steps.toNat) ∧
      (i = p.sink → reason = .sourceGone ∧ stage.loop.rounds = config.steps.toNat ∧
        s.network.state? p.fire = some (.terminated .gateClosed)) ∧
      (i ≠ p.fire → i ≠ p.sink → reason = .noListeners ∧
        s.network.state? p.fire = some (.terminated .gateClosed) ∧
        (i ≠ p.exchange → s.network.state? p.sink = some (.terminated .sourceGone))) := by
  have pos := firingPeriod_pos valid
  have some' : 0 < gateCount config :=
    Nat.pos_of_ne_zero fun zero => gated (UInt64.toNat_inj.1 zero)
  obtain ⟨rfl, laid⟩ := build_laid built
  obtain ⟨ops, u, e, reads⟩ := laid.proceeds.follow laid pos finite some' countable run
  have fire : ¬ s.network.Working (gateCount config + 1) →
      s.network.state? (partsOf config).fire = some (.terminated .gateClosed) := fun ended => by
    rw [partsOf, e.terminated u (by omega) (by omega) ended, reasonOf_fire]
  have sink : ¬ s.network.Working (gateCount config + 2) →
      s.network.state? (partsOf config).sink = some (.terminated .sourceGone) := fun ended => by
    rw [partsOf, e.terminated u (by omega) (by omega) ended, reasonOf_sink]
  refine ⟨fun r done => ?_, fun failure failed => ?_, fun i stage fault found thread => ?_,
    fun i stage reason found state => ?_⟩
  · rw [done] at reads
    cases reads
    exact ⟨rfl, UInt64.toNat_ofNat_of_lt' countable.total, rfl, rfl, rfl⟩
  · rw [failed] at reads
    cases reads with
    | failed _ beyond => exact ⟨rfl, beyond⟩
  · obtain ⟨relay, same, beyond⟩ := e.faulted u found thread
    refine ⟨?_, ?_, same, beyond⟩ <;> rintro rfl <;> simp [partsOf] at relay
  have hi := u.within i stage found
  obtain ⟨idle, ended⟩ := u.ended found state
  obtain ⟨because, counted⟩ := e.reasons i stage reason found state
  refine ⟨?_, ?_, fun notFire notSink => ?_⟩
  · rintro rfl
    exact ⟨because.trans (reasonOf_fire config),
      (e.complete _ stage found idle (Nat.lt_succ_self _)).2⟩
  · rintro rfl
    exact ⟨because.trans (reasonOf_sink config),
      (e.complete _ stage found idle (by simp [partsOf])).2, fire (e.sink ended).1⟩
  · have relay : i ≤ gateCount config := by
      have : i ≠ gateCount config + 1 := notFire
      have : i ≠ gateCount config + 2 := notSink
      omega
    obtain ⟨above, below⟩ := e.relays i relay ended (counted relay)
    exact ⟨because.trans (reasonOf_relay relay), fire above,
      fun gate => sink (below (Nat.pos_of_ne_zero gate))⟩

theorem build_of_toOption {built : Parts × Network} (found : (build config).toOption = some built) :
    build config = .ok built := by
  cases outcome : build config with
  | error failure => simp [outcome, Except.toOption] at found
  | ok _ => simpa [outcome, Except.toOption] using found

def singleStep : PipelineConfig :=
  { buffers := 1, vectorSize := 3, gates := 1, steps := 1, firingPeriod := 2 }

def singleTurns : List Party :=
  let turns : List (Party × Nat) :=
    [(.reader, 5), (.stage 0, 3), (.stage 1, 3), (.stage 2, 10), (.stage 3, 10), (.stage 1, 3),
      (.reader, 2), (.stage 0, 3), (.stage 2, 1), (.stage 3, 1), (.stage 1, 3), (.stage 0, 3),
      (.reader, 7)]
  turns.flatMap fun (party, times) => List.replicate times party

def Session.report? (s : Session) : Option RunReport :=
  match s.reader with
  | .done r => some r
  | _ => none

theorem report_schedule_independent_single : ∃ p n s r, build singleStep = .ok (p, n) ∧
    Session.follow? p singleTurns (.start p n) = some s ∧ s.reader = .done r ∧
    r.steps = 1 ∧ r.fired.toNat = 2 ∧ r.fire = some .gateClosed ∧ r.sink = some .sourceGone ∧
    r.exchange = some .noListeners := by
  have ends : ((build singleStep).toOption.bind fun (p, n) =>
      (Session.follow? p singleTurns (.start p n)).bind Session.report?).isSome := by
    decide +kernel
  obtain ⟨r, ends⟩ := Option.isSome_iff_exists.1 ends
  obtain ⟨⟨p, n⟩, built, ends⟩ := Option.bind_eq_some_iff.1 ends
  obtain ⟨s, run, ends⟩ := Option.bind_eq_some_iff.1 ends
  have built := build_of_toOption built
  have done : s.reader = .done r := by
    rw [Session.report?] at ends
    split at ends
    · rename_i last
      rw [last, Option.some.inj ends]
    · simp at ends
  have countable : Countable singleStep :=
    ⟨fun k hk => by
      have first : k = 0 := Nat.lt_one_iff.1 hk
      subst first
      decide, by decide⟩
  have report := (report_schedule_independent (by decide) (by decide) (by decide) countable built
    run).1 r done
  exact ⟨p, n, s, r, built, run, done, report⟩

end BufferFlow.Pipeline
