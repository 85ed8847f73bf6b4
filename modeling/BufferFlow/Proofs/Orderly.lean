import BufferFlow.Network
import BufferFlow.Proofs.Stage.Loops

set_option autoImplicit false

namespace BufferFlow

def Stage.Works (s : Stage) : Prop := s.thread = .unstarted ∨ s.thread = .running

namespace Network

variable {n n' : Network} {h₀ : Hub} {ops more : List Operation} {a : Kit} {i : Nat}

/-- What holds of all stages between two steps of any, after a run of the hub. -/
structure Orderly (n : Network) (h₀ : Hub) (ops : List Operation) : Prop where
  hub : n.hub = h₀.applyAll ops
  seated : ∀ (i : Nat) s, n.stages.get? i = some s → s.loop.Seated h₀
  working : ∀ (i : Nat) s, n.stages.get? i = some s → s.Works → s.loop.InRound h₀ ops
  closed : ∀ (i : Nat) s, n.stages.get? i = some s → ¬ s.Works →
    n.hub.publishers.contains s.loop.publisher = false
  dropped : ∀ (i : Nat) s, n.stages.get? i = some s → ¬ s.Works →
    ∀ t ∈ s.loop.sources, .dropSubscription t ∈ ops
  recorded : ∀ (i : Nat) s, n.stages.get? i = some s → s.loop.Recorded h₀ ops
  apart : ∀ (i j : Nat) s t, i ≠ j → n.stages.get? i = some s → n.stages.get? j = some t →
    s.Works → t.Works → (s.loop.kit h₀).Apart (t.loop.kit h₀)

end Network

/-- What holds of a stage by itself, between two steps of any. -/
structure Stage.InOrder (s : Stage) (h₀ : Hub) (ops : List Operation) : Prop where
  seated : s.loop.Seated h₀
  working : s.Works → s.loop.InRound h₀ ops
  closed : ¬ s.Works → (h₀.applyAll ops).publishers.contains s.loop.publisher = false
  dropped : ¬ s.Works → ∀ t ∈ s.loop.sources, .dropSubscription t ∈ ops
  recorded : s.loop.Recorded h₀ ops

namespace Stage.InOrder

variable {s t : Stage} {h₀ : Hub} {ops more : List Operation} {a : Kit}

theorem ofRound (seated : s.loop.Seated h₀) (round : s.loop.InRound h₀ ops) (works : s.Works) :
    s.InOrder h₀ ops :=
  ⟨seated, fun _ => round, fun idle => absurd works idle, fun idle => absurd works idle,
    round.recorded⟩

theorem congr (order : s.InOrder h₀ ops) (loop : t.loop = s.loop) (works : t.Works ↔ s.Works) :
    t.InOrder h₀ ops := by
  obtain ⟨seated, working, closed, dropped, recorded⟩ := order
  rw [← loop] at seated working closed dropped recorded
  exact ⟨seated, fun tw => working (works.1 tw), fun idle => closed fun sw => idle (works.2 sw),
    fun idle => dropped fun sw => idle (works.2 sw), recorded⟩

theorem spared (order : s.InOrder h₀ ops) (within : ∀ op ∈ more, op.Within a h₀ ops)
    (apart : s.Works → a.Apart (s.loop.kit h₀)) : s.InOrder h₀ (ops ++ more) := by
  obtain ⟨seated, working, closed, dropped, recorded⟩ := order
  obtain ⟨P, hP⟩ := Option.isSome_iff_exists.1 seated.known
  have given := Table.get?_lt hP
  have stays : s.Works → s.loop.InRound h₀ (ops ++ more) := fun works =>
    (working works).others seated (apart works) within
  refine ⟨seated, stays, fun idle => ?_,
    fun idle t ht => List.mem_append_left more (dropped idle t ht), ?_⟩
  · rw [Hub.applyAll_append]
    exact Hub.dead_applyAll (Hub.next_applyAll given ops) (closed idle) more
  · by_cases works : s.Works
    · exact (stays works).recorded
    · exact recorded.mono (Hub.publishedBy_dead given (closed works))

end Stage.InOrder

namespace Network

variable {n n' : Network} {h₀ : Hub} {ops more : List Operation} {a : Kit} {i : Nat}

theorem Orderly.inOrder (o : n.Orderly h₀ ops) {s : Stage} (found : n.stages.get? i = some s) :
    s.InOrder h₀ ops :=
  ⟨o.seated i s found, o.working i s found, o.hub ▸ o.closed i s found, o.dropped i s found,
    o.recorded i s found⟩

theorem Orderly.of_inOrder (hub : n.hub = h₀.applyAll ops)
    (order : ∀ (i : Nat) s, n.stages.get? i = some s → s.InOrder h₀ ops)
    (apart : ∀ (i j : Nat) s t, i ≠ j → n.stages.get? i = some s → n.stages.get? j = some t →
      s.Works → t.Works → (s.loop.kit h₀).Apart (t.loop.kit h₀)) : n.Orderly h₀ ops :=
  ⟨hub, fun i s found => (order i s found).seated, fun i s found => (order i s found).working,
    fun i s found => hub ▸ (order i s found).closed, fun i s found => (order i s found).dropped,
    fun i s found => (order i s found).recorded, apart⟩

theorem Orderly.others (o : n.Orderly h₀ ops) (within : ∀ op ∈ more, op.Within a h₀ ops)
    (apart : ∀ (i : Nat) s, n.stages.get? i = some s → s.Works → a.Apart (s.loop.kit h₀)) :
    (n.withHub (n.hub.applyAll more)).Orderly h₀ (ops ++ more) := by
  have hub : n.hub.applyAll more = h₀.applyAll (ops ++ more) := by rw [o.hub, Hub.applyAll_append]
  exact .of_inOrder hub (fun i s found => (o.inOrder found).spared within (apart i s found)) o.apart

end Network

namespace Stage

def after (s : Stage) : Progress Loop → Stage
  | .blocked => s
  | .running _ loop => { s with loop }
  | .stopped _ reason => { s with state := .terminated reason, thread := .ended reason }
  | .faulted _ fault => { s with thread := .faulted fault }

def asks (s : Stage) (h : Hub) : List Operation :=
  s.loop.requests h ++
    match s.loop.advance h with
    | .blocked | .running _ _ => []
    | .stopped _ _ | .faulted _ _ => s.loop.closing

end Stage

namespace Network

variable {n n' : Network} {h₀ : Hub} {ops more : List Operation} {i : Nat}

theorem applyAll_tally (h : Hub) (asked : List Operation) (counters : Counters) (log : List Record) :
    h.applyAll (asked ++ [.tally counters log]) = { h.applyAll asked with counters, log } :=
  Hub.applyAll_snoc h asked _

theorem Orderly.advanceStage? (o : n.Orderly h₀ ops) (step : n.advanceStage? i = some n') :
    ∃ s counters log, n.stages.get? i = some s ∧ s.thread = .running ∧
      s.loop.advance n.hub ≠ .blocked ∧
      n'.stages = n.stages.modify i (fun _ => s.after (s.loop.advance n.hub)) ∧
      n'.hub = n.hub.applyAll (s.asks n.hub ++ [.tally counters log]) := by
  rw [Network.advanceStage?] at step
  cases found : n.stages.get? i with
  | none => simp [found] at step
  | some s =>
    simp only [found] at step
    cases runs : s.thread with
    | running =>
      simp only [runs] at step
      have here : ∀ progress, n.stages.modify i (·.after progress) =
          n.stages.modify i fun _ => s.after progress :=
        fun progress => Table.modify_congr fun t ht => by
          obtain rfl : s = t := Option.some.inj (found.symm.trans ht)
          rfl
      have asked : ∀ h, (s.loop.advance n.hub).hub? = some h → h = n.hub.applyAll (s.loop.requests n.hub) := by
        intro h hh
        have r := o.working i s found (.inr runs)
        rw [o.hub] at hh ⊢
        rw [r.hub hh, Hub.applyAll_append]
      cases progress : s.loop.advance n.hub with
      | blocked => simp [progress] at step
      | running h loop =>
        simp only [progress] at step
        obtain rfl := Option.some.inj step
        have same := asked h (by rw [progress]; rfl)
        refine ⟨s, h.counters, n.hub.log, rfl, runs, by simp [progress],
          by rw [progress]; exact here (.running h loop), ?_⟩
        rw [applyAll_tally, Stage.asks, progress]
        dsimp only
        rw [List.append_nil, ← same]
        rfl
      | stopped h reason =>
        simp only [progress] at step
        obtain rfl := Option.some.inj step
        have same := asked h (by rw [progress]; rfl)
        refine ⟨s, ((s.loop.close h).count .stageTerminated).counters, n.hub.log, rfl, runs,
          by simp [progress], by rw [progress]; exact here (.stopped h reason), ?_⟩
        rw [applyAll_tally, Stage.asks, progress]
        dsimp only
        rw [Hub.applyAll_append, ← same, ← Loop.close_hub]
        rfl
      | faulted h fault =>
        simp only [progress] at step
        obtain rfl := Option.some.inj step
        have same := asked h (by rw [progress]; rfl)
        refine ⟨s, (s.loop.close h).counters, n.hub.log, rfl, runs, by simp [progress],
          by rw [progress]; exact here (.faulted h fault), ?_⟩
        rw [applyAll_tally, Stage.asks, progress]
        dsimp only
        rw [Hub.applyAll_append, ← same, ← Loop.close_hub]
        rfl
    | _ => simp [runs] at step

theorem Orderly.asks_within (o : n.Orderly h₀ ops) {s : Stage} (counters : Counters)
    (log : List Record) (found : n.stages.get? i = some s) (works : s.Works) :
    ∀ op ∈ s.asks n.hub ++ [.tally counters log], op.Within (s.loop.kit h₀) h₀ ops := by
  have requests := (o.working i s found works).requests_within (o.seated i s found)
  rw [← o.hub] at requests
  intro op hop
  rcases List.mem_append.1 hop with hop | hop
  · rw [Stage.asks] at hop
    rcases List.mem_append.1 hop with hop | hop
    · exact requests op hop
    · split at hop
      · exact absurd hop List.not_mem_nil
      · exact absurd hop List.not_mem_nil
      · exact s.loop.closing_within op hop
      · exact s.loop.closing_within op hop
  · obtain rfl := List.mem_singleton.1 hop
    trivial

theorem Orderly.ended (o : n.Orderly h₀ ops) {s : Stage} (counters : Counters) (log : List Record)
    (found : n.stages.get? i = some s) (works : s.Works)
    (asks : s.asks n.hub = s.loop.requests n.hub ++ s.loop.closing) :
    (h₀.applyAll (ops ++ (s.asks n.hub ++ [.tally counters log]))).publishers.contains
        s.loop.publisher = false ∧
      s.loop.Recorded h₀ (ops ++ (s.asks n.hub ++ [.tally counters log])) := by
  have r := o.working i s found works
  obtain ⟨P, hP⟩ := Option.isSome_iff_exists.1 (o.seated i s found).known
  have given := Table.get?_lt hP
  have recorded := r.recorded_requests
  rw [← o.hub] at recorded
  have dead : (h₀.applyAll (ops ++ s.asks n.hub)).publishers.contains s.loop.publisher = false := by
    rw [asks, ← List.append_assoc, Hub.applyAll_append]
    exact Loop.closed (Hub.next_applyAll given _)
  constructor
  · rw [← List.append_assoc, Hub.applyAll_append]
    exact Hub.dead_applyAll (Hub.next_applyAll given _) dead _
  · rw [← List.append_assoc]
    refine Loop.Recorded.mono ?_ (Hub.publishedBy_dead given dead)
    rw [asks, ← List.append_assoc]
    refine recorded.mono (Hub.publishedBy_quiet_all fun op hop => ?_)
    rintro blank rfl
    rw [Loop.closing_eq] at hop
    simp at hop

theorem Orderly.inOrder_after (o : n.Orderly h₀ ops) {s : Stage} (counters : Counters)
    (log : List Record) (found : n.stages.get? i = some s) (runs : s.thread = .running)
    (moves : s.loop.advance n.hub ≠ .blocked) :
    (s.after (s.loop.advance n.hub)).InOrder h₀ (ops ++ (s.asks n.hub ++ [.tally counters log])) := by
  have r := o.working i s found (.inr runs)
  have seated := o.seated i s found
  cases progress : s.loop.advance n.hub with
  | blocked => exact absurd progress moves
  | running h loop =>
    have asks : s.asks n.hub = s.loop.requests n.hub := by
      rw [Stage.asks, progress]
      exact List.append_nil _
    have step := o.hub ▸ progress
    have next : loop.InRound h₀ (ops ++ s.asks n.hub) := by
      rw [asks, o.hub]
      exact r.own step
    have seated' : loop.Seated h₀ := seated.advance r step
    have counted : ∀ op ∈ [Operation.tally counters log], op.Within {} h₀ (ops ++ s.asks n.hub) :=
      List.forall_mem_singleton.2 trivial
    have later := next.others seated' (.none _) counted
    rw [List.append_assoc] at later
    exact .ofRound seated' later (.inr runs)
  | stopped | faulted =>
    obtain ⟨dead, recorded⟩ := o.ended counters log found (.inr runs) (by rw [Stage.asks, progress])
    have idle : ¬ (s.after (s.loop.advance n.hub)).Works := by
      simp [progress, Stage.Works, Stage.after]
    have dropped : ∀ t ∈ s.loop.sources,
        .dropSubscription t ∈ ops ++ (s.asks n.hub ++ [.tally counters log]) := by
      intro t ht
      have closes : .dropSubscription t ∈ s.loop.closing := by
        rw [Loop.closing_eq]
        exact List.mem_cons_of_mem _ (List.mem_map_of_mem ht)
      rw [Stage.asks, progress]
      simp [closes]
    rw [progress] at idle
    exact ⟨seated, fun works => absurd works idle, fun _ => dead, fun _ => dropped, recorded⟩

theorem Orderly.apart_after (o : n.Orderly h₀ ops) {j : Nat} {s u : Stage} (apart : i ≠ j)
    (found : n.stages.get? i = some s) (found' : n.stages.get? j = some u) (works : s.Works)
    (works' : u.Works) {h : Hub} {loop : Loop} (goes : s.loop.advance n.hub = .running h loop) :
    (loop.kit h₀).Apart (u.loop.kit h₀) ∧ (u.loop.kit h₀).Apart (loop.kit h₀) := by
  have step := o.hub ▸ goes
  have same := Loop.advance_reset step
  have theirs := (o.working j u found' works').cells_given
  have forth := o.apart i j s u apart found found' works works'
  have back := o.apart j i u s apart.symm found' found works' works
  have cells : ∀ cell ∈ loop.cells, cell ∉ u.loop.cells := by
    intro cell hc hu
    rcases (Loop.advance_gains step).1 cell hc with before | rfl
    · rw [s.loop.kit_reset, u.loop.kit_reset] at forth
      exact forth.cells before hu
    · exact Nat.lt_irrefl _ (theirs _ hu)
  rw [s.loop.kit_reset, ← same, u.loop.kit_reset] at forth back
  rw [loop.kit_reset, u.loop.kit_reset]
  exact ⟨forth.withCells cells, back.withCells' fun cell hu hc => cells cell hc hu⟩

/-- Whichever stage takes a step, the network is orderly again. -/
theorem Orderly.advance (o : n.Orderly h₀ ops) {s : Stage} {counters : Counters} {log : List Record}
    (found : n.stages.get? i = some s) (runs : s.thread = .running)
    (moves : s.loop.advance n.hub ≠ .blocked)
    (stages : n'.stages = n.stages.modify i (fun _ => s.after (s.loop.advance n.hub)))
    (hub : n'.hub = n.hub.applyAll (s.asks n.hub ++ [.tally counters log])) :
    n'.Orderly h₀ (ops ++ (s.asks n.hub ++ [.tally counters log])) := by
  have within := o.asks_within counters log found (.inr runs)
  have here : ∀ t, n'.stages.get? i = some t → t = s.after (s.loop.advance n.hub) := by
    intro t ht
    rw [stages, Table.get?_modify, if_pos rfl, found] at ht
    exact (Option.some.inj ht).symm
  -- The other stages are as they were, and are spared.
  have other : ∀ (j : Nat) t, j ≠ i → n'.stages.get? j = some t → n.stages.get? j = some t := by
    intro j t hj ht
    rwa [stages, Table.get?_modify, if_neg hj] at ht
  have apart : ∀ (j : Nat) t u, j ≠ i → n'.stages.get? i = some t → n'.stages.get? j = some u →
      t.Works → u.Works →
      (t.loop.kit h₀).Apart (u.loop.kit h₀) ∧ (u.loop.kit h₀).Apart (t.loop.kit h₀) := by
    intro j t u hj ht hu tw uw
    obtain rfl := here t ht
    cases progress : s.loop.advance n.hub with
    | blocked => exact absurd progress moves
    | running h loop =>
      exact o.apart_after hj.symm found (other j u hj hu) (.inr runs) uw progress
    | stopped | faulted => simp [progress, Stage.Works, Stage.after] at tw
  rw [o.hub, ← Hub.applyAll_append, ← o.hub] at hub
  refine .of_inOrder hub (fun j t ht => ?_) fun j k t u hjk ht hu tw uw => ?_
  · by_cases hj : j = i
    · subst hj
      exact here t ht ▸ o.inOrder_after counters log found runs moves
    · have before := other j t hj ht
      exact (o.inOrder before).spared within (o.apart i j s t (Ne.symm hj) found before (.inr runs))
  · by_cases hj : j = i
    · subst hj
      exact (apart k t u hjk.symm ht hu tw uw).1
    · by_cases hk : k = i
      · subst hk
        exact (apart j u t hj hu ht uw tw).2
      · exact o.apart j k t u hjk (other j t hj ht) (other k u hk hu) tw uw

end Network

end BufferFlow
