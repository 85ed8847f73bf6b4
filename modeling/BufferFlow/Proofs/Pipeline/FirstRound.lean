import BufferFlow.Proofs.Network.Ownership
import BufferFlow.Proofs.Pipeline.Deadlock

set_option autoImplicit false

/-! # The first round of a pipeline without a period

Until the exchange relay has filled a vector it does not matter how it fills one. So a pipeline without
a period gets as far as one that has a period: there is a slot for the relay's first vector, whatever
the others do. As soon as the relay fills it the remainder faults. -/

namespace BufferFlow

/-! ## Another function for the first relay -/

def Loop.refill (fill : Filler) : Loop → Loop
  | relay l => relay { l with fill }
  | aggregator l => aggregator l

theorem Loop.close_refill (fill : Filler) (l : Loop) (h : Hub) :
    (l.refill fill).close h = l.close h := by
  cases l <;> rfl

def Stage.refill (fill : Filler) (s : Stage) : Stage := { s with loop := s.loop.refill fill }

theorem RelayLoop.advance_refill (fill : Filler) {l : RelayLoop} {h : Hub}
    (unfilled : ∀ blank, l.phase ≠ .filling blank) :
    (Loop.refill fill (.relay l)).advance h = ((Loop.relay l).advance h).map (Loop.refill fill) := by
  rw [Loop.refill, Loop.advance_relay, Loop.advance_relay, advance, advance]
  cases phase : l.phase with
  | filling blank => exact absurd phase (unfilled blank)
  | acquiring =>
    dsimp only
    cases h.acquireFor? l.publisher <;> rfl
  | publishing blank =>
    dsimp only
    cases Checked.add l.step 1 with
    | error fault => rfl
    | ok step =>
      dsimp only
      split <;> rfl

namespace Network

variable {n n' : Network} {i : Nat} {s : Stage}

/-- The network with another function for its first stage. -/
def refill (fill : Filler) (n : Network) : Network := n.modifyStage 0 (Stage.refill fill)

theorem refill_cases (found : n.stages.get? i = some s) (fill : Filler) :
    ∃ r : Loop → Loop, (n.refill fill).stages.get? i = some { s with loop := r s.loop } ∧
      (∀ h, (r s.loop).close h = s.loop.close h) ∧ (i = 0 → r = Loop.refill fill) ∧
        (i ≠ 0 → r = id) := by
  by_cases first : i = 0
  · refine ⟨Loop.refill fill, ?_, Loop.close_refill fill s.loop, fun _ => rfl, absurd first⟩
    rw [refill, modifyStage, Table.get?_modify, if_pos first, found]
    rfl
  · refine ⟨id, ?_, fun _ => rfl, fun same => absurd same first, fun _ => rfl⟩
    rw [refill, modifyStage, Table.get?_modify, if_neg first, found]
    rfl

theorem refill_absent (absent : n.stages.get? i = none) (fill : Filler) :
    (n.refill fill).stages.get? i = none := by
  rw [refill, modifyStage, Table.get?_modify, absent]
  split <;> rfl

theorem refill_modify (n : Network) (fill : Filler) (hub : Hub) {g g' : Stage → Stage}
    (here : i = 0 → ∀ s, g' (s.refill fill) = (g s).refill fill) (apart : i ≠ 0 → g' = g) :
    Network.mk hub ((n.refill fill).stages.modify i g') = refill fill ⟨hub, n.stages.modify i g⟩ :=
  congrArg (Network.mk hub) (n.stages.modify_comm here apart)

theorem start_refill (n : Network) (fill : Filler) (i : Nat) :
    ((n.refill fill).start i).2 = (n.start i).2.refill fill := by
  cases found : n.stages.get? i with
  | none => simp only [start, found, refill_absent found fill]
  | some s =>
    obtain ⟨r, there, close, -⟩ := refill_cases found fill
    have proper : Stage.nameFault? { s with loop := r s.loop } = s.nameFault? := rfl
    simp only [start, found, there, proper]
    split
    · cases s.nameFault? with
      | none =>
        dsimp only [note, modifyStage]
        exact n.refill_modify fill _ (fun _ _ => rfl) fun _ => rfl
      | some fault =>
        dsimp only [modifyStage]
        rw [close]
        exact n.refill_modify fill _ (fun _ _ => rfl) fun _ => rfl
    · rfl

theorem advanceStage?_refill (fill : Filler) (step : n.advanceStage? i = some n')
    (same : ∀ s, i = 0 → n.stages.get? i = some s →
      (s.loop.refill fill).advance n.hub = (s.loop.advance n.hub).map (Loop.refill fill)) :
    (n.refill fill).advanceStage? i = some (n'.refill fill) := by
  rw [advanceStage?] at step ⊢
  cases found : n.stages.get? i with
  | none => simp [found] at step
  | some s =>
    obtain ⟨r, there, close, first, other⟩ := refill_cases found fill
    have advance : (r s.loop).advance n.hub = (s.loop.advance n.hub).map r := by
      by_cases zero : i = 0
      · rw [first zero]
        exact same s zero found
      · rw [other zero, id]
        cases s.loop.advance n.hub <;> rfl
    have hub : (n.refill fill).hub = n.hub := rfl
    simp only [found] at step
    simp only [there, hub, advance]
    cases runs : s.thread with
    | running =>
      simp only [runs] at step
      cases progress : s.loop.advance n.hub with
      | blocked => simp [progress] at step
      | running h loop =>
        simp only [progress] at step
        obtain rfl := Option.some.inj step
        refine congrArg some (n.refill_modify fill _ (fun zero t => ?_) fun apart => ?_)
        · rw [first zero]
          rfl
        · rw [other apart]
          rfl
      | stopped h reason =>
        simp only [progress] at step
        obtain rfl := Option.some.inj step
        simp only [Progress.map, close]
        exact congrArg some (n.refill_modify fill _ (fun _ _ => rfl) fun _ => rfl)
      | faulted h fault =>
        simp only [progress] at step
        obtain rfl := Option.some.inj step
        simp only [Progress.map, close]
        exact congrArg some (n.refill_modify fill _ (fun _ _ => rfl) fun _ => rfl)
    | _ => simp [runs] at step

end Network

/-! ## Nothing is taken from a pool but by its stage -/

namespace Pipeline

variable {config : PipelineConfig} {n₀ n n' : Network} {ops : List Operation} {i : Nat}
  {b b' : Broadcast} {st : Stage}

theorem Custody.unstarved (k : Custody config n₀ ops b) (laid : Planned config n₀)
    (found : b.network.stages.get? i = some st) (works : st.Works) (blankless : st.loop.blank? = none)
    (nothing : made n₀ ops i = []) : b.network.hub.acquireFor? i ≠ none := by
  intro starves
  have u := k.underway
  have hi := u.within i st found
  obtain ⟨present, used⟩ := u.drained laid hi ⟨st, found, works⟩ starves
  have sound : b.network.hub.Sound := u.orderly.hub ▸ laid.reached.sound.applyAll ops
  obtain ⟨state, inState⟩ := sound.accounted.inState present
  cases state with
  | free => exact used inState
  | owned =>
    obtain ⟨-, owned, -⟩ := inState
    have taken : ⟨i, 0⟩ ∈ b.network.hub.blanks := List.count_pos_iff.1 (owned ▸ Nat.one_pos)
    obtain ⟨owner, mem, has⟩ := List.mem_flatMap.1 (k.entrusted.blanks.mem_iff.1 taken)
    rcases u.owner mem with rfl | rfl | ⟨j, other, hj, there, -, rfl⟩
    · exact absurd has List.not_mem_nil
    · exact absurd has List.not_mem_nil
    · rw [Loop.blanks_belongings, Option.mem_toList] at has
      have rooted := (u.orderly.seated j other there).rooted _ has
      rw [u.publisher there, laid.publisher j hj] at rooted
      obtain rfl : j = i := Option.some.inj rooted
      obtain rfl := Option.some.inj (found.symm.trans there)
      exact nomatch blankless.symm.trans has
  | published =>
    obtain ⟨-, -, -, shared⟩ := inState
    obtain ⟨c, hc, ref⟩ := List.countP_pos_iff.1 shared
    rw [u.orderly.hub] at hc
    obtain ⟨pub, past, same⟩ : ∃ pub ∈ n₀.hub.history ops, pub.ref = c.ref := by
      refine (Hub.copies_applyAll laid.reached.sound c hc).resolve_left fun ⟨d, hd, _⟩ => ?_
      rw [laid.copies_eq] at hd
      exact List.not_mem_nil hd
    have pool := Hub.history_pool u.fits pub past
    rw [same, of_decide_eq_true ref] at pool
    obtain ⟨P, hP, -⟩ := Option.map_eq_some_iff.1 pool
    rw [laid.publisher _ (laid.publisherCount ▸ Table.get?_lt hP)] at pool
    have mine : pub ∈ made n₀ ops i := List.mem_filter.2 ⟨past, decide_eq_true (Option.some.inj pool)⟩
    rw [nothing] at mine
    exact List.not_mem_nil mine

/-! ## Without a period -/

namespace Listener

variable {p : Parts} {l l' : Listener}

theorem leave?_refill (p : Parts) (n : Network) (fill : Filler) (l : Listener) :
    l.leave? p (n.refill fill) = (l.leave? p n).map fun (l, n) => (l, n.refill fill) := by
  rw [leave?, leave?]
  split <;> rfl

theorem advance?_refill (p : Parts) (n : Network) (fill : Filler) (l : Listener) :
    l.advance? p (n.refill fill) = (l.advance? p n).map fun (l, n) => (l, n.refill fill) := by
  have hub : (n.refill fill).hub = n.hub := rfl
  rw [advance?, advance?, hub, leave?_refill]
  split
  · rw [n.start_refill fill]
    rfl
  · rfl
  · split
    · split <;> rfl
    · rfl

theorem leave?_stages (step : l.leave? p n = some (l', n')) : n'.stages = n.stages := by
  rw [leave?] at step
  split at step <;> cases step
  rfl

theorem advance?_stages (step : l.advance? p n = some (l', n')) :
    n'.stages = n.stages ∨ ∃ i, n' = (n.start i).2 := by
  rw [advance?] at step
  split at step
  · cases step
    exact .inr ⟨_, rfl⟩
  · cases step
    exact .inl rfl
  · split at step
    · split at step
      · cases step
      · exact .inl (leave?_stages step)
      · cases step
        exact .inl rfl
    · cases step

end Listener

def paced (config : PipelineConfig) : PipelineConfig := { config with firingPeriod := 1 }

theorem Laid.paced (laid : Planned config n₀) :
    Planned (paced config) (n₀.refill (fillExchange 1)) := by
  refine ⟨laid.reached, laid.stageCount, fun i hi => ?_, laid.poolCount, laid.publisherCount,
    laid.publisher, laid.subscriptionCount, laid.subscription, laid.mailboxCount, laid.mailbox,
    laid.extent, laid.roomy, laid.sized, laid.unused⟩
  obtain ⟨name, proper, found⟩ := laid.stage i hi
  obtain ⟨r, there, -, first, other⟩ := Network.refill_cases found (fillExchange 1)
  have loop : r (loopOf config i) = loopOf (Pipeline.paced config) i := by
    by_cases zero : i = 0
    · rw [first zero, loopOf, if_pos zero, loopOf, if_pos zero]
      rfl
    · rw [other zero, id, loopOf, if_neg zero, loopOf, if_neg zero]
      rfl
  exact ⟨name, proper, by rw [there, loop]⟩

abbrev Paced (config : PipelineConfig) (n₀ : Network) (ops : List Operation) (b : Broadcast) : Prop :=
  Custody (paced config) (n₀.refill (fillExchange 1)) ops
    ⟨b.network.refill (fillExchange 1), b.listener⟩

/-- The exchange relay without a period, in its first round. -/
def unpaced (phase : RelayPhase) : Loop := .relay { publisher := 0, fill := fillExchange 0, phase }

/-- The exchange relay works and has filled nothing so far. With a period the broadcast would have got
as far. -/
structure Unfilled (config : PipelineConfig) (n₀ : Network) (b : Broadcast) (st : Stage)
    (phase : RelayPhase) : Prop where
  custody : ∃ ops, Paced config n₀ ops b
  found : b.network.stages.get? 0 = some st
  works : st.Works
  loop : st.loop = unpaced phase
  unready : ∀ blank, phase ≠ .publishing blank

/-- The exchange relay has faulted in its first round. -/
structure Fallen (n : Network) (st : Stage) : Prop where
  found : n.stages.get? 0 = some st
  state : st.state = .running
  thread : st.thread = .faulted .remainderByZero
  round : st.loop.rounds = 0

namespace Unfilled

variable {phase : RelayPhase}

theorem kept (u : Unfilled config n₀ b st phase) (custody : ∃ ops, Paced config n₀ ops b')
    (same : b'.network.stages.get? 0 = b.network.stages.get? 0) : Unfilled config n₀ b' st phase :=
  ⟨custody, same.trans u.found, u.works, u.loop, u.unready⟩

theorem inRound (u : Unfilled config n₀ b st phase) : ∃ ops, Paced config n₀ ops b ∧
    (b.network.refill (fillExchange 1)).stages.get? 0 = some (st.refill (fillExchange 1)) ∧
    RelayLoop.InRound { publisher := 0, fill := fillExchange 1, phase } n₀.hub ops := by
  obtain ⟨ops, k⟩ := u.custody
  obtain ⟨r, there, -, first, -⟩ := Network.refill_cases u.found (fillExchange 1)
  rw [first rfl] at there
  have working := k.underway.orderly.working 0 _ there u.works
  rw [u.loop] at working
  exact ⟨ops, k, there, working⟩

theorem shown {blank : SlotRef} (u : Unfilled config n₀ b st (.filling blank))
    (laid : Planned config n₀) : ∃ w, b.network.hub.payload? blank = some (.exchange w) := by
  obtain ⟨ops, k, there, r⟩ := u.inRound
  have hub : b.network.hub = n₀.hub.applyAll ops := k.underway.orderly.hub
  have owned : blank ∈ (n₀.hub.applyAll ops).blanks := r.prepared
  obtain ⟨slot, hslot, -⟩ := Hub.Balanced.blank_slot r.linked.soundly.accounted owned
  have shown : b.network.hub.payload? blank = some slot.payload := by
    rw [hub, Hub.payload?, hslot]
    rfl
  obtain ⟨v, before, extent⟩ := k.underway.keeps blank slot.payload shown
  have mine : (st.refill (fillExchange 1)).loop.blank? = some blank := by
    rw [Stage.refill, u.loop]
    rfl
  have rooted := (k.underway.orderly.seated 0 _ there).rooted blank mine
  rw [k.underway.publisher there, laid.paced.publisher 0 (Nat.succ_pos _)] at rooted
  rw [laid.extent blank v before, ← Option.some.inj rooted, extentOf, if_pos rfl] at extent
  cases payload : slot.payload with
  | exchange w => exact ⟨w, payload ▸ shown⟩
  | _ => simp [payload, Payload.extent] at extent

theorem falls {blank : SlotRef} (u : Unfilled config n₀ b st (.filling blank))
    (laid : Planned config n₀) (runs : st.thread = .running) :
    ∃ n' st', b.network.advanceStage? 0 = some n' ∧ Fallen n' st' := by
  obtain ⟨ops, k, there, -⟩ := u.inRound
  have running : st.state = .running := by
    obtain ⟨t, ht, -, -, tells⟩ := k.underway.stage 0 (Nat.succ_pos _)
    obtain rfl := Option.some.inj (there.symm.trans ht)
    have thread : (st.refill (fillExchange 1)).thread = .running := runs
    rwa [Stage.Tells, thread] at tells
  obtain ⟨w, shown⟩ := u.shown laid
  obtain ⟨hub, advanced⟩ : ∃ hub, st.loop.advance b.network.hub = .faulted hub .remainderByZero := by
    rw [u.loop]
    simp only [unpaced, Loop.advance, RelayLoop.advance, shown]
    exact ⟨_, rfl⟩
  have step : b.network.advanceStage? 0 = some ((b.network.onThread (st.loop.close hub)).modifyStage 0
      ({ · with thread := .faulted .remainderByZero })) := by
    simp only [Network.advanceStage?, u.found, runs, advanced]
  refine ⟨_, { st with thread := .faulted .remainderByZero }, step, ⟨?_, running, rfl, ?_⟩⟩
  · rw [Network.modifyStage, Table.get?_modify, if_pos rfl]
    exact congrArg (Option.map _) u.found
  · rw [u.loop]
    rfl

theorem acquires (u : Unfilled config n₀ b st .acquiring) (laid : Planned config n₀)
    (runs : st.thread = .running) : ∃ n' st' blank, b.network.advanceStage? 0 = some n' ∧
      Unfilled config n₀ { b with network := n' } st' (.filling blank) ∧ st'.thread = .running := by
  obtain ⟨ops, k, there, r⟩ := u.inRound
  have blankless : (st.refill (fillExchange 1)).loop.blank? = none := by
    rw [Stage.refill, u.loop]
    rfl
  have slot := k.unstarved laid.paced there u.works blankless (List.length_eq_zero_iff.1 r.linked.count)
  obtain ⟨⟨blank, hub⟩, acquired⟩ := Option.ne_none_iff_exists'.1 slot
  have acquired : b.network.hub.acquireFor? 0 = some (blank, hub) := acquired
  have advanced : st.loop.advance b.network.hub = .running hub (unpaced (.filling blank)) := by
    rw [u.loop]
    simp only [unpaced, Loop.advance, RelayLoop.advance, acquired]
  have step : b.network.advanceStage? 0 = some ((b.network.onThread hub).modifyStage 0
      ({ · with loop := unpaced (.filling blank) })) := by
    simp only [Network.advanceStage?, u.found, runs, advanced]
  have step' := Network.advanceStage?_refill (fillExchange 1) step fun s _ found => by
    obtain rfl := Option.some.inj (u.found.symm.trans found)
    rw [u.loop]
    exact RelayLoop.advance_refill _ (by simp)
  obtain ⟨more, k'⟩ := k.stage laid.paced Nat.one_pos step'
  refine ⟨_, { st with loop := unpaced (.filling blank) }, blank, step,
    ⟨⟨_, k'⟩, ?_, .inr runs, rfl, by simp⟩, runs⟩
  rw [Network.modifyStage, Table.get?_modify, if_pos rfl]
  exact congrArg (Option.map _) u.found

theorem listener {phase : RelayPhase} {l : Listener} (u : Unfilled config n₀ b st phase)
    (laid : Planned config n₀) (step : b.listener.advance? (partsOf config) b.network = some (l, n')) :
    ∃ st', Unfilled config n₀ ⟨n', l⟩ st' phase := by
  obtain ⟨ops, k, there, -⟩ := u.inRound
  have step' : b.listener.advance? (partsOf config) (b.network.refill (fillExchange 1)) =
      some (l, n'.refill (fillExchange 1)) := by
    rw [Listener.advance?_refill, step]
    rfl
  obtain ⟨more, k'⟩ := k.listener laid.paced step'
  have kept : n'.stages.get? 0 = b.network.stages.get? 0 →
      ∃ st', Unfilled config n₀ ⟨n', l⟩ st' phase := fun same => ⟨st, u.kept ⟨_, k'⟩ same⟩
  rcases Listener.advance?_stages step with same | ⟨i, rfl⟩
  · exact kept (congrArg (·.get? 0) same)
  by_cases first : i = 0
  · subst first
    by_cases idle : st.state = .idle
    · obtain ⟨t, ht, -, proper, -⟩ := k.underway.stage 0 (Nat.succ_pos _)
      obtain rfl := Option.some.inj (there.symm.trans ht)
      obtain ⟨counters, log, started⟩ := Network.start_eq u.found idle proper
      rw [started] at k' ⊢
      refine ⟨st.started, ⟨_, k'⟩, ?_, .inr rfl, u.loop, u.unready⟩
      exact (Table.get?_modify _ _ _ _).trans ((if_pos rfl).trans (congrArg _ u.found))
    · exact kept (by rw [Network.start_late u.found idle]; rfl)
  · exact kept (Network.start_other (Ne.symm first) b.network)

theorem turn {phase : RelayPhase} {turn : Turn} (u : Unfilled config n₀ b st phase)
    (laid : Planned config n₀) (step : b.advance? (partsOf config) turn = some b') :
    (∃ st' phase', Unfilled config n₀ b' st' phase') ∨ ∃ st', Fallen b'.network st' := by
  cases turn with
  | listener =>
    obtain ⟨⟨l, n'⟩, moved, rfl⟩ := Option.map_eq_some_iff.1 step
    obtain ⟨st', u'⟩ := u.listener laid moved
    exact .inl ⟨st', phase, u'⟩
  | leaving =>
    obtain ⟨⟨l, n'⟩, left, rfl⟩ := Option.map_eq_some_iff.1 step
    obtain ⟨ops, k⟩ := u.custody
    have left' : b.listener.leave? (partsOf config) (b.network.refill (fillExchange 1)) =
        some (l, n'.refill (fillExchange 1)) := by
      rw [Listener.leave?_refill, left]
      rfl
    obtain ⟨more, k'⟩ := k.leave laid.paced left'
    have same := congrArg (·.get? 0) (Listener.leave?_stages left)
    exact .inl ⟨st, phase, u.kept ⟨_, k'⟩ same⟩
  | stage i =>
    obtain ⟨n', moved, rfl⟩ := Option.map_eq_some_iff.1 step
    by_cases first : i = 0
    · subst first
      have runs : st.thread = .running := by
        refine u.works.resolve_left fun unstarted => ?_
        simp [Network.advanceStage?, u.found, unstarted] at moved
      cases phase with
      | acquiring =>
        obtain ⟨n'', st', blank, moved', u', -⟩ := u.acquires laid runs
        obtain rfl := Option.some.inj (moved.symm.trans moved')
        exact .inl ⟨st', _, u'⟩
      | filling blank =>
        obtain ⟨n'', st', moved', fallen⟩ := u.falls laid runs
        obtain rfl := Option.some.inj (moved.symm.trans moved')
        exact .inr ⟨st', fallen⟩
      | publishing blank => exact absurd rfl (u.unready blank)
    · obtain ⟨ops, k⟩ := u.custody
      have moved' := Network.advanceStage?_refill (fillExchange 1) moved fun _ zero =>
        absurd zero first
      obtain ⟨more, k'⟩ := k.stage laid.paced Nat.one_pos moved'
      exact .inl ⟨st, phase,
        u.kept ⟨_, k'⟩ (Network.advanceStage?_other (Ne.symm first) moved)⟩

end Unfilled

namespace Fallen

theorem same (f : Fallen n st) (same : n'.stages.get? 0 = n.stages.get? 0) : Fallen n' st :=
  ⟨same.trans f.found, f.state, f.thread, f.round⟩

theorem start (f : Fallen n st) (i : Nat) : Fallen (n.start i).2 st := by
  by_cases first : i = 0
  · have late : st.state ≠ .idle := fun idle => nomatch f.state.symm.trans idle
    subst first
    rw [Network.start_late f.found late]
    exact f.same rfl
  · exact f.same (Network.start_other (Ne.symm first) n)

theorem turn {p : Parts} {turn : Turn} (f : Fallen b.network st) (step : b.advance? p turn = some b') :
    Fallen b'.network st := by
  cases turn with
  | listener =>
    obtain ⟨⟨l, n'⟩, moved, rfl⟩ := Option.map_eq_some_iff.1 step
    rcases Listener.advance?_stages moved with same | ⟨i, rfl⟩
    · exact f.same (congrArg (·.get? 0) same)
    · exact f.start i
  | leaving =>
    obtain ⟨⟨l, n'⟩, left, rfl⟩ := Option.map_eq_some_iff.1 step
    exact f.same (congrArg (·.get? 0) (Listener.leave?_stages left))
  | stage i =>
    obtain ⟨n', moved, rfl⟩ := Option.map_eq_some_iff.1 step
    by_cases first : i = 0
    · subst first
      simp [Network.advanceStage?, f.found, f.thread] at moved
    · exact f.same (Network.advanceStage?_other (Ne.symm first) moved)

end Fallen

/-! ## Whatever turns are taken -/

def Early (config : PipelineConfig) (n₀ : Network) (b : Broadcast) : Prop :=
  (∃ st phase, Unfilled config n₀ b st phase) ∨ ∃ st, Fallen b.network st

theorem Early.turn {turn : Turn} (e : Early config n₀ b) (laid : Planned config n₀)
    (step : b.advance? (partsOf config) turn = some b') : Early config n₀ b' := by
  rcases e with ⟨st, phase, u⟩ | ⟨st, f⟩
  · exact u.turn laid step
  · exact .inr ⟨st, f.turn step⟩

theorem Early.follow {turns : List Turn} (e : Early config n₀ b) (laid : Planned config n₀)
    (run : b.follow? (partsOf config) turns = some b') : Early config n₀ b' := by
  induction turns generalizing b with
  | nil =>
    obtain rfl := Option.some.inj run
    exact e
  | cons turn turns ih =>
    obtain ⟨b₁, step, run⟩ := Option.bind_eq_some_iff.1 run
    exact ih (e.turn laid step) run

theorem Laid.early (laid : Planned config n₀) (none : config.firingPeriod = 0) :
    Early config n₀ (.start (partsOf config) n₀) := by
  obtain ⟨name, -, found⟩ := laid.stage 0 (Nat.succ_pos _)
  refine .inl ⟨_, .acquiring, ⟨[], laid.paced.custody⟩, found, .inl rfl, ?_, fun _ => nofun⟩
  rw [loopOf, if_pos rfl, none]
  rfl

/-- In whatever order the turns are taken, the exchange relay does not get through its first round.
Once it is started, its next two turns at the most end it by that fault. -/
def EndsAtOnce (p : Parts) (n : Network) (fault : Fault) : Prop :=
  ∀ turns b, Broadcast.follow? p turns (.start p n) = some b → ∃ st,
    b.network.stages.get? p.exchange = some st ∧ st.loop.rounds = 0 ∧
      (st.thread = .unstarted ∨ st.thread = .faulted fault ∨ st.thread = .running ∧
        ∃ k ≤ 2, ∃ b' st', b.follow? p (List.replicate k (.stage p.exchange)) = some b' ∧
          b'.network.stages.get? p.exchange = some st' ∧ st'.thread = .faulted fault)

theorem Unfilled.ends {phase : RelayPhase} (u : Unfilled config n₀ b st phase)
    (laid : Planned config n₀) (runs : st.thread = .running) : ∃ k ≤ 2, ∃ b' st',
      b.follow? (partsOf config) (List.replicate k (.stage 0)) = some b' ∧ Fallen b'.network st' := by
  cases phase with
  | publishing blank => exact absurd rfl (u.unready blank)
  | filling blank =>
    obtain ⟨n', st', moved, fallen⟩ := u.falls laid runs
    refine ⟨1, Nat.le_succ 1, { b with network := n' }, st', ?_, fallen⟩
    simp only [List.replicate, Broadcast.follow?, Broadcast.advance?, moved, Option.map_some,
      Option.bind_some]
  | acquiring =>
    obtain ⟨n₁, st₁, blank, first, u₁, runs₁⟩ := u.acquires laid runs
    obtain ⟨n', st', moved, fallen⟩ := u₁.falls laid runs₁
    refine ⟨2, Nat.le_refl 2, { b with network := n' }, st', ?_, fallen⟩
    simp only [List.replicate, Broadcast.follow?, Broadcast.advance?, first, Option.map_some,
      Option.bind_some] at moved ⊢
    rw [moved]
    rfl

theorem Laid.endsAtOnce (laid : Planned config n₀) (none : config.firingPeriod = 0) :
    EndsAtOnce (partsOf config) n₀ .remainderByZero := by
  intro turns b run
  rcases (laid.early none).follow laid run with ⟨st, phase, u⟩ | ⟨st, f⟩
  · refine ⟨st, u.found, by rw [u.loop]; rfl, u.works.imp_right fun runs => .inr ⟨runs, ?_⟩⟩
    obtain ⟨k, few, b', st', turns, fallen⟩ := u.ends laid runs
    exact ⟨k, few, b', st', turns, fallen.found, fallen.thread⟩
  · exact ⟨st, f.found, f.round, .inr (.inl f.thread)⟩

end Pipeline

end BufferFlow
