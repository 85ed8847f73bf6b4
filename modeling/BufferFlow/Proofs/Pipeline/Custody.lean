import BufferFlow.Pipeline.Broadcast
import BufferFlow.Proofs.Hub.Chaining
import BufferFlow.Proofs.Pipeline.Attendance
import BufferFlow.Proofs.Stage.Hands

set_option autoImplicit false

namespace BufferFlow

namespace Stage

/-- What belongs to a stage; to one that has ended, nothing. -/
def belongings (s : Stage) : Belongings :=
  match s.thread with
  | .unstarted | .running => s.loop.belongings
  | _ => {}

theorem belongings_of_works {s : Stage} (works : s.Works) : s.belongings = s.loop.belongings := by
  rcases works with thread | thread <;> rw [belongings, thread]

theorem belongings_of_ended {s : Stage} (ended : ¬ s.Works) : s.belongings = {} := by
  cases thread : s.thread with
  | unstarted => exact absurd (.inl thread) ended
  | running => exact absurd (.inr thread) ended
  | _ => rw [belongings, thread]

theorem advance_entrusts {s : Stage} {h₀ : Hub} {ops : List Operation} {rest : Belongings}
    (r : s.loop.InRound h₀ ops) (runs : s.thread = .running)
    (moves : s.loop.advance (h₀.applyAll ops) ≠ .blocked)
    (e : (h₀.applyAll ops).Entrusts (s.belongings ++ rest)) :
    ((h₀.applyAll ops).applyAll (s.asks (h₀.applyAll ops))).Entrusts
      ((s.after (s.loop.advance (h₀.applyAll ops))).belongings ++ rest) := by
  rw [belongings_of_works (.inr runs)] at e
  have stepped := Loop.advance_entrusts e
  have hub : ∀ h', (s.loop.advance (h₀.applyAll ops)).hub? = some h' →
      h' = h₀.applyAll (ops ++ s.loop.requests (h₀.applyAll ops)) := fun _ => r.hub
  rw [asks]
  generalize s.loop.advance (h₀.applyAll ops) = progress at moves stepped hub
  cases progress with
  | blocked => exact absurd rfl moves
  | running h' l =>
    rw [Progress.Entrusts, hub h' rfl, Hub.applyAll_append] at stepped
    have works : (s.after (.running h' l)).Works := .inr runs
    rw [List.append_nil, belongings_of_works works]
    exact stepped
  | stopped h' reason =>
    rw [Progress.Entrusts, hub h' rfl, Hub.applyAll_append] at stepped
    rw [Hub.applyAll_append]
    exact Loop.closing_entrusts stepped
  | faulted h' fault =>
    rw [Progress.Entrusts, hub h' rfl, Hub.applyAll_append] at stepped
    rw [Hub.applyAll_append]
    exact Loop.closing_entrusts stepped

end Stage

namespace Network

variable {n n' : Network} {i : Nat} {s : Stage} {h h₀ : Hub} {ops : List Operation} {l : Belongings}

theorem entrusts_stage (found : n.stages.get? i = some s) :
    h.Entrusts (.all (l :: n.stages.values.map Stage.belongings)) ↔
      h.Entrusts (s.belongings ++ .all (l :: (n.stages.others i).map Stage.belongings)) := by
  have order : (l :: n.stages.values.map Stage.belongings).Perm
      (s.belongings :: l :: (n.stages.others i).map Stage.belongings) :=
    (((Table.values_perm found).map Stage.belongings).cons l).trans (List.Perm.swap _ _ _)
  rw [← Belongings.all_cons]
  exact ⟨fun e => e.perm order, fun e => e.perm order.symm⟩

theorem Orderly.entrusts (o : n.Orderly h₀ ops) {counters : Counters} {log : List Record}
    (found : n.stages.get? i = some s) (runs : s.thread = .running)
    (moves : s.loop.advance n.hub ≠ .blocked)
    (stages : n'.stages = n.stages.modify i (fun _ => s.after (s.loop.advance n.hub)))
    (hub : n'.hub = n.hub.applyAll (s.asks n.hub ++ [.tally counters log]))
    (e : n.hub.Entrusts (.all (l :: n.stages.values.map Stage.belongings))) :
    n'.hub.Entrusts (.all (l :: n'.stages.values.map Stage.belongings)) := by
  have found' : n'.stages.get? i = some (s.after (s.loop.advance n.hub)) := by
    rw [stages, Table.get?_modify, if_pos rfl, found]
    rfl
  have others : n'.stages.others i = n.stages.others i := by rw [stages, Table.others_modify]
  rw [entrusts_stage found] at e
  rw [entrusts_stage found', others, hub, applyAll_tally]
  rw [o.hub] at moves e ⊢
  exact (s.advance_entrusts (o.working i s found (.inr runs)) runs moves e).same
    ⟨rfl, rfl, fun _ => rfl, fun _ => rfl⟩

end Network

namespace Pipeline

variable {config : PipelineConfig} {n₀ n n' : Network} {ops more : List Operation} {i s p : Nat}
  {c : Copy} {q : SlotRef} {b b' : Broadcast}

namespace Underway

variable (u : Underway config n₀.hub ops n) (laid : Planned config n₀)

include u laid

theorem pool_sent (hi : i < gateCount config + 3) (sent : n₀.hub.Sends i ops c)
    (alive : c ∈ (n₀.hub.applyAll (ops ++ more)).copies) : c.ref.pool = i := by
  obtain ⟨pub, hpub, serial⟩ := sent
  have past : pub ∈ n₀.hub.history (ops ++ more) := by
    rw [Hub.history_append]
    exact List.mem_append_left _ (List.mem_filter.1 hpub).1
  rw [((Hub.faithful_history laid.reached.sound pub past).shown c alive serial.symm).1]
  exact u.pool_made laid hi hpub

end Underway

/-- What a slot holds is of a stage that the slot's own stage has subscribed to. -/
def Chained (config : PipelineConfig) (h : Hub) : Prop :=
  ∀ q c, h.chainedAt q = some c → ∃ s ∈ sourcesOf config q.pool, outletOf config s = c.ref.pool

theorem Laid.copies_eq (laid : Planned config n₀) : n₀.hub.copies = [] := by
  refine List.eq_nil_iff_forall_not_mem.2 fun c hc => ?_
  have given := laid.reached.sound.numbered.given c hc
  rw [laid.unused.1] at given
  exact absurd given (Nat.not_lt_zero _)

theorem Laid.chained (laid : Planned config n₀) : Chained config n₀.hub := by
  intro q c holds
  have alive : c ∈ n₀.hub.copies := List.mem_append_right _ (Hub.mem_chained.2 ⟨q, holds⟩)
  rw [laid.copies_eq] at alive
  exact absurd alive List.not_mem_nil

theorem Chained.applyAll (chained : Chained config n.hub) (u : Underway config n₀.hub ops n)
    (laid : Planned config n₀) (fits : ∀ op ∈ more, op.Fits n₀.hub)
    (sent : ∀ op ∈ more, ∀ q c, op = .chain q c → q.pool < gateCount config + 3 ∧
      ∃ s ∈ sourcesOf config q.pool, n₀.hub.Sends (outletOf config s) ops c) :
    Chained config (n.hub.applyAll more) := by
  intro q c holds
  have old : ∀ op ∈ more, ∀ name capacity factory, op ≠ .newPool name capacity factory := by
    rintro _ hop name capacity factory rfl
    exact fits _ hop
  rcases Hub.chainedAt_applyAll_cases old holds with
    before | ⟨d, first, hop, ⟨rest, rfl⟩, inHand, rfl⟩
  · exact chained q c before
  · obtain ⟨hq, s, hs, sends⟩ := sent _ hop q d rfl
    have hi := outletOf_lt hq hs
    rw [u.orderly.hub, ← Hub.applyAll_append] at inHand
    exact ⟨s, hs,
      (u.pool_sent laid (by omega) sends (Hub.mem_copies_of_held inHand)).symm⟩

theorem Underway.chain_sent (u : Underway config n₀.hub ops n) (laid : Planned config n₀) {st : Stage}
    (found : n.stages.get? i = some st)
    (within : (Operation.chain q c).Within (st.loop.kit n₀.hub) n₀.hub ops) :
    q.pool < gateCount config + 3 ∧
      ∃ s ∈ sourcesOf config q.pool, n₀.hub.Sends (outletOf config s) ops c := by
  have hi := u.within i st found
  rw [st.loop.kit_reset, u.reset found, laid.kit_eq hi] at within
  obtain ⟨own, p, hp, sent⟩ := within
  obtain rfl : q.pool = i := List.mem_singleton.1 own
  obtain ⟨s, hs, rfl⟩ := List.mem_map.1 hp
  exact ⟨hi, s, hs, sent⟩

def Listener.belongings (config : PipelineConfig) (l : Listener) : Belongings where
  copies := l.report.toList
  subscriptions := if l.attached then [reportsOf config] else []

def owners (config : PipelineConfig) (b : Broadcast) : List Belongings :=
  b.listener.belongings config :: b.network.stages.values.map Stage.belongings

/-- What holds of a broadcast between two turns. -/
structure Custody (config : PipelineConfig) (n₀ : Network) (ops : List Operation) (b : Broadcast) :
    Prop where
  underway : Underway config n₀.hub ops b.network
  threads : Threads b.network b.listener.toStart []
  starting : b.listener.toStart <:+ (partsOf config).starts
  attends : b.listener.attached = true → Attends config b.network ops
  sent : ∀ c, b.listener.report = some c → n₀.hub.Sends (gateCount config + 2) ops c
  entrusted : b.network.hub.Entrusts (.all (owners config b))
  chained : Chained config b.network.hub

theorem belongings_loopOf (config : PipelineConfig) (i : Nat) :
    (loopOf config i).belongings = { subscriptions := sourcesOf config i } := by
  rw [sourcesOf, loopOf]
  split
  · rfl
  · split
    · rfl
    · split <;> rfl

theorem Laid.entrusted (laid : Planned config n₀) :
    n₀.hub.Entrusts (.all (owners config (.start (partsOf config) n₀))) := by
  have stage : ∀ i < gateCount config + 3, ∃ s, n₀.stages.get? i = some s ∧
      s.belongings = { subscriptions := sourcesOf config i } := by
    intro i hi
    obtain ⟨name, -, found⟩ := laid.stage i hi
    exact ⟨_, found, belongings_loopOf config i⟩
  have nothing : ∀ b ∈ owners config (.start (partsOf config) n₀), b.copies = [] ∧ b.blanks = [] := by
    intro b hb
    rcases List.mem_cons.1 hb with rfl | hb
    · exact ⟨rfl, rfl⟩
    · obtain ⟨s, hs, rfl⟩ := List.mem_map.1 hb
      obtain ⟨i, found⟩ := Table.mem_values.1 hs
      obtain ⟨t, there, own⟩ := stage i (laid.stageCount ▸ Table.get?_lt found)
      obtain rfl := Option.some.inj (found.symm.trans there)
      rw [own]
      exact ⟨rfl, rfl⟩
  have held : n₀.hub.held = [] := by
    refine List.eq_nil_iff_forall_not_mem.2 fun c hc => ?_
    have alive := Hub.mem_copies_of_held hc
    rw [laid.copies_eq] at alive
    exact List.not_mem_nil alive
  obtain ⟨-, blanks, cells⟩ := laid.unused
  refine ⟨?_, ?_, fun cell hc => ?_, fun s hs => ?_⟩
  · rw [held, Belongings.all, List.flatMap_eq_nil_iff.2 fun b hb => (nothing b hb).1]
  · rw [blanks, Belongings.all, List.flatMap_eq_nil_iff.2 fun b hb => (nothing b hb).2]
  · rw [cells] at hc
    exact absurd hc Bool.false_ne_true
  · obtain ⟨sub, found⟩ := Option.isSome_iff_exists.1 hs
    have given : s < 2 * gateCount config + 3 := laid.subscriptionCount ▸ Table.get?_lt found
    have sourced : ∀ i < gateCount config + 3, s ∈ sourcesOf config i →
        s ∈ (Belongings.all (owners config (.start (partsOf config) n₀))).subscriptions := by
      intro i hi source
      obtain ⟨st, there, own⟩ := stage i hi
      refine List.mem_flatMap.2 ⟨st.belongings, List.mem_cons_of_mem _
        (List.mem_map_of_mem (Table.mem_values.2 ⟨i, there⟩)), ?_⟩
      rw [own]
      exact source
    by_cases fire : s ≤ gateCount config
    · exact sourced _ (by omega) (mem_sourcesOf_fire.2 fire)
    by_cases sink : s ≤ 2 * gateCount config + 1
    · exact sourced _ (by omega) (mem_sourcesOf_sink.2 ⟨by omega, sink⟩)
    obtain rfl : s = reportsOf config := by
      rw [reportsOf]
      omega
    exact List.mem_flatMap.2 ⟨_, List.mem_cons_self, List.mem_singleton_self _⟩

theorem Laid.custody (laid : Planned config n₀) :
    Custody config n₀ [] (.start (partsOf config) n₀) :=
  ⟨laid.underway, laid.threads, List.suffix_refl _, fun _ => laid.attends, fun _ => nofun,
    laid.entrusted, laid.chained⟩

theorem Custody.start {l : Listener} {rest : List Nat} (k : Custody config n₀ ops ⟨n, l⟩)
    (toStart : l.toStart = i :: rest) :
    ∃ more, Custody config n₀ (ops ++ more) ⟨(n.start i).2, { l with toStart := rest }⟩ := by
  obtain ⟨u, t, starting, attends, sent, e, chained⟩ := k
  dsimp only at *
  rw [toStart] at t starting
  have hi := mem_starts.1 (starting.subset List.mem_cons_self)
  obtain ⟨s, found, -⟩ := u.stage i hi
  obtain ⟨counters, log, started, u', unstarted⟩ := u.start t hi
  rw [started]
  have found' : (n.stages.modify i Stage.started).get? i = some s.started := by
    rw [Table.get?_modify, if_pos rfl, found]
    rfl
  have same : s.started.belongings = s.belongings := by
    rw [Stage.belongings_of_works (.inl (unstarted s found))]
    exact Stage.belongings_of_works (.inr rfl)
  refine ⟨[.tally counters log], u', t.start (starting.sublist.nodup (starts_nodup config)) rfl,
    (List.suffix_cons i rest).trans starting, fun attached => (attends attached).spared rfl ?_,
    fun c hc => (sent c hc).mono _, ?_, chained⟩
  · exact List.forall_mem_singleton.2 fun own => own
  · rw [owners, Network.entrusts_stage found] at e
    rw [owners, Network.entrusts_stage (n := ⟨_, n.stages.modify i Stage.started⟩) found', same,
      Table.others_modify]
    exact e.same ⟨rfl, rfl, fun _ => rfl, fun _ => rfl⟩

section

variable (laid : Planned config n₀)

include laid

theorem Custody.stage (pos : 0 < config.firingPeriod.toNat) (k : Custody config n₀ ops b)
    (step : b.network.advanceStage? i = some n') :
    ∃ more, Custody config n₀ (ops ++ more) { b with network := n' } := by
  obtain ⟨u, t, starting, attends, sent, entrusted, chained⟩ := k
  obtain ⟨st, counters, log, found, runs, moves, stages, hub⟩ := u.orderly.advanceStage? step
  have within := u.orderly.asks_within counters log found (.inr runs)
  have u' := u.advance pos found runs moves stages hub
  have entrusted' := u.orderly.entrusts found runs moves stages hub entrusted
  generalize st.asks b.network.hub ++ [.tally counters log] = more at hub u' within
  refine ⟨more, u', t.advance found runs stages, starting,
    fun attached => (attends attached).spared hub (u.spares_reports laid found within),
    fun c hc => (sent c hc).mono more, entrusted', ?_⟩
  change Chained config n'.hub
  rw [hub]
  refine chained.applyAll u laid (fun op hop => u'.fits op (List.mem_append_right _ hop)) ?_
  rintro _ hop q c rfl
  exact u.chain_sent laid found (within _ hop)

theorem Custody.listens {l l' : Listener} (k : Custody config n₀ ops ⟨n, l⟩)
    (within : ∀ op ∈ more, op.Within (readerKit config) n₀.hub ops)
    (fits : ∀ op ∈ more, op.Fits n₀.hub) (same : l'.toStart = l.toStart)
    (attends : l'.attached = true → Attends config (n.withHub (n.hub.applyAll more)) (ops ++ more))
    (sent : ∀ c, l'.report = some c → n₀.hub.Sends (gateCount config + 2) (ops ++ more) c)
    (entrusted : (n.hub.applyAll more).Entrusts
      (.all (owners config ⟨n.withHub (n.hub.applyAll more), l'⟩))) :
    Custody config n₀ (ops ++ more) ⟨n.withHub (n.hub.applyAll more), l'⟩ := by
  refine ⟨k.underway.reader laid within fits, ?_, same ▸ k.starting, attends, sent, entrusted,
    k.chained.applyAll k.underway laid fits ?_⟩
  · change Threads _ l'.toStart []
    rw [same]
    exact k.threads.withHub _
  · rintro _ hop q c rfl
    exact absurd (within _ hop).1 List.not_mem_nil

theorem Custody.leave {l l' : Listener} (k : Custody config n₀ ops ⟨n, l⟩)
    (step : l.leave? (partsOf config) n = some (l', n')) :
    ∃ more, Custody config n₀ (ops ++ more) ⟨n', l'⟩ := by
  rw [Listener.leave?] at step
  split at step
  · rename_i attached
    obtain ⟨rfl, rfl⟩ := Prod.mk.inj (Option.some.inj step)
    have e := k.entrusted
    rw [owners, Belongings.all_cons, Listener.belongings, if_pos attached] at e
    refine ⟨[.dropSubscription (reportsOf config)], k.listens laid
      (List.forall_mem_singleton.2 (List.mem_singleton.2 rfl)) (List.forall_mem_singleton.2 trivial)
      rfl nofun (fun c hc => (k.sent c hc).mono _) ?_⟩
    exact Hub.Entrusts.dropSubscription e
  · exact nomatch step

theorem Custody.listener {l' : Listener} (k : Custody config n₀ ops b)
    (step : b.listener.advance? (partsOf config) b.network = some (l', n')) :
    ∃ more, Custody config n₀ (ops ++ more) ⟨n', l'⟩ := by
  obtain ⟨n, l⟩ := b
  rw [Listener.advance?] at step
  have e := k.entrusted
  rw [owners, Belongings.all_cons] at e
  split at step
  · rename_i toStart
    obtain ⟨rfl, rfl⟩ := Prod.mk.inj (Option.some.inj step)
    exact k.start toStart
  · rename_i c toStart report
    obtain ⟨rfl, rfl⟩ := Prod.mk.inj (Option.some.inj step)
    rw [Listener.belongings, report] at e
    refine ⟨[.release c], k.listens laid
      (List.forall_mem_singleton.2 ⟨_, List.mem_singleton.2 rfl, k.sent c report⟩)
      (List.forall_mem_singleton.2 trivial) rfl (fun attached => ?_) (by simp) ?_⟩
    · exact (k.attends attached).spared rfl (List.forall_mem_singleton.2 fun own => own)
    · exact Hub.Entrusts.release e
  · rename_i toStart report
    split at step
    · rename_i attached
      cases found : n.hub.pull (partsOf config).reports with | mk outcome hub =>
      rw [found] at step
      cases outcome with
      | empty => cases step
      | gone => exact k.leave laid step
      | ready c =>
        obtain ⟨rfl, rfl⟩ := Prod.mk.inj (Option.some.inj step)
        obtain ⟨rfl, departs, -⟩ := Hub.pull_ready found
        have a : Attends config (n.withHub (n.hub.apply (.pull (reportsOf config))))
            (ops ++ [.pull (reportsOf config)]) := (k.attends attached).pull rfl
        rw [Listener.belongings, report] at e
        refine ⟨[.pull (reportsOf config)], k.listens laid
          (List.forall_mem_singleton.2 (List.mem_singleton.2 rfl))
          (List.forall_mem_singleton.2 trivial) rfl (fun _ => a) (fun d hd => ?_) ?_⟩
        · obtain rfl := Option.some.inj hd
          refine a.sent laid ?_
          rw [pulled, Hub.departed_snoc, ← k.underway.orderly.hub]
          exact List.mem_append_right _ (departs ▸ List.mem_singleton_self _)
        · exact Hub.Entrusts.pull e found
    · cases step

theorem Custody.follow (pos : 0 < config.firingPeriod.toNat) {turns : List Turn}
    (k : Custody config n₀ ops b) (run : b.follow? (partsOf config) turns = some b') :
    ∃ more, Custody config n₀ (ops ++ more) b' := by
  induction turns generalizing b ops with
  | nil =>
    obtain rfl := Option.some.inj run
    exact ⟨[], (List.append_nil ops).symm ▸ k⟩
  | cons turn turns ih =>
    obtain ⟨b₁, step, run⟩ := Option.bind_eq_some_iff.1 run
    -- what was asked of the hub in this turn is appended to the run so far
    obtain ⟨first, k₁⟩ : ∃ first, Custody config n₀ (ops ++ first) b₁ := by
      cases turn with
      | listener =>
        obtain ⟨⟨l, n⟩, moved, rfl⟩ := Option.map_eq_some_iff.1 step
        exact k.listener laid moved
      | leaving =>
        obtain ⟨⟨l, n⟩, left, rfl⟩ := Option.map_eq_some_iff.1 step
        exact k.leave laid left
      | stage i =>
        obtain ⟨n, moved, rfl⟩ := Option.map_eq_some_iff.1 step
        exact k.stage laid pos moved
    obtain ⟨later, k'⟩ := ih k₁ run
    exact ⟨first ++ later, (List.append_assoc ops first later) ▸ k'⟩

end

end Pipeline

end BufferFlow
