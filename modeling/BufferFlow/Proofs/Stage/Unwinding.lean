import BufferFlow.Proofs.Building
import BufferFlow.Proofs.Hub.Roots
import BufferFlow.Proofs.Hub.Teardown
import BufferFlow.Proofs.Stage.Gauge
import BufferFlow.Proofs.Stage.Hands
import BufferFlow.Proofs.Stage.Mustering
import Mathlib.Data.List.Count

set_option autoImplicit false

/-! # Unwinding

A stage whose function faults is in the middle of a round: it has a blank and, unless it is a relay,
the copy from its primary source. On its way out it gives up all that it has, and what others have
stays theirs. -/

namespace BufferFlow

/-! ## What the others have -/

namespace Hub

/-- What is there besides what belongs to somebody. -/
def besides (h : Hub) (b : Belongings) : Belongings where
  copies := h.held.diff b.copies
  blanks := h.blanks.diff b.blanks
  cells := h.cells.ids.filter (· ∉ b.cells)
  subscriptions := h.subscriptions.ids.filter (· ∉ b.subscriptions)

/-- What somebody has after an own operation took the one hub to the other: also what is new then, and
not what is gone. -/
def carried (h h' : Hub) (b : Belongings) : Belongings where
  copies := (b.copies ++ h'.held).diff h.held
  blanks := (b.blanks ++ h'.blanks).diff h.blanks
  cells := b.cells ++ h'.cells.ids.filter (!h.cells.contains ·)
  subscriptions := b.subscriptions ++ h'.subscriptions.ids.filter (!h.subscriptions.contains ·)

variable {h h' : Hub} {mine rest : Belongings}

theorem entrusts_besides (held : ∀ c, mine.copies.count c ≤ h.held.count c)
    (owned : ∀ r, mine.blanks.count r ≤ h.blanks.count r) :
    h.Entrusts (mine ++ h.besides mine) := by
  have there : ∀ {α : Type} {t : Table α} {own : List Nat} {id : Nat}, t.contains id →
      id ∈ own ++ t.ids.filter (· ∉ own) := by
    intro α t own id there
    by_cases hm : id ∈ own
    · exact List.mem_append_left _ hm
    · exact List.mem_append_right _ (List.mem_filter.2 ⟨mem_ids there, decide_eq_true hm⟩)
  exact ⟨(List.subperm_append_diff_self_of_count_le fun c _ => held c).symm,
    (List.subperm_append_diff_self_of_count_le fun r _ => owned r).symm, fun _ => there, fun _ => there⟩

theorem perm_carried {α : Type} [BEq α] [LawfulBEq α] {own others before after : List α}
    (shared : before.Perm (own ++ others)) (still : ∀ a, own.count a ≤ after.count a) :
    after.Perm (own ++ (others ++ after).diff before) := by
  refine List.perm_iff_count.2 fun a => ?_
  have counted := shared.count_eq a
  have enough := still a
  rw [List.count_append] at counted
  rw [List.count_append, List.count_diff, List.count_append]
  omega

theorem Entrusts.carried (e : h.Entrusts (mine ++ rest))
    (held : ∀ c, mine.copies.count c ≤ h'.held.count c)
    (owned : ∀ r, mine.blanks.count r ≤ h'.blanks.count r) :
    h'.Entrusts (mine ++ h.carried h' rest) := by
  have there : ∀ {α : Type} {t t' : Table α} {own others : List Nat} {id : Nat},
      (t.contains id → id ∈ own ++ others) → t'.contains id →
        id ∈ own ++ (others ++ t'.ids.filter (!t.contains ·)) := by
    intro α t t' own others id before there
    rw [← List.append_assoc]
    cases old : t.contains id with
    | true => exact List.mem_append_left _ (before old)
    | false => exact List.mem_append_right _ (List.mem_filter.2 ⟨mem_ids there, by rw [old]; rfl⟩)
  exact ⟨perm_carried e.copies held, perm_carried e.blanks owned,
    fun cell => there (e.cells cell), fun s => there (e.subscriptions s)⟩

end Hub

/-! ## Relays -/

namespace RelayLoop

variable {h₀ h h' : Hub} {l l' : RelayLoop} {op : Operation} {ops : List Operation} {ms : List Move}

/-- What the loop gave up in its round so far, after its next step; publishing ends the round. -/
def ledger (l : RelayLoop) (h : Hub) (ms : List Move) : List Move :=
  match l.phase with
  | .publishing _ => []
  | _ => ms ++ h.trace (l.requests h)

/-- What holds between the steps of a relay. It never gives up a copy, and the blank that it fills
holds nothing. -/
structure Ongoing (l : RelayLoop) (h₀ : Hub) (ops : List Operation) (ms : List Move) : Prop where
  round : l.InRound h₀ ops
  bare : ∀ b, l.phase = .filling b → (h₀.applyAll ops).chainedAt b = none
  nothing : Hub.released ms = []

namespace Ongoing

theorem start (sound : h₀.Sound) (alive : h₀.publishers.contains l.publisher) (step : l.step = 0)
    (phase : l.phase = .acquiring) : l.Ongoing h₀ [] [] := by
  refine ⟨⟨⟨sound, alive, fun j pub hpub => ?_, by rw [step]; rfl⟩, ?_⟩, fun b filling => ?_, rfl⟩
  · simp [Hub.publishedBy, Hub.history] at hpub
  · rw [phase]
    trivial
  · cases phase.symm.trans filling

theorem owned (o : l.Ongoing h₀ ops ms) {b : SlotRef} (mine : l.phase.blank? = some b) :
    b ∈ (h₀.applyAll ops).blanks := by
  have prepared := o.round.prepared
  cases phase : l.phase with
  | acquiring => simp [phase, RelayPhase.blank?] at mine
  | filling blank =>
    rw [phase] at prepared mine
    exact Option.some.inj mine ▸ prepared
  | publishing blank =>
    rw [phase] at prepared mine
    exact Option.some.inj mine ▸ prepared.1

theorem other (o : l.Ongoing h₀ ops ms) (spares : l.Spares op)
    (unchained : ∀ b c, l.phase.blank? = some b → op ≠ .chain b c) :
    l.Ongoing h₀ (ops ++ [op]) ms := by
  refine ⟨o.round.other spares, fun b filling => ?_, o.nothing⟩
  have mine : l.phase.blank? = some b := by rw [filling]; rfl
  obtain ⟨unpublished, -, kept⟩ := spares.blank b mine
  have still := Hub.blanks_apply (o.owned mine) unpublished kept
  rw [Hub.applyAll_snoc, Hub.chainedAt_blank o.round.linked.soundly (o.owned mine) still
    fun c => unchained b c mine]
  exact o.bare b filling

theorem own (o : l.Ongoing h₀ ops ms) (step : l.advance (h₀.applyAll ops) = .running h' l') :
    l'.Ongoing h₀ (ops ++ l.requests (h₀.applyAll ops)) (l.ledger (h₀.applyAll ops) ms) := by
  have turn := l.advance_turn (h₀.applyAll ops)
  rw [step] at turn
  refine ⟨(o.round.own step).1, ?_, ?_⟩
  · generalize l.requests (h₀.applyAll ops) = asked at turn ⊢
    intro b filling
    cases turn with
    | acquires phase named taken =>
      obtain rfl := RelayPhase.filling.inj filling
      rw [Hub.applyAll_snoc, Hub.apply_acquire taken]
      exact (Hub.Balanced.acquire o.round.linked.soundly.accounted taken).2
    | fills | publishes => cases filling
  · rw [ledger]
    generalize l.requests (h₀.applyAll ops) = asked at turn ⊢
    cases turn with
    | acquires phase | fills phase =>
      rw [phase]
      dsimp only
      rw [Hub.released_append, o.nothing]
      rfl
    | publishes phase =>
      rw [phase]
      rfl

end Ongoing

end RelayLoop

/-! ## Aggregators -/

namespace AggregatorLoop.Ongoing

variable {h₀ : Hub} {l : AggregatorLoop} {ops : List Operation} {ms : List Move}

theorem inHand (o : l.Ongoing h₀ ops ms) {c : Copy} (mine : l.phase.source? = some c) :
    c ∈ (h₀.applyAll ops).held := by
  have stands := o.stands
  cases phase : l.phase with
  | acquiring source =>
    rw [phase] at stands mine
    exact Option.some.inj mine ▸ stands.2.inHand
  | transforming source blank =>
    rw [phase] at stands mine
    exact Option.some.inj mine ▸ stands.2.1.inHand
  | _ => simp [phase, AggregatorPhase.source?] at mine

theorem owned (o : l.Ongoing h₀ ops ms) {b : SlotRef} (mine : l.phase.blank? = some b) :
    b ∈ (h₀.applyAll ops).blanks := by
  have stands := o.stands
  cases phase : l.phase with
  | transforming source blank =>
    rw [phase] at stands mine
    exact Option.some.inj mine ▸ stands.2.2.1
  | publishing blank =>
    rw [phase] at stands mine
    exact Option.some.inj mine ▸ stands.2
  | _ => simp [phase, AggregatorPhase.blank?] at mine

end AggregatorLoop.Ongoing

/-! ## Either kind -/

namespace Loop

variable {h₀ h h' : Hub} {l₀ l l' : Loop} {op : Operation} {ops : List Operation} {ms : List Move}
  {rest : Belongings}

def source? : Loop → Option Copy
  | relay _ => none
  | aggregator l => l.phase.source?

def inTurn : Loop → List Nat
  | relay _ => []
  | aggregator l => l.gates ++ [l.primary]

def ledger : Loop → Hub → List Move → List Move
  | relay l, h, ms => l.ledger h ms
  | aggregator l, h, ms => l.ledger h ms

def Spares (l : Loop) (h : Hub) (op : Operation) : Prop :=
  (match l with
    | relay l => l.Spares op
    | aggregator l => l.Spares h op) ∧
  ∀ b c, l.blank? = some b → op ≠ .chain b c

/-- A run of the loop among others: all that was asked of the hub, what the loop gave up in the round
that it is in, what the others have, and the loop and the hub afterwards. What the others have changes
only by what they ask themselves. -/
inductive Woven (l₀ : Loop) (h₀ : Hub) :
    List Operation → List Move → Belongings → Loop → Hub → Prop
  | start : Woven l₀ h₀ [] [] (h₀.besides l₀.belongings) l₀ h₀
  | own {ops : List Operation} {ms : List Move} {rest : Belongings} {l l' : Loop} {h h' : Hub}
      (run : Woven l₀ h₀ ops ms rest l h) (step : l.advance h = .running h' l') :
      Woven l₀ h₀ (ops ++ l.requests h) (l.ledger h ms) rest l' h'
  | other {ops : List Operation} {ms : List Move} {rest : Belongings} {l : Loop} {h : Hub}
      (run : Woven l₀ h₀ ops ms rest l h) (op : Operation) (spares : l.Spares h op) :
      Woven l₀ h₀ (ops ++ [op]) ms (h.carried (h.apply op) rest) l (h.apply op)

def Calling : Loop → Prop
  | relay l => ∃ blank, l.phase = .filling blank
  | aggregator l => ∃ source blank, l.phase = .transforming source blank

def Ongoing (l : Loop) (h₀ : Hub) (ops : List Operation) (ms : List Move) : Prop :=
  match l with
  | relay l => l.Ongoing h₀ ops ms
  | aggregator l => l.Ongoing h₀ ops ms

namespace Ongoing

theorem sound (o : l.Ongoing h₀ ops ms) : h₀.Sound := by
  cases l with
  | relay l => exact (RelayLoop.Ongoing.round o).linked.sound
  | aggregator l => exact AggregatorLoop.Ongoing.sound o

theorem once (o : l.Ongoing h₀ ops ms) : l.sources.Nodup := by
  cases l with
  | relay l => exact List.nodup_nil
  | aggregator l => exact AggregatorLoop.Ongoing.once o

theorem alive (o : l.Ongoing h₀ ops ms) : (h₀.applyAll ops).publishers.contains l.publisher := by
  cases l with
  | relay l => exact (RelayLoop.Ongoing.round o).linked.alive
  | aggregator l => exact AggregatorLoop.Ongoing.alive o

theorem has (o : l.Ongoing h₀ ops ms) :
    (∀ c, l.belongings.copies.count c ≤ (h₀.applyAll ops).held.count c) ∧
      ∀ b, l.belongings.blanks.count b ≤ (h₀.applyAll ops).blanks.count b := by
  have counts : ∀ {α : Type} [BEq α] [LawfulBEq α] {own : Option α} {all : List α},
      (∀ a, own = some a → a ∈ all) → ∀ a, own.toList.count a ≤ all.count a := by
    intro α _ _ own all there a
    cases own with
    | none => simp
    | some b =>
      by_cases here : b = a
      · rw [here, Option.toList_some, List.count_singleton_self]
        exact List.count_pos_iff.2 (there a (congrArg some here))
      · simp [here]
  cases l with
  | relay l => exact ⟨fun c => Nat.zero_le _, counts fun b => RelayLoop.Ongoing.owned o⟩
  | aggregator l =>
    exact ⟨counts fun c => AggregatorLoop.Ongoing.inHand o,
      counts fun b => AggregatorLoop.Ongoing.owned o⟩

theorem hub (o : l.Ongoing h₀ ops ms) (step : (l.advance (h₀.applyAll ops)).hub? = some h') :
    h' = h₀.applyAll (ops ++ l.requests (h₀.applyAll ops)) := by
  rw [Hub.applyAll_append]
  cases l with
  | relay l =>
    rw [advance_relay, Progress.hub?_map] at step
    exact RelayLoop.advance_hub? step
  | aggregator l =>
    rw [advance_aggregator, Progress.hub?_map] at step
    exact AggregatorLoop.advance_hub? (AggregatorLoop.Ongoing.mustered o).contains_mailbox step

theorem own (o : l.Ongoing h₀ ops ms) (step : l.advance (h₀.applyAll ops) = .running h' l') :
    l'.Ongoing h₀ (ops ++ l.requests (h₀.applyAll ops)) (l.ledger (h₀.applyAll ops) ms) := by
  cases l with
  | relay l =>
    rw [advance_relay] at step
    obtain ⟨k, own, rfl⟩ := Progress.map_eq_running step
    exact RelayLoop.Ongoing.own o own
  | aggregator l =>
    rw [advance_aggregator] at step
    obtain ⟨k, own, rfl⟩ := Progress.map_eq_running step
    exact AggregatorLoop.Ongoing.own o own

theorem other (o : l.Ongoing h₀ ops ms) (spares : l.Spares (h₀.applyAll ops) op) :
    l.Ongoing h₀ (ops ++ [op]) ms := by
  obtain ⟨own, unchained⟩ := spares
  cases l with
  | relay l => exact RelayLoop.Ongoing.other o own unchained
  | aggregator l => exact AggregatorLoop.Ongoing.other o own unchained

theorem faults {fault : Fault} (o : l.Ongoing h₀ ops ms) (calling : l.Calling)
    (step : l.advance (h₀.applyAll ops) = .faulted h' fault) : ∃ blank payload,
      l.blank? = some blank ∧ blank ∈ (h₀.applyAll ops).blanks ∧
      (h₀.applyAll ops).chainedAt blank = none ∧
      (∀ c, l.source? = some c → c ∈ (h₀.applyAll ops).held) ∧
      l.requests (h₀.applyAll ops) =
        [.write blank payload, .dropBlank blank] ++ l.source?.toList.map .release ∧
      (Hub.released ms ++ l.source?.toList).map some =
        l.inTurn.map (fun s => (h₀.departed s ops).getLast?) ∧
      (h₀.publishedBy l.publisher ops).length = l.rounds := by
  cases l with
  | relay l =>
    rw [advance_relay] at step
    have turn := l.advance_turn (h₀.applyAll ops)
    rw [Progress.map_eq_faulted step] at turn
    generalize asked : l.requests (h₀.applyAll ops) = requests at turn
    obtain ⟨⟨linked, prepared⟩, bare, nothing⟩ := o
    cases turn with
    | overruns phase =>
      obtain ⟨blank, filling⟩ := calling
      cases phase.symm.trans filling
    | @faults blank old payload _ phase =>
      rw [phase] at prepared
      refine ⟨blank, payload, congrArg RelayPhase.blank? phase, prepared, bare blank phase,
        fun _ => nofun, asked, ?_, linked.count⟩
      rw [nothing]
      rfl
  | aggregator l =>
    rw [advance_aggregator] at step
    have turn := l.advance_turn (h₀.applyAll ops)
    rw [Progress.map_eq_faulted step] at turn
    generalize outcome : Progress.faulted h' fault = progress,
      asked : l.requests (h₀.applyAll ops) = requests at turn
    have inHand := fun c => AggregatorLoop.Ongoing.inHand (c := c) o
    obtain ⟨-, -, -, -, stands⟩ := o
    cases turn with
    | @faults source blank v old payload _ phase =>
      rw [phase] at stands
      obtain ⟨count, drawn, owned, bare⟩ := stands
      have mine : (aggregator l).source? = some source := congrArg AggregatorPhase.source? phase
      refine ⟨blank, payload, congrArg AggregatorPhase.blank? phase, owned, bare, inHand, ?_, ?_, count⟩
      · rw [mine]
        exact asked
      · rw [mine, inTurn, List.map_append, List.map_append, drawn.gates, List.map_singleton, drawn.last]
        rfl
    | @takes cells g =>
      rcases l.take_goes g cells with ⟨g, source, goes⟩ | ⟨g, reason, goes⟩
      · exact nomatch outcome.trans goes
      · exact nomatch outcome.trans goes
    | _ => exact nomatch outcome

end Ongoing

theorem Woven.ongoing (run : Woven l₀ h₀ ops ms rest l h) (first : l₀.Ongoing h₀ [] []) :
    h = h₀.applyAll ops ∧ l.Ongoing h₀ ops ms ∧ h.Entrusts (l.belongings ++ rest) := by
  induction run with
  | start => exact ⟨rfl, first, Hub.entrusts_besides first.has.1 first.has.2⟩
  | own run step ih =>
    obtain ⟨rfl, o, entrusts⟩ := ih
    have stepped := advance_entrusts entrusts
    rw [step] at stepped
    exact ⟨o.hub (by rw [step]; rfl), o.own step, stepped⟩
  | other run op spares ih =>
    obtain ⟨rfl, o, entrusts⟩ := ih
    have next := o.other spares
    rw [← Hub.applyAll_snoc]
    exact ⟨rfl, next, entrusts.carried next.has.1 next.has.2⟩

/-! ## The way out -/

/-- What is left of a loop that faulted, after a run and what was asked to close it. -/
structure Unwound (l : Loop) (h₀ : Hub) (ops : List Operation) (ms : List Move) (rest : Belongings)
    (asked : List Operation) : Prop where
  blank : ∃ b, l.blank? = some b ∧ (∀ p, .publish p b ∉ asked) ∧
    ((h₀.applyAll ops).trace asked).count (.returned b) = 1 ∧
    (h₀.applyAll (ops ++ asked)).InState b .free
  /-- Released since the round began, in order: the copy that each source gave for the round, and
  what was still queued on the sources. -/
  copies : (Hub.released (ms ++ (h₀.applyAll ops).trace asked)).map some =
    l.inTurn.map (fun s => (h₀.departed s ops).getLast?) ++
      (l.sources.flatMap (h₀.applyAll ops).queueOf).map some
  sources : ∀ s ∈ l.sources, (h₀.applyAll (ops ++ asked)).subscriptions.contains s = false ∧
    ∀ p, s ∉ (h₀.applyAll (ops ++ asked)).receivers p
  publisher : (h₀.applyAll (ops ++ asked)).publishers.contains l.publisher = false
  published : ∀ more, h₀.publishedBy l.publisher (ops ++ asked ++ more) =
    h₀.publishedBy l.publisher ops ∧ (h₀.publishedBy l.publisher ops).length = l.rounds
  subscribers : ∀ first last more s sub, ops = first ++ last →
    (h₀.applyAll first).subscriptions.get? s = some sub → sub.publisher = some l.publisher →
    s ∉ l.sources → .dropSubscription s ∉ last ++ more →
    (h₀.applyAll first).departed s (last ++ asked ++ more) ++
        (h₀.applyAll (ops ++ asked ++ more)).queueOf s =
      sub.queue ++ ((h₀.applyAll first).publishedBy l.publisher last).map (·.copy sub.erased) ∧
    ((h₀.applyAll (ops ++ asked ++ more)).pull s).1 =
      match (h₀.applyAll (ops ++ asked ++ more)).queueOf s with
      | [] => .gone
      | c :: _ => .ready c
  custody : (h₀.applyAll (ops ++ asked)).Entrusts rest
  /-- From then on a pool is full exactly when nobody has anything that keeps a slot of it. -/
  full : ∀ more id p, (h₀.applyAll (ops ++ asked ++ more)).pools.get? id = some p →
    (p.stats.available = p.stats.capacity ↔
      ∀ r, r.pool = id → ¬ (h₀.applyAll (ops ++ asked ++ more)).Rooted r)
  surrendered : ∀ more f, f = h₀.applyAll (ops ++ asked ++ more) →
    (∀ r, (f.slot? r).isSome → (f.applyAll f.surrender).InState r .free) ∧
      ∀ id p, (f.applyAll f.surrender).pools.get? id = some p →
        p.stats.available = p.stats.capacity

theorem closing_letsGo (l : Loop) : ∀ op ∈ l.closing, op.LetsGo := by
  intro op hop
  rcases closing_cases hop with rfl | ⟨s, -, rfl⟩ <;> trivial

theorem released_closing (once : l.sources.Nodup) (inHand : ∀ c, l.source? = some c → c ∈ h.held)
    (counters : Counters) (log : List Record) :
    Hub.released (h.trace (l.source?.toList.map .release ++ (l.closing ++ [.tally counters log]))) =
      l.source?.toList ++ l.sources.flatMap h.queueOf := by
  have closed : ∀ g : Hub, Hub.released (g.trace (l.closing ++ [.tally counters log])) =
      l.sources.flatMap g.queueOf := by
    intro g
    rw [closing_eq, List.cons_append, Hub.released_trace_cons, Hub.released_trace_append,
      Hub.released_dropSubscriptions once]
    refine (List.append_nil _).trans (List.flatMap_congr fun s _ => ?_)
    exact Hub.queueOf_dropPublisher g l.publisher s
  cases mine : l.source? with
  | none => exact closed h
  | some c =>
    change Hub.released (h.trace (.release c :: (l.closing ++ [.tally counters log]))) = _
    rw [Hub.released_trace_cons, Hub.handsBack, if_pos (inHand c mine), closed]
    refine congrArg (c :: ·) (List.flatMap_congr fun s _ => ?_)
    exact Hub.queueOf_letsGo trivial (by simp)

/-- On the way out nothing is asked but to let go, once the blank was written and dropped. -/
structure WayOut (l : Loop) (h : Hub) (blank : SlotRef) (payload : Payload) (late : List Operation) :
    Prop where
  mine : l.blank? = some blank
  owned : blank ∈ h.blanks
  bare : h.chainedAt blank = none
  lets : ∀ op ∈ late, op.LetsGo
  torn : .dropPublisher l.publisher ∈ late
  dropped : ∀ s, .dropSubscription s ∈ late ↔ s ∈ l.sources
  released : Hub.released (h.trace (.write blank payload :: .dropBlank blank :: late)) =
    l.source?.toList ++ l.sources.flatMap h.queueOf

theorem Ongoing.wayOut {fault : Fault} (o : l.Ongoing h₀ ops ms) (calling : l.Calling)
    (step : l.advance (h₀.applyAll ops) = .faulted h' fault) (counters : Counters)
    (log : List Record) : ∃ blank payload late,
      l.requests (h₀.applyAll ops) ++ (l.closing ++ [.tally counters log]) =
        .write blank payload :: .dropBlank blank :: late ∧
      l.WayOut (h₀.applyAll ops) blank payload late := by
  obtain ⟨blank, payload, mine, owned, bare, inHand, asked, -⟩ := o.faults calling step
  generalize h₀.applyAll ops = h at owned bare inHand asked ⊢
  refine ⟨blank, payload, _, by rw [asked]; rfl, mine, owned, bare, fun op hop => ?_, ?_,
    fun s => ?_, ?_⟩
  · rcases List.mem_append.1 hop with hop | hop
    · obtain ⟨c, -, rfl⟩ := List.mem_map.1 hop
      trivial
    rcases List.mem_append.1 hop with hop | hop
    · exact l.closing_letsGo op hop
    · obtain rfl := List.mem_singleton.1 hop
      trivial
  · rw [closing_eq]
    simp
  · rw [closing_eq]
    simp
  · have still : ∀ c, l.source? = some c →
        c ∈ ((h.apply (.write blank payload)).apply (.dropBlank blank)).held := fun c hc =>
      Hub.held_apply (Hub.held_apply (inHand c hc) False.elim) False.elim
    have written : Hub.SameLinks h (h.apply (.write blank payload)) := .apply h trivial
    have links : Hub.SameLinks h ((h.apply (.write blank payload)).apply (.dropBlank blank)) :=
      written.trans (.apply _ trivial)
    rw [Hub.released_trace_cons, Hub.released_trace_cons]
    refine (released_closing o.once still counters log).trans ?_
    refine congrArg (l.source?.toList ++ ·) (List.flatMap_congr fun s _ => ?_)
    rw [Hub.queueOf, links.subscriptions, ← Hub.queueOf]

theorem Ongoing.custody {fault : Fault} (o : l.Ongoing h₀ ops ms)
    (entrusts : (h₀.applyAll ops).Entrusts (l.belongings ++ rest))
    (step : l.advance (h₀.applyAll ops) = .faulted h' fault) (counters : Counters)
    (log : List Record) :
    (h₀.applyAll (ops ++ (l.requests (h₀.applyAll ops) ++
      (l.closing ++ [.tally counters log])))).Entrusts rest := by
  have after : h' = h₀.applyAll (ops ++ l.requests (h₀.applyAll ops)) := o.hub (by rw [step]; rfl)
  have stepped := advance_entrusts entrusts
  rw [step, after] at stepped
  have closed := closing_entrusts stepped
  rw [← List.append_assoc, ← List.append_assoc, Hub.applyAll_append,
    Hub.applyAll_append (b := l.closing)]
  exact closed.same ⟨rfl, rfl, fun _ => rfl, fun _ => rfl⟩

theorem WayOut.quiet {blank : SlotRef} {payload : Payload} {late : List Operation}
    (way : l.WayOut h blank payload late) :
    ∀ op ∈ Operation.write blank payload :: .dropBlank blank :: late, ∀ p b, op ≠ .publish p b := by
  rintro _ hop p b rfl
  have late : Operation.publish p b ∈ late := by simpa using hop
  exact way.lets _ late

theorem Ongoing.unwound {fault : Fault} (o : l.Ongoing h₀ ops ms) (calling : l.Calling)
    (descends : h₀.Descends)
    (entrusts : (h₀.applyAll ops).Entrusts (l.belongings ++ rest))
    (step : l.advance (h₀.applyAll ops) = .faulted h' fault) (counters : Counters)
    (log : List Record) :
    l.Unwound h₀ ops ms rest
      (l.requests (h₀.applyAll ops) ++ (l.closing ++ [.tally counters log])) := by
  have custody := o.custody entrusts step counters log
  obtain ⟨-, -, -, -, -, -, -, drawn, count⟩ := o.faults calling step
  obtain ⟨blank, payload, late, asked, way⟩ := o.wayOut calling step counters log
  rw [asked] at custody ⊢
  have sound := o.sound
  have soundly := sound.applyAll ops
  have torn : Operation.dropPublisher l.publisher ∈ .write blank payload :: .dropBlank blank :: late :=
    List.mem_cons_of_mem _ (List.mem_cons_of_mem _ way.torn)
  have dead : ((h₀.applyAll ops).applyAll
      (.write blank payload :: .dropBlank blank :: late)).publishers.contains l.publisher = false :=
    Bool.eq_false_iff.2 fun alive => (Hub.alive_applyAll o.alive).1 alive torn
  obtain ⟨P, hP⟩ := Option.isSome_iff_exists.1 o.alive
  constructor
  case custody => exact custody
  case blank =>
    have owned : blank ∈ ((h₀.applyAll ops).apply (.write blank payload)).blanks :=
      Hub.blanks_apply way.owned (fun _ => by simp) (by simp)
    have bare : ((h₀.applyAll ops).apply (.write blank payload)).chainedAt blank = none := by
      rw [Hub.chainedAt_blank soundly way.owned owned fun _ => by simp]
      exact way.bare
    rw [Hub.applyAll_append]
    exact ⟨blank, way.mine, fun p hop => way.quiet _ hop p blank rfl,
      Hub.returned_once (soundly.apply _) owned bare way.lets⟩
  case copies =>
    rw [Hub.released_append, way.released, ← List.append_assoc, List.map_append, drawn]
  case sources =>
    intro s hs
    have gone : (h₀.applyAll (ops ++
        .write blank payload :: .dropBlank blank :: late)).subscriptions.get? s = none := by
      rw [Hub.applyAll_append, Hub.applyAll_cons, Hub.applyAll_cons]
      exact Hub.gone_of_dropped way.lets ((way.dropped s).2 hs)
    refine ⟨by rw [Table.contains, gone]; rfl, fun p hp => ?_⟩
    rw [Hub.mem_receivers (sound.applyAll _).enrolled, Hub.publisherOf?, gone] at hp
    cases hp
  case publisher =>
    rw [Hub.applyAll_append]
    exact dead
  case published =>
    intro more
    refine ⟨?_, count⟩
    rw [List.append_assoc, Hub.publishedBy_append, Hub.publishedBy_dead (Table.get?_lt hP) dead]
    have nothing : (h₀.applyAll ops).publishedBy l.publisher
        ([] ++ .write blank payload :: .dropBlank blank :: late) = [] :=
      Hub.publishedBy_quiet_all fun op hop b => way.quiet op hop l.publisher b
    exact (congrArg _ nothing).trans (List.append_nil _)
  case subscribers =>
    rintro first last more s sub rfl found named others kept
    have spared : .dropSubscription s ∉
        last ++ .write blank payload :: .dropBlank blank :: late ++ more := by
      have mine : .dropSubscription s ∉ late := fun hm => others ((way.dropped s).1 hm)
      simpa [mine] using kept
    have dead' : ((h₀.applyAll first).applyAll
        (last ++ .write blank payload :: .dropBlank blank :: late)).publishers.contains l.publisher
          = false := by
      rw [Hub.applyAll_append, ← Hub.applyAll_append h₀]
      exact dead
    have drains := Hub.drains (sound.applyAll first) found named dead' spared
    rw [Hub.publishedBy_quiet_all fun op hop blank => way.quiet op hop l.publisher blank,
      ← Hub.applyAll_append, ← List.append_assoc, ← List.append_assoc] at drains
    exact drains
  case full =>
    exact fun more id p hp => Hub.full_iff (sound.applyAll _) (descends.applyAll sound _) hp
  case surrendered =>
    rintro more f rfl
    exact Hub.full_surrendered (sound.applyAll _) (descends.applyAll sound _)

end Loop

/-! ## In a network -/

namespace Network

variable {n n' m : Network} {i stage : Nat} {s : Stage} {a : Action} {actions : List Action}

/-- A relay, an aggregator or a sink was made. What it joins are different subscriptions that were
there before. -/
inductive Makes (n : Network) (stage : Nat) (n' : Network) : Prop
  | relay {name : String} {capacity : Nat} {factory : Payload.Factory} {fill : Filler}
      (made : n.newRelay name capacity factory fill = .ok (stage, n'))
  | joining {primary : Nat} {gates : List Nat} {transform : Transform}
      (built : n.Builds primary gates transform stage n') (once : (primary :: gates).Nodup)
      (present : ∀ s ∈ primary :: gates, n.hub.subscriptions.contains s)

theorem Makes.ongoing (made : n.Makes stage n') (reached : n.hub.Reachable)
    (found : n'.stages.get? stage = some s) : n'.hub.Reachable ∧ s.loop.Ongoing n'.hub [] [] := by
  have opened : ∀ (P : Publisher), (n.hub.publishers.insert P).2.contains n.hub.publishers.next := by
    intro P
    rw [Table.contains, Table.get?_insert, if_pos rfl]
    rfl
  cases made with
  | @relay name _ _ _ made =>
    obtain ⟨pool, log, fresh, rfl, rfl⟩ := newRelay_eq_ok made
    rw [Table.get?_insert, if_pos rfl] at found
    obtain rfl := Option.some.inj found
    have reached' : (n.hub.furnish name pool log).Reachable := by
      rw [Hub.furnish_eq fresh]
      exact reached.applyAll _
    exact ⟨reached', RelayLoop.Ongoing.start reached'.sound (opened _) rfl rfl⟩
  | joining built once present =>
    obtain ⟨name, capacity, factory, pool, log, fresh, rfl, rfl⟩ := built.eq
    rw [Table.get?_insert, if_pos rfl] at found
    obtain rfl := Option.some.inj found
    have reached' : (n.hub.equip name pool log).Reachable := by
      rw [Hub.equip_eq fresh]
      exact reached.applyAll _
    have mailbox : (n.hub.equip name pool log).failedAt? n.hub.mailboxes.next = some false := by
      rw [Hub.failedAt?]
      change ((n.hub.mailboxes.insert _).2.get? n.hub.mailboxes.next).map _ = some false
      rw [Table.get?_insert, if_pos rfl]
      rfl
    exact ⟨reached', AggregatorLoop.Ongoing.start reached'.sound once present (opened _)
      ⟨false, mailbox⟩ rfl rfl⟩

/-! ### Who waits for the stage -/

def Action.Handles (stage : Nat) : Action → Prop
  | start i | join i | dropStage i => i = stage
  | _ => False

theorem get?_insert_of_get? {t : Stage} (found : n.stages.get? i = some s) :
    (n.stages.insert t).2.get? i = some s := by
  rw [Table.get?_insert, if_neg (Nat.ne_of_lt (Table.get?_lt found))]
  exact found

theorem get?_act_advance (found : n.stages.get? i = some s) (ended : s.thread ≠ .running) (j : Nat) :
    (n.act (.advance j)).stages.get? i = some s := by
  rw [act]
  by_cases hj : j = i
  · subst hj
    have idle : n.running? j = none := by
      refine Option.eq_none_iff_forall_ne_some.2 fun t runs => ?_
      obtain ⟨here, thread⟩ := running?_eq_some.1 runs
      obtain rfl := Option.some.inj (found.symm.trans here)
      exact ended thread
    rw [advanceStage?_eq_none idle]
    exact found
  · cases step : n.advanceStage? j with
    | none => exact found
    | some n' => exact (advanceStage?_other (Ne.symm hj) step).trans found

theorem get?_act (found : n.stages.get? i = some s) (ended : s.thread ≠ .running)
    (others : ¬ a.Handles i) : (n.act a).stages.get? i = some s := by
  cases a with
  | hub op => exact found
  | newRelay name capacity factory fill =>
    rw [act]
    split
    · exact found
    · rename_i made
      obtain ⟨pool, log, -, -, rfl⟩ := newRelay_eq_ok made
      exact get?_insert_of_get? found
  | newAggregator name capacity factory primary gates transform =>
    rw [act]
    rcases made : n.newAggregator name capacity factory primary gates transform with ⟨_ | _, n'⟩
    · obtain rfl := newAggregator_refused made
      exact found
    · obtain ⟨pool, log, -, -, rfl⟩ := newAggregator_eq_ok made
      exact get?_insert_of_get? found
  | newSink name description buffers source dependents collect =>
    rw [act]
    rcases made : n.newSink name description buffers source dependents collect with ⟨_ | _, n'⟩
    · obtain ⟨log, rfl⟩ := newSink_refused made
      exact found
    · obtain ⟨pool, log, -, -, rfl⟩ := newSink_eq_ok made
      exact get?_insert_of_get? found
  | subscribe j erased => exact found
  | start j => exact (start_other (Ne.symm others) n).trans found
  | join j => exact (join_other (Ne.symm others) n).trans found
  | dropStage j =>
    rw [act]
    split
    · exact found
    · exact (dropStage_other (Ne.symm others) n).trans found
  | advance j => exact get?_act_advance found ended j

theorem join_faulted {fault : Fault} (found : n.stages.get? i = some s)
    (faulted : s.thread = .faulted fault) (others : ∀ a ∈ actions, ¬ a.Handles i) :
    ((n.actAll actions).join i).1 = .faulted fault := by
  induction actions generalizing n with
  | nil =>
    change (n.join i).1 = .faulted fault
    simp only [join, found, faulted]
  | cons a actions ih =>
    refine ih (get?_act found ?_ (others a List.mem_cons_self)) fun b hb =>
      others b (List.mem_cons_of_mem _ hb)
    simp [faulted]

/-- A relay, an aggregator or a sink whose function faults, in any round: that step drops the blank,
releases the copies of the round, closes the loop and publishes nothing, and joining the stage gives
the fault. -/
theorem unwinds {n n' m : Network} {stage : Nat} {made now : Stage} {ops : List Operation}
    {ms : List Move} {rest : Belongings} {g : Hub} {fault : Fault} (reached : n.hub.Reachable)
    (makes : n.Makes stage n') (found : n'.stages.get? stage = some made)
    (run : Loop.Woven made.loop n'.hub ops ms rest now.loop m.hub)
    (here : m.stages.get? stage = some now) (runs : now.thread = .running)
    (calling : now.loop.Calling) (step : now.loop.advance m.hub = .faulted g fault) :
    ∃ asked m', m.advanceStage? stage = some m' ∧ m'.hub = n'.hub.applyAll (ops ++ asked) ∧
      now.loop.Unwound n'.hub ops ms rest asked ∧
      ∀ actions : List Action, (∀ a ∈ actions, ¬ a.Handles stage) →
        ((m'.actAll actions).join stage).1 = .faulted fault := by
  obtain ⟨reached', first⟩ := makes.ongoing reached found
  obtain ⟨hub, o, entrusts⟩ := run.ongoing first
  have unwound := o.unwound calling reached'.descends (hub ▸ entrusts) (hub ▸ step)
    (now.loop.close g).counters m.hub.log
  have after : g = n'.hub.applyAll (ops ++ now.loop.requests (n'.hub.applyAll ops)) :=
    o.hub (by rw [← hub, step]; rfl)
  let m' := (m.onThread (now.loop.close g)).modifyStage stage ({ · with thread := .faulted fault })
  have stepped : m.advanceStage? stage = some m' := by
    simp only [advanceStage?, here, runs, step]
    rfl
  have faulted : m'.stages.get? stage = some { now with thread := .faulted fault } := by
    change (m.stages.modify stage _).get? stage = _
    rw [Table.get?_modify, if_pos rfl, here]
    rfl
  refine ⟨_, m', stepped, ?_, unwound, fun actions others => join_faulted faulted rfl others⟩
  change { now.loop.close g with log := m.hub.log } = _
  rw [← List.append_assoc, ← List.append_assoc, Hub.applyAll_snoc, Hub.applyAll_append, ← after,
    ← Loop.close_hub]
  rfl

/-- Two frames of a camera and an open signal of a door, all queued, and an aggregator whose
transform faults. -/
def doorstep : Network :=
  ⟨({} : Hub).applyAll [.newPool "frames" 2 Payload.Shape.signal.factory,
    .newPublisher "camera" 0, .newPool "signals" 1 Payload.Shape.signal.factory,
    .newPublisher "door" 1, .subscribe 0 false, .subscribe 1 false, .acquire 0, .publish 0 ⟨0, 0⟩,
    .acquire 0, .publish 0 ⟨0, 1⟩, .acquire 1, .write ⟨1, 0⟩ (.signal ⟨true⟩), .publish 1 ⟨1, 0⟩], {}⟩

def failing : Transform := fun _ v _ => ⟨v, some (.raised "broken")⟩

/-- The guard has a listener, and faults in its first round with a frame left in its queue. -/
theorem unwinds_listened : ∃ (n' m m' : Network) (ops asked : List Operation) (ms : List Move),
    doorstep.Makes 0 n' ∧ m.advanceStage? 0 = some m' ∧
    (Hub.released (ms ++ (n'.hub.applyAll ops).trace asked)).map some =
      [some ⟨⟨1, 0⟩, 2, false⟩, some ⟨⟨0, 0⟩, 0, false⟩, some ⟨⟨0, 1⟩, 1, false⟩] ∧
    (m'.hub.pull 2).1 = .gone ∧ (m'.join 0).1 = .faulted (.raised "broken") := by
  have made : doorstep.Makes 0 _ :=
    .joining (.aggregator (show doorstep.newAggregator "guard" 1 Payload.Shape.signal.factory 0 [1]
        failing = (.ok 0, (doorstep.newAggregator "guard" 1 Payload.Shape.signal.factory 0 [1]
          failing).2) from rfl)) (by decide) (by decide)
  have listens : (Loop.aggregator (doorstep.nextLoop 0 [1] failing)).Spares
      (doorstep.newAggregator "guard" 1 Payload.Shape.signal.factory 0 [1] failing).2.hub
        (.subscribe 2 false) :=
    ⟨⟨⟨⟨fun _ _ => id, fun _ => nofun, fun _ _ => ⟨nofun, nofun⟩⟩, nofun, fun _ => nofun⟩,
      fun _ => nofun, fun _ => nofun⟩, fun _ _ => nofun⟩
  have run := Loop.Woven.own (.own (.own (.own (.own (.other .start (.subscribe 2 false) listens) rfl)
    rfl) rfl) rfl) rfl
  obtain ⟨asked, m', stepped, hub, unwound, joined⟩ :=
    @unwinds doorstep _ ⟨_, (({} : Table Stage).insert ⟨"guard", 2, _, .running, .running⟩).2⟩ 0 _
      ⟨"guard", 2, _, .running, .running⟩ _ _ _ _ _ ⟨_, rfl⟩ made rfl run rfl rfl ⟨_, _, rfl⟩ rfl
  refine ⟨_, _, m', _, asked, _, made, stepped, unwound.copies.trans ?_, ?_,
    joined [] (fun _ => nofun)⟩
  · decide +kernel
  · obtain ⟨order, pulled⟩ := unwound.subscribers _ [] [] 2 ⟨false, some 2, [], none⟩
      (List.append_nil _).symm rfl rfl (by decide) List.not_mem_nil
    rw [(List.append_eq_nil_iff.1 order).2] at pulled
    rw [hub, ← List.append_nil (_ ++ asked)]
    exact pulled

end Network

end BufferFlow
