import BufferFlow.Proofs.Building
import BufferFlow.Proofs.Hub.Audiences
import BufferFlow.Proofs.Hub.Extents
import BufferFlow.Proofs.Hub.Turnover
import BufferFlow.Proofs.Stage.Unwinding

set_option autoImplicit false

/-! # A relay from its first round to its last

A relay that fills by the step alone publishes the fillings of its steps, one after the other, as long
as somebody listens. Nobody else takes blanks from its pool, so it is never further ahead of what came
back than the pool has slots. -/

namespace BufferFlow

/-- What the filler leaves in a buffer that fits depends on the step alone, and fits again. -/
structure Filler.Oblivious (fill : Filler) (fits : Payload → Prop) (written : Nat → Written) :
    Prop where
  same : ∀ step old, fits old → fill step old = written step
  fits : ∀ step, fits (written step).payload

namespace RelayPhase

def calls : RelayPhase → Nat
  | publishing _ => 1
  | acquiring | filling _ => 0

def taken (phase : RelayPhase) : Nat := phase.blank?.toList.length

end RelayPhase

namespace RelayLoop

def called? (l : RelayLoop) (h : Hub) : Option Nat :=
  match l.phase with
  | .filling blank => (h.payload? blank).map fun _ => l.step.toNat
  | _ => none

/-- What has become of a relay. -/
inductive Fate
  | going (loop : RelayLoop)
  | ended (reason : Termination)
  | faulted (fault : Fault)

def Fate.Spares : Fate → Operation → Prop
  | going l, op => l.Spares op
  | ended _, _ | faulted _, _ => True

/-- A run of a relay among others, to its end and beyond: all that was asked of the hub, the steps for
which the filler was called, what has become of the relay, and the hub. The pool is the relay's own. -/
inductive Run (l₀ : RelayLoop) (pool : Nat) (h₀ : Hub) :
    List Operation → List Nat → Fate → Hub → Prop
  | start : Run l₀ pool h₀ [] [] (.going l₀) h₀
  | own {ops : List Operation} {calls : List Nat} {l l' : RelayLoop} {h h' : Hub}
      (run : Run l₀ pool h₀ ops calls (.going l) h) (step : l.advance h = .running h' l') :
      Run l₀ pool h₀ (ops ++ l.requests h) (calls ++ (l.called? h).toList) (.going l') h'
  | stopped {ops : List Operation} {calls : List Nat} {l : RelayLoop} {h h' : Hub}
      {reason : Termination} (run : Run l₀ pool h₀ ops calls (.going l) h)
      (step : l.advance h = .stopped h' reason) :
      Run l₀ pool h₀ (ops ++ (l.requests h ++ l.closing)) (calls ++ (l.called? h).toList)
        (.ended reason) (l.close h')
  | faulted {ops : List Operation} {calls : List Nat} {l : RelayLoop} {h h' : Hub} {fault : Fault}
      (run : Run l₀ pool h₀ ops calls (.going l) h) (step : l.advance h = .faulted h' fault) :
      Run l₀ pool h₀ (ops ++ (l.requests h ++ l.closing)) (calls ++ (l.called? h).toList)
        (.faulted fault) (l.close h')
  | other {ops : List Operation} {calls : List Nat} {fate : Fate} {h : Hub}
      (run : Run l₀ pool h₀ ops calls fate h) (op : Operation) (spares : fate.Spares op)
      (apart : op ≠ .acquire pool) :
      Run l₀ pool h₀ (ops ++ [op]) calls fate (h.apply op)

variable {l₀ l l' : RelayLoop} {pool capacity : Nat} {h₀ h h' : Hub} {ops : List Operation}
  {calls : List Nat} {fits : Payload → Prop} {written : Nat → Written} {op : Operation} {fate : Fate}

/-- A relay that was just made, on a pool that nobody has used yet. -/
structure Outset (l₀ : RelayLoop) (pool capacity : Nat) (fits : Payload → Prop)
    (written : Nat → Written) (h₀ : Hub) : Prop where
  reached : h₀.Reachable
  oblivious : l₀.fill.Oblivious fits written
  alive : h₀.publishers.contains l₀.publisher
  named : h₀.poolOf? l₀.publisher = some pool
  sized : h₀.capacityOf? pool = some capacity
  unowned : ∀ b ∈ h₀.blanks, b.pool ≠ pool
  fits : ∀ r v, r.pool = pool → h₀.payload? r = some v → fits v
  unused : ∃ T B, h₀.Ledger T B ∧ (T.map (·.pool)).count pool = 0 ∧ (B.map (·.pool)).count pool = 0
  step : l₀.step = 0
  phase : l₀.phase = .acquiring

/-- What a relay has done so far: it called its filler for one step after the other, and published what
it had written, again one after the other. -/
structure Did (l₀ : RelayLoop) (pool : Nat) (written : Nat → Written) (h₀ : Hub)
    (ops : List Operation) (calls : List Nat) (called published taken : Nat) : Prop where
  called : calls = List.range called
  published : (h₀.publishedBy l₀.publisher ops).map (·.payload) =
    (List.range published).map fun step => (written step).payload
  taken : h₀.takenFrom pool ops = taken

/-- What holds of a relay between its steps. -/
structure Going (l₀ : RelayLoop) (pool : Nat) (fits : Payload → Prop) (written : Nat → Written)
    (h₀ : Hub) (ops : List Operation) (calls : List Nat) (l : RelayLoop) : Prop where
  round : l.InRound h₀ ops
  publisher : l.publisher = l₀.publisher
  fill : l.fill = l₀.fill
  home : ∀ b, l.phase.blank? = some b → b.pool = pool
  sole : ∀ b ∈ (h₀.applyAll ops).blanks, b.pool = pool → l.phase.blank? = some b
  fits : ∀ r v, r.pool = pool → (h₀.applyAll ops).payload? r = some v → fits v
  ready : ∀ b, l.phase = .publishing b →
    (h₀.applyAll ops).payload? b = some (written l.step.toNat).payload
  did : Did l₀ pool written h₀ ops calls (l.step.toNat + l.phase.calls) l.step.toNat
    (l.step.toNat + l.phase.taken)
  heard : 0 ∉ h₀.audiences l₀.publisher ops

theorem Outset.there (o : Outset l₀ pool capacity fits written h₀) (ops : List Operation) :
    (h₀.applyAll ops).pools.contains pool := by
  obtain ⟨p, found, -⟩ := Option.map_eq_some_iff.1 (Hub.capacityOf?_applyAll o.sized ops)
  exact Option.isSome_iff_exists.2 ⟨p, found⟩

/-! ## What others do -/

theorem Did.asks {called called' published taken more : Nat} {calls' : List Nat}
    {asked : List Operation} (did : Did l₀ pool written h₀ ops calls called published taken)
    (quiet : h₀.publishedBy l₀.publisher (ops ++ asked) = h₀.publishedBy l₀.publisher ops)
    (takes : (h₀.applyAll ops).takenFrom pool asked = more) (calling : calls' = List.range called') :
    Did l₀ pool written h₀ (ops ++ asked) calls' called' published (taken + more) :=
  ⟨calling, quiet ▸ did.published, by rw [Hub.takenFrom_append, did.taken, takes]⟩

theorem Did.other {called published taken : Nat}
    (did : Did l₀ pool written h₀ ops calls called published taken)
    (quiet : h₀.publishedBy l₀.publisher (ops ++ [op]) = h₀.publishedBy l₀.publisher ops)
    (apart : op ≠ .acquire pool) : Did l₀ pool written h₀ (ops ++ [op]) calls called published taken :=
  did.asks quiet (Hub.takenFrom_quiet _ fun _ hx => List.mem_singleton.1 hx ▸ apart) did.called

namespace Going

variable (g : Going l₀ pool fits written h₀ ops calls l)

include g

theorem sole_apply (apart : op ≠ .acquire pool) :
    ∀ b ∈ (h₀.applyAll (ops ++ [op])).blanks, b.pool = pool → l.phase.blank? = some b := by
  intro b owned here
  rw [Hub.applyAll_snoc] at owned
  rcases Hub.blanks_apply_cases owned with old | ⟨h', rfl, -⟩
  · exact g.sole b old here
  · exact absurd (congrArg Operation.acquire here) apart

theorem fits_apply (o : Outset l₀ pool capacity fits written h₀)
    (writes : ∀ r v, op = .write r v → l.phase.blank? = some r → fits v) :
    ∀ r v, r.pool = pool → (h₀.applyAll (ops ++ [op])).payload? r = some v → fits v := by
  intro r v here shown
  rw [Hub.applyAll_snoc] at shown
  rcases Hub.payload?_apply_cases (here ▸ o.there ops) shown with old | ⟨written, owned⟩
  · exact g.fits r v here old
  · exact writes r v written (g.sole r owned here)

theorem other (o : Outset l₀ pool capacity fits written h₀) (spares : l.Spares op)
    (apart : op ≠ .acquire pool) : Going l₀ pool fits written h₀ (ops ++ [op]) calls l := by
  have unpublished : ∀ blank, op ≠ .publish l₀.publisher blank := g.publisher ▸ spares.unpublished
  have quiet : h₀.publishedBy l₀.publisher (ops ++ [op]) = h₀.publishedBy l₀.publisher ops :=
    Hub.publishedBy_quiet unpublished
  refine ⟨g.round.other spares, g.publisher, g.fill, g.home, g.sole_apply apart,
    g.fits_apply o fun r v writes mine => absurd writes ((spares.blank r mine).2.1 v),
    fun b publishing => ?_, g.did.other quiet apart, ?_⟩
  · have mine : l.phase.blank? = some b := by rw [publishing]; rfl
    have prepared := g.round.prepared
    rw [publishing] at prepared
    rw [Hub.applyAll_snoc]
    exact AggregatorLoop.payload?_blank g.round.linked.soundly prepared.1 (g.ready b publishing)
      (spares.blank b mine).2.1
  · rw [Hub.audiences_quiet quiet]
    exact g.heard

/-! ## The relay's own steps -/

theorem acquires (o : Outset l₀ pool capacity fits written h₀) {blank : SlotRef} {q : Nat}
    (phase : l.phase = .acquiring) (named : (h₀.applyAll ops).poolOf? l.publisher = some q)
    (taken : (h₀.applyAll ops).acquire? q = some (blank, h'))
    (round : InRound { l with phase := .filling blank } h₀ (ops ++ [.acquire q])) :
    Going l₀ pool fits written h₀ (ops ++ [.acquire q]) calls { l with phase := .filling blank } := by
  have alive : (h₀.applyAll ops).publishers.contains l₀.publisher :=
    g.publisher ▸ g.round.linked.alive
  obtain ⟨P, hP⟩ := Option.isSome_iff_exists.1 o.alive
  obtain rfl : pool = q := by
    rw [g.publisher, Hub.poolOf?_applyAll (Table.get?_lt hP) alive, o.named] at named
    exact Option.some.inj named
  obtain ⟨-, -, -, -, here, -⟩ := Hub.acquire?_eq_some taken
  have quiet : h₀.publishedBy l₀.publisher (ops ++ [.acquire pool]) =
      h₀.publishedBy l₀.publisher ops := Hub.publishedBy_quiet fun _ => nofun
  refine ⟨round, g.publisher, g.fill, fun b hb => ?_, fun b owned home => ?_,
    g.fits_apply o fun _ _ => nofun, fun b => nofun, ?_, ?_⟩
  · obtain rfl := Option.some.inj hb
    exact here
  · rw [Hub.applyAll_snoc] at owned
    rcases Hub.blanks_apply_cases owned with old | ⟨h'', -, acquired⟩
    · have nothing := g.sole b old home
      rw [phase] at nothing
      cases nothing
    · rw [home, taken] at acquired
      exact congrArg some (Prod.mk.inj (Option.some.inj acquired)).1
  · have did := g.did
    rw [phase] at did
    exact did.asks quiet (Hub.takenFrom_acquire taken) did.called
  · rw [Hub.audiences_quiet quiet]
    exact g.heard

theorem fills (o : Outset l₀ pool capacity fits written h₀) {blank : SlotRef} {old payload : Payload}
    (phase : l.phase = .filling blank) (shown : (h₀.applyAll ops).payload? blank = some old)
    (filled : l.fill l.step.toNat old = ⟨payload, none⟩)
    (round : InRound { l with phase := .publishing blank } h₀ (ops ++ [.write blank payload])) :
    Going l₀ pool fits written h₀ (ops ++ [.write blank payload]) (calls ++ [l.step.toNat])
      { l with phase := .publishing blank } := by
  have mine : l.phase.blank? = some blank := by rw [phase]; rfl
  have home := g.home blank mine
  have prepared := g.round.prepared
  rw [phase] at prepared
  have by_step : payload = (written l.step.toNat).payload := by
    rw [g.fill, o.oblivious.same l.step.toNat old (g.fits blank old home shown)] at filled
    rw [filled]
  have quiet : h₀.publishedBy l₀.publisher (ops ++ [.write blank payload]) =
      h₀.publishedBy l₀.publisher ops := Hub.publishedBy_quiet fun _ => nofun
  have apart : Operation.write blank payload ≠ .acquire pool := nofun
  have untaken : (h₀.applyAll ops).takenFrom pool [.write blank payload] = 0 :=
    Hub.takenFrom_quiet _ fun x hx => List.mem_singleton.1 hx ▸ apart
  refine ⟨round, g.publisher, g.fill, fun b hb => g.home b (mine.trans hb),
    fun b owned here => mine.symm.trans (g.sole_apply apart b owned here),
    g.fits_apply o fun r v writes _ => ?_, fun b publishing => ?_, ?_, ?_⟩
  · obtain ⟨-, rfl⟩ := Operation.write.inj writes
    exact by_step ▸ o.oblivious.fits l.step.toNat
  · obtain rfl := RelayPhase.publishing.inj publishing
    rw [Hub.applyAll_snoc, Hub.payload?_write g.round.linked.soundly.accounted prepared, by_step]
  · have did := g.did
    rw [phase] at did
    refine did.asks quiet untaken ?_
    rw [did.called]
    exact List.range_succ.symm
  · rw [Hub.audiences_quiet quiet]
    exact g.heard

theorem publication {blank : SlotRef} (phase : l.phase = .publishing blank) :
    Did l₀ pool written h₀ (ops ++ [.publish l₀.publisher blank]) calls (l.step.toNat + 1)
        (l.step.toNat + 1) (l.step.toNat + 1) ∧
      h₀.audiences l₀.publisher (ops ++ [.publish l₀.publisher blank]) =
        h₀.audiences l₀.publisher ops ++ [((h₀.applyAll ops).receivers l₀.publisher).length] := by
  have alive : (h₀.applyAll ops).publishers.contains l₀.publisher :=
    g.publisher ▸ g.round.linked.alive
  have prepared := g.round.prepared
  rw [phase] at prepared
  have shown := g.ready blank phase
  have untaken : (h₀.applyAll ops).takenFrom pool [.publish l₀.publisher blank] = 0 :=
    Hub.takenFrom_quiet _ fun x hx => List.mem_singleton.1 hx ▸ nofun
  refine ⟨⟨?_, ?_, ?_⟩, Hub.audiences_publish alive prepared.1 shown⟩
  · have called := g.did.called
    rwa [phase] at called
  · rw [Hub.publishedBy_publish alive prepared.1 shown, List.map_append, g.did.published,
      List.range_succ, List.map_append]
    rfl
  · rw [Hub.takenFrom_append, untaken, g.did.taken, phase]
    rfl

theorem publishes (o : Outset l₀ pool capacity fits written h₀) {blank : SlotRef} {step : UInt64}
    (phase : l.phase = .publishing blank) (next : Checked.add l.step 1 = .ok step)
    (heard : ((h₀.applyAll ops).publish l.publisher blank).1 ≠ 0)
    (round : InRound { l with step, phase := .acquiring } h₀
      (ops ++ [.publish l.publisher blank])) :
    Going l₀ pool fits written h₀ (ops ++ [.publish l.publisher blank]) calls
      { l with step, phase := .acquiring } := by
  have mine : l.phase.blank? = some blank := by rw [phase]; rfl
  have prepared := g.round.prepared
  rw [phase] at prepared
  obtain ⟨did, audience⟩ := g.publication phase
  rw [← Checked.add_one_eq_ok.1 next] at did
  have apart : Operation.publish l.publisher blank ≠ .acquire pool := nofun
  rw [AggregatorLoop.fanOut_eq prepared.1, g.publisher] at heard
  refine ⟨round, g.publisher, g.fill, fun b => nofun, fun b owned here => ?_,
    g.fits_apply o fun _ _ => nofun, fun b => nofun, g.publisher ▸ did, ?_⟩
  · obtain rfl := Option.some.inj (mine.symm.trans (g.sole_apply apart b owned here))
    rw [Hub.applyAll_snoc] at owned
    exact absurd owned (Hub.spent_publish g.round.linked.soundly.accounted l.publisher blank)
  · rw [g.publisher, audience, List.mem_append, List.mem_singleton]
    exact fun silent => silent.elim g.heard heard.symm

theorem own (o : Outset l₀ pool capacity fits written h₀)
    (step : l.advance (h₀.applyAll ops) = .running h' l') :
    Going l₀ pool fits written h₀ (ops ++ l.requests (h₀.applyAll ops))
      (calls ++ (l.called? (h₀.applyAll ops)).toList) l' := by
  have round := (g.round.own step).1
  have turn := l.advance_turn (h₀.applyAll ops)
  rw [step] at turn
  rw [called?]
  generalize l.requests (h₀.applyAll ops) = asked at turn round ⊢
  cases turn with
  | @acquires blank q _ phase named taken =>
    rw [phase]
    exact (List.append_nil calls).symm ▸ g.acquires o phase named taken round
  | @fills blank old payload phase shown filled =>
    rw [phase]
    dsimp only
    rw [shown]
    exact g.fills o phase shown filled round
  | publishes phase next heard =>
    rw [phase]
    exact (List.append_nil calls).symm ▸ g.publishes o phase next heard round

end Going

/-! ## The end -/

structure Ended (l₀ : RelayLoop) (pool : Nat) (written : Nat → Written) (h₀ : Hub)
    (ops : List Operation) (calls : List Nat) (reason : Termination) (rounds : Nat) : Prop where
  reason : reason = .noListeners
  did : Did l₀ pool written h₀ ops calls rounds rounds rounds
  /-- Only the last round found nobody. -/
  audiences : ∃ before, h₀.audiences l₀.publisher ops = before ++ [0] ∧ 0 ∉ before
  last : ∃ first blank later,
    ops = first ++ .publish l₀.publisher blank :: .dropPublisher l₀.publisher :: later ∧
    .returned blank ∈ (h₀.applyAll first).moves (.publish l₀.publisher blank) ∧
    (h₀.applyAll (first ++ [.publish l₀.publisher blank])).InState blank .free
  torn : (h₀.applyAll ops).publishers.contains l₀.publisher = false

structure Failed (l₀ : RelayLoop) (pool : Nat) (written : Nat → Written) (h₀ : Hub)
    (ops : List Operation) (calls : List Nat) (fault : Fault) (rounds : Nat) : Prop where
  fault : (written rounds).fault = some fault
  did : Did l₀ pool written h₀ ops calls (rounds + 1) rounds (rounds + 1)
  heard : 0 ∉ h₀.audiences l₀.publisher ops
  torn : (h₀.applyAll ops).publishers.contains l₀.publisher = false

/-- What is left of a relay that published as many buffers as a count of 64 bits has room for, and
one more. -/
structure Overrun (l₀ : RelayLoop) (pool : Nat) (written : Nat → Written) (h₀ : Hub)
    (ops : List Operation) (calls : List Nat) (fault : Fault) : Prop where
  fault : fault = .addOverflow
  did : Did l₀ pool written h₀ ops calls (2 ^ 64) (2 ^ 64) (2 ^ 64)
  heard : 0 ∉ (h₀.audiences l₀.publisher ops).dropLast
  torn : (h₀.applyAll ops).publishers.contains l₀.publisher = false

theorem Outset.quiet (o : Outset l₀ pool capacity fits written h₀)
    (torn : (h₀.applyAll ops).publishers.contains l₀.publisher = false) (op : Operation) :
    h₀.publishedBy l₀.publisher (ops ++ [op]) = h₀.publishedBy l₀.publisher ops ∧
      (h₀.applyAll (ops ++ [op])).publishers.contains l₀.publisher = false := by
  obtain ⟨P, hP⟩ := Option.isSome_iff_exists.1 o.alive
  have given := Table.get?_lt hP
  rw [Hub.applyAll_snoc]
  exact ⟨Hub.publishedBy_dead given torn, Hub.dead_apply (Hub.next_applyAll given ops) torn op⟩

theorem Ended.other {reason : Termination} {rounds : Nat}
    (e : Ended l₀ pool written h₀ ops calls reason rounds)
    (o : Outset l₀ pool capacity fits written h₀) (apart : op ≠ .acquire pool) :
    Ended l₀ pool written h₀ (ops ++ [op]) calls reason rounds := by
  obtain ⟨quiet, torn⟩ := o.quiet e.torn op
  obtain ⟨first, blank, later, rfl, returned, free⟩ := e.last
  refine ⟨e.reason, e.did.other quiet apart, ?_, ⟨first, blank, later ++ [op], ?_, returned, free⟩,
    torn⟩
  · rw [Hub.audiences_quiet quiet]
    exact e.audiences
  · rw [List.append_assoc]
    rfl

theorem Failed.other {fault : Fault} {rounds : Nat}
    (f : Failed l₀ pool written h₀ ops calls fault rounds)
    (o : Outset l₀ pool capacity fits written h₀) (apart : op ≠ .acquire pool) :
    Failed l₀ pool written h₀ (ops ++ [op]) calls fault rounds := by
  obtain ⟨quiet, torn⟩ := o.quiet f.torn op
  refine ⟨f.fault, f.did.other quiet apart, ?_, torn⟩
  rw [Hub.audiences_quiet quiet]
  exact f.heard

theorem Overrun.other {fault : Fault} (v : Overrun l₀ pool written h₀ ops calls fault)
    (o : Outset l₀ pool capacity fits written h₀) (apart : op ≠ .acquire pool) :
    Overrun l₀ pool written h₀ (ops ++ [op]) calls fault := by
  obtain ⟨quiet, torn⟩ := o.quiet v.torn op
  refine ⟨v.fault, v.did.other quiet apart, ?_, torn⟩
  rw [Hub.audiences_quiet quiet]
  exact v.heard

theorem torn_dropPublisher (p : Nat) :
    (h₀.applyAll (ops ++ [.dropPublisher p])).publishers.contains p = false := by
  rw [Hub.applyAll_snoc]
  exact Hub.dead_dropPublisher _ p

theorem Going.ended (g : Going l₀ pool fits written h₀ ops calls l) {reason : Termination}
    (step : l.advance (h₀.applyAll ops) = .stopped h' reason) :
    Ended l₀ pool written h₀ (ops ++ (l.requests (h₀.applyAll ops) ++ l.closing))
      (calls ++ (l.called? (h₀.applyAll ops)).toList) reason (l.step.toNat + 1) := by
  have turn := l.advance_turn (h₀.applyAll ops)
  have prepared := g.round.prepared
  rw [step] at turn
  rw [called?, closing, g.publisher]
  generalize l.requests (h₀.applyAll ops) = asked at turn ⊢
  cases turn with
  | @unheard blank _ phase _ unheard =>
    rw [phase] at prepared
    rw [g.publisher, AggregatorLoop.fanOut_eq prepared.1] at unheard
    have nobody := List.length_eq_zero_iff.1 unheard
    have sound := g.round.linked.soundly
    obtain ⟨returned, free⟩ := Hub.returned_unheard sound prepared.1 nobody
    obtain ⟨did, audience⟩ := g.publication phase
    have quiet : h₀.publishedBy l₀.publisher
        (ops ++ [.publish l₀.publisher blank] ++ [.dropPublisher l₀.publisher]) =
          h₀.publishedBy l₀.publisher (ops ++ [.publish l₀.publisher blank]) :=
      Hub.publishedBy_quiet fun _ => nofun
    rw [phase, g.publisher, ← List.append_assoc]
    dsimp only
    rw [Option.toList_none, List.append_nil]
    refine ⟨rfl, did.other quiet nofun, ⟨_, ?_, g.heard⟩, ⟨ops, blank, [], ?_, returned, ?_⟩,
      torn_dropPublisher l₀.publisher⟩
    · rw [Hub.audiences_quiet quiet, audience, unheard]
    · rw [List.append_assoc]
      rfl
    · rw [Hub.applyAll_snoc]
      exact free

theorem Going.faulted (g : Going l₀ pool fits written h₀ ops calls l)
    (o : Outset l₀ pool capacity fits written h₀) {fault : Fault}
    (step : l.advance (h₀.applyAll ops) = .faulted h' fault) :
    Failed l₀ pool written h₀ (ops ++ (l.requests (h₀.applyAll ops) ++ l.closing))
        (calls ++ (l.called? (h₀.applyAll ops)).toList) fault l.step.toNat ∨
      Overrun l₀ pool written h₀ (ops ++ (l.requests (h₀.applyAll ops) ++ l.closing))
        (calls ++ (l.called? (h₀.applyAll ops)).toList) fault := by
  have turn := l.advance_turn (h₀.applyAll ops)
  rw [step] at turn
  rw [called?, closing, g.publisher]
  generalize l.requests (h₀.applyAll ops) = asked at turn ⊢
  cases turn with
  | @faults blank old payload _ phase shown filled =>
    have mine : l.phase.blank? = some blank := by rw [phase]; rfl
    rw [g.fill, o.oblivious.same l.step.toNat old (g.fits blank old (g.home blank mine) shown)]
      at filled
    have late : ∀ op ∈ [Operation.write blank payload, .dropBlank blank] ++
        [.dropPublisher l₀.publisher], (∀ b, op ≠ .publish l₀.publisher b) ∧ op ≠ .acquire pool := by
      simp
    have quiet : h₀.publishedBy l₀.publisher (ops ++ ([.write blank payload, .dropBlank blank] ++
        [.dropPublisher l₀.publisher])) = h₀.publishedBy l₀.publisher ops :=
      Hub.publishedBy_quiet_all fun op hop => (late op hop).1
    have did := g.did
    rw [phase] at did ⊢
    dsimp only
    rw [shown]
    refine .inl ⟨by rw [filled], ?_, ?_, ?_⟩
    · refine did.asks quiet (Hub.takenFrom_quiet _ fun op hop => (late op hop).2) ?_
      rw [did.called]
      exact List.range_succ.symm
    · rw [Hub.audiences_quiet quiet]
      exact g.heard
    · rw [← List.append_assoc]
      exact torn_dropPublisher l₀.publisher
  | @overruns blank _ phase overflow =>
    obtain ⟨last, rfl⟩ := Checked.add_one_eq_error.1 overflow
    obtain ⟨did, audience⟩ := g.publication phase
    rw [last] at did
    have quiet : h₀.publishedBy l₀.publisher
        (ops ++ [.publish l₀.publisher blank] ++ [.dropPublisher l₀.publisher]) =
          h₀.publishedBy l₀.publisher (ops ++ [.publish l₀.publisher blank]) :=
      Hub.publishedBy_quiet fun _ => nofun
    rw [phase, g.publisher, ← List.append_assoc]
    dsimp only
    rw [Option.toList_none, List.append_nil]
    refine .inr ⟨rfl, did.other quiet nofun, ?_, torn_dropPublisher l₀.publisher⟩
    rw [Hub.audiences_quiet quiet, audience, List.dropLast_concat]
    exact g.heard

/-! ## The whole run -/

def Fate.Holds (l₀ : RelayLoop) (pool : Nat) (fits : Payload → Prop) (written : Nat → Written)
    (h₀ : Hub) (ops : List Operation) (calls : List Nat) : Fate → Prop
  | going l => Going l₀ pool fits written h₀ ops calls l
  | ended reason => ∃ rounds, Ended l₀ pool written h₀ ops calls reason rounds
  | faulted fault => (∃ rounds, Failed l₀ pool written h₀ ops calls fault rounds) ∨
      Overrun l₀ pool written h₀ ops calls fault

theorem Outset.going (o : Outset l₀ pool capacity fits written h₀) :
    Going l₀ pool fits written h₀ [] [] l₀ := by
  have nothing : h₀.publishedBy l₀.publisher [] = [] := rfl
  have waiting : l₀.phase.blank? = none := by rw [o.phase]; rfl
  refine ⟨⟨⟨o.reached.sound, o.alive, fun j pub found => ?_, by rw [o.step]; rfl⟩, ?_⟩, rfl, rfl,
    fun b mine => ?_, fun b owned here => absurd here (o.unowned b owned), o.fits,
    fun b publishing => ?_, ⟨?_, ?_, ?_⟩, List.not_mem_nil⟩
  · rw [nothing] at found
    cases found
  · rw [o.phase]
    trivial
  · rw [waiting] at mine
    cases mine
  · rw [o.phase] at publishing
    cases publishing
  · rw [o.step, o.phase]
    rfl
  · rw [nothing, o.step]
    rfl
  · rw [o.step, o.phase]
    rfl

theorem Run.holds (run : Run l₀ pool h₀ ops calls fate h)
    (o : Outset l₀ pool capacity fits written h₀) :
    h = h₀.applyAll ops ∧ fate.Holds l₀ pool fits written h₀ ops calls := by
  have closed : ∀ {l : RelayLoop} {ops : List Operation} {h' : Hub},
      (l.advance (h₀.applyAll ops)).hub? = some h' →
      l.close h' = h₀.applyAll (ops ++ (l.requests (h₀.applyAll ops) ++ l.closing)) := by
    intro l ops h' step
    rw [advance_hub? step, Hub.applyAll_append, Hub.applyAll_append]
    rfl
  induction run with
  | start => exact ⟨rfl, o.going⟩
  | own run step ih =>
    obtain ⟨rfl, g⟩ := ih
    exact ⟨(Going.round g).own step |>.2, Going.own g o step⟩
  | stopped run step ih =>
    obtain ⟨rfl, g⟩ := ih
    exact ⟨closed (by rw [step]; rfl), _, Going.ended g step⟩
  | faulted run step ih =>
    obtain ⟨rfl, g⟩ := ih
    exact ⟨closed (by rw [step]; rfl), (Going.faulted g o step).imp_left fun f => ⟨_, f⟩⟩
  | @other ops calls fate h run op spares apart ih =>
    obtain ⟨rfl, holds⟩ := ih
    refine ⟨(Hub.applyAll_snoc h₀ ops op).symm, ?_⟩
    cases fate with
    | going l => exact Going.other holds o spares apart
    | ended reason => exact holds.imp fun _ e => e.other o apart
    | faulted fault =>
      exact holds.imp (fun ⟨rounds, f⟩ => ⟨rounds, f.other o apart⟩) fun v => v.other o apart

/-! ## What subscribers get -/

/-- What a subscription gets that was taken after the run `first`, until after the run `last`: copies
of the steps that were published meanwhile, without a gap, from the round on that was next. -/
structure Receives (p : Nat) (written : Nat → Written) (h₀ h₁ h : Hub) (first last : List Operation)
    (erased : Bool) (s : Nat) : Prop where
  whole : (h₁.departed s last ++ h.queueOf s).length = (h₁.publishedBy p last).length
  steps : ∀ j c, (h₁.departed s last ++ h.queueOf s)[j]? = some c →
    ∃ pub, (h₁.publishedBy p last)[j]? = some pub ∧ c = pub.copy erased ∧
      pub.payload = (written ((h₀.publishedBy p first).length + j)).payload ∧
      (c ∈ h.copies → h.payload? c.ref = some pub.payload)
  early : (∀ blank, .publish p blank ∉ first) → (h₀.publishedBy p first).length = 0

theorem payload_of_filled {pubs : List Publication} {n i : Nat} {pub : Publication}
    (filled : pubs.map (·.payload) = (List.range n).map fun step => (written step).payload)
    (found : pubs[i]? = some pub) : pub.payload = (written i).payload := by
  have place : ((List.range n).map fun step => (written step).payload)[i]? = some pub.payload := by
    rw [← filled, List.getElem?_map, found]
    rfl
  rw [List.getElem?_map] at place
  obtain ⟨step, here, same⟩ := Option.map_eq_some_iff.1 place
  obtain ⟨_, rfl⟩ := List.getElem?_eq_some_iff.1 here
  rw [← same, List.getElem_range]

theorem receives {p s published : Nat} {first last more : List Operation} {erased : Bool}
    (sound : h₀.Sound) (given : p < h₀.publishers.next)
    (filled : (h₀.publishedBy p (first ++ .subscribe p erased :: (last ++ more))).map (·.payload) =
      (List.range published).map fun step => (written step).payload)
    (taken : s = (h₀.applyAll first).subscriptions.next) (kept : .dropSubscription s ∉ last) :
    Receives p written h₀ (h₀.applyAll (first ++ [.subscribe p erased]))
      (h₀.applyAll (first ++ .subscribe p erased :: last)) first last erased s := by
  have sound₁ := sound.applyAll (first ++ [.subscribe p erased])
  have after : h₀.applyAll (first ++ .subscribe p erased :: last) =
      (h₀.applyAll (first ++ [.subscribe p erased])).applyAll last := by
    rw [← Hub.applyAll_append, List.append_assoc]
    rfl
  have order := Hub.streams_since (sound.applyAll first) (Hub.next_applyAll given first) erased
    (taken ▸ kept)
  rw [← Hub.applyAll_snoc, ← taken] at order
  have split : h₀.publishedBy p (first ++ .subscribe p erased :: (last ++ more)) =
      h₀.publishedBy p first ++ ((h₀.applyAll (first ++ [.subscribe p erased])).publishedBy p last ++
        ((h₀.applyAll (first ++ [.subscribe p erased])).applyAll last).publishedBy p more) := by
    have nothing : h₀.publishedBy p (first ++ [.subscribe p erased]) = h₀.publishedBy p first :=
      Hub.publishedBy_quiet fun _ => nofun
    rw [← Hub.publishedBy_append, ← nothing, ← Hub.publishedBy_append, List.append_assoc]
    rfl
  rw [after]
  refine ⟨by rw [order, List.length_map], fun j c found => ?_, fun quiet => ?_⟩
  · rw [order, List.getElem?_map] at found
    obtain ⟨pub, there, rfl⟩ := Option.map_eq_some_iff.1 found
    refine ⟨pub, there, rfl, ?_, fun live => ?_⟩
    · refine payload_of_filled filled ?_
      rw [split, List.getElem?_append_right (Nat.le_add_right _ _), Nat.add_sub_cancel_left,
        List.getElem?_append_left (List.getElem?_eq_some_iff.1 there).1]
      exact there
    · exact ((Hub.faithful_history sound₁ pub
        (List.mem_filter.1 (List.mem_of_getElem? there)).1).shown _ live rfl).2
  · have nothing : h₀.publishedBy p ([] ++ first) = [] :=
      Hub.publishedBy_quiet_all fun op hop b same => quiet b (same ▸ hop)
    rw [← List.nil_append first, nothing]
    rfl

/-! ## How far ahead -/

theorem Outset.bounded (o : Outset l₀ pool capacity fits written h₀) (ops : List Operation) :
    h₀.takenFrom pool ops ≤ h₀.backTo pool ops + capacity := by
  obtain ⟨T, B, ledger, untaken, nothing⟩ := o.unused
  obtain ⟨p, found⟩ := Option.isSome_iff_exists.1 (o.there ops)
  have counted := ledger.free_of_fresh o.reached.sound untaken nothing o.sized ops found
  omega

theorem Going.blocked (g : Going l₀ pool fits written h₀ ops calls l)
    (o : Outset l₀ pool capacity fits written h₀) (blocks : l.advance (h₀.applyAll ops) = .blocked) :
    l.phase = .acquiring ∧ l.step.toNat = h₀.backTo pool ops + capacity := by
  have turn := l.advance_turn (h₀.applyAll ops)
  have prepared := g.round.prepared
  rw [blocks] at turn
  generalize l.requests (h₀.applyAll ops) = asked at turn
  cases turn with
  | starves phase acquired =>
    obtain ⟨P, hP⟩ := Option.isSome_iff_exists.1 o.alive
    have named : (h₀.applyAll ops).poolOf? l.publisher = some pool := by
      rw [g.publisher, Hub.poolOf?_applyAll (Table.get?_lt hP) (g.publisher ▸ g.round.linked.alive)]
      exact o.named
    obtain ⟨T, B, ledger, untaken, nothing⟩ := o.unused
    obtain ⟨p, found⟩ := Option.isSome_iff_exists.1 (o.there ops)
    have counted := ledger.free_of_fresh o.reached.sound untaken nothing o.sized ops found
    have empty : p.free = [] := by
      rw [Hub.acquireFor?, named] at acquired
      simp only [bind, Option.bind, Hub.acquire?, found, Pool.take?] at acquired
      cases free : p.free with
      | nil => rfl
      | cons slot rest => simp [free] at acquired
    have taken := g.did.taken
    rw [phase] at taken
    rw [empty, taken] at counted
    refine ⟨phase, ?_⟩
    rw [Nat.add_comm]
    exact (Nat.zero_add _).symm.trans counted
  | lacks phase shown =>
    rw [phase] at prepared
    obtain ⟨slot, hs, -⟩ := Hub.Balanced.blank_slot g.round.linked.soundly.accounted prepared
    rw [Hub.payload?, hs] at shown
    cases shown

theorem Going.stops_iff (g : Going l₀ pool fits written h₀ ops calls l) :
    (∃ h' reason, l.advance (h₀.applyAll ops) = .stopped h' reason) ↔
      (∃ blank, l.phase = .publishing blank) ∧ (h₀.applyAll ops).receivers l₀.publisher = [] ∧
        l.step.toNat + 1 < 2 ^ 64 := by
  constructor
  · rintro ⟨h', reason, step⟩
    have turn := l.advance_turn (h₀.applyAll ops)
    rw [step] at turn
    generalize l.requests (h₀.applyAll ops) = asked at turn
    cases turn with
    | @unheard blank next phase counted unheard =>
      refine ⟨⟨_, phase⟩, g.publisher ▸ (g.round.stopped step).2.1, ?_⟩
      rw [← Checked.add_one_eq_ok.1 counted]
      exact next.toNat_lt
  · rintro ⟨⟨blank, phase⟩, nobody, few⟩
    have prepared := g.round.prepared
    rw [phase] at prepared
    have unheard : ((h₀.applyAll ops).publish l.publisher blank).1 = 0 := by
      rw [AggregatorLoop.fanOut_eq prepared.1, g.publisher, nobody]
      rfl
    refine ⟨((h₀.applyAll ops).publish l.publisher blank).2, .noListeners, ?_⟩
    rw [advance, phase]
    dsimp only
    cases next : Checked.add l.step 1 with
    | error fault => exact absurd few (Nat.not_lt.2 (Nat.le_of_eq (Checked.add_one_eq_error.1 next).1.symm))
    | ok step => exact if_pos unheard

theorem overruns_of_last {blank : SlotRef} (phase : l.phase = .publishing blank)
    (last : l.step.toNat + 1 = 2 ^ 64) (h : Hub) : ∃ h', l.advance h = .faulted h' .addOverflow := by
  rw [advance, phase]
  dsimp only
  rw [Checked.add_one_eq_error.2 ⟨last, rfl⟩]
  exact ⟨_, rfl⟩

/-! ## From newly made to the end and beyond -/

/-- What a relay does in a run, whatever others do between its steps. -/
structure Relays (p pool capacity : Nat) (written : Nat → Written) (h₀ : Hub) (ops : List Operation)
    (calls : List Nat) (fate : Fate) (h : Hub) : Prop where
  called : calls = List.range calls.length
  published : (h₀.publishedBy p ops).map (·.payload) =
    (List.range (h₀.publishedBy p ops).length).map fun step => (written step).payload
  received : ∀ first last more erased s, ops = first ++ .subscribe p erased :: (last ++ more) →
    s = (h₀.applyAll first).subscriptions.next → .dropSubscription s ∉ last →
    Receives p written h₀ (h₀.applyAll (first ++ [.subscribe p erased]))
      (h₀.applyAll (first ++ .subscribe p erased :: last)) first last erased s
  bounded : calls.length ≤ h₀.backTo pool ops + capacity
  going : ∀ l, fate = .going l →
    (h₀.publishedBy p ops).length = l.step.toNat ∧ 0 ∉ h₀.audiences p ops ∧
    (∀ step, l.called? h = some step →
      step = calls.length ∧ step = l.step.toNat ∧ step < h₀.backTo pool ops + capacity) ∧
    ((∃ h' reason, l.advance h = .stopped h' reason) ↔
      (∃ blank, l.phase = .publishing blank) ∧ h.receivers p = [] ∧ l.step.toNat + 1 < 2 ^ 64) ∧
    (∀ blank, l.phase = .publishing blank → l.step.toNat + 1 = 2 ^ 64 →
      ∃ h', l.advance h = .faulted h' .addOverflow) ∧
    (l.advance h = .blocked → l.phase = .acquiring ∧ l.step.toNat = h₀.backTo pool ops + capacity)
  ended : ∀ reason, fate = .ended reason → reason = .noListeners ∧
    calls.length = (h₀.publishedBy p ops).length ∧
    (∃ before, h₀.audiences p ops = before ++ [0] ∧ 0 ∉ before) ∧
    ∃ first blank later, ops = first ++ .publish p blank :: .dropPublisher p :: later ∧
      .returned blank ∈ (h₀.applyAll first).moves (.publish p blank) ∧
      (h₀.applyAll (first ++ [.publish p blank])).InState blank .free
  /-- It faults with the filler, or in the round of step `2 ^ 64 - 1` once that is published. -/
  faulted : ∀ fault, fate = .faulted fault →
    ((written (h₀.publishedBy p ops).length).fault = some fault ∧
      calls.length = (h₀.publishedBy p ops).length + 1 ∧ 0 ∉ h₀.audiences p ops) ∨
    (fault = .addOverflow ∧ calls.length = 2 ^ 64 ∧ (h₀.publishedBy p ops).length = 2 ^ 64 ∧
      0 ∉ (h₀.audiences p ops).dropLast)

theorem Did.length {called published taken : Nat}
    (did : Did l₀ pool written h₀ ops calls called published taken) :
    calls.length = called ∧ (h₀.publishedBy l₀.publisher ops).length = published := by
  have length := congrArg List.length did.published
  rw [List.length_map, List.length_map, List.length_range] at length
  exact ⟨by rw [did.called, List.length_range], length⟩

theorem Fate.Holds.relays (holds : fate.Holds l₀ pool fits written h₀ ops calls)
    (o : Outset l₀ pool capacity fits written h₀) :
    Relays l₀.publisher pool capacity written h₀ ops calls fate (h₀.applyAll ops) := by
  obtain ⟨P, hP⟩ := Option.isSome_iff_exists.1 o.alive
  obtain ⟨called, published, taken, did, few⟩ : ∃ called published taken,
      Did l₀ pool written h₀ ops calls called published taken ∧ called ≤ taken := by
    cases fate with
    | going l =>
      refine ⟨_, _, _, Going.did holds, Nat.add_le_add_left ?_ _⟩
      cases l.phase <;> simp [RelayPhase.calls, RelayPhase.taken, RelayPhase.blank?]
    | ended reason =>
      obtain ⟨rounds, e⟩ := holds
      exact ⟨_, _, _, e.did, Nat.le_refl _⟩
    | faulted fault =>
      rcases holds with ⟨rounds, f⟩ | v
      · exact ⟨_, _, _, f.did, Nat.le_refl _⟩
      · exact ⟨_, _, _, v.did, Nat.le_refl _⟩
  obtain ⟨calls_length, length⟩ := did.length
  refine ⟨?_, ?_, fun first last more erased s split here kept => ?_, ?_, ?_, ?_, ?_⟩
  · rw [calls_length]
    exact did.called
  · rw [length]
    exact did.published
  · exact receives o.reached.sound (Table.get?_lt hP) (split ▸ did.published) here kept
  · exact calls_length ▸ Nat.le_trans few (did.taken ▸ o.bounded ops)
  · rintro l rfl
    have g : Going l₀ pool fits written h₀ ops calls l := holds
    refine ⟨g.did.length.2, g.heard, fun step calling => ?_, g.stops_iff,
      fun blank phase last => overruns_of_last phase last _, g.blocked o⟩
    have bounded := o.bounded ops
    have count := g.did.length.1
    rw [g.did.taken] at bounded
    rw [called?] at calling
    cases phase : l.phase with
    | filling blank =>
      rw [phase] at calling bounded count
      obtain ⟨_, -, rfl⟩ := Option.map_eq_some_iff.1 calling
      exact ⟨count.symm, rfl, bounded⟩
    | acquiring | publishing => simp [phase] at calling
  · rintro reason rfl
    obtain ⟨rounds, e⟩ := holds
    exact ⟨e.reason, e.did.length.1.trans e.did.length.2.symm, e.audiences, e.last⟩
  · rintro fault rfl
    rcases holds with ⟨rounds, f⟩ | v
    · rw [f.did.length.2]
      exact .inl ⟨f.fault, f.did.length.1, f.heard⟩
    · exact .inr ⟨v.fault, v.did.length.1, v.did.length.2, v.heard⟩

end RelayLoop

namespace Network

variable {n n' : Network} {name : String} {capacity pool stage : Nat} {factory : Payload.Factory}
  {fill : Filler} {fits : Payload → Prop} {written : Nat → Written} {S : Stage} {l : RelayLoop}

theorem newRelay_outset (reached : n.hub.Reachable) (oblivious : fill.Oblivious fits written)
    (suits : ∀ i payload, factory.make i = .ok payload → fits payload)
    (made : n.newRelay name capacity factory fill = .ok (stage, n'))
    (found : n'.stages.get? stage = some S) (loop : S.loop = .relay l)
    (named : n'.hub.poolOf? l.publisher = some pool) :
    l.Outset pool capacity fits written n'.hub := by
  obtain ⟨p, log, fresh, rfl, rfl⟩ := newRelay_eq_ok made
  rw [Table.get?_insert, if_pos rfl] at found
  obtain rfl := Option.some.inj found
  obtain rfl := Loop.relay.inj loop
  have untouched := Pool.new_untouched fresh
  have opened : (n.hub.furnish name p log).publishers.get? n.hub.publishers.next =
      some { name, pool := n.hub.pools.next } := by
    rw [Hub.furnish, Table.get?_insert, if_pos rfl]
  have there : (n.hub.furnish name p log).pools.get? n.hub.pools.next = some p := by
    rw [Hub.furnish, Table.get?_insert, if_pos rfl]
  have pooled : (n.hub.furnish name p log).poolOf? n.hub.publishers.next = some n.hub.pools.next :=
    congrArg (Option.map Publisher.pool) opened
  obtain rfl : n.hub.pools.next = pool := Option.some.inj (pooled.symm.trans named)
  have ledger : ∃ T B, (n.hub.furnish name p log).Ledger T B ∧
      (T.map (·.pool)).count n.hub.pools.next = 0 ∧ (B.map (·.pool)).count n.hub.pools.next = 0 := by
    obtain ⟨ops, built⟩ := reached
    have before := Hub.Ledger.empty.applyAll .empty ops
    rw [← built] at before
    exact ⟨_, _, before.newPool untouched rfl,
      before.count_absent (Table.get?_of_le (Nat.le_refl n.hub.pools.next))⟩
  refine ⟨?_, oblivious, Option.isSome_iff_exists.2 ⟨_, opened⟩, ?_, ?_, fun b owned here => ?_,
    fun r v here shown => ?_, ledger, rfl, rfl⟩
  · rw [Hub.furnish_eq fresh]
    exact reached.applyAll _
  · exact pooled
  · rw [Hub.capacityOf?, there, Option.map_some, untouched.size]
  · obtain ⟨slot, hs, -⟩ := Hub.Balanced.blank_slot reached.sound.accounted owned
    obtain ⟨q, hq, -⟩ := Hub.slot?_eq_some.1 hs
    exact Nat.lt_irrefl _ (here ▸ Table.get?_lt hq)
  · obtain ⟨slot, hs, rfl⟩ := Option.map_eq_some_iff.1 shown
    obtain ⟨q, hq, hslot⟩ := Hub.slot?_eq_some.1 hs
    obtain rfl : p = q := by
      rw [here] at hq
      exact Option.some.inj (there.symm.trans hq)
    obtain ⟨i, same⟩ := (untouched.fresh slot (Array.mem_of_getElem? hslot)).made
    exact suits i _ same

/-- A relay whose filler depends on the step alone, from its construction until long after its end,
among operations that leave its publisher, its blank and its pool alone. It calls the filler for the
steps in order and publishes what that leaves, and a subscriber gets the steps from then on, without
a gap. It ends with the first round without a receiver, whose buffer is recycled at once, or faults
in the round of step `2 ^ 64 - 1`, where its count of steps overflows after the publication. At most
the capacity of its pool is out. -/
theorem relays_in_step (reached : n.hub.Reachable) (oblivious : fill.Oblivious fits written)
    (suits : ∀ i payload, factory.make i = .ok payload → fits payload)
    (made : n.newRelay name capacity factory fill = .ok (stage, n'))
    (found : n'.stages.get? stage = some S) (loop : S.loop = .relay l)
    (named : n'.hub.poolOf? l.publisher = some pool) {ops : List Operation} {calls : List Nat}
    {fate : RelayLoop.Fate} {h : Hub} (run : l.Run pool n'.hub ops calls fate h) :
    h = n'.hub.applyAll ops ∧
      RelayLoop.Relays l.publisher pool capacity written n'.hub ops calls fate h := by
  have outset := newRelay_outset reached oblivious suits made found loop named
  obtain ⟨rfl, holds⟩ := run.holds outset
  exact ⟨rfl, holds.relays outset⟩

def blinking : Filler := Filler.onSignal fun step => step % 2 == 0

def lamp : Network :=
  ⟨({} : Hub).applyAll [.newPool "lamp" 1 Payload.Shape.signal.factory, .newPublisher "lamp" 0],
    (({} : Table Stage).insert
      { name := "lamp", outlet := 0, loop := .relay { publisher := 0, fill := blinking } }).2⟩

/-- A subscriber pulls one signal and is dropped, and the next publication has no receiver. -/
theorem relays_in_step_unheard : ∃ ops calls h,
    ({} : Network).newRelay "lamp" 1 Payload.Shape.signal.factory blinking = .ok (0, lamp) ∧
    RelayLoop.Run { publisher := 0, fill := blinking } 0 lamp.hub ops calls (.ended .noListeners) h ∧
    (∃ before, lamp.hub.audiences 0 ops = before ++ [0] ∧ 0 ∉ before) ∧
    calls.length = (lamp.hub.publishedBy 0 ops).length ∧ calls = [0, 1] := by
  let fits : Payload → Prop := fun payload => ∃ s, payload = .signal s
  have oblivious : blinking.Oblivious fits fun step => ⟨.signal ⟨step % 2 == 0⟩, none⟩ :=
    ⟨fun step old ⟨s, same⟩ => by rw [same]; rfl, fun step => ⟨_, rfl⟩⟩
  have suits : ∀ i payload, Payload.Shape.signal.factory.make i = .ok payload → fits payload :=
    fun i payload made => ⟨_, (Except.ok.inj made).symm⟩
  have first : RelayLoop.Run { publisher := 0, fill := blinking } 0 lamp.hub _ _ _ _ :=
    .own (.own (.own (.other .start (.subscribe 0 false) ⟨nofun, fun _ => nofun, fun _ => nofun⟩ nofun)
      rfl) rfl) rfl
  have run := RelayLoop.Run.stopped (.own (.own (.other first (.dropSubscription 0)
    ⟨nofun, fun _ => nofun, fun _ => nofun⟩ nofun) rfl) rfl) rfl
  have made : ({} : Network).newRelay "lamp" 1 Payload.Shape.signal.factory blinking =
    .ok (0, lamp) := rfl
  obtain ⟨-, relays⟩ := relays_in_step ⟨[], rfl⟩ oblivious suits made rfl rfl rfl run
  obtain ⟨-, length, audiences, -⟩ := relays.ended _ rfl
  exact ⟨_, _, _, made, run, audiences, length, rfl⟩

end Network

end BufferFlow
