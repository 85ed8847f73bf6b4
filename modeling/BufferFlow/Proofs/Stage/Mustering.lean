import BufferFlow.Proofs.Hub.Joins
import BufferFlow.Proofs.Hub.Releases
import BufferFlow.Proofs.Hub.Roster
import BufferFlow.Proofs.Stage.Rounds

set_option autoImplicit false

namespace BufferFlow

namespace Hub

variable {h h' : Hub} {op : Operation} {ops : List Operation} {mailbox k s cell : Nat} {b : SlotRef}
  {c : Copy} {left pre : List Copy} {lefts : Nat → List Copy} {sources cells : List Nat}

theorem chainedAt_blank (sound : h.Sound) (owned : b ∈ h.blanks) (kept : b ∈ (h.apply op).blanks)
    (unchained : ∀ c, op ≠ .chain b c) : (h.apply op).chainedAt b = h.chainedAt b := by
  obtain ⟨s, hs, -⟩ := Balanced.blank_slot sound.accounted owned
  have standing := Balanced.standing sound.accounted b
  obtain ⟨unstacked, -⟩ := standing.of_blank (List.count_pos_iff.2 owned)
  refine (chainedAt_apply sound.accounted (hs ▸ rfl) (fun c same => absurd same (unchained c)) ?_).1
  rw [returned_iff sound op (hs ▸ rfl) unstacked]
  exact fun returned => returned.1 kept

theorem Gathered.after (g : Gathered h left mailbox k s cell) (pre : List Copy) :
    Gathered h (pre ++ left) mailbox (pre.length + k) s cell := by
  cases g with
  | arrived full idle last count =>
    refine .arrived full idle ?_ (by rw [List.length_append, count, Nat.add_assoc])
    rw [List.getElem?_append_right (Nat.le_add_right _ _), Nat.add_sub_cancel_left, last]
  | awaited empty armed count =>
    exact .awaited empty armed (by rw [List.length_append, count])
  | missed there spent idle gone drained count =>
    exact .missed there spent idle gone drained (by rw [List.length_append, count])

/-- How far the armed sources have come, each for itself. The mailbox has failed if one of them has
nothing to come any more. -/
structure Mustered (h : Hub) (left : Nat → List Copy) (mailbox : Nat) (sources cells : List Nat) :
    Prop where
  known : ∀ s ∈ sources, h.subscriptions.contains s
  there : ∃ failed, h.failedAt? mailbox = some failed
  apart : cells.Nodup
  within : cells.length ≤ sources.length
  gathered : ∀ i s cell : Nat, sources[i]? = some s → cells[i]? = some cell →
    ∃ k, Gathered h (left s) mailbox k s cell ∧
      (Lacking h (left s) k s → h.failedAt? mailbox = some true)

namespace Mustered

theorem contains_mailbox (m : Mustered h lefts mailbox sources cells) :
    h.mailboxes.contains mailbox := by
  obtain ⟨failed, hf⟩ := m.there
  obtain ⟨M, hM, -⟩ := Option.map_eq_some_iff.1 hf
  exact contains_of_get? hM

theorem contains_cell (m : Mustered h lefts mailbox sources cells) (hc : cell ∈ cells) :
    h.cells.contains cell := by
  obtain ⟨i, hi⟩ := List.getElem?_of_mem hc
  obtain ⟨short, -⟩ := List.getElem?_eq_some_iff.1 hi
  have there := List.getElem?_eq_getElem (Nat.lt_of_lt_of_le short m.within)
  obtain ⟨k, g, -⟩ := m.gathered i _ cell there hi
  cases g with
  | arrived full => exact contains_of_get? full
  | awaited empty => exact contains_of_get? empty
  | missed there => exact there

theorem unarmed (known : ∀ s ∈ sources, h.subscriptions.contains s)
    (there : ∃ failed, h.failedAt? mailbox = some failed) :
    Mustered h lefts mailbox sources [] :=
  ⟨known, there, List.nodup_nil, Nat.zero_le _, fun _ _ _ _ hc => by simp at hc⟩

theorem apply (sound : h.Sound) (m : Mustered h lefts mailbox sources cells)
    (avoids : op.Avoids mailbox sources cells) :
    Mustered (h.apply op) (fun s => lefts s ++ h.departures s op) mailbox sources cells := by
  obtain ⟨failed, hf⟩ := m.there
  obtain ⟨failed', hf', fails⟩ := failedAt?_apply sound.enrolled hf avoids.mailbox
  refine ⟨fun s hs => ?_, ⟨failed', hf'⟩, m.apart, m.within, fun i s cell hs hc => ?_⟩
  · refine contains_subscriptions_apply sound (m.known s hs) ?_
    rintro rfl
    exact avoids.sources s hs rfl
  · obtain ⟨k, g, lacks⟩ := m.gathered i s cell hs hc
    have mine := List.mem_of_getElem? hs
    obtain ⟨g', lacks'⟩ := g.apply sound (m.known s mine) (avoids.sources s mine)
      (avoids.cells cell (List.mem_of_getElem? hc))
    refine ⟨k, g', fun lacking => ?_⟩
    rw [hf', Option.some_inj]
    rcases lacks'.1 lacking with before | ⟨p, a, hop, hp, armed, same⟩
    · exact fails.2 (.inl (Option.some.inj (hf.symm.trans (lacks before))))
    · exact fails.2 (.inr ⟨p, s, a, hop, hp, armed, same⟩)

theorem applyAll (sound : h.Sound) (m : Mustered h lefts mailbox sources cells)
    (avoids : ∀ op ∈ ops, op.Avoids mailbox sources cells) :
    Mustered (h.applyAll ops) (fun s => lefts s ++ h.departed s ops) mailbox sources cells := by
  induction ops generalizing h lefts with
  | nil =>
    simp only [departed, List.append_nil]
    exact m
  | cons op ops ih =>
    have rest := ih (sound.apply op) (m.apply sound (avoids op List.mem_cons_self))
      fun op hop => avoids op (List.mem_cons_of_mem _ hop)
    simp only [List.append_assoc] at rest
    exact rest

theorem arm (sound : h.Sound) (m : Mustered h lefts mailbox sources cells) (once : sources.Nodup)
    (next : sources[cells.length]? = some s) :
    Mustered (h.apply (.arm s mailbox)) (fun t => lefts t ++ h.departures t (.arm s mailbox)) mailbox
      sources (cells ++ [(h.arm s mailbox).1]) := by
  obtain ⟨failed, hf⟩ := m.there
  obtain ⟨here, failed', hf', fails⟩ :=
    gathered_rearm sound.armament (m.known s (List.mem_of_getElem? next)) hf
  have new : (h.arm s mailbox).1 ∉ cells := by
    rw [(arm_cases h s mailbox).1, cells_cancel]
    intro hc
    obtain ⟨o, ho⟩ := Option.isSome_iff_exists.1 (m.contains_cell hc)
    exact Nat.lt_irrefl _ (Table.get?_lt ho)
  refine ⟨fun t ht => contains_subscriptions_apply sound (m.known t ht) nofun, ⟨failed', hf'⟩,
    m.apart.append (List.nodup_singleton _) (by simpa using new), ?_, fun i t cell ht hc => ?_⟩
  · rw [List.length_append]
    exact (List.getElem?_eq_some_iff.1 next).1
  rcases getElem?_snoc hc with old | ⟨rfl, rfl⟩
  · obtain ⟨k, g, lacks⟩ := m.gathered i t cell ht old
    have others : ¬ (Operation.arm s mailbox).Addresses t := by
      intro same
      obtain rfl : s = t := same
      obtain ⟨short, -⟩ := List.getElem?_eq_some_iff.1 ht
      obtain rfl := (List.getElem?_inj short once).1 (ht.trans next.symm)
      exact Nat.lt_irrefl _ (List.getElem?_eq_some_iff.1 old).1
    obtain ⟨g', lacks'⟩ := g.apply sound (m.known t (List.mem_of_getElem? ht)) others ⟨nofun, nofun⟩
    refine ⟨k, g', fun lacking => ?_⟩
    rw [hf', Option.some_inj]
    rcases lacks'.1 lacking with before | ⟨p, a, hop, -⟩
    · exact fails.2 (.inl (Option.some.inj (hf.symm.trans (lacks before))))
    · exact nomatch hop
  · obtain rfl : s = t := Option.some.inj (next.symm.trans ht)
    refine ⟨(lefts s).length + 0, here.after (lefts s), fun lacking => ?_⟩
    rw [hf', Option.some_inj]
    refine fails.2 (.inr ⟨lacking.1, ?_⟩)
    have length := lacking.2
    rw [List.length_append] at length
    omega

theorem completed (sound : h.Sound) (m : Mustered h lefts mailbox sources cells)
    (waited : (h.wait? mailbox).map (·.1) = some true) {i : Nat} (hs : sources[i]? = some s)
    (hc : cells[i]? = some cell) : ∃ c, h.cells.get? cell = some (some c) ∧ h.armedOf? s = none ∧
      (lefts s).getLast? = some c := by
  obtain ⟨failed, hf⟩ := m.there
  have verdict := verdict_eq sound hf
  rw [waited] at verdict
  obtain ⟨k, g, lacks⟩ := m.gathered i s cell hs hc
  cases g with
  | @arrived c full idle last count =>
    refine ⟨c, full, idle, ?_⟩
    rw [List.getLast?_eq_getElem?, count]
    exact last
  | awaited empty armed count =>
    obtain ⟨sub, hsub, arm⟩ := armedOf?_eq_some.1 armed
    have pos : 0 < h.armedWith mailbox := share_pos hsub arm
    rw [if_neg (Nat.ne_of_gt pos)] at verdict
    split at verdict <;> cases verdict
  | missed there spent idle gone drained count =>
    rw [lacks ⟨idle, count⟩] at hf
    obtain rfl := Option.some.inj hf
    cases verdict

end Mustered

end Hub

namespace AggregatorLoop

variable {h₀ h h' : Hub} {l l' : AggregatorLoop} {op : Operation} {ops : List Operation}
  {ms : List Move} {cell : Nat} {cells : List Nat} {c source : Copy} {blank : SlotRef}

theorem contents?_takeCell (h : Hub) (cell : Nat) :
    (h.apply (.takeCell cell)).contents? cell = none := by
  rcases Hub.takeCell_cases h cell with ⟨empty, -, same⟩ | ⟨c, full, -, same⟩
  · rw [Hub.apply, same]
    exact Option.eq_none_iff_forall_ne_some.2 fun c full => empty c (Hub.contents?_eq_some.1 full)
  · rw [Hub.apply, same, Hub.contents?, Table.get?_modify, if_pos rfl, full]
    rfl

theorem released_gateRequests (full : h.contents? cell = some c) :
    Hub.released (h.trace (gateRequests h cell)) = [c] := by
  have inHand : c ∈ (h.apply (.takeCell cell)).held := by
    rcases Hub.takeCell_cases h cell with ⟨empty, -⟩ | ⟨d, hd, -, same⟩
    · exact absurd (Hub.contents?_eq_some.1 full) (empty c)
    · obtain rfl : c = d := Option.some.inj (full.symm.trans (Hub.contents?_eq_some.2 hd))
      rw [Hub.apply, same]
      exact List.mem_cons_self
  have emptied : ((h.apply (.takeCell cell)).apply (.release c)).contents? cell = none := by
    rw [Hub.contents?, Hub.cells_apply id]
    exact contents?_takeCell h cell
  have asked : gateRequests h cell = [.takeCell cell, .release c, .dropCell cell] := by
    rw [gateRequests, full]
    rfl
  simp only [asked, Hub.released_trace_cons, Hub.handsBack, if_pos inHand, emptied]
  rfl

theorem released_gatesRequests (sound : h.Sound) (apart : cells.Nodup)
    (full : ∀ cell ∈ cells, (h.contents? cell).isSome) :
    (Hub.released (h.trace (gatesRequests h cells))).map some = cells.map h.contents? := by
  induction cells generalizing h with
  | nil => rfl
  | cons cell cells ih =>
    obtain ⟨absent, apart⟩ := List.nodup_cons.1 apart
    obtain ⟨c, hc⟩ := Option.isSome_iff_exists.1 (full cell List.mem_cons_self)
    have others : ∀ other ∈ cells,
        (h.applyAll (gateRequests h cell)).contents? other = h.contents? other := by
      intro other hother
      have hne : other ≠ cell := fun heq => absent (heq ▸ hother)
      exact (Hub.signal?_applyAll sound (full other (List.mem_cons_of_mem _ hother))
        (gateRequests_spares hne)).1
    rw [gatesRequests, Hub.released_trace_append, released_gateRequests hc, List.singleton_append,
      List.map_cons, List.map_cons, hc, ih (sound.applyAll _) apart fun other ho => ?_,
      List.map_congr_left others]
    rw [others other ho]
    exact full other (List.mem_cons_of_mem _ ho)

theorem released_taking (sound : h.Sound) {primary : Nat} {gates : List Nat}
    (apart : gates.Nodup) (full : ∀ cell ∈ gates, (h.contents? cell).isSome)
    (isOpen : (takeGates h gates).1 = true) :
    (Hub.released (h.trace (takeRequests h (primary :: gates)))).map some =
      gates.map h.contents? := by
  have kept : Hub.released ((h.applyAll (gatesRequests h gates)).trace
      [.takeCell primary, .dropCell primary]) = [] := by
    simp only [Hub.released_trace_cons, Hub.handsBack, contents?_takeCell]
    rfl
  rw [takeRequests, if_pos isOpen, List.append_nil, Hub.released_trace_append, kept, List.append_nil]
  exact released_gatesRequests sound apart full

/-- In a round in which its sources are drawn from, the primary's copy is in hand, those of the gates
were given up, and nobody else has drawn since. -/
structure Drawn (l : AggregatorLoop) (h₀ : Hub) (ops : List Operation) (ms : List Move)
    (source : Copy) : Prop where
  inHand : source ∈ (h₀.applyAll ops).held
  idle : ∀ s ∈ l.sources, (h₀.applyAll ops).armedOf? s = none
  last : (h₀.departed l.primary ops).getLast? = some source
  gates : (Hub.released ms).map some = l.gates.map fun g => (h₀.departed g ops).getLast?

def ledger (l : AggregatorLoop) (h : Hub) (ms : List Move) : List Move :=
  match l.phase with
  | .publishing _ => []
  | _ => ms ++ h.trace (l.requests h)

/-- What holds in each phase; `ms` is what was given up in the round so far. -/
def Stands (l : AggregatorLoop) (h₀ : Hub) (ops : List Operation) (ms : List Move) :
    AggregatorPhase → Prop
  | .arming _ => l.round h₀ ops = l.calls ∧ Hub.released ms = []
  | .waiting cells =>
    l.round h₀ ops = l.calls ∧ Hub.released ms = [] ∧ cells.length = l.sources.length
  | .acquiring source => l.round h₀ ops = l.calls ∧ l.Drawn h₀ ops ms source
  | .transforming source blank =>
    l.round h₀ ops = l.calls ∧ l.Drawn h₀ ops ms source ∧ blank ∈ (h₀.applyAll ops).blanks ∧
      (h₀.applyAll ops).chainedAt blank = none
  | .publishing blank => l.round h₀ ops + 1 = l.calls ∧ blank ∈ (h₀.applyAll ops).blanks

/-- What holds between the steps of a loop whose sources may have been armed for others before. -/
structure Ongoing (l : AggregatorLoop) (h₀ : Hub) (ops : List Operation) (ms : List Move) :
    Prop where
  sound : h₀.Sound
  once : l.sources.Nodup
  alive : (h₀.applyAll ops).publishers.contains l.publisher
  mustered : (h₀.applyAll ops).Mustered (h₀.departed · ops) l.mailbox l.sources l.phase.cells
  stands : l.Stands h₀ ops ms l.phase

theorem Drawn.mono {more : List Operation} {later : List Move} (drawn : l.Drawn h₀ ops ms source)
    (inHand : source ∈ (h₀.applyAll (ops ++ more)).held)
    (others : ∀ op ∈ more, ∀ s ∈ l.sources, ¬ op.Addresses s)
    (quiet : Hub.released later = []) : l.Drawn h₀ (ops ++ more) (ms ++ later) source := by
  have idle := fun s hs => Hub.idle_applyAll (drawn.idle s hs) fun op hop => others op hop s hs
  have same : ∀ s ∈ l.sources, h₀.departed s (ops ++ more) = h₀.departed s ops := fun s hs => by
    rw [Hub.departed_append, (idle s hs).2, List.append_nil]
  refine ⟨inHand, fun s hs => ?_, ?_, ?_⟩
  · rw [Hub.applyAll_append]
    exact (idle s hs).1
  · rw [same _ List.mem_cons_self]
    exact drawn.last
  · rw [Hub.released_append, quiet, List.append_nil, drawn.gates]
    exact List.map_congr_left fun g hg => by rw [same g (List.mem_cons_of_mem _ hg)]

namespace Ongoing

theorem soundly (o : l.Ongoing h₀ ops ms) : (h₀.applyAll ops).Sound := o.sound.applyAll ops

theorem links (o : l.Ongoing h₀ ops ms) {more : List Operation}
    (mustered : (h₀.applyAll ops).Mustered (h₀.departed · ops) l.mailbox l.sources cells)
    (heeds : ∀ op ∈ more, op.Heeds l cells) :
    (h₀.applyAll (ops ++ more)).publishers.contains l.publisher ∧
      (h₀.applyAll (ops ++ more)).Mustered (h₀.departed · (ops ++ more)) l.mailbox l.sources cells ∧
      l.round h₀ (ops ++ more) = l.round h₀ ops := by
  refine ⟨?_, ?_, round_quiet_all fun op hop => (heeds op hop).unpublished⟩
  · rw [Hub.applyAll_append]
    exact (Hub.alive_applyAll o.alive).2 fun torn => (heeds _ torn).publisher rfl
  · have later := mustered.applyAll o.soundly fun op hop => (heeds op hop).avoids
    simp only [Hub.departed_append, Hub.applyAll_append]
    exact later

theorem start (sound : h₀.Sound) (once : l.sources.Nodup)
    (known : ∀ s ∈ l.sources, h₀.subscriptions.contains s)
    (alive : h₀.publishers.contains l.publisher)
    (there : ∃ failed, h₀.failedAt? l.mailbox = some failed)
    (calls : l.calls = 0) (phase : l.phase = .arming []) : l.Ongoing h₀ [] [] := by
  refine ⟨sound, once, alive, ?_, ?_⟩ <;> rw [phase]
  · exact .unarmed known there
  · exact ⟨calls.symm, rfl⟩

theorem other (o : l.Ongoing h₀ ops ms) (spares : l.Spares (h₀.applyAll ops) op)
    (unchained : ∀ b c, l.phase.blank? = some b → op ≠ .chain b c) :
    l.Ongoing h₀ (ops ++ [op]) ms := by
  obtain ⟨alive, mustered, round⟩ := o.links o.mustered (List.forall_mem_singleton.2 spares.heeds)
  refine ⟨o.sound, o.once, alive, mustered, ?_⟩
  have others : ∀ op' ∈ [op], ∀ s ∈ l.sources, ¬ op'.Addresses s :=
    List.forall_mem_singleton.2 spares.heeds.avoids.sources
  have drawn : ∀ source, l.phase.source? = some source → l.Drawn h₀ ops ms source →
      l.Drawn h₀ (ops ++ [op]) ms source := by
    intro source inHand drawn
    have kept := Hub.held_apply drawn.inHand (spares.source source inHand)
    rw [← Hub.applyAll_snoc] at kept
    have later : l.Drawn h₀ (ops ++ [op]) (ms ++ []) source := drawn.mono kept others rfl
    rwa [List.append_nil] at later
  have owned : ∀ b, l.phase.blank? = some b → b ∈ (h₀.applyAll ops).blanks →
      b ∈ (h₀.applyAll (ops ++ [op])).blanks := by
    intro b mine owned
    obtain ⟨unpublished, -, kept⟩ := spares.blank b mine
    rw [Hub.applyAll_snoc]
    exact Hub.blanks_apply owned unpublished kept
  have stands := o.stands
  cases phase : l.phase with
  | arming cells =>
    rw [phase] at stands
    exact ⟨round.trans stands.1, stands.2⟩
  | waiting cells =>
    rw [phase] at stands
    exact ⟨round.trans stands.1, stands.2⟩
  | acquiring source =>
    rw [phase] at stands drawn
    exact ⟨round.trans stands.1, drawn source rfl stands.2⟩
  | transforming source blank =>
    rw [phase] at stands drawn owned unchained
    obtain ⟨count, before, mine, bare⟩ := stands
    have still := owned blank rfl mine
    refine ⟨round.trans count, drawn source rfl before, still, ?_⟩
    rw [Hub.applyAll_snoc] at still ⊢
    rw [Hub.chainedAt_blank o.soundly mine still fun c => unchained blank c rfl]
    exact bare
  | publishing blank =>
    rw [phase] at stands owned
    exact ⟨(congrArg (· + 1) round).trans stands.1, owned blank rfl stands.2⟩

theorem armed (o : l.Ongoing h₀ ops ms) (phase : l.phase = .arming cells)
    (next : l.sources[cells.length]? = none) :
    Ongoing { l with phase := .waiting cells } h₀ (ops ++ []) (ms ++ []) := by
  rw [List.append_nil, List.append_nil]
  obtain ⟨sound, once, alive, mustered, stands⟩ := o
  rw [phase] at mustered stands
  obtain ⟨count, nothing⟩ := stands
  have all : cells.length = l.sources.length :=
    Nat.le_antisymm mustered.within (List.getElem?_eq_none_iff.1 next)
  exact ⟨sound, once, alive, mustered, count, nothing, all⟩

theorem arms (o : l.Ongoing h₀ ops ms) {s : Nat} (phase : l.phase = .arming cells)
    (next : l.sources[cells.length]? = some s) :
    Ongoing { l with phase := .arming (cells ++ [((h₀.applyAll ops).arm s l.mailbox).1]) } h₀
      (ops ++ [.arm s l.mailbox]) (ms ++ (h₀.applyAll ops).trace [.arm s l.mailbox]) := by
  have soundly := o.soundly
  obtain ⟨sound, once, alive, mustered, stands⟩ := o
  rw [phase] at mustered stands
  obtain ⟨count, nothing⟩ := stands
  have quiet : l.round h₀ (ops ++ [.arm s l.mailbox]) = l.round h₀ ops := round_quiet fun _ => nofun
  refine ⟨sound, once, ?_, ?_, quiet.trans count, ?_⟩
  · rw [Hub.applyAll_append]
    exact (Hub.alive_applyAll alive).2 (by simp)
  · have next := mustered.arm soundly once next
    simp only [Hub.departed_snoc, Hub.applyAll_snoc]
    exact next
  · rw [Hub.released_append, nothing]
    rfl

theorem come (o : l.Ongoing h₀ ops ms) (phase : l.phase = .waiting cells)
    (waited : (h₀.applyAll ops).wait? l.mailbox = some (true, h)) {i s cell : Nat}
    (hs : l.sources[i]? = some s) (hc : cells[i]? = some cell) : ∃ c, h.contents? cell = some c ∧
      (h₀.applyAll ops).armedOf? s = none ∧ (h₀.departed s ops).getLast? = some c := by
  have mustered := o.mustered
  rw [phase] at mustered
  obtain ⟨c, full, idle, last⟩ :=
    mustered.completed o.soundly (by rw [waited]; rfl) hs hc
  refine ⟨c, ?_, idle, last⟩
  obtain rfl := Hub.apply_wait waited
  rw [Hub.contents?, (wait_still _ _ cell).1]
  exact Hub.contents?_eq_some.2 full

theorem takes (o : l.Ongoing h₀ ops ms) (phase : l.phase = .waiting cells)
    (waited : (h₀.applyAll ops).wait? l.mailbox = some (true, h))
    (taken : l.take h cells = .running h' l') :
    l'.Ongoing h₀ (ops ++ .wait l.mailbox :: takeRequests h cells)
      (ms ++ (h₀.applyAll ops).trace (.wait l.mailbox :: takeRequests h cells)) := by
  have come := fun {i s cell : Nat} (hs : l.sources[i]? = some s) (hc : cells[i]? = some cell) =>
    o.come phase waited hs hc
  have heeds : ∀ op ∈ .wait l.mailbox :: takeRequests h cells, op.Heeds l [] := heeds_taking
  have unarmed : (h₀.applyAll ops).Mustered (h₀.departed · ops) l.mailbox l.sources [] :=
    .unarmed o.mustered.known o.mustered.there
  obtain ⟨alive, mustered, round⟩ := o.links unarmed heeds
  obtain ⟨sound, once, -, gathered, stands⟩ := o
  rw [phase] at gathered stands
  obtain ⟨count, nothing, all⟩ := stands
  obtain _ | ⟨primary, gates⟩ := cells
  · simp [sources] at all
  have same : gates.length = l.gates.length := Nat.succ.inj all
  obtain ⟨absent, apart⟩ := List.nodup_cons.1 gathered.apart
  have soundly : h.Sound := Hub.apply_wait waited ▸ (sound.applyAll ops).apply (.wait l.mailbox)
  obtain ⟨source, full, -, last⟩ := come (i := 0) rfl rfl
  have kept : (h.applyAll (gatesRequests h gates)).contents? primary = some source :=
    Hub.contents?_eq_some.2 (Hub.full_applyAll soundly (Hub.contents?_eq_some.1 full)
      (gatesRequests_spares absent))
  simp only [take_cons, kept] at taken
  split at taken
  swap
  · cases taken
  rename_i found
  obtain ⟨-, rfl⟩ := Progress.running.inj taken
  -- Taking leaves the sources alone, so what left them last is what the cells had.
  have idle : ∀ s ∈ l.sources,
      ((h₀.applyAll ops).applyAll (.wait l.mailbox :: takeRequests h (primary :: gates))).armedOf? s
          = none ∧
        (h₀.applyAll ops).departed s (.wait l.mailbox :: takeRequests h (primary :: gates)) = [] := by
    intro s hs
    obtain ⟨i, hi⟩ := List.getElem?_of_mem hs
    have short : i < (primary :: gates).length := all ▸ (List.getElem?_eq_some_iff.1 hi).1
    obtain ⟨c, -, idle, -⟩ := come hi (List.getElem?_eq_getElem short)
    exact Hub.idle_applyAll idle fun op hop => (heeds op hop).avoids.sources s hs
  have departed : ∀ s ∈ l.sources,
      h₀.departed s (ops ++ .wait l.mailbox :: takeRequests h (primary :: gates)) =
        h₀.departed s ops := fun s hs => by
    rw [Hub.departed_append, (idle s hs).2, List.append_nil]
  refine ⟨sound, once, alive, mustered, round.trans count, ?_, fun s hs => ?_, ?_, ?_⟩
  · have asked : takeRequests h (primary :: gates) =
        gatesRequests h gates ++ [.takeCell primary, .dropCell primary] := by
      rw [takeRequests, if_pos found, List.append_nil]
    rw [asked, Hub.applyAll_append, Hub.applyAll_cons, Hub.applyAll_append, Hub.apply_wait waited]
    exact held_taken kept
  · rw [Hub.applyAll_append]
    exact (idle s hs).1
  · exact (departed l.primary List.mem_cons_self).symm ▸ last
  · have cellwise : gates.map h.contents? = l.gates.map fun g => (h₀.departed g ops).getLast? := by
      refine List.ext_getElem (by simpa using same) fun i short short' => ?_
      rw [List.length_map] at short short'
      have source : l.sources[i + 1]? = some l.gates[i] := List.getElem?_eq_getElem short'
      have cell : (primary :: gates)[i + 1]? = some gates[i] := List.getElem?_eq_getElem short
      obtain ⟨c, there, -, here⟩ := come source cell
      rw [List.getElem_map, List.getElem_map, there, here]
    have filled : ∀ cell ∈ gates, (h.contents? cell).isSome := by
      intro cell hc
      obtain ⟨i, hi⟩ := List.getElem?_of_mem hc
      have short : i < l.gates.length := same ▸ (List.getElem?_eq_some_iff.1 hi).1
      obtain ⟨c, there, -⟩ := come (i := i + 1) (List.getElem?_eq_getElem short) hi
      exact there ▸ rfl
    have released : (Hub.released (h.trace (takeRequests h (primary :: gates)))).map some =
        gates.map h.contents? := released_taking soundly apart filled found
    rw [Hub.released_append, nothing, List.nil_append, Hub.released_trace_cons, Hub.apply_wait waited]
    refine released.trans (cellwise.trans (List.map_congr_left fun g hg => ?_))
    rw [departed g (List.mem_cons_of_mem _ hg)]

theorem acquires (o : l.Ongoing h₀ ops ms) {pool : Nat} (phase : l.phase = .acquiring source)
    (taken : (h₀.applyAll ops).acquire? pool = some (blank, h')) :
    Ongoing { l with phase := .transforming source blank } h₀ (ops ++ [.acquire pool])
      (ms ++ (h₀.applyAll ops).trace [.acquire pool]) := by
  have heeds : ∀ op ∈ [Operation.acquire pool], op.Heeds l [] :=
    List.forall_mem_singleton.2 (heeds_acquire pool)
  have soundly := o.soundly
  have mustered := o.mustered
  rw [phase] at mustered
  obtain ⟨alive, mustered, round⟩ := o.links mustered heeds
  obtain ⟨sound, once, -, -, stands⟩ := o
  rw [phase] at stands
  obtain ⟨count, drawn⟩ := stands
  have bare := (Hub.Balanced.acquire soundly.accounted taken).2
  have still : l.Drawn h₀ (ops ++ [.acquire pool])
      (ms ++ (h₀.applyAll ops).trace [.acquire pool]) source := by
    refine drawn.mono ?_ (fun op hop => (heeds op hop).avoids.sources) rfl
    rw [Hub.applyAll_snoc]
    exact Hub.held_apply drawn.inHand fun consumed => False.elim consumed
  refine ⟨sound, once, alive, mustered, round.trans count,
    ⟨still.inHand, still.idle, still.last, still.gates⟩, ?_⟩
  rw [Hub.applyAll_snoc, Hub.apply_acquire taken]
  obtain ⟨p, free, -, -, -, rfl⟩ := Hub.acquire?_eq_some taken
  exact ⟨List.mem_cons_self, bare⟩

theorem transforms (o : l.Ongoing h₀ ops ms) (phase : l.phase = .transforming source blank)
    (payload : Payload) (later : List Move) :
    Ongoing { l with calls := l.calls + 1, phase := .publishing blank } h₀
      (ops ++ [.write blank payload, .chain blank source]) later := by
  have heeds : ∀ op ∈ [Operation.write blank payload, .chain blank source], op.Heeds l [] :=
    heeds_deriving blank payload source
  have mustered := o.mustered
  rw [phase] at mustered
  obtain ⟨alive, mustered, round⟩ := o.links mustered heeds
  obtain ⟨sound, once, -, -, stands⟩ := o
  rw [phase] at stands
  obtain ⟨count, -, owned, -⟩ := stands
  refine ⟨sound, once, alive, mustered, congrArg (· + 1) (round.trans count), ?_⟩
  rw [Hub.applyAll_append]
  have mine : blank ∈ ((h₀.applyAll ops).apply (.write blank payload)).blanks :=
    Hub.blanks_apply owned (fun _ => nofun) nofun
  have kept : blank ∈ (((h₀.applyAll ops).apply (.write blank payload)).apply
      (.chain blank source)).blanks := Hub.blanks_apply mine (fun _ => nofun) nofun
  exact kept

theorem publishes (o : l.Ongoing h₀ ops ms) (phase : l.phase = .publishing blank) :
    Ongoing { l with phase := .arming [] } h₀ (ops ++ [.publish l.publisher blank]) [] := by
  have soundly := o.soundly
  obtain ⟨sound, once, alive, mustered, stands⟩ := o
  rw [phase] at mustered stands
  obtain ⟨count, owned⟩ := stands
  obtain ⟨slot, hslot, -⟩ := Hub.Balanced.blank_slot soundly.accounted owned
  have published := Hub.publishedBy_publish alive owned
    (show (h₀.applyAll ops).payload? blank = some slot.payload by rw [Hub.payload?, hslot]; rfl)
  refine ⟨sound, once, ?_, ?_, ?_, rfl⟩
  · rw [Hub.applyAll_append]
    exact (Hub.alive_applyAll alive).2 (by simp)
  · simp only [Hub.departed_snoc, Hub.applyAll_snoc]
    exact mustered.apply soundly (.without_cells (fun _ _ => id) fun _ => by simp)
  · rw [round, published, List.length_append]
    exact count

theorem own (o : l.Ongoing h₀ ops ms) (step : l.advance (h₀.applyAll ops) = .running h' l') :
    l'.Ongoing h₀ (ops ++ l.requests (h₀.applyAll ops)) (l.ledger (h₀.applyAll ops) ms) := by
  have turn := l.advance_turn (h₀.applyAll ops)
  rw [ledger]
  generalize l.requests (h₀.applyAll ops) = asked at turn ⊢
  generalize l.advance (h₀.applyAll ops) = progress at step turn
  cases turn with
  | armed phase next =>
    obtain ⟨-, rfl⟩ := Progress.running.inj step
    rw [phase]
    exact o.armed phase next
  | arms phase next =>
    obtain ⟨-, rfl⟩ := Progress.running.inj step
    rw [phase]
    exact o.arms phase next
  | takes phase waited =>
    rw [phase]
    exact o.takes phase waited step
  | acquires phase _ taken =>
    obtain ⟨-, rfl⟩ := Progress.running.inj step
    rw [phase]
    exact o.acquires phase taken
  | transforms phase =>
    obtain ⟨-, rfl⟩ := Progress.running.inj step
    rw [phase]
    exact o.transforms phase _ _
  | publishes phase =>
    obtain ⟨-, rfl⟩ := Progress.running.inj step
    rw [phase]
    exact o.publishes phase
  | _ => exact nomatch step

end Ongoing

end AggregatorLoop

end BufferFlow
