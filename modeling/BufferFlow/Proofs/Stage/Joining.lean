import BufferFlow.Proofs.Hub.Supply

set_option autoImplicit false

/-! # Joins

A consumer arms its sources one after the other against a mailbox of its own and then waits. For
each source so far either its next copy has come, or the copy is awaited, or it will never come. The
mailbox has failed exactly when the last is true of some source, whatever others do in between. -/

namespace BufferFlow

/-- Whether the operation leaves the sources, the mailbox and the cells of a join to its owner. -/
structure Operation.Avoids (op : Operation) (mailbox : Nat) (sources cells : List Nat) : Prop where
  sources : ∀ s ∈ sources, ¬ op.Addresses s
  mailbox : ∀ s, op ≠ .arm s mailbox
  cells : ∀ cell ∈ cells, op ≠ .takeCell cell ∧ op ≠ .dropCell cell

theorem Operation.Avoids.without_cells {op : Operation} {mailbox : Nat} {sources : List Nat}
    (unaddressed : ∀ s ∈ sources, ¬ op.Addresses s) (unarmed : ∀ s, op ≠ .arm s mailbox) :
    op.Avoids mailbox sources [] :=
  ⟨unaddressed, unarmed, fun _ hc => absurd hc List.not_mem_nil⟩

namespace Hub

variable {h : Hub} {op : Operation} {mailbox k s cell : Nat} {left : List Copy}

/-! ## One source -/

/-- How far a join has come with an armed source that `left` copies had left so far: its copy with
number `k` has come, or is awaited, or will never come. -/
inductive Gathered (h : Hub) (left : List Copy) (mailbox k s cell : Nat) : Prop
  | arrived {c : Copy} (full : h.cells.get? cell = some (some c)) (idle : h.armedOf? s = none)
      (last : left[k]? = some c) (count : left.length = k + 1)
  | awaited (empty : h.cells.get? cell = some none) (armed : h.armedOf? s = some ⟨cell, mailbox⟩)
      (count : left.length = k)
  | missed (there : h.cells.contains cell) (spent : h.Spent cell) (idle : h.armedOf? s = none)
      (gone : h.publisherOf? s = none) (drained : h.queueOf s = []) (count : left.length = k)

def Lacking (h : Hub) (left : List Copy) (k s : Nat) : Prop :=
  h.armedOf? s = none ∧ left.length = k

theorem idle_apply (idle : h.armedOf? s = none) (others : ¬ op.Addresses s) :
    (h.apply op).armedOf? s = none ∧ h.departures s op = [] := by
  constructor
  · cases armed : (h.apply op).armedOf? s with
    | none => rfl
    | some a =>
      rcases armedOf?_apply armed with before | rfl
      · simp [idle] at before
      · exact absurd rfl others
  · rw [departures_others others, placed, idle]
    rfl

theorem idle_applyAll {ops : List Operation} (idle : h.armedOf? s = none)
    (others : ∀ op ∈ ops, ¬ op.Addresses s) :
    (h.applyAll ops).armedOf? s = none ∧ h.departed s ops = [] := by
  induction ops generalizing h with
  | nil => exact ⟨idle, rfl⟩
  | cons op ops ih =>
    obtain ⟨idle, nothing⟩ := idle_apply idle (others op List.mem_cons_self)
    obtain ⟨idle, rest⟩ := ih idle fun op hop => others op (List.mem_cons_of_mem _ hop)
    exact ⟨idle, by rw [departed, nothing, rest, List.append_nil]⟩

theorem drained_apply (sound : h.Sound) (known : h.subscriptions.contains s)
    (gone : h.publisherOf? s = none) (drained : h.queueOf s = []) (others : ¬ op.Addresses s) :
    (h.apply op).publisherOf? s = none ∧ (h.apply op).queueOf s = [] := by
  obtain ⟨sub, hs⟩ := Option.isSome_iff_exists.1 known
  have lost : sub.publisher = none := by rwa [publisherOf?, hs] at gone
  rcases others_cases sound hs op others with
    ⟨same, -⟩ | ⟨p, -, named, -⟩ | ⟨pub, -, named, -⟩
  · rw [publisherOf?, queueOf, same, ← hs]
    exact ⟨gone, drained⟩
  · simp [lost] at named
  · simp [lost] at named

theorem contains_of_get? {α : Type} {t : Table α} {id : Nat} {a : α} (h : t.get? id = some a) :
    t.contains id := by
  rw [Table.contains, h]
  rfl

theorem awaited_apply (sound : h.Sound) (empty : h.cells.get? cell = some none)
    (armed : h.armedOf? s = some ⟨cell, mailbox⟩) (count : left.length = k)
    (others : ¬ op.Addresses s) (kept : op ≠ .dropCell cell) :
    (Gathered (h.apply op) (left ++ h.departures s op) mailbox k s cell) ∧
      (Lacking (h.apply op) (left ++ h.departures s op) k s ↔
        ∃ p, op = .dropPublisher p ∧ h.publisherOf? s = some p) := by
  obtain ⟨sub, hs, arm⟩ := armedOf?_eq_some.1 armed
  have there := contains_cells_apply (contains_of_get? empty) kept
  have armament := sound.armament
  rw [departures_others others]
  rcases others_cases sound hs op others with
    ⟨same, still, -, alive⟩ | ⟨p, rfl, named, same⟩ | ⟨pub, hpub, named, received⟩
  · have nothing : h.placed s op = [] := placed_of_empty hs still
    have armed' : (h.apply op).armedOf? s = some ⟨cell, mailbox⟩ :=
      armedOf?_eq_some.2 ⟨sub, same, arm⟩
    rw [nothing, List.append_nil]
    refine ⟨.awaited ?_ armed' count, ?_⟩
    · obtain ⟨o, ho⟩ := Option.isSome_iff_exists.1 there
      have none_in := still _ arm
      rw [contents?, ho] at none_in
      rw [ho]
      exact congrArg some none_in
    · constructor
      · rintro ⟨idle, -⟩
        simp [armed'] at idle
      · rintro ⟨p, hop, hp⟩
        rw [publisherOf?, hs] at hp
        exact absurd hop (alive p hp)
  · have nothing : h.placed s (.dropPublisher p) = [] := placed_of_empty hs fun a ha => by
      rw [apply, contents?, cells_dropPublisher]
      exact armament.empty s a (armedOf?_eq_some.2 ⟨sub, hs, ha⟩)
    have idle : (h.apply (.dropPublisher p)).armedOf? s = none := by rw [armedOf?, same]; rfl
    rw [nothing, List.append_nil]
    have unclaimed : (h.apply (.dropPublisher p)).Spent cell := by
      refine ⟨?_, ?_, fun t a ht heq => ?_⟩
      · rw [apply, contents?, cells_dropPublisher, empty]
        rfl
      · exact Table.get?_lt (Option.isSome_iff_exists.1 there).choose_spec
      · -- Whoever has the cell armed is the source, which is not armed any more.
        rcases armedOf?_apply ht with before | hop
        · rw [armament.apart t s a _ before armed heq, idle] at ht
          simp at ht
        · simp at hop
    refine ⟨.missed there unclaimed idle (by rw [publisherOf?, same]; rfl) ?_ count, ?_⟩
    · have drained := armament.drained s _ armed
      rw [queueOf, hs] at drained
      rw [queueOf, same]
      exact drained
    · exact ⟨fun _ => ⟨p, rfl, publisherOf?_eq_some.2 ⟨sub, hs, named⟩⟩, fun _ => ⟨idle, count⟩⟩
  · rcases received with ⟨a, arm', -, after, same⟩ | ⟨gone, -⟩
    · obtain rfl : a = ⟨cell, mailbox⟩ := by simpa [arm] using arm'.symm
      have one : h.placed s op = [pub.copy sub.erased] := by
        rw [placed_of_armed hs arm, contents?, after]
        rfl
      rw [one]
      refine ⟨.arrived after (by rw [armedOf?, same]; rfl) ?_ (by simp [count]), ?_⟩
      · rw [← count, List.getElem?_concat_length]
      · constructor
        · rintro ⟨-, length⟩
          simp [count] at length
        · rintro ⟨p, rfl, -⟩
          simp [publication?] at hpub
    · have absent := (gone _ arm).1
      simp [empty] at absent

theorem Gathered.apply (sound : h.Sound) (known : h.subscriptions.contains s)
    (gathered : Gathered h left mailbox k s cell) (others : ¬ op.Addresses s)
    (spared : op ≠ .takeCell cell ∧ op ≠ .dropCell cell) :
    (Gathered (h.apply op) (left ++ h.departures s op) mailbox k s cell) ∧
      (Lacking (h.apply op) (left ++ h.departures s op) k s ↔ Lacking h left k s ∨
        ∃ p a, op = .dropPublisher p ∧ h.publisherOf? s = some p ∧ h.armedOf? s = some a ∧
          a.mailbox = mailbox) := by
  cases gathered with
  | @arrived c full idle last count =>
    obtain ⟨idle', nothing⟩ := idle_apply idle others
    rw [nothing, List.append_nil]
    refine ⟨.arrived (full_apply sound.armament full spared.2 spared.1) idle' last count, ?_⟩
    simp [Lacking, count, idle]
  | awaited empty armed count =>
    obtain ⟨gathered, lacking⟩ := awaited_apply sound empty armed count others spared.2
    refine ⟨gathered, lacking.trans ?_⟩
    simp [Lacking, armed]
  | missed there spent idle gone drained count =>
    obtain ⟨idle', nothing⟩ := idle_apply idle others
    obtain ⟨gone', drained'⟩ := drained_apply sound known gone drained others
    rw [nothing, List.append_nil]
    refine ⟨.missed (contains_cells_apply there spared.2) (spent.apply op) idle' gone' drained'
      count, ?_⟩
    simp [Lacking, count, idle, idle']

theorem contains_subscriptions_apply (sound : h.Sound) (known : h.subscriptions.contains s)
    (kept : op ≠ .dropSubscription s) : (h.apply op).subscriptions.contains s := by
  obtain ⟨sub, hs⟩ := Option.isSome_iff_exists.1 known
  obtain ⟨sub', step⟩ := flows sound hs kept
  exact contains_of_get? step.found

/-! ## Arming one source -/

theorem gathered_arm (ha : h.Armament) (known : h.subscriptions.contains s) (idle : h.armedOf? s = none)
    (count : left.length = k) (there : h.mailboxes.contains mailbox) {failed : Bool}
    (hf : h.failedAt? mailbox = some failed) :
    Gathered (h.apply (.arm s mailbox)) (left ++ h.departures s (.arm s mailbox)) mailbox k s
        h.cells.next ∧
      ∃ failed', (h.apply (.arm s mailbox)).failedAt? mailbox = some failed' ∧
        (failed' = true ↔ failed = true ∨
          Lacking (h.apply (.arm s mailbox)) (left ++ h.departures s (.arm s mailbox)) k s) := by
  have uncancelled : h.cancel s = h := by
    rcases cancel_cases h s with ⟨-, same⟩ | ⟨sub, a, hs, armed, -⟩
    · exact same
    · simp [armedOf?, hs, armed] at idle
  obtain ⟨sub, hs⟩ := Option.isSome_iff_exists.1 known
  have unarmed : sub.armed = none := by rwa [armedOf?, hs] at idle
  have departs : h.departures s (.arm s mailbox) =
      ((h.arm s mailbox).2.contents? (h.arm s mailbox).1).toList := if_pos ⟨rfl, there⟩
  rw [apply, if_pos there, departs]
  obtain ⟨cell, cases⟩ := arm_cases h s mailbox
  rw [uncancelled] at cell cases
  rw [cell]
  rcases cases with ⟨absent, -⟩ | ⟨sub', hs', ⟨c, queue, hq, same⟩ | ⟨hq, active, same⟩ | ⟨hq, gone, same⟩⟩
  · simp [hs] at absent
  all_goals
    obtain rfl : sub = sub' := by simpa [hs] using hs'
    rw [same]
    simp only [contents?, Table.get?_insert, ↓reduceIte, Option.bind_some, id, Option.toList_some,
      Option.toList_none, List.append_nil]
  · refine ⟨.arrived (c := c) ?_ ?_ ?_ (by simp [count]), failed, hf, ?_⟩
    · simp only [Table.get?_insert, ↓reduceIte]
    · simp only [armedOf?, Table.get?_modify, ↓reduceIte, hs, Option.map_some, Option.bind_some,
        unarmed]
    · rw [← count, List.getElem?_concat_length]
    · simp [Lacking, count]
  · refine ⟨.awaited ?_ ?_ count, failed, ?_, ?_⟩
    · simp only [Table.get?_insert, ↓reduceIte]
    · simp only [armedOf?, Table.get?_modify, ↓reduceIte, hs, Option.map_some, Option.bind_some]
    · exact (failedAt?_modify (f := (·.expect)) fun _ => rfl).trans hf
    · simp [Lacking, armedOf?, Table.get?_modify, hs]
  · refine ⟨.missed ?_ ⟨?_, Nat.lt_succ_self _, ?_⟩ ?_ ?_ ?_ count, true, ?_, ?_⟩
    · simp only [Table.contains, Table.get?_insert, ↓reduceIte, Option.isSome_some]
    · simp only [contents?, Table.get?_insert, ↓reduceIte, Option.bind_some, id]
    · exact fun t a armed => Nat.ne_of_lt (ha.given t a armed)
    · exact idle
    · rw [publisherOf?, hs]
      simpa [Subscription.isActive] using gone
    · rw [queueOf, hs]
      exact hq
    · obtain ⟨M, hM, -⟩ := Option.map_eq_some_iff.1 hf
      rw [failedAt?, Table.get?_modify, if_pos rfl, hM]
      rfl
    · exact ⟨fun _ => .inr ⟨idle, count⟩, fun _ => rfl⟩

/-! ## Waiting -/

theorem verdict_eq (sound : h.Sound) {failed : Bool} (hf : h.failedAt? mailbox = some failed) :
    (h.wait? mailbox).map (·.1) =
      if failed then some false else if h.armedWith mailbox = 0 then some true else none := by
  obtain ⟨M, hM, rfl⟩ := Option.map_eq_some_iff.1 hf
  rw [wait?, hM, ← sound.expected.pending mailbox M hM]
  simp only [bind, Option.bind, Mailbox.verdict?]
  cases M.failed
  · by_cases hp : M.pending = 0 <;> simp [hp]
  · rfl

/-! ## All sources -/

/-- The state of a join with number `k` over the sources, of which as many are armed as there are
cells; `left` are the copies that left each source so far. -/
structure Joining (h : Hub) (left : Nat → List Copy) (mailbox : Nat) (sources : List Nat) (k : Nat)
    (cells : List Nat) : Prop where
  known : ∀ s ∈ sources, h.subscriptions.contains s
  apart : cells.Nodup
  within : cells.length ≤ sources.length
  gathered : ∀ i s cell : Nat, sources[i]? = some s → cells[i]? = some cell →
    Gathered h (left s) mailbox k s cell
  rest : ∀ i s : Nat, cells.length ≤ i → sources[i]? = some s →
    h.armedOf? s = none ∧ (left s).length = k
  failed : ∃ failed, h.failedAt? mailbox = some failed ∧ (failed = true ↔
    ∃ i s, i < cells.length ∧ sources[i]? = some s ∧ Lacking h (left s) k s)
  alone : ∀ s a, h.armedOf? s = some a → a.mailbox = mailbox →
    ∃ i, i < cells.length ∧ sources[i]? = some s

namespace Joining

variable {lefts : Nat → List Copy} {sources cells : List Nat}

theorem contains_mailbox (j : Joining h lefts mailbox sources k cells) :
    h.mailboxes.contains mailbox := by
  obtain ⟨failed, hf, -⟩ := j.failed
  obtain ⟨M, hM, -⟩ := Option.map_eq_some_iff.1 hf
  exact contains_of_get? hM

theorem contains_cell (j : Joining h lefts mailbox sources k cells) (hc : cell ∈ cells) :
    h.cells.contains cell := by
  obtain ⟨i, hi⟩ := List.getElem?_of_mem hc
  obtain ⟨short, -⟩ := List.getElem?_eq_some_iff.1 hi
  have there := List.getElem?_eq_getElem (Nat.lt_of_lt_of_le short j.within)
  cases j.gathered i _ cell there hi with
  | arrived full => exact contains_of_get? full
  | awaited empty => exact contains_of_get? empty
  | missed there => exact there

theorem apply (sound : h.Sound) (j : Joining h lefts mailbox sources k cells)
    (avoids : op.Avoids mailbox sources cells) :
    Joining (h.apply op) (fun s => lefts s ++ h.departures s op) mailbox sources k cells := by
  have source : ∀ i s cell, sources[i]? = some s → cells[i]? = some cell →
      (Gathered (h.apply op) (lefts s ++ h.departures s op) mailbox k s cell) ∧
      (Lacking (h.apply op) (lefts s ++ h.departures s op) k s ↔ Lacking h (lefts s) k s ∨
        ∃ p a, op = .dropPublisher p ∧ h.publisherOf? s = some p ∧ h.armedOf? s = some a ∧
          a.mailbox = mailbox) := fun i s cell hs hc =>
    (j.gathered i s cell hs hc).apply sound (j.known s (List.mem_of_getElem? hs))
      (avoids.sources s (List.mem_of_getElem? hs)) (avoids.cells cell (List.mem_of_getElem? hc))
  refine ⟨fun s hs => ?_, j.apart, j.within, fun i s cell hs hc => (source i s cell hs hc).1,
    fun i s hi hs => ?_, ?_, fun s a armed hm => ?_⟩
  · refine contains_subscriptions_apply sound (j.known s hs) ?_
    rintro rfl
    exact avoids.sources s hs rfl
  · obtain ⟨idle, count⟩ := j.rest i s hi hs
    obtain ⟨idle', nothing⟩ := idle_apply idle (avoids.sources s (List.mem_of_getElem? hs))
    exact ⟨idle', by rw [nothing, List.append_nil, count]⟩
  · obtain ⟨failed, hf, lacks⟩ := j.failed
    obtain ⟨failed', hf', fails⟩ := failedAt?_apply sound.enrolled hf avoids.mailbox
    refine ⟨failed', hf', fails.trans ⟨?_, ?_⟩⟩
    · rintro (before | ⟨p, s, a, hop, hp, armed, hm⟩)
      · obtain ⟨i, s, hi, hs, lacking⟩ := lacks.1 before
        have hc := List.getElem?_eq_getElem hi
        exact ⟨i, s, hi, hs, (source i s _ hs hc).2.2 (.inl lacking)⟩
      · obtain ⟨i, hi, hs⟩ := j.alone s a armed hm
        have hc := List.getElem?_eq_getElem hi
        exact ⟨i, s, hi, hs, (source i s _ hs hc).2.2 (.inr ⟨p, a, hop, hp, armed, hm⟩)⟩
    · rintro ⟨i, s, hi, hs, lacking⟩
      have hc := List.getElem?_eq_getElem hi
      rcases (source i s _ hs hc).2.1 lacking with before | ⟨p, a, hop, hp, armed, hm⟩
      · exact .inl (lacks.2 ⟨i, s, hi, hs, before⟩)
      · exact .inr ⟨p, s, a, hop, hp, armed, hm⟩
  · rcases armedOf?_apply armed with before | rfl
    · exact j.alone s a before hm
    · exact absurd (hm ▸ rfl) (avoids.mailbox s)

theorem arm (sound : h.Sound) (j : Joining h lefts mailbox sources k cells) (once : sources.Nodup)
    (hs : sources[cells.length]? = some s) :
    Joining (h.apply (.arm s mailbox)) (fun t => lefts t ++ h.departures t (.arm s mailbox)) mailbox
      sources k (cells ++ [(h.arm s mailbox).1]) := by
  obtain ⟨failed, hf, lacks⟩ := j.failed
  obtain ⟨idle, count⟩ := j.rest _ s (Nat.le_refl _) hs
  have new : (h.arm s mailbox).1 = h.cells.next := (arm_cases h s mailbox).1.trans (by rw [cells_cancel])
  obtain ⟨here, failed', hf', fails⟩ := gathered_arm sound.armament (j.known s (List.mem_of_getElem? hs)) idle
    count
    j.contains_mailbox hf
  have others : ∀ i t, i ≠ cells.length → sources[i]? = some t →
      ¬ (Operation.arm s mailbox).Addresses t := by
    rintro i t hi ht rfl
    obtain ⟨hlt, -⟩ := List.getElem?_eq_some_iff.1 ht
    exact hi ((List.getElem?_inj hlt once).1 (ht.trans hs.symm))
  have spared : ∀ cell, Operation.arm s mailbox ≠ .takeCell cell ∧
      Operation.arm s mailbox ≠ .dropCell cell := fun _ => ⟨nofun, nofun⟩
  have before : ∀ i t cell, sources[i]? = some t → cells[i]? = some cell → i ≠ cells.length →
      _ := fun i t cell ht hc hi =>
    (j.gathered i t cell ht hc).apply sound (j.known t (List.mem_of_getElem? ht)) (others i t hi ht)
      (spared cell)
  rw [new]
  refine ⟨fun t ht => ?_, ?_, ?_, fun i t cell ht hc => ?_, fun i t hi ht => ?_,
    ⟨failed', hf', fails.trans ⟨?_, ?_⟩⟩, fun t a armed hm => ?_⟩
  · exact contains_subscriptions_apply sound (j.known t ht) nofun
  · refine List.nodup_append.2 ⟨j.apart, List.nodup_singleton _, fun a ha b hb heq => ?_⟩
    obtain ⟨o, ho⟩ := Option.isSome_iff_exists.1 (j.contains_cell ha)
    obtain rfl := List.mem_singleton.1 hb
    exact Nat.ne_of_lt (Table.get?_lt ho) heq
  · rw [List.length_append, List.length_singleton]
    exact (List.getElem?_eq_some_iff.1 hs).1
  · by_cases hi : i < cells.length
    · rw [List.getElem?_append_left hi] at hc
      exact (before i t cell ht hc (Nat.ne_of_lt hi)).1
    · have last : i = cells.length := by
        obtain ⟨hlt, -⟩ := List.getElem?_eq_some_iff.1 hc
        rw [List.length_append, List.length_singleton] at hlt
        omega
      subst last
      obtain rfl : s = t := Option.some.inj (hs.symm.trans ht)
      rw [List.getElem?_concat_length] at hc
      obtain rfl := Option.some.inj hc
      exact here
  · rw [List.length_append, List.length_singleton] at hi
    obtain ⟨idle, count⟩ := j.rest i t (by omega) ht
    obtain ⟨idle', nothing⟩ := idle_apply idle (others i t (by omega) ht)
    exact ⟨idle', by rw [nothing, List.append_nil, count]⟩
  · rintro (old | lacking)
    · obtain ⟨i, t, hi, ht, lacking⟩ := lacks.1 old
      have hc := List.getElem?_eq_getElem hi
      refine ⟨i, t, ?_, ht, (before i t _ ht hc (Nat.ne_of_lt hi)).2.2 (.inl lacking)⟩
      rw [List.length_append]
      omega
    · exact ⟨cells.length, s, by simp, hs, lacking⟩
  · rintro ⟨i, t, hi, ht, lacking⟩
    rw [List.length_append, List.length_singleton] at hi
    by_cases hlt : i < cells.length
    · have hc := List.getElem?_eq_getElem hlt
      rcases (before i t _ ht hc (Nat.ne_of_lt hlt)).2.1 lacking with old | ⟨p, a, hop, -⟩
      · exact .inl (lacks.2 ⟨i, t, hlt, ht, old⟩)
      · simp at hop
    · obtain rfl : i = cells.length := by omega
      obtain rfl : s = t := Option.some.inj (hs.symm.trans ht)
      exact .inr lacking
  · rw [List.length_append, List.length_singleton]
    rcases armedOf?_apply armed with old | hop
    · obtain ⟨i, hi, ht⟩ := j.alone t a old hm
      exact ⟨i, by omega, ht⟩
    · obtain ⟨rfl, -⟩ := Operation.arm.inj hop
      exact ⟨cells.length, by omega, hs⟩

/-! ## The end of a join -/

theorem wait?_eq (j : Joining h lefts mailbox sources k cells) (sound : h.Sound) :
    ∃ failed, h.failedAt? mailbox = some failed ∧
      (h.wait? mailbox).map (·.1) =
        if failed then some false else if h.armedWith mailbox = 0 then some true else none := by
  obtain ⟨failed, hf, -⟩ := j.failed
  exact ⟨failed, hf, verdict_eq sound hf⟩

theorem armedWith_pos (j : Joining h lefts mailbox sources k cells) (pos : h.armedWith mailbox ≠ 0) :
    ∃ i s cell : Nat, sources[i]? = some s ∧ cells[i]? = some cell ∧
      h.cells.get? cell = some none ∧ h.armedOf? s = some ⟨cell, mailbox⟩ ∧ (lefts s).length = k := by
  obtain ⟨sub, mem, armed⟩ := List.countP_pos_iff.1 (Nat.pos_of_ne_zero pos)
  obtain ⟨s, hs⟩ := Table.mem_values.1 mem
  obtain ⟨a, ha, hm⟩ := (Option.any_eq_true _ _).1 armed
  have named : h.armedOf? s = some a := armedOf?_eq_some.2 ⟨sub, hs, ha⟩
  obtain ⟨i, hi, source⟩ := j.alone s a named (by simpa using hm)
  have hc := List.getElem?_eq_getElem hi
  refine ⟨i, s, cells[i], source, hc, ?_⟩
  cases j.gathered i s _ source hc with
  | arrived _ idle => simp [named] at idle
  | awaited empty armed count => exact ⟨empty, armed, count⟩
  | missed _ _ idle => simp [named] at idle

theorem completed (sound : h.Sound) (j : Joining h lefts mailbox sources k cells)
    (waited : (h.wait? mailbox).map (·.1) = some true) :
    h.failedAt? mailbox = some false ∧ h.armedWith mailbox = 0 ∧
    ∀ i s cell : Nat, sources[i]? = some s → cells[i]? = some cell →
      ∃ c, h.cells.get? cell = some (some c) ∧ h.armedOf? s = none ∧ (lefts s)[k]? = some c ∧
        (lefts s).length = k + 1 := by
  obtain ⟨failed, hf, verdict⟩ := j.wait?_eq sound
  rw [waited] at verdict
  have unfailed : failed = false := by
    cases failed
    · rfl
    · simp at verdict
  subst unfailed
  have nobody : h.armedWith mailbox = 0 := by
    by_contra pos
    simp [pos] at verdict
  refine ⟨hf, nobody, fun i s cell hs hc => ?_⟩
  cases j.gathered i s cell hs hc with
  | @arrived c full idle last count => exact ⟨c, full, idle, last, count⟩
  | awaited _ armed =>
    obtain ⟨sub, hsub, arm⟩ := armedOf?_eq_some.1 armed
    exact absurd nobody (Nat.ne_of_gt (share_pos hsub arm))
  | missed _ _ idle _ _ count =>
    obtain ⟨failed, hf', lacks⟩ := j.failed
    have hi := (List.getElem?_eq_some_iff.1 hc).1
    have fails := lacks.2 ⟨i, s, hi, hs, idle, count⟩
    simp [hf, fails] at hf'

theorem next (j : Joining h lefts mailbox sources k cells) (all : cells.length = sources.length)
    (sound : h.Sound) (waited : (h.wait? mailbox).map (·.1) = some true) :
    Joining h lefts mailbox sources (k + 1) [] := by
  obtain ⟨unfailed, nobody, come⟩ := j.completed sound waited
  refine ⟨j.known, List.nodup_nil, Nat.zero_le _, fun i s cell _ hc => by simp at hc,
    fun i s _ hs => ?_, ⟨false, unfailed, by simp⟩, fun s a armed hm => ?_⟩
  · have hi : i < cells.length := all ▸ (List.getElem?_eq_some_iff.1 hs).1
    obtain ⟨c, -, idle, -, count⟩ := come i s _ hs (List.getElem?_eq_getElem hi)
    exact ⟨idle, count⟩
  · obtain ⟨sub, hsub, arm⟩ := armedOf?_eq_some.1 armed
    have pos := share_pos hsub arm
    rw [hm, nobody] at pos
    exact absurd pos (Nat.lt_irrefl 0)

theorem abandoned (sound : h.Sound) (j : Joining h lefts mailbox sources k cells)
    (waited : (h.wait? mailbox).map (·.1) = some false) :
    ∃ s ∈ sources, h.publisherOf? s = none ∧ h.queueOf s = [] ∧ (lefts s).length = k := by
  obtain ⟨failed, hf, verdict⟩ := j.wait?_eq sound
  rw [waited] at verdict
  have fails : failed = true := by
    cases failed
    · by_cases nobody : h.armedWith mailbox = 0 <;> simp [nobody] at verdict
    · rfl
  obtain ⟨failed', hf', lacks⟩ := j.failed
  obtain rfl : failed = failed' := Option.some.inj (hf.symm.trans hf')
  obtain ⟨i, s, hi, hs, idle, count⟩ := lacks.1 fails
  refine ⟨s, List.mem_of_getElem? hs, ?_⟩
  cases j.gathered i s _ hs (List.getElem?_eq_getElem hi) with
  | arrived _ _ _ more => omega
  | awaited _ armed => simp [idle] at armed
  | missed _ _ _ gone drained => exact ⟨gone, drained, count⟩

theorem blocked (sound : h.Sound) (j : Joining h lefts mailbox sources k cells)
    (all : cells.length = sources.length) (waited : h.wait? mailbox = none) :
    (∃ s ∈ sources, (h.publisherOf? s).isSome ∧ h.queueOf s = [] ∧ (lefts s).length = k) ∧
      ∀ s ∈ sources, h.publisherOf? s = none → k < (lefts s).length := by
  obtain ⟨failed, hf, verdict⟩ := j.wait?_eq sound
  rw [waited] at verdict
  obtain ⟨failed', hf', lacks⟩ := j.failed
  obtain rfl : failed = failed' := Option.some.inj (hf.symm.trans hf')
  have unfailed : failed = false := by
    cases failed
    · rfl
    · simp at verdict
  subst unfailed
  have somebody : h.armedWith mailbox ≠ 0 := by
    intro nobody
    simp [nobody] at verdict
  obtain ⟨i, s, cell, hs, -, -, armed, count⟩ := j.armedWith_pos somebody
  refine ⟨⟨s, List.mem_of_getElem? hs, sound.armament.active s _ armed,
    sound.armament.drained s _ armed, count⟩, fun t ht gone => ?_⟩
  obtain ⟨i, hi⟩ := List.getElem?_of_mem ht
  have short : i < cells.length := all ▸ (List.getElem?_eq_some_iff.1 hi).1
  cases j.gathered i t _ hi (List.getElem?_eq_getElem short) with
  | arrived _ _ _ more => omega
  | awaited _ armed =>
    have active := sound.armament.active t _ armed
    simp [gone] at active
  | missed _ _ idle _ _ count =>
    have fails := lacks.2 ⟨i, t, short, hi, idle, count⟩
    simp at fails

end Joining

end Hub

end BufferFlow
