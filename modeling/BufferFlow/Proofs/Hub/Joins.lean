import BufferFlow.Proofs.Checked
import BufferFlow.Proofs.Stage.Joining

set_option autoImplicit false

/-! # The verdict of a join

Subscriptions are armed against a mailbox while others publish and tear publishers down in between.
Every source is in one of three states: its copy has come, or is awaited, or will never come. The
count and the flag of the mailbox say of all of them together which it is. -/

namespace BufferFlow

structure Arming where
  source : Nat
  cell : Nat
  before : Nat

/-- Whether the operation leaves the armed subscription and its cell to the join. The subscription
may be pulled. -/
structure Operation.Spares (op : Operation) (j : Arming) : Prop where
  rearmed : ∀ mailbox, op ≠ .arm j.source mailbox
  cancelled : op ≠ .cancel j.source
  dropped : op ≠ .dropSubscription j.source
  taken : op ≠ .takeCell j.cell
  released : op ≠ .dropCell j.cell

namespace Hub

/-- Runs in which subscriptions are armed against the mailbox, one after the other, among whatever
others do. What is armed is spared from then on. -/
inductive Gathers (h₀ : Hub) (mailbox : Nat) : List Operation → List Arming → Prop
  | start : Gathers h₀ mailbox [] []
  | arm {ops : List Operation} {joints : List Arming} {s : Nat}
      (before : Gathers h₀ mailbox ops joints)
      (known : (h₀.applyAll ops).subscriptions.contains s) (first : ∀ j ∈ joints, j.source ≠ s) :
      Gathers h₀ mailbox (ops ++ [.arm s mailbox])
        (joints ++ [⟨s, ((h₀.applyAll ops).arm s mailbox).1, ops.length⟩])
  | other {ops : List Operation} {joints : List Arming} {op : Operation}
      (before : Gathers h₀ mailbox ops joints) (elsewhere : ∀ s, op ≠ .arm s mailbox)
      (spared : ∀ j ∈ joints, op.Spares j) : Gathers h₀ mailbox (ops ++ [op]) joints

/-- What there was for the cell: what the subscription had queued when it was armed, and what has
been published to it since, oldest first. -/
def dueTo (h₀ : Hub) (j : Arming) (ops : List Operation) : List Copy :=
  let h := h₀.applyAll (ops.take j.before)
  match h.subscriptions.get? j.source with
  | none => []
  | some sub =>
    sub.queue ++ (h.publishedTo j.source (ops.drop j.before)).map (·.copy sub.erased)

def leftSince (h₀ : Hub) (j : Arming) (ops : List Operation) : List Copy :=
  (h₀.applyAll (ops.take j.before)).departed j.source (ops.drop j.before)

variable {h h₀ : Hub} {op : Operation} {ops : List Operation} {joints : List Arming} {j : Arming}
  {mailbox s cell : Nat} {left : List Copy}

/-! ## One source -/

theorem Gathered.length_le {k : Nat} (g : Gathered h left mailbox k s cell) :
    left.length ≤ k + 1 := by
  cases g with
  | arrived _ _ _ count => exact Nat.le_of_eq count
  | awaited _ _ count => omega
  | missed _ _ _ _ _ count => omega

theorem pull_drained (drained : h.queueOf s = []) :
    h.apply (.pull s) = h ∧ h.departures s (.pull s) = [] := by
  rcases pull_cases h s with ⟨same, nothing⟩ | ⟨sub, c, queue, hs, queued, -⟩
  · refine ⟨same, ?_⟩
    simp only [departures, ↓reduceIte]
  · simp [queueOf, hs, queued] at drained

theorem take_one_append {a b : List Copy} (short : (a.take 1 ++ b).length ≤ 1) :
    (a ++ b).take 1 = a.take 1 ++ b := by
  cases a with
  | nil => exact List.take_of_length_le (by simpa using short)
  | cons c a => simpa using short

theorem Gathered.spare (sound : h.Sound) (known : h.subscriptions.contains j.source)
    (g : Gathered h (left.take 1) mailbox 0 j.source j.cell) (spared : op.Spares j) :
    (Gathered (h.apply op) ((left ++ h.departures j.source op).take 1) mailbox 0 j.source j.cell) ∧
      (Lacking (h.apply op) ((left ++ h.departures j.source op).take 1) 0 j.source ↔
        Lacking h (left.take 1) 0 j.source ∨ ∃ p a, op = .dropPublisher p ∧
          h.publisherOf? j.source = some p ∧ h.armedOf? j.source = some a ∧
          a.mailbox = mailbox) := by
  by_cases others : op.Addresses j.source
  · have pulled : op = .pull j.source := by
      cases op with
      | pull t => exact congrArg _ others
      | arm t m => exact absurd (others ▸ rfl) (spared.rearmed m)
      | cancel t => exact absurd (others ▸ rfl) spared.cancelled
      | dropSubscription t => exact absurd (others ▸ rfl) spared.dropped
      | _ => exact others.elim
    subst pulled
    cases g with
    | @arrived c full idle last count =>
      have more : (left ++ h.departures j.source (.pull j.source)).take 1 = left.take 1 := by
        cases left with
        | nil => simp at count
        | cons => rfl
      rw [more]
      have idle' : (h.apply (.pull j.source)).armedOf? j.source = none := by
        cases armed : (h.apply (.pull j.source)).armedOf? j.source with
        | none => rfl
        | some a =>
          rcases armedOf?_apply armed with before | hop
          · simp [idle] at before
          · simp at hop
      refine ⟨.arrived (full_apply sound.armament full spared.released spared.taken) idle' last
        count, ?_⟩
      simp [Lacking, count]
    | awaited empty armed count =>
      obtain ⟨same, nothing⟩ := pull_drained (sound.armament.drained _ _ armed)
      rw [same, nothing, List.append_nil]
      exact ⟨.awaited empty armed count, by simp⟩
    | missed there spent idle gone drained count =>
      obtain ⟨same, nothing⟩ := pull_drained drained
      rw [same, nothing, List.append_nil]
      exact ⟨.missed there spent idle gone drained count, by simp⟩
  · obtain ⟨g', lacking⟩ := g.apply sound known others ⟨spared.taken, spared.released⟩
    rw [take_one_append g'.length_le]
    exact ⟨g', lacking⟩

theorem arm_cancel (h : Hub) (s mailbox : Nat) : (h.cancel s).arm s mailbox = h.arm s mailbox := by
  have again : (h.cancel s).cancel s = h.cancel s := by
    rcases cancel_cases (h.cancel s) s with ⟨-, same⟩ | ⟨sub, a, hs, armed, -⟩
    · exact same
    · have idle := armedOf?_cancel h s
      simp [armedOf?, hs, armed] at idle
  rw [arm, arm, again]

theorem gathered_rearm (ha : h.Armament) (known : h.subscriptions.contains s) {failed : Bool}
    (hf : h.failedAt? mailbox = some failed) :
    Gathered (h.apply (.arm s mailbox)) (h.departures s (.arm s mailbox)) mailbox 0 s
        (h.arm s mailbox).1 ∧
      ∃ failed', (h.apply (.arm s mailbox)).failedAt? mailbox = some failed' ∧
        (failed' = true ↔ failed = true ∨
          Lacking (h.apply (.arm s mailbox)) (h.departures s (.arm s mailbox)) 0 s) := by
  have hf' := (failedAt?_cancel h s mailbox).trans hf
  have there : ∀ g : Hub, g.failedAt? mailbox = some failed → g.mailboxes.contains mailbox := by
    intro g hg
    obtain ⟨M, hM, -⟩ := Option.map_eq_some_iff.1 hg
    exact contains_of_get? hM
  have known' : (h.cancel s).subscriptions.contains s := by
    obtain ⟨sub, hs⟩ := Option.isSome_iff_exists.1 known
    rw [Table.contains, get?_cancel, hs]
    rfl
  have none_left : ([] : List Copy).length = 0 := rfl
  have gathered := gathered_arm (ha.cancel s) known' (armedOf?_cancel h s) none_left (there _ hf') hf'
  have applied : (h.cancel s).apply (.arm s mailbox) = h.apply (.arm s mailbox) := by
    rw [apply, apply, if_pos (there _ hf'), if_pos (there _ hf), arm_cancel]
  have departs : (h.cancel s).departures s (.arm s mailbox) = h.departures s (.arm s mailbox) := by
    simp only [departures, there _ hf', there _ hf, and_self, ↓reduceIte, arm_cancel]
  have cell : (h.arm s mailbox).1 = (h.cancel s).cells.next := (arm_cases h s mailbox).1
  rw [applied, departs, List.nil_append, ← cell] at gathered
  exact gathered

/-! ## All sources -/

theorem Gathers.before_le (gathers : Gathers h₀ mailbox ops joints) :
    ∀ j ∈ joints, j.before ≤ ops.length := by
  induction gathers with
  | start => simp
  | @arm ops joints s before known first ih =>
    intro j hj
    rw [List.length_append]
    rcases List.mem_append.1 hj with hj | hj
    · exact Nat.le_add_right_of_le (ih j hj)
    · obtain rfl := List.mem_singleton.1 hj
      exact Nat.le_add_right _ _
  | other before elsewhere spared ih =>
    intro j hj
    rw [List.length_append]
    exact Nat.le_add_right_of_le (ih j hj)

theorem leftSince_snoc (h₀ : Hub) (op : Operation) (early : j.before ≤ ops.length) :
    h₀.leftSince j (ops ++ [op]) =
      h₀.leftSince j ops ++ (h₀.applyAll ops).departures j.source op := by
  rw [leftSince, leftSince, List.take_append_of_le_length early,
    List.drop_append_of_le_length early, departed_snoc, ← applyAll_append, List.take_append_drop]

theorem leftSince_armed (h₀ : Hub) (ops : List Operation) (s cell mailbox : Nat) :
    h₀.leftSince ⟨s, cell, ops.length⟩ (ops ++ [.arm s mailbox]) =
      (h₀.applyAll ops).departures s (.arm s mailbox) := by
  rw [leftSince, List.take_left, List.drop_left]
  simp [departed]

theorem Gathers.kept (gathers : Gathers h₀ mailbox ops joints) (j : Arming) (hj : j ∈ joints) :
    (h₀.applyAll (ops.take j.before)).subscriptions.contains j.source ∧
      .dropSubscription j.source ∉ ops.drop j.before := by
  induction gathers with
  | start => simp at hj
  | @arm ops joints s before known first ih =>
    rcases List.mem_append.1 hj with old | new
    · have early := before.before_le j old
      rw [List.take_append_of_le_length early, List.drop_append_of_le_length early]
      simpa using ih old
    · obtain rfl := List.mem_singleton.1 new
      rw [List.take_left, List.drop_left]
      exact ⟨known, by simp⟩
  | @other ops joints op before elsewhere spared ih =>
    have early := before.before_le j hj
    rw [List.take_append_of_le_length early, List.drop_append_of_le_length early]
    have dropped := (spared j hj).dropped.symm
    simpa [dropped] using ih hj

theorem Gathers.dueTo_eq (reached : h₀.Sound) (gathers : Gathers h₀ mailbox ops joints)
    (hj : j ∈ joints) :
    h₀.dueTo j ops = h₀.leftSince j ops ++ (h₀.applyAll ops).queueOf j.source := by
  obtain ⟨known, kept⟩ := gathers.kept j hj
  obtain ⟨sub, hs⟩ := Option.isSome_iff_exists.1 known
  have order := departed_append_queueOf (reached.applyAll _) hs kept
  rw [← applyAll_append, List.take_append_drop] at order
  rw [dueTo, leftSince, order]
  simp only [hs]

/-- The sources of a join with the flag that sums them up. -/
structure Gathering (h₀ : Hub) (mailbox : Nat) (ops : List Operation) (joints : List Arming) :
    Prop where
  known : ∀ j ∈ joints, (h₀.applyAll ops).subscriptions.contains j.source
  gathered : ∀ j ∈ joints,
    Gathered (h₀.applyAll ops) ((h₀.leftSince j ops).take 1) mailbox 0 j.source j.cell
  failed : ∃ failed, (h₀.applyAll ops).failedAt? mailbox = some failed ∧ (failed = true ↔
    ∃ j ∈ joints, Lacking (h₀.applyAll ops) ((h₀.leftSince j ops).take 1) 0 j.source)
  alone : ∀ s a, (h₀.applyAll ops).armedOf? s = some a → a.mailbox = mailbox →
    ∃ j ∈ joints, j.source = s

theorem Gathering.start (reached : h₀.Sound) (unused : h₀.mailboxes.get? mailbox = some ⟨0, false⟩) :
    Gathering h₀ mailbox [] [] := by
  refine ⟨by simp, by simp, ⟨false, ?_, by simp⟩, fun s a armed hm => ?_⟩
  · rw [applyAll, List.foldl_nil, failedAt?, unused]
    rfl
  · -- The mailbox counts what is armed against it.
    obtain ⟨sub, hs, arm⟩ := armedOf?_eq_some.1 armed
    have pos : 0 < h₀.armedWith a.mailbox := share_pos hs arm
    rw [hm, ← reached.expected.pending mailbox _ unused] at pos
    exact absurd pos (Nat.lt_irrefl 0)

theorem Gathering.arm (reached : h₀.Sound) (gathers : Gathers h₀ mailbox ops joints)
    (g : Gathering h₀ mailbox ops joints) (known : (h₀.applyAll ops).subscriptions.contains s)
    (first : ∀ j ∈ joints, j.source ≠ s) :
    Gathering h₀ mailbox (ops ++ [.arm s mailbox])
      (joints ++ [⟨s, ((h₀.applyAll ops).arm s mailbox).1, ops.length⟩]) := by
  have sound := reached.applyAll ops
  obtain ⟨failed, hf, lacks⟩ := g.failed
  obtain ⟨here, failed', hf', fails⟩ := gathered_rearm sound.armament known hf
  have spared : ∀ j ∈ joints, (Operation.arm s mailbox).Spares j := fun j hj =>
    ⟨fun m heq => first j hj (Operation.arm.inj heq).1.symm, nofun, nofun, nofun, nofun⟩
  have before := fun j hj => (g.gathered j hj).spare sound (g.known j hj) (spared j hj)
  have short := here.length_le
  have only : ((h₀.applyAll ops).departures s (.arm s mailbox)).take 1 =
      (h₀.applyAll ops).departures s (.arm s mailbox) := List.take_of_length_le short
  constructor
  · rw [applyAll_snoc]
    intro j hj
    rcases List.mem_append.1 hj with old | new
    · exact contains_subscriptions_apply sound (g.known j old) nofun
    · obtain rfl := List.mem_singleton.1 new
      exact contains_subscriptions_apply sound known nofun
  · rw [applyAll_snoc]
    intro j hj
    rcases List.mem_append.1 hj with old | new
    · rw [leftSince_snoc _ _ (gathers.before_le j old)]
      exact (before j old).1
    · obtain rfl := List.mem_singleton.1 new
      rw [leftSince_armed, only]
      exact here
  · rw [applyAll_snoc]
    refine ⟨failed', hf', fails.trans ⟨?_, ?_⟩⟩
    · rintro (old | lacking)
      · obtain ⟨j, hj, lacking⟩ := lacks.1 old
        refine ⟨j, List.mem_append_left _ hj, ?_⟩
        rw [leftSince_snoc _ _ (gathers.before_le j hj)]
        exact (before j hj).2.2 (.inl lacking)
      · refine ⟨_, List.mem_append_right _ (List.mem_singleton_self _), ?_⟩
        rw [leftSince_armed, only]
        exact lacking
    · rintro ⟨j, hj, lacking⟩
      rcases List.mem_append.1 hj with old | new
      · rw [leftSince_snoc _ _ (gathers.before_le j old)] at lacking
        rcases (before j old).2.1 lacking with lacked | ⟨p, a, hop, -⟩
        · exact .inl (lacks.2 ⟨j, old, lacked⟩)
        · simp at hop
      · obtain rfl := List.mem_singleton.1 new
        rw [leftSince_armed, only] at lacking
        exact .inr lacking
  · rw [applyAll_snoc]
    intro t a armed hm
    rcases armedOf?_apply armed with old | hop
    · obtain ⟨j, hj, same⟩ := g.alone t a old hm
      exact ⟨j, List.mem_append_left _ hj, same⟩
    · exact ⟨_, List.mem_append_right _ (List.mem_singleton_self _), (Operation.arm.inj hop).1⟩

theorem Gathering.other (reached : h₀.Sound) (gathers : Gathers h₀ mailbox ops joints)
    (g : Gathering h₀ mailbox ops joints) (elsewhere : ∀ s, op ≠ .arm s mailbox)
    (spared : ∀ j ∈ joints, op.Spares j) : Gathering h₀ mailbox (ops ++ [op]) joints := by
  have sound := reached.applyAll ops
  have step := fun j hj => (g.gathered j hj).spare sound (g.known j hj) (spared j hj)
  have snoc := fun j hj => leftSince_snoc h₀ op (gathers.before_le j hj)
  constructor
  · rw [applyAll_snoc]
    exact fun j hj => contains_subscriptions_apply sound (g.known j hj) (spared j hj).dropped
  · rw [applyAll_snoc]
    intro j hj
    rw [snoc j hj]
    exact (step j hj).1
  · obtain ⟨failed, hf, lacks⟩ := g.failed
    obtain ⟨failed', hf', fails⟩ := failedAt?_apply sound.enrolled hf elsewhere
    rw [applyAll_snoc]
    refine ⟨failed', hf', fails.trans ⟨?_, ?_⟩⟩
    · rintro (old | ⟨p, s, a, hop, hp, armed, hm⟩)
      · obtain ⟨j, hj, lacking⟩ := lacks.1 old
        exact ⟨j, hj, snoc j hj ▸ (step j hj).2.2 (.inl lacking)⟩
      · obtain ⟨j, hj, rfl⟩ := g.alone s a armed hm
        exact ⟨j, hj, snoc j hj ▸ (step j hj).2.2 (.inr ⟨p, a, hop, hp, armed, hm⟩)⟩
    · rintro ⟨j, hj, lacking⟩
      rw [snoc j hj] at lacking
      rcases (step j hj).2.1 lacking with old | ⟨p, a, hop, hp, armed, hm⟩
      · exact .inl (lacks.2 ⟨j, hj, old⟩)
      · exact .inr ⟨p, j.source, a, hop, hp, armed, hm⟩
  · rw [applyAll_snoc]
    intro s a armed hm
    rcases armedOf?_apply armed with old | rfl
    · exact g.alone s a old hm
    · exact absurd (hm ▸ rfl) (elsewhere s)

namespace Gathering

variable (g : Gathering h₀ mailbox ops joints) (reached : h₀.Sound)
  (gathers : Gathers h₀ mailbox ops joints)

include g reached gathers

theorem contents (hj : j ∈ joints) :
    (h₀.applyAll ops).contents? j.cell = (h₀.dueTo j ops).head? := by
  have none_due : ((h₀.leftSince j ops).take 1).length = 0 →
      (h₀.applyAll ops).queueOf j.source = [] → (h₀.dueTo j ops).head? = none := by
    intro nothing drained
    have left : h₀.leftSince j ops = [] := by
      cases hl : h₀.leftSince j ops with
      | nil => rfl
      | cons => simp [hl] at nothing
    rw [gathers.dueTo_eq reached hj, left, drained]
    rfl
  cases g.gathered j hj with
  | @arrived c full _ last _ =>
    rw [contents?, full, gathers.dueTo_eq reached hj]
    cases hl : h₀.leftSince j ops with
    | nil => simp [hl] at last
    | cons d l =>
      obtain rfl : d = c := by simpa [hl] using last
      rfl
  | awaited empty armed count =>
    rw [contents?, empty, none_due count ((reached.applyAll ops).armament.drained _ _ armed)]
    rfl
  | missed there spent idle gone drained count => rw [none_due count drained, spent.empty]

end Gathering

/-! ## Waiting -/

def Waits (mailbox : Nat) (joints : List Arming) (more : List Operation) : Prop :=
  ∀ op ∈ more, (∀ s, op ≠ .arm s mailbox) ∧ ∀ j ∈ joints, op.Spares j

theorem Gathers.append {more : List Operation} (gathers : Gathers h₀ mailbox ops joints)
    (waits : Waits mailbox joints more) : Gathers h₀ mailbox (ops ++ more) joints := by
  induction more generalizing ops with
  | nil => rwa [List.append_nil]
  | cons op more ih =>
    obtain ⟨elsewhere, spared⟩ := waits op List.mem_cons_self
    have rest := ih (gathers.other elsewhere spared) fun op' hop =>
      waits op' (List.mem_cons_of_mem _ hop)
    rwa [List.append_assoc] at rest

/-- The hubs that somebody finds who looks now and again after each part of a run. -/
def looks (h : Hub) : List (List Operation) → List Hub
  | [] => [h]
  | ops :: later => h :: (h.applyAll ops).looks later

section

variable (reached : h₀.Sound) (unused : h₀.mailboxes.get? mailbox = some ⟨0, false⟩)
  (gathers : Gathers h₀ mailbox ops joints)

include reached unused gathers

end

/-- A camera and a door, a subscription to each, and a mailbox. -/
def threshold : Hub :=
  ({} : Hub).applyAll [.newPool "frames" 1 Payload.Shape.signal.factory, .newPublisher "camera" 0,
    .newPool "signals" 1 Payload.Shape.signal.factory, .newPublisher "door" 1, .subscribe 0 false,
    .subscribe 1 false, .newMailbox]

end Hub

end BufferFlow
