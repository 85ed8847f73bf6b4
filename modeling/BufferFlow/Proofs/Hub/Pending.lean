import BufferFlow.Proofs.Hub.Mail

set_option autoImplicit false

namespace BufferFlow

inductive Turn
  | operation (op : Operation)
  | push (ref : SlotRef) (serial : Nat) (subscription : Nat)

namespace Hub

variable {h : Hub} {m : Nat} {turn : Turn}

def play (h : Hub) : Turn → Hub
  | .operation op => h.apply op
  | .push r serial s => h.push r serial s

def playAll (h : Hub) (turns : List Turn) : Hub := turns.foldl play h

def mailOf (h : Hub) : Turn → List Mail
  | .operation op => h.mail op
  | .push _ _ s => h.pushMail s

/-- Who is pushed to in a series of pushes, with the hub that the push finds. -/
def pushesFrom (h : Hub) (r : SlotRef) (serial : Nat) : List Nat → List (Hub × Nat)
  | [] => []
  | s :: l => (h, s) :: (h.push r serial s).pushesFrom r serial l

def pushesOf (h : Hub) : Turn → List (Hub × Nat)
  | .operation (.publish p blank) =>
    if blank ∈ h.blanks then
      ((h.spend blank).addCopies blank (h.receivers p).length).pushesFrom blank h.serial
        (h.receivers p)
    else []
  | .push _ _ s => [(h, s)]
  | _ => []

/-- The turn tears down a source that is armed against the mailbox, or arms against it a source that
was torn down and has nothing queued. -/
def Fails (h : Hub) (m : Nat) : Turn → Prop
  | .operation (.dropPublisher p) =>
    ∃ s a, h.publisherOf? s = some p ∧ h.armedOf? s = some a ∧ a.mailbox = m
  | .operation (.arm s mailbox) =>
    mailbox = m ∧ ∃ sub, h.subscriptions.get? s = some sub ∧ sub.publisher = none ∧ sub.queue = []
  | _ => False

/-- What mailboxes and armed subscriptions promise each other. -/
structure Exact (h : Hub) : Prop where
  pending : ∀ m M, h.mailboxes.get? m = some M → M.pending = h.armedWith m
  armed : ∀ s sub a, h.subscriptions.get? s = some sub → sub.armed = some a →
    sub.queue = [] ∧
      (∃ p P, sub.publisher = some p ∧ h.publishers.get? p = some P ∧ s ∈ P.receivers) ∧
      h.contents? a.cell = none ∧ ∃ M, h.mailboxes.get? a.mailbox = some M ∧ 0 < M.pending
  unclamped : ∀ turn, Unclamped h.mailboxes (h.mailOf turn)
  mail : ∀ turn, turn ≠ .operation .newMailbox →
    (h.play turn).mailboxes = post h.mailboxes (h.mailOf turn)
  fits : ∀ turn g s, (g, s) ∈ h.pushesOf turn →
    ∀ a c, g.armedOf? s = some a → g.cells.get? a.cell ≠ some (some c)
  failed : ∀ turn m M, h.mailboxes.get? m = some M → ∃ M',
    (h.play turn).mailboxes.get? m = some M' ∧ (M'.failed = true ↔ M.failed = true ∨ h.Fails m turn)
  fresh : ∀ turn m M, h.mailboxes.get? m = none → (h.play turn).mailboxes.get? m = some M → M = {}

structure Coupled (h : Hub) : Prop where
  enrolled : h.Enrolled
  armament : h.Armament
  expected : h.Expected
  lasting : ∀ m, m < h.mailboxes.next → h.mailboxes.contains m

theorem lasting_apply (lasting : ∀ m, m < h.mailboxes.next → h.mailboxes.contains m)
    (op : Operation) : ∀ m, m < (h.apply op).mailboxes.next → (h.apply op).mailboxes.contains m := by
  intro m hm
  by_cases old : op = .newMailbox
  · subst old
    rw [apply, newMailbox, Table.contains, Table.get?_insert]
    split
    · rfl
    · rename_i other
      exact lasting m (Nat.lt_of_le_of_ne (Nat.le_of_lt_succ hm) other)
  · rw [mailboxes_apply old, next_post] at hm
    rw [mailboxes_apply old, contains_post]
    exact lasting m hm

theorem Coupled.play (hc : h.Coupled) (turn : Turn) : (h.play turn).Coupled := by
  cases turn with
  | operation op =>
    exact ⟨hc.enrolled.apply op, hc.armament.apply op, hc.expected.apply op,
      lasting_apply hc.lasting op⟩
  | push r serial s =>
    refine ⟨hc.enrolled.ofLocal (.push h r serial s), hc.armament.push r serial s,
      hc.expected.push r serial s, fun m hm => ?_⟩
    rw [Hub.play, mailboxes_push, next_post] at hm
    rw [Hub.play, mailboxes_push, contains_post]
    exact hc.lasting m hm

theorem Coupled.playAll (hc : h.Coupled) (turns : List Turn) : (h.playAll turns).Coupled := by
  induction turns generalizing h with
  | nil => exact hc
  | cons turn turns ih => exact ih (hc.play turn)

theorem Coupled.empty : ({} : Hub).Coupled :=
  ⟨Sound.empty.enrolled, Sound.empty.armament, Sound.empty.expected,
    fun _ hm => absurd hm (Nat.not_lt_zero _)⟩

theorem Coupled.tallied (hc : h.Coupled) : h.Tallied fun _ => 0 :=
  ⟨hc.expected.known, hc.lasting, hc.expected.pending⟩

theorem Armament.pushesFrom {g : Hub} {r : SlotRef} {serial s : Nat} {l : List Nat}
    (ha : h.Armament) (pushed : (g, s) ∈ h.pushesFrom r serial l) : g.Armament := by
  induction l generalizing h with
  | nil => simp [Hub.pushesFrom] at pushed
  | cons t l ih =>
    rcases List.mem_cons.1 pushed with same | later
    · obtain ⟨rfl, -⟩ := Prod.mk.inj same
      exact ha
    · exact ih (ha.push r serial t) later

theorem Armament.pushesOf (ha : h.Armament) {g : Hub} {s : Nat} (pushed : (g, s) ∈ h.pushesOf turn) :
    g.Armament := by
  cases turn with
  | push r serial t =>
    obtain ⟨rfl, -⟩ := Prod.mk.inj (List.mem_singleton.1 pushed)
    exact ha
  | operation op =>
    cases op with
    | publish p blank =>
      rw [Hub.pushesOf] at pushed
      split at pushed
      · have counted : ((h.spend blank).addCopies blank (h.receivers p).length).Armament :=
          ha.ofLinks ⟨rfl, rfl, rfl, rfl⟩
        exact counted.pushesFrom pushed
      · simp at pushed
    | _ => simp [Hub.pushesOf] at pushed

theorem failedAt?_arm_here (h : Hub) (s m : Nat) :
    (h.arm s m).2.failedAt? m = (h.failedAt? m).map fun failed =>
      failed || (h.subscriptions.get? s).any fun sub =>
        decide (sub.publisher = none) && decide (sub.queue = []) := by
  have before := failedAt?_cancel h s m
  have kept := get?_cancel h s
  rcases arm_cases h s m with ⟨-, ⟨absent, same⟩ |
    ⟨sub, hs, ⟨c, queue, hq, same⟩ | ⟨hq, active, same⟩ | ⟨hq, gone, same⟩⟩⟩ <;> rw [same]
  · rw [absent] at kept
    have none_there : h.subscriptions.get? s = none := by simpa using kept.symm
    rw [none_there]
    change (h.cancel s).failedAt? m = _
    rw [before]
    cases h.failedAt? m <;> simp
  all_goals
    obtain ⟨sub', hs', rfl⟩ := Option.map_eq_some_iff.1 (kept.symm.trans hs)
    rw [hs']
  · change (h.cancel s).failedAt? m = _
    rw [before]
    cases h.failedAt? m <;> simp_all
  · refine (failedAt?_modify (h := h.cancel s) (f := (·.expect)) fun _ => rfl).trans ?_
    rw [before]
    cases h.failedAt? m <;> simp_all [Subscription.isActive, Option.isSome_iff_ne_none]
  · rw [failedAt?, Table.get?_modify, if_pos rfl, ← before, failedAt?]
    cases (h.cancel s).mailboxes.get? m <;> simp_all [Subscription.isActive, Mailbox.fail]

theorem failed_play (hc : h.Coupled) (turn : Turn) {M : Mailbox}
    (found : h.mailboxes.get? m = some M) :
    ∃ M', (h.play turn).mailboxes.get? m = some M' ∧
      (M'.failed = true ↔ M.failed = true ∨ h.Fails m turn) := by
  have there : h.failedAt? m = some M.failed := by rw [failedAt?, found]; rfl
  suffices ∃ failed, (h.play turn).failedAt? m = some failed ∧
      (failed = true ↔ M.failed = true ∨ h.Fails m turn) by
    obtain ⟨failed, after, iff⟩ := this
    obtain ⟨M', hM', rfl⟩ := Option.map_eq_some_iff.1 after
    exact ⟨M', hM', iff⟩
  cases turn with
  | push r serial s =>
    exact ⟨M.failed, (failedAt?_push h r serial s m).trans there, by simp [Fails]⟩
  | operation op =>
    by_cases armed : ∃ s, op = .arm s m
    · obtain ⟨s, rfl⟩ := armed
      have known : h.mailboxes.contains m = true := Option.isSome_iff_exists.2 ⟨M, found⟩
      have after := failedAt?_arm_here h s m
      rw [there] at after
      rw [play, apply, if_pos known]
      refine ⟨_, after, ?_⟩
      cases hs : h.subscriptions.get? s <;> simp [Fails, hs]
    · obtain ⟨failed, after, iff⟩ := failedAt?_apply hc.enrolled there
        fun s (same : op = .arm s m) => armed ⟨s, same⟩
      refine ⟨failed, after, iff.trans (or_congr_right ?_)⟩
      cases op with
      | dropPublisher p =>
        constructor
        · rintro ⟨q, s, a, same, rest⟩
          exact ⟨s, a, Operation.dropPublisher.inj same ▸ rest⟩
        · rintro ⟨s, a, rest⟩
          exact ⟨p, s, a, rfl, rest⟩
      | arm s mailbox =>
        constructor
        · rintro ⟨q, -, -, same, -⟩
          cases same
        · rintro ⟨rfl, -⟩
          exact absurd ⟨s, rfl⟩ armed
      | _ => simp [Fails]

theorem fresh_play (turn : Turn) {M : Mailbox} (absent : h.mailboxes.get? m = none)
    (found : (h.play turn).mailboxes.get? m = some M) : M = {} := by
  have untold : ∀ l, (post h.mailboxes l).get? m ≠ some M := by
    intro l here
    have there : (post h.mailboxes l).contains m = true := Option.isSome_iff_exists.2 ⟨M, here⟩
    rw [contains_post, Table.contains, absent] at there
    exact Bool.false_ne_true there
  cases turn with
  | push r serial s =>
    rw [play, mailboxes_push] at found
    exact absurd found (untold _)
  | operation op =>
    by_cases old : op = .newMailbox
    · subst old
      rw [play, apply, newMailbox, Table.get?_insert] at found
      split at found
      · exact (Option.some.inj found).symm
      · simp [absent] at found
    · rw [play, mailboxes_apply old] at found
      exact absurd found (untold _)

theorem mailboxes_play (turn : Turn) (old : turn ≠ .operation .newMailbox) :
    (h.play turn).mailboxes = post h.mailboxes (h.mailOf turn) := by
  cases turn with
  | push r serial s => exact mailboxes_push h r serial s
  | operation op => exact mailboxes_apply fun same => old (same ▸ rfl)

theorem Coupled.exact (hc : h.Coupled) : h.Exact where
  pending := hc.expected.pending
  armed s sub a hs armed := by
    have here : h.armedOf? s = some a := armedOf?_eq_some.2 ⟨sub, hs, armed⟩
    have drained := hc.armament.drained s a here
    rw [queueOf, hs] at drained
    obtain ⟨p, named⟩ := Option.isSome_iff_exists.1 (hc.armament.active s a here)
    obtain ⟨P, hP⟩ := Option.isSome_iff_exists.1 (hc.enrolled.alive s p named)
    refine ⟨drained, ⟨p, P, ?_, hP, (hc.enrolled.paired p P hP s).2 named⟩,
      hc.armament.empty s a here, hc.tallied.found here⟩
    rw [publisherOf?, hs] at named
    exact named
  unclamped turn := by
    cases turn with
    | push r serial s => exact hc.tallied.unclamped s _
    | operation op => exact hc.tallied.unclamped_mail op
  mail := mailboxes_play
  fits turn g s pushed a c armed full := by
    have empty := (hc.armament.pushesOf pushed).empty s a armed
    rw [contents?, full] at empty
    simp at empty
  failed turn _ _ := failed_play hc turn
  fresh turn _ _ := fresh_play turn

/-- After any turns each mailbox counts the subscriptions armed against it, and each armed
subscription has an empty queue, a live publisher and an empty cell. No later turn clamps a count or
finds a cell filled, and a mailbox has failed exactly after a turn that fails it. -/
theorem exact_playAll (turns : List Turn) : (({} : Hub).playAll turns).Exact :=
  (Coupled.empty.playAll turns).exact

end Hub

end BufferFlow
