import BufferFlow.Proofs.Concurrent.Mail
import Mathlib.Data.List.Induction

set_option autoImplicit false

/-! # Wakeups of mailboxes

A thread that waits for a mailbox looks at it, sleeps while there is nothing to tell, and looks again
only when it was woken. Arrivals and failures wake the sleepers, after the mailbox is unlocked again. A
cell that is withdrawn wakes nobody, although it may have been the last one to wait for. -/

namespace BufferFlow

def Notice.wakes : Notice → Bool
  | arrived | failed _ => true
  | expected | withdrawn => false

/-- Threads that wait for mailboxes, next to the threads that operate on the hub. -/
structure Waiting where
  threads : Concurrent := {}
  asleep : List (Nat × Nat) := []
  woken : List (Nat × Nat) := []
  /-- Mailboxes whose sleepers are still to be woken. -/
  wakes : List Nat := []

namespace Waiting

inductive Step
  | other (x : Concurrent.Step)
  | wait (thread mailbox : Nat)
  | wake (mailbox : Nat)
  | look (thread mailbox : Nat)

def waits (w : Waiting) (t : Nat) : Bool := (w.asleep ++ w.woken).any (·.1 = t)

def told (w : Waiting) (x : Concurrent.Step) : List Nat :=
  ((w.threads.mail x).filter (·.notice.wakes)).map (·.mailbox)

def attend (w : Waiting) (t m : Nat) : Waiting :=
  match w.threads.hub.mailboxes.get? m with
  | none => w
  | some M =>
    match M.verdict? with
    | none => { w with asleep := (t, m) :: w.asleep }
    | some _ => { w with threads := w.threads.step (.start (.wait m)) }

def step (w : Waiting) : Step → Waiting
  | .other x => { w with threads := w.threads.step x, wakes := w.told x ++ w.wakes }
  | .wait t m => if w.waits t then w else w.attend t m
  | .wake m =>
    if m ∈ w.wakes then
      { w with
        asleep := w.asleep.filter (·.2 ≠ m)
        woken := w.asleep.filter (·.2 = m) ++ w.woken
        wakes := w.wakes.erase m }
    else w
  | .look t m =>
    if (t, m) ∈ w.woken then { w with woken := w.woken.erase (t, m) }.attend t m else w

def run (w : Waiting) (steps : List Step) : Waiting := steps.foldl step w

def Ready (w : Waiting) (m : Nat) : Prop :=
  ∃ M, w.threads.hub.mailboxes.get? m = some M ∧ M.verdict? ≠ none

def Failed (w : Waiting) (m : Nat) : Prop :=
  ∃ M, w.threads.hub.mailboxes.get? m = some M ∧ M.failed = true

/-- The thread sleeps on a mailbox that has something to tell, and nobody is about to wake it. -/
structure Overslept (w : Waiting) (t m : Nat) : Prop where
  asleep : (t, m) ∈ w.asleep
  ready : w.Ready m
  unwoken : m ∉ w.wakes

end Waiting

theorem Mailbox.verdict?_eq_none {M : Mailbox} :
    M.verdict? = none ↔ M.failed = false ∧ 0 < M.pending := by
  rw [verdict?]
  cases M.failed with
  | true => simp
  | false => simp [Nat.pos_iff_ne_zero]

namespace Hub

variable {t : Table Mailbox} {l : List Mail} {m : Nat} {M : Mailbox}

theorem post_unwoken (found : t.get? m = some M)
    (silent : ∀ mail ∈ l, mail.mailbox = m → mail.notice.wakes = false) :
    ∃ M', (post t l).get? m = some M' ∧ M'.failed = M.failed ∧
      (M'.pending < M.pending → ⟨m, .withdrawn⟩ ∈ l) := by
  induction l generalizing t M with
  | nil => exact ⟨M, found, rfl, fun less => absurd less (Nat.lt_irrefl _)⟩
  | cons mail l ih =>
    have here := get?_post_one t mail m
    rw [found] at here
    have later : ∀ mail ∈ l, mail.mailbox = m → mail.notice.wakes = false :=
      fun mail member => silent mail (List.mem_cons_of_mem _ member)
    by_cases own : m = mail.mailbox
    · rw [if_pos own] at here
      obtain ⟨M', found', failed, less⟩ := ih here later
      have quiet := silent mail List.mem_cons_self own.symm
      obtain ⟨mailbox, notice⟩ := mail
      obtain rfl : m = mailbox := own
      cases notice with
      | expected =>
        refine ⟨M', found', failed, fun fewer => List.mem_cons_of_mem _ (less ?_)⟩
        exact Nat.lt_succ_of_lt fewer
      | withdrawn => exact ⟨M', found', failed, fun _ => List.mem_cons_self⟩
      | arrived | failed => simp [Notice.wakes] at quiet
    · rw [if_neg own] at here
      obtain ⟨M', found', failed, less⟩ := ih here later
      exact ⟨M', found', failed, fun fewer => List.mem_cons_of_mem _ (less fewer)⟩

end Hub

namespace Concurrent

open Hub

variable {c : Concurrent} {x : Step} {m : Nat} {M : Mailbox}

theorem mailbox_unwoken (found : c.hub.mailboxes.get? m = some M)
    (silent : ∀ mail ∈ c.mail x, mail.mailbox = m → mail.notice.wakes = false) :
    ∃ M', (c.step x).hub.mailboxes.get? m = some M' ∧ M'.failed = M.failed ∧
      (M'.pending < M.pending → ⟨m, .withdrawn⟩ ∈ c.mail x) := by
  by_cases new : x = .start .newMailbox
  · subst new
    refine ⟨M, ?_, rfl, fun less => absurd less (Nat.lt_irrefl _)⟩
    change (c.hub.mailboxes.insert {}).2.get? m = some M
    rw [Table.get?_insert, if_neg (Nat.ne_of_lt (Table.get?_lt found))]
    exact found
  · rw [c.mailboxes_step new]
    exact post_unwoken found silent

theorem contains_step (x : Step) (there : c.hub.mailboxes.contains m) :
    (c.step x).hub.mailboxes.contains m := by
  by_cases new : x = .start .newMailbox
  · subst new
    change (c.hub.mailboxes.insert {}).2.contains m
    rw [Table.contains, Table.get?_insert]
    split
    · rfl
    · exact there
  · rw [c.mailboxes_step new, contains_post]
    exact there

end Concurrent

namespace Waiting

open Hub

variable {w : Waiting} {e : Step} {t m : Nat}

def Known (w : Waiting) : Prop := ∀ s ∈ w.asleep, w.threads.hub.mailboxes.contains s.2

theorem mailboxes_wait (c : Concurrent) (m : Nat) :
    (c.step (.start (.wait m))).hub.mailboxes = c.hub.mailboxes :=
  (SameLinks.apply c.hub (show (Operation.wait m).OnBuffers from trivial)).mailboxes

theorem mailboxes_attend (w : Waiting) (t m : Nat) :
    (w.attend t m).threads.hub.mailboxes = w.threads.hub.mailboxes := by
  rw [attend]
  split
  · rfl
  · split
    · rfl
    · exact mailboxes_wait w.threads m

theorem wakes_attend (w : Waiting) (t m : Nat) : (w.attend t m).wakes = w.wakes := by
  rw [attend]
  split
  · rfl
  · split <;> rfl

theorem mem_asleep_attend {s : Nat × Nat} (member : s ∈ (w.attend t m).asleep) :
    s ∈ w.asleep ∨ s = (t, m) ∧ ∃ M, w.threads.hub.mailboxes.get? m = some M ∧ M.verdict? = none := by
  rw [attend] at member
  split at member
  · exact .inl member
  · rename_i M found
    split at member
    · rename_i silent
      exact (List.mem_cons.1 member).symm.imp_right fun same => ⟨same, M, found, silent⟩
    · exact .inl member

theorem asleep_attend {s : Nat × Nat} {u n : Nat} (member : s ∈ w.asleep) :
    s ∈ (w.attend u n).asleep := by
  rw [attend]
  split
  · exact member
  · split
    · exact List.mem_cons_of_mem _ member
    · exact member

theorem Known.attend (known : w.Known) (t m : Nat) : (w.attend t m).Known := by
  intro s member
  rw [mailboxes_attend]
  rcases mem_asleep_attend member with old | ⟨rfl, M, found, -⟩
  · exact known s old
  · exact Option.isSome_iff_exists.2 ⟨M, found⟩

theorem Known.step (known : w.Known) (e : Step) : (w.step e).Known := by
  cases e with
  | other x => exact fun s member => Concurrent.contains_step x (known s member)
  | wait t m =>
    rw [Waiting.step]
    split
    · exact known
    · exact known.attend t m
  | wake m =>
    rw [Waiting.step]
    split
    · exact fun s member => known s (List.mem_filter.1 member).1
    · exact known
  | look t m =>
    rw [Waiting.step]
    split
    · have woken : Known { w with woken := w.woken.erase (t, m) } := known
      exact woken.attend t m
    · exact known

theorem Overslept.of_attend {u n : Nat} (overslept : (w.attend u n).Overslept t m) :
    w.Overslept t m := by
  obtain ⟨asleep, ⟨M, found, ready⟩, unwoken⟩ := overslept
  rw [mailboxes_attend] at found
  rw [wakes_attend] at unwoken
  rcases mem_asleep_attend asleep with old | ⟨same, M', found', silent⟩
  · exact ⟨old, ⟨M, found, ready⟩, unwoken⟩
  · obtain ⟨rfl, rfl⟩ := Prod.mk.inj same
    obtain rfl := Option.some.inj (found.symm.trans found')
    exact absurd silent ready

theorem silent_of_untold {x : Concurrent.Step} (untold : m ∉ w.told x) :
    ∀ mail ∈ w.threads.mail x, mail.mailbox = m → mail.notice.wakes = false := by
  rintro mail member rfl
  by_contra wakes
  exact untold (List.mem_map.2 ⟨mail, List.mem_filter.2 ⟨member, by simpa using wakes⟩, rfl⟩)

theorem Overslept.of_other {x : Concurrent.Step} (known : w.Known)
    (overslept : (w.step (.other x)).Overslept t m) :
    (w.Overslept t m ∧ ((w.step (.other x)).Failed m → w.Failed m)) ∨
      (t, m) ∈ w.asleep ∧ ¬ w.Ready m ∧ ⟨m, .withdrawn⟩ ∈ w.threads.mail x ∧
        ¬ (w.step (.other x)).Failed m := by
  obtain ⟨asleep, ⟨M', found', ready⟩, unwoken⟩ := overslept
  obtain ⟨untold, unwoken⟩ := not_or.1 (mt List.mem_append.2 unwoken)
  have asleep : (t, m) ∈ w.asleep := asleep
  obtain ⟨M, found⟩ := Option.isSome_iff_exists.1 (known _ asleep)
  obtain ⟨M₁, found₁, failed, withdrawn⟩ :=
    Concurrent.mailbox_unwoken found (silent_of_untold untold)
  obtain rfl := Option.some.inj (found'.symm.trans found₁)
  by_cases silent : M.verdict? = none
  · obtain ⟨unfailed, waiting⟩ := Mailbox.verdict?_eq_none.1 silent
    have unfailed' : M'.failed = false := failed.trans unfailed
    refine .inr ⟨asleep, ?_, withdrawn ?_, ?_⟩
    · rintro ⟨M₂, found₂, told⟩
      obtain rfl := Option.some.inj (found.symm.trans found₂)
      exact told silent
    · have emptied : ¬ 0 < M'.pending := fun more =>
        ready (Mailbox.verdict?_eq_none.2 ⟨unfailed', more⟩)
      omega
    · rintro ⟨M₂, found₂, failed₂⟩
      obtain rfl := Option.some.inj (found'.symm.trans found₂)
      simp [unfailed'] at failed₂
  · refine .inl ⟨⟨asleep, ⟨M, found, silent⟩, unwoken⟩, ?_⟩
    rintro ⟨M₂, found₂, failed₂⟩
    obtain rfl := Option.some.inj (found'.symm.trans found₂)
    exact ⟨M, found, failed.symm.trans failed₂⟩

theorem Overslept.of_own (own : ∀ x, e ≠ .other x) (overslept : (w.step e).Overslept t m) :
    w.Overslept t m ∧ ((w.step e).Failed m → w.Failed m) := by
  have attended : ∀ {w : Waiting} {u n : Nat}, (w.attend u n).Failed m → w.Failed m := by
    rintro w u n ⟨M, found, failed⟩
    exact ⟨M, mailboxes_attend w u n ▸ found, failed⟩
  cases e with
  | other x => exact absurd rfl (own x)
  | wait u n =>
    rw [Waiting.step] at overslept ⊢
    split at overslept
    · rename_i busy
      rw [if_pos busy]
      exact ⟨overslept, fun failed => failed⟩
    · rename_i free
      rw [if_neg free]
      exact ⟨overslept.of_attend, attended⟩
  | wake n =>
    rw [Waiting.step] at overslept ⊢
    split at overslept
    · rename_i due
      rw [if_pos due]
      obtain ⟨asleep, ready, unwoken⟩ := overslept
      obtain ⟨asleep, other⟩ := List.mem_filter.1 asleep
      have other : m ≠ n := of_decide_eq_true other
      exact ⟨⟨asleep, ready, fun due => unwoken ((List.mem_erase_of_ne other).2 due)⟩,
        fun failed => failed⟩
    · rename_i undue
      rw [if_neg undue]
      exact ⟨overslept, fun failed => failed⟩
  | look u n =>
    rw [Waiting.step] at overslept ⊢
    split at overslept
    · rename_i woken
      rw [if_pos woken]
      obtain ⟨asleep, ready, unwoken⟩ := overslept.of_attend
      exact ⟨⟨asleep, ready, unwoken⟩, attended⟩
    · rename_i unwoken
      rw [if_neg unwoken]
      exact ⟨overslept, fun failed => failed⟩

theorem run_append (w : Waiting) (a b : List Step) : w.run (a ++ b) = (w.run a).run b :=
  List.foldl_append

theorem Known.run (known : w.Known) (steps : List Step) : (w.run steps).Known := by
  induction steps generalizing w with
  | nil => exact known
  | cons e steps ih => exact ih (known.step e)

theorem asleep_until_told (steps : List Step) (asleep : (t, m) ∈ w.asleep) (unwoken : m ∉ w.wakes)
    (untold : ∀ early x late, steps = early ++ .other x :: late → m ∉ (w.run early).told x) :
    (t, m) ∈ (w.run steps).asleep := by
  induction steps generalizing w with
  | nil => exact asleep
  | cons e steps ih =>
    refine ih ?_ ?_ fun early x late same => untold (e :: early) x late (congrArg (e :: ·) same)
    · cases e with
      | other x => exact asleep
      | wait u n =>
        rw [step]
        split
        · exact asleep
        · exact asleep_attend asleep
      | wake n =>
        rw [step]
        split
        · rename_i due
          refine List.mem_filter.2 ⟨asleep, decide_eq_true ?_⟩
          rintro rfl
          exact unwoken due
        · exact asleep
      | look u n =>
        rw [step]
        split
        · have still : (t, m) ∈ { w with woken := w.woken.erase (u, n) }.asleep := asleep
          exact asleep_attend still
        · exact asleep
    · cases e with
      | other x =>
        refine mt List.mem_append.1 (not_or.2 ⟨untold [] x steps rfl, unwoken⟩)
      | wait u n =>
        rw [step]
        split
        · exact unwoken
        · rw [wakes_attend]
          exact unwoken
      | wake n =>
        rw [step]
        split
        · exact fun due => unwoken (List.mem_of_mem_erase due)
        · exact unwoken
      | look u n =>
        rw [step]
        split
        · rw [wakes_attend]
          exact unwoken
        · exact unwoken

/-- Only a withdrawal lets a thread oversleep: a step withdrew the last pending cell of the mailbox
while the thread slept on it, and the mailbox counts nothing and has not failed. -/
theorem overslept_by_withdrawal (steps : List Step) (overslept : (run {} steps).Overslept t m) :
    (run {} steps).threads.hub.mailboxes.get? m = some ⟨0, false⟩ ∧
    ∃ early x late, steps = early ++ .other x :: late ∧ (t, m) ∈ (run {} early).asleep ∧
      ¬ (run {} early).Ready m ∧ ⟨m, .withdrawn⟩ ∈ (run {} early).threads.mail x := by
  suffices ¬ (run {} steps).Failed m ∧ ∃ early x late, steps = early ++ .other x :: late ∧
      (t, m) ∈ (run {} early).asleep ∧ ¬ (run {} early).Ready m ∧
      ⟨m, .withdrawn⟩ ∈ (run {} early).threads.mail x by
    obtain ⟨⟨pending, failed⟩, found, ready⟩ := overslept.ready
    refine ⟨found.trans (congrArg some ?_), this.2⟩
    obtain rfl : failed = false := by
      by_contra failed
      exact this.1 ⟨_, found, by simpa using failed⟩
    have nothing : ¬ 0 < pending := fun more => ready (Mailbox.verdict?_eq_none.2 ⟨rfl, more⟩)
    rw [Nat.eq_zero_of_not_pos nothing]
  induction steps using List.reverseRecOn with
  | nil => exact absurd overslept.asleep List.not_mem_nil
  | append_singleton steps e ih =>
    rw [run_append] at overslept ⊢
    have go_on : (run {} steps).Overslept t m ∧
        (((run {} steps).run [e]).Failed m → (run {} steps).Failed m) →
        ¬ ((run {} steps).run [e]).Failed m ∧ ∃ early x late,
          steps ++ [e] = early ++ .other x :: late ∧ (t, m) ∈ (run {} early).asleep ∧
            ¬ (run {} early).Ready m ∧ ⟨m, .withdrawn⟩ ∈ (run {} early).threads.mail x := by
      rintro ⟨before, failed⟩
      obtain ⟨unfailed, early, x, late, rfl, rest⟩ := ih before
      exact ⟨mt failed unfailed, early, x, late ++ [e], by simp, rest⟩
    by_cases own : ∀ x, e ≠ .other x
    · exact go_on (Overslept.of_own own overslept)
    · obtain ⟨x, rfl⟩ : ∃ x, e = .other x := by simpa using own
      have known : (run {} steps).Known :=
        Known.run (fun _ member => absurd member List.not_mem_nil) steps
      rcases Overslept.of_other known overslept with before | ⟨asleep, unready, withdrawn, unfailed⟩
      · exact go_on before
      · exact ⟨unfailed, steps, x, [], rfl, asleep, unready, withdrawn⟩

/-- The last armed cell is dropped, and the push that finds it gone withdraws it. -/
theorem overslept_by_withdrawal_bounced :
    ∃ steps : List Step, (run {} steps).Overslept 0 0 ∧ ∃ early x late,
      steps = early ++ .other x :: late ∧ (0, 0) ∈ (run {} early).asleep ∧
        ⟨0, .withdrawn⟩ ∈ (run {} early).threads.mail x := by
  let steps : List Step := [.other (.start (.newPool "frames" 1 Payload.Shape.signal.factory)),
    .other (.start (.newPublisher "camera" 0)), .other (.start (.subscribe 0 false)),
    .other (.start .newMailbox), .other (.start (.arm 0 0)), .wait 0 0,
    .other (.start (.dropCell 0)), .other (.start (.acquire 0)),
    .other (.start (.publish 0 ⟨0, 0⟩)), .other (.resume 0), .other (.resume 0),
    .other (.resume 0)]
  have overslept : (run {} steps).Overslept 0 0 :=
    ⟨by decide +kernel, ⟨⟨0, false⟩, by decide +kernel, by decide⟩, by decide +kernel⟩
  obtain ⟨-, early, x, late, same, asleep, -, withdrawn⟩ := overslept_by_withdrawal steps overslept
  exact ⟨steps, overslept, early, x, late, same, asleep, withdrawn⟩

/-- A thread sleeps for the only armed cell, and another thread cancels it. -/
theorem overslept_after_cancel : ¬ ∀ (steps : List Step) (t m : Nat),
    ¬ (run {} steps).Overslept t m := by
  intro awoken
  refine awoken [.other (.start (.newPool "frames" 1 Payload.Shape.signal.factory)),
    .other (.start (.newPublisher "camera" 0)), .other (.start (.subscribe 0 false)),
    .other (.start .newMailbox), .other (.start (.arm 0 0)), .wait 0 0,
    .other (.start (.cancel 0))] 0 0 ⟨by decide +kernel, ⟨⟨0, false⟩, ?_, by decide⟩, ?_⟩
  · decide +kernel
  · decide +kernel

end Waiting

end BufferFlow
