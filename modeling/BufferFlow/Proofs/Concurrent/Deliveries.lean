import BufferFlow.Proofs.Concurrent.Recycling
import BufferFlow.Proofs.Concurrent.Subjects
import BufferFlow.Proofs.Hub.Frames

set_option autoImplicit false

namespace BufferFlow

/-- What the call has in hand that is bound for the subscription, or was queued there. -/
def Call.bound (s : Nat) : Call → List (SlotRef × Nat)
  | pushing _ r n _ rest => List.replicate (rest.count s) (r, n)
  | withdrawing t drained _ | releasing t drained => if t = s then drained.map Copy.tag else []
  | _ => []

namespace Hub

variable {h : Hub} {s : Nat} {op : Operation}

def awaits (h : Hub) (s : Nat) : Bool :=
  (h.armedOf? s).any fun a => h.cells.get? a.cell = some none

/-- What the owner of the subscription gets at once, in hand or in the cell that he arms. -/
def handsOut (h : Hub) (s : Nat) : Operation → List Copy
  | .pull t =>
    if t = s then
      match (h.pull s).1 with
      | .ready y => [y]
      | _ => []
    else []
  | .arm t mailbox =>
    if t = s ∧ h.mailboxes.contains mailbox then
      ((h.arm s mailbox).2.contents? (h.arm s mailbox).1).toList
    else []
  | _ => []

def delivered (h : Hub) : List Copy := h.held ++ h.filled

theorem handsOut_others (other : op.owner? ≠ some s) : h.handsOut s op = [] := by
  cases op with
  | pull t => exact if_neg fun same => other (congrArg some same)
  | arm t mailbox => exact if_neg fun both => other (congrArg some both.1)
  | _ => rfl

/-! ## What comes out -/

theorem queueOf_pull (h : Hub) (s : Nat) :
    h.queueOf s = h.handsOut s (.pull s) ++ (h.pull s).2.queueOf s := by
  rcases pull_cases h s with ⟨same, nothing⟩ | ⟨sub, y, queue, hs, hq, ready, same⟩
  · rw [handsOut, if_pos rfl, same]
    split
    · rename_i y ready
      exact absurd ready (nothing y)
    · rfl
  · simp only [handsOut, ↓reduceIte, ready, same, queueOf, Table.get?_modify, hs, Option.map_some,
      Option.getD_some, hq, List.singleton_append]

theorem queueOf_cancel (h : Hub) (s : Nat) : (h.cancel s).queueOf s = h.queueOf s := by
  rw [queueOf, get?_cancel, queueOf]
  cases h.subscriptions.get? s <;> rfl

theorem queueOf_arm (h : Hub) (s : Nat) {mailbox : Nat} (there : h.mailboxes.contains mailbox) :
    h.queueOf s = h.handsOut s (.arm s mailbox) ++ (h.arm s mailbox).2.queueOf s := by
  rw [handsOut, if_pos ⟨rfl, there⟩, ← queueOf_cancel]
  rcases arm_cases h s mailbox with ⟨new, ⟨absent, same⟩ |
    ⟨sub, hs, ⟨y, queue, hq, same⟩ | ⟨hq, -, same⟩ | ⟨hq, -, same⟩⟩⟩ <;> rw [new, same] <;>
    simp only [queueOf, contents?, Table.get?_insert, ↓reduceIte, Option.bind_some, id]
  · exact (List.nil_append _).symm
  · simp only [Table.get?_modify, ↓reduceIte, hs, Option.map_some, Option.getD_some, hq,
      Option.toList_some, List.singleton_append]
  · simp only [Table.get?_modify, ↓reduceIte, hs, Option.map_some, Option.getD_some]
    rfl
  · exact (List.nil_append _).symm

theorem queueOf_atomic (one : op.Atomic) :
    h.queueOf s = h.handsOut s op ++ (h.apply op).queueOf s := by
  by_cases own : op.owner? = some s
  · cases op with
    | pull t =>
      obtain rfl : t = s := Option.some.inj own
      exact queueOf_pull h t
    | arm t mailbox =>
      obtain rfl : t = s := Option.some.inj own
      by_cases there : h.mailboxes.contains mailbox
      · rw [apply, if_pos there]
        exact queueOf_arm h t there
      · rw [apply, if_neg there, handsOut, if_neg fun both => there both.2]
        rfl
    | cancel t =>
      obtain rfl : t = s := Option.some.inj own
      exact (queueOf_cancel h t).symm
    | _ => simp [Operation.owner?] at own
  · rw [handsOut_others own, (Touches.atomic h one).queueOf own]
    rfl

theorem queueOf_push {sub : Subscription} (hs : h.subscriptions.get? s = some sub) (r : SlotRef)
    (serial : Nat) : h.queueOf s ++ [⟨r, serial, sub.erased⟩] =
      (h.push r serial s).queueOf s ++
        if h.awaits s then [⟨r, serial, sub.erased⟩] else [] := by
  rcases push_cases h s r serial with ⟨absent, -⟩ | ⟨sub', hs', cases⟩
  · simp [hs] at absent
  obtain rfl : sub = sub' := by simpa [hs] using hs'
  rcases cases with ⟨idle, same⟩ | ⟨a, armed, ⟨there, same⟩ | ⟨full, same⟩⟩ <;> rw [same]
  · simp only [awaits, armedOf?, queueOf, Table.get?_modify, ↓reduceIte, hs, idle, Option.map_some,
      Option.bind_some, Option.getD_some, Option.any_none, Bool.false_eq_true, List.append_nil]
  · simp only [awaits, armedOf?, queueOf, Table.get?_modify, ↓reduceIte, hs, armed, there,
      Option.map_some, Option.bind_some, Option.getD_some, Option.any_some, decide_true]
  · simp only [awaits, armedOf?, queueOf, Table.get?_modify, ↓reduceIte, hs, armed, full,
      Option.map_some, Option.bind_some, Option.getD_some, Option.any_some, decide_false,
      Bool.false_eq_true, List.append_nil]

/-! ## Where it goes -/

theorem delivered_pull {y : Copy} (ready : y ∈ h.handsOut s (.pull s)) :
    (h.pull s).2.delivered = h.handsOut s (.pull s) ++ h.delivered := by
  rw [handsOut, if_pos rfl] at ready ⊢
  rcases pull_cases h s with ⟨-, nothing⟩ | ⟨sub, z, queue, -, -, found, same⟩
  · split at ready
    · rename_i z found
      exact absurd found (nothing z)
    · simp at ready
  · rw [found, same]
    rfl

theorem delivered_arm {mailbox : Nat} {y : Copy} (filled : y ∈ h.handsOut s (.arm s mailbox)) :
    (h.arm s mailbox).2.delivered.Perm (h.handsOut s (.arm s mailbox) ++ h.delivered) := by
  rw [handsOut] at filled ⊢
  split at filled
  · rename_i both
    rw [if_pos both]
    have held := held_cancel h s
    rcases arm_cases h s mailbox with ⟨new, ⟨-, same⟩ |
      ⟨sub, -, ⟨z, queue, -, same⟩ | ⟨-, -, same⟩ | ⟨-, -, same⟩⟩⟩ <;>
      rw [new, same] at filled ⊢ <;>
      simp only [contents?, Table.get?_insert, ↓reduceIte, Option.bind_some, id] at filled ⊢
    · simp at filled
    · rw [delivered, Hub.filled, delivered, Hub.filled, Table.values_insert, held, cells_cancel]
      exact List.perm_middle
    · simp at filled
    · simp at filled
  · simp at filled

theorem delivered_push {sub : Subscription} (hs : h.subscriptions.get? s = some sub) (r : SlotRef)
    (serial : Nat) (awaited : h.awaits s) :
    (h.push r serial s).delivered.Perm (⟨r, serial, sub.erased⟩ :: h.delivered) := by
  rcases push_cases h s r serial with ⟨absent, -⟩ | ⟨sub', hs', cases⟩
  · simp [hs] at absent
  obtain rfl : sub = sub' := by simpa [hs] using hs'
  rcases cases with ⟨idle, -⟩ | ⟨a, armed, ⟨there, same⟩ | ⟨full, -⟩⟩
  · simp [awaits, armedOf?, hs, idle] at awaited
  · obtain ⟨rest, before, -, after⟩ := filled_perm there
    rw [same, delivered, filled, delivered]
    refine ((after fun _ => some ⟨r, serial, sub.erased⟩).append_left h.held).trans ?_
    exact List.perm_middle.trans ((before.symm.append_left h.held).cons _)
  · simp [awaits, armedOf?, hs, armed, full] at awaited

end Hub

namespace Concurrent

open Hub

variable {c : Concurrent} {hub : Hub} {s id : Nat} {call call' : Call} {x : Step}

def counts (s : Nat) (c : Concurrent) : Step → List (SlotRef × Nat)
  | .start _ => []
  | .resume id =>
    match c.calls.get? id with
    | some (.counting _ r n l) => List.replicate (l.count s) (r, n)
    | _ => []

def handsOut (s : Nat) (c : Concurrent) : Step → List (SlotRef × Nat)
  | .start op => if c.dropping s then [] else (c.hub.handsOut s op).map Copy.tag
  | .resume id =>
    match c.calls.get? id with
    | some (.pushing _ r n _ (t :: _)) => if t = s ∧ c.hub.awaits s then [(r, n)] else []
    | _ => []

def releases (s : Nat) (c : Concurrent) : Step → List (SlotRef × Nat)
  | .start _ => []
  | .resume id =>
    match c.calls.get? id with
    | some (.releasing t (y :: _)) => if t = s then [y.tag] else []
    | _ => []

/-- What was counted for the subscription and is neither handed out nor released. -/
def underway (s : Nat) (c : Concurrent) : List (SlotRef × Nat) :=
  c.gathered (Call.bound s) ++ (c.hub.queueOf s).map Copy.tag

/-! ## One step -/

theorem handsOut_waiting (waits : c.MayWait x) : c.handsOut s x = [] := by
  cases x with
  | start op =>
    rw [handsOut]
    split
    · rfl
    · rename_i free
      have other : op.owner? ≠ some s ∨ c.hub.handsOut s op = [] := by
        cases op with
        | pull t | arm t mailbox =>
          refine .inl fun same => free ?_
          obtain rfl : t = s := Option.some.inj same
          exact waits
        | _ => exact .inr rfl
      rcases other with other | nothing
      · rw [handsOut_others other]
        rfl
      · rw [nothing]
        rfl
  | resume id =>
    simp only [handsOut]
    split
    · rename_i found
      obtain ⟨t, p, same⟩ := waits _ found
      simp at same
    · rfl

theorem releases_waiting (waits : c.MayWait x) : c.releases s x = [] := by
  cases x with
  | start op => rfl
  | resume id =>
    simp only [releases]
    split
    · rename_i found
      obtain ⟨t, p, same⟩ := waits _ found
      simp at same
    · rfl

theorem counts_waiting (waits : c.MayWait x) : c.counts s x = [] := by
  cases x with
  | start op => rfl
  | resume id =>
    simp only [counts]
    split
    · rename_i found
      obtain ⟨t, p, same⟩ := waits _ found
      simp at same
    · rfl

theorem handsOut_atomic {op : Operation}
    (free : ∀ t, op.owner? = some t → ¬ c.dropping t) :
    c.handsOut s (.start op) = (c.hub.handsOut s op).map Copy.tag := by
  rw [handsOut]
  split
  · rename_i drops
    rw [handsOut_others fun own => free s own drops]
    rfl
  · rfl

theorem underway_exchange (found : c.calls.get? id = some call)
    {a b : List (SlotRef × Nat)}
    (exchanged : (a ++ (call.bound s ++ (c.hub.queueOf s).map Copy.tag)).Perm
      (b ++ (call'.bound s ++ (hub.queueOf s).map Copy.tag))) :
    (a ++ c.underway s).Perm (b ++ (c.proceed id hub call').underway s) :=
  gathered_moved found hub exchanged

theorem underway_proceed (found : c.calls.get? id = some call)
    (same : call'.bound s = call.bound s) (queue : hub.queueOf s = c.hub.queueOf s) :
    (c.underway s).Perm ((c.proceed id hub call').underway s) := by
  refine underway_exchange (a := []) (b := []) found ?_
  rw [same, queue]

theorem underway_finish (found : c.calls.get? id = some call) (nothing : call.bound s = [])
    (queue : hub.queueOf s = c.hub.queueOf s) :
    (c.underway s).Perm ((c.finish id hub).underway s) := by
  rw [underway, underway, ← queue]
  exact (gathered_over found hub nothing).append_right _

theorem underway_pushed {p : Nat} {r : SlotRef} {n fanOut t : Nat} {rest : List Nat}
    {sub : Subscription} (found : c.calls.get? id = some (.pushing p r n fanOut (t :: rest)))
    (there : c.hub.subscriptions.get? t = some sub) :
    (c.underway s).Perm ((if t = s ∧ c.hub.awaits s then [(r, n)] else []) ++
      (c.proceed id (c.hub.push r n t) (.pushing p r n fanOut rest)).underway s) := by
  refine underway_exchange (a := []) found ?_
  simp only [Call.bound, List.nil_append]
  by_cases here : t = s
  · subst here
    have queued := congrArg (List.map Copy.tag) (queueOf_push there r n)
    simp only [List.map_append, List.map_cons, List.map_nil, Copy.tag] at queued
    rw [List.count_cons_self, List.replicate_succ, List.cons_append]
    refine List.perm_middle.symm.trans (List.Perm.trans (List.Perm.append_left _
      ((List.perm_append_singleton _ _).symm.trans (List.Perm.of_eq queued))) ?_)
    refine List.perm_iff_count.2 fun e => ?_
    by_cases awaited : c.hub.awaits t <;>
      simp only [awaited, and_self, and_false, Bool.false_eq_true, ↓reduceIte, List.map_cons,
        List.map_nil, Copy.tag, List.count_append, List.count_nil] <;> omega
  · have other : some t ≠ some s := fun same => here (Option.some.inj same)
    rw [List.count_cons_of_ne (Ne.symm (Ne.symm here)), if_neg fun both => here both.1,
      (Touches.push c.hub r n t).queueOf other]
    rfl

/-- What is counted for the subscription is underway until it is handed out or released. -/
theorem underway_step (hw : c.Wired) (s : Nat) (x : Step) :
    (c.counts s x ++ c.underway s).Perm
      (c.handsOut s x ++ (c.releases s x ++ (c.step x).underway s)) := by
  have moved := step_transition c x
  have touches := touches_step c x
  generalize c.step x = c' at moved touches ⊢
  cases moved with
  | idle waits => rw [counts_waiting waits, handsOut_waiting waits, releases_waiting waits]; rfl
  | atomic one free =>
    rename_i op _
    rw [handsOut_atomic free]
    have queued := congrArg (List.map Copy.tag) (queueOf_atomic (h := c.hub) (s := s) one)
    rw [List.map_append] at queued
    refine ((List.Perm.of_eq queued).append_left (c.gathered (Call.bound s))).trans ?_
    refine List.perm_iff_count.2 fun e => ?_
    simp only [releases, underway, gathered, List.count_append, List.count_nil]
    omega
  | published owned unlocked =>
    simp only [counts, handsOut, releases, Hub.handsOut, List.map_nil, ite_self]
    exact List.Perm.refl _
  | left =>
    rename_i t sub found free
    have queue : (c.hub.modifySubscription t ({ · with publisher := none })).queueOf s =
        c.hub.queueOf s := by
      rw [queueOf, modifySubscription, Table.get?_modify, queueOf]
      split
      · cases c.hub.subscriptions.get? s <;> rfl
      · rfl
    simp only [counts, handsOut, releases, Hub.handsOut, List.map_nil, ite_self, List.nil_append]
    rw [underway, ← queue]
    cases sub.publisher <;> exact List.Perm.refl _
  | closed =>
    simp only [counts, handsOut, releases, Hub.handsOut, List.map_nil, ite_self]
    exact List.Perm.refl _
  | unheard found | delisted found =>
    simp only [counts, handsOut, releases, found, List.count_nil, List.replicate_zero,
      List.nil_append]
    exact underway_proceed found rfl rfl
  | counted found =>
    simp only [counts, handsOut, releases, found, List.nil_append]
    exact underway_exchange (b := []) found (List.Perm.refl _)
  | pushed found =>
    obtain ⟨sub, there⟩ := hw.present ((hw.fits _ _ found).mem List.mem_cons_self)
    simp only [counts, handsOut, releases, found, List.nil_append]
    exact underway_pushed found there
  | unlocked found | tornDown _ found =>
    simp only [counts, handsOut, releases, found, List.nil_append]
    exact underway_finish found rfl rfl
  | recycled found =>
    rename_i r n
    simp only [counts, handsOut, releases, found, List.nil_append]
    refine underway_finish found rfl ?_
    have links := (SamePeers.recycle c.hub r).links
    rw [queueOf, count, links.subscriptions, queueOf]
  | drained found there =>
    rename_i t sub
    simp only [counts, handsOut, releases, found, List.nil_append]
    refine underway_exchange (a := []) (b := []) found ?_
    by_cases here : t = s
    · subst here
      simp [Call.bound, queueOf, modifySubscription, Table.get?_modify, there]
    · simp only [subject?, found] at touches
      have other : some t ≠ some s := fun same => here (Option.some.inj same)
      have queue := touches.queueOf other
      simp only [Call.bound, if_neg here, List.nil_append]
      exact List.Perm.of_eq (congrArg _ queue.symm)
  | withdrawn log found =>
    rename_i armed
    simp only [counts, handsOut, releases, found, List.nil_append]
    refine underway_proceed found rfl ?_
    cases armed <;> rfl
  | released found =>
    rename_i t y drained
    simp only [counts, handsOut, releases, found, List.nil_append]
    refine underway_exchange (a := []) found ?_
    have links := (SamePeers.giveUp c.hub y).links
    have queue : (c.hub.giveUp y).queueOf s = c.hub.queueOf s := by
      rw [queueOf, links.subscriptions, queueOf]
    rw [queue]
    by_cases here : t = s <;> simp [Call.bound, here]
  | ended found =>
    rename_i t
    simp only [counts, handsOut, releases, found, List.nil_append]
    refine underway_finish found ?_ ?_
    · simp [Call.bound]
    · by_cases here : t = s
      · subst here
        obtain ⟨sub, there, -, empty, -⟩ := (hw.fits _ _ found).empty rfl
        simp [queueOf, count, Table.get?_erase, there, empty]
      · simp only [subject?, found] at touches
        exact touches.queueOf fun same => here (Option.some.inj same)
  | invalidated found there first =>
    rename_i p n t P rest
    simp only [counts, handsOut, releases, found, List.nil_append]
    refine underway_proceed found rfl ?_
    rw [queueOf, get?_invalidate, queueOf]
    split
    · cases c.hub.subscriptions.get? s <;> rfl
    · rfl
  | lost found gone =>
    rcases gone with ⟨t, rfl, -⟩ | ⟨p, n, rfl, -⟩ <;>
      simp only [counts, handsOut, releases, found, List.nil_append] <;>
      exact underway_finish found rfl rfl

theorem delivered_step (hw : c.Wired) (out : c.handsOut s x ≠ []) :
    ((c.step x).hub.delivered.map Copy.tag).Perm
      (c.handsOut s x ++ c.hub.delivered.map Copy.tag) := by
  cases x with
  | start op =>
    rw [handsOut] at out ⊢
    split at out
    · exact absurd rfl out
    rename_i free
    rw [if_neg free]
    obtain ⟨y, hy⟩ := List.exists_mem_of_ne_nil _ fun nothing =>
      out (congrArg (List.map Copy.tag) nothing)
    have own : op.owner? = some s := by
      by_contra other
      simp [handsOut_others other] at hy
    cases op with
    | pull t =>
      obtain rfl : t = s := Option.some.inj own
      simp only [step, start, if_neg free, apply]
      rw [← List.map_append, delivered_pull hy]
    | arm t mailbox =>
      obtain rfl : t = s := Option.some.inj own
      have there : c.hub.mailboxes.contains mailbox := by
        by_contra missing
        rw [Hub.handsOut, if_neg fun both => missing both.2] at hy
        simp at hy
      simp only [step, start, if_neg free, apply, if_pos there]
      rw [← List.map_append]
      exact (delivered_arm hy).map _
    | cancel => simp [Hub.handsOut] at hy
    | _ => simp [Operation.owner?] at own
  | resume id =>
    simp only [handsOut] at out ⊢
    split at out
    · rename_i p r n fanOut t rest found
      split at out
      · rename_i both
        obtain ⟨rfl, awaited⟩ := both
        obtain ⟨sub, there⟩ := hw.present ((hw.fits _ _ found).mem List.mem_cons_self)
        simp only [found, step, resume, advance, proceed, awaited, and_self, ↓reduceIte]
        exact (delivered_push there r n awaited).map _
      · exact absurd rfl out
    · exact absurd rfl out

/-! ## A run -/

theorem underway_run (hw : c.Wired) (s : Nat) (steps : List Step) :
    (c.along (counts s) steps ++ c.underway s).Perm
      (c.along (handsOut s) steps ++ (c.along (releases s) steps ++ (c.run steps).underway s)) := by
  induction steps generalizing c with
  | nil => exact List.Perm.refl _
  | cons x steps ih =>
    refine List.perm_iff_count.2 fun e => ?_
    have first := (underway_step hw s x).count_eq e
    have rest := (ih (hw.step x)).count_eq e
    simp only [along, List.count_append] at first rest ⊢
    change _ = _ + (_ + (((c.step x).run steps).underway s).count e)
    omega

/-! ## Numbers -/

/-- The publication whose copies a step counts, or which ends for want of a listener. -/
def settles (c : Concurrent) : Step → List (SlotRef × Nat)
  | .start _ => []
  | .resume id =>
    match c.calls.get? id with
    | some (.counting _ r n (_ :: _)) | some (.recycling r n) => [(r, n)]
    | _ => []

theorem settles_waiting (waits : c.MayWait x) : c.settles x = [] := by
  cases x with
  | start op => rfl
  | resume id =>
    simp only [settles]
    split <;> first
      | rfl
      | rename_i found
        obtain ⟨t, p, same⟩ := waits _ found
        simp at same

theorem counts_sublist (hw : c.Wired) (s : Nat) (x : Step) :
    (c.counts s x).Sublist (c.settles x) := by
  cases x with
  | start op => exact List.Sublist.refl _
  | resume id =>
    simp only [counts]
    split
    · rename_i p r n l found
      have once : l.count s ≤ 1 := by
        have taken : l = c.hub.receivers p := hw.fits _ _ found
        exact List.nodup_iff_count_le_one.1 (taken ▸ hw.once p) s
      cases l with
      | nil => exact List.nil_sublist _
      | cons t rest =>
        simp only [settles, found]
        exact (List.replicate_sublist_replicate (r, n)).2 once
    · exact List.nil_sublist _

theorem preparing_balance (c : Concurrent) (x : Step) :
    (c.settles x ++ (c.step x).preparing).Perm c.preparing ∨
    ∃ t, c.Publishes x t ∧ c.settles x = [] ∧ (c.step x).preparing = t :: c.preparing := by
  have moved := step_transition c x
  generalize c.step x = c' at moved ⊢
  cases moved with
  | idle waits =>
    rw [settles_waiting waits]
    exact .inl (List.Perm.refl _)
  | atomic | closed => exact .inl (List.Perm.refl _)
  | published owned unlocked =>
    rename_i p r
    exact .inr ⟨(r, c.hub.serial), ⟨p, rfl, owned, unlocked, rfl⟩, rfl, rfl⟩
  | left =>
    rename_i t sub found free
    cases sub.publisher <;> exact .inl (List.Perm.refl _)
  | counted found somebody =>
    rename_i r n l
    obtain ⟨t, rest, rfl⟩ := List.exists_cons_of_ne_nil somebody
    simp only [settles, found]
    exact .inl ((gathered_exchange found _ _ Call.preparing))
  | recycled found =>
    simp only [settles, found]
    exact .inl (gathered_finish found _ Call.preparing).symm
  | unheard found | pushed found | delisted found | drained found | withdrawn _ found
  | released found | invalidated found =>
    simp only [settles, found, List.nil_append]
    refine .inl (List.Perm.symm ?_)
    exact gathered_same found _ rfl
  | unlocked found | ended found | tornDown _ found =>
    simp only [settles, found, List.nil_append]
    exact .inl (gathered_over found _ rfl).symm
  | lost found gone =>
    rcases gone with ⟨t, rfl, -⟩ | ⟨p, n, rfl, -⟩ <;>
      simp only [settles, found, List.nil_append] <;>
      exact .inl (gathered_over found _ rfl).symm

def Distinct (settled : List (SlotRef × Nat)) (c : Concurrent) : Prop :=
  ((settled ++ c.preparing).map Prod.snd).Nodup ∧
    ∀ t ∈ settled ++ c.preparing, t.2 < c.hub.serial

theorem Distinct.step {settled : List (SlotRef × Nat)} (distinct : Distinct settled c) (x : Step) :
    Distinct (settled ++ c.settles x) (c.step x) := by
  rw [Distinct, List.append_assoc]
  rcases preparing_balance c x with same | ⟨t, publishes, unsettled, now⟩
  · have same := same.append_left settled
    refine ⟨(same.map Prod.snd).nodup_iff.2 distinct.1, fun t ht => ?_⟩
    exact Nat.lt_of_lt_of_le (distinct.2 t (same.subset ht)) (serial_le_step c x)
  · obtain ⟨p, -, -, -, number⟩ := id publishes
    have same : (settled ++ ([] ++ t :: c.preparing)).Perm (t :: (settled ++ c.preparing)) :=
      List.perm_middle
    rw [unsettled, now, publishes.serial]
    refine ⟨(same.map Prod.snd).nodup_iff.2 (List.nodup_cons.2 ⟨fun member => ?_, distinct.1⟩),
      fun u hu => ?_⟩
    · obtain ⟨u, hu, equal⟩ := List.mem_map.1 member
      exact Nat.ne_of_lt (distinct.2 u hu) (equal.trans number)
    · rcases List.mem_cons.1 (same.subset hu) with rfl | old
      · exact number ▸ Nat.lt_succ_self _
      · exact Nat.lt_succ_of_lt (distinct.2 u old)

theorem Distinct.run {settled : List (SlotRef × Nat)} (distinct : Distinct settled c)
    (steps : List Step) : Distinct (settled ++ c.along settles steps) (c.run steps) := by
  induction steps generalizing c settled with
  | nil =>
    rw [along, List.append_nil]
    exact distinct
  | cons x steps ih =>
    rw [along, ← List.append_assoc]
    exact ih (distinct.step x)

theorem along_sublist {α : Type} {f g : Concurrent → Step → List α}
    (less : ∀ c : Concurrent, c.Wired → ∀ x, (f c x).Sublist (g c x)) (hw : c.Wired)
    (steps : List Step) : (c.along f steps).Sublist (c.along g steps) := by
  induction steps generalizing c with
  | nil => exact List.Sublist.refl _
  | cons x steps ih => exact (less c hw x).append (ih (hw.step x))

theorem counts_nodup (s : Nat) (steps : List Step) :
    (({} : Concurrent).along (counts s) steps).Nodup := by
  have distinct : Distinct [] {} :=
    ⟨List.nodup_nil, fun t ht => by simp [preparing, gathered, Table.values] at ht⟩
  have settled := (distinct.run steps).1
  rw [List.nil_append, List.map_append] at settled
  have less := along_sublist (fun c hw x => counts_sublist (c := c) hw s x) Wired.empty steps
  exact less.nodup (List.Nodup.of_map Prod.snd (List.nodup_append.1 settled).1)

end Concurrent

end BufferFlow
