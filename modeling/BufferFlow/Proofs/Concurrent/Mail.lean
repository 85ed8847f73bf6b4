import BufferFlow.Proofs.Concurrent.Wiring
import BufferFlow.Proofs.Hub.Mail

set_option autoImplicit false

namespace BufferFlow

open Hub

/-- The subscription whose armed cell was taken away, with the mailbox that is still to be told. -/
def Call.untold : Call → List (Nat × Nat)
  | withdrawing s _ armed => armed.toList.map fun a => (s, a.mailbox)
  | _ => []

theorem Hub.Tallied.atomic {h : Hub} {due : Nat → Nat} {op : Operation} (ht : h.Tallied due)
    (one : op.Atomic) (undue : due h.mailboxes.next = 0) : (h.apply op).Tallied due := by
  by_cases hop : op.OnBuffers
  · exact ht.ofLinks (SameLinks.apply h hop)
  cases op with
  | newMailbox => exact ht.newMailbox undue
  | newPublisher => exact ht.congr (fun _ _ => id) rfl fun _ => rfl
  | subscribeDetached => exact ht.newSubscription rfl rfl rfl
  | subscribe p erased =>
    rcases subscribe_cases h p erased with ⟨-, ⟨-, same⟩ | ⟨P, counters, log, -, same⟩⟩ <;>
      rw [apply, same] <;> exact ht.newSubscription rfl rfl rfl
  | pull s =>
    rcases pull_cases h s with ⟨same, -⟩ | ⟨sub, x, queue, -, -, -, same⟩ <;> rw [apply, same]
    · exact ht
    · exact ht.ofArmed (s := s) (f := ({ · with queue })) (fun _ _ => rfl) rfl rfl
  | arm s mailbox =>
    rw [apply]
    split
    · rename_i there
      exact ht.arm s there
    · exact ht
  | cancel s => exact ht.cancel s
  | takeCell cell =>
    rcases takeCell_cases h cell with ⟨-, -, same⟩ | ⟨x, -, -, same⟩ <;> rw [apply, same]
    · exact ht
    · exact ht.congr (fun _ _ => id) rfl fun _ => rfl
  | dropCell cell =>
    rcases dropCell_cases h cell with ⟨-, same⟩ | ⟨x, -, same⟩ <;> rw [apply, same]
    · exact ht.congr (fun _ _ => id) rfl fun _ => rfl
    · have erased : { h with cells := h.cells.erase cell }.Tallied due :=
        ht.congr (fun _ _ => id) rfl fun _ => rfl
      exact erased.ofLinks (SamePeers.giveUp { h with cells := h.cells.erase cell } x).links
  | publish | dropSubscription | dropPublisher => exact one.elim
  | newPool | acquire | write | chain | dropBlank | wait | erase | release | tally =>
    exact absurd trivial hop

namespace Concurrent

variable {c : Concurrent} {hub : Hub} {id : Nat} {call call' : Call} {x : Step}

/-- The notices of a step, each with the subscription that it is about. -/
def posts (c : Concurrent) : Step → List (Nat × Mail)
  | .start (.arm s mailbox) =>
    if c.dropping s then [] else (c.hub.mail (.arm s mailbox)).map (s, ·)
  | .start (.cancel s) => if c.dropping s then [] else (c.hub.cancelMail s).map (s, ·)
  | .start _ => []
  | .resume id =>
    match c.calls.get? id with
    | some (.pushing _ _ _ _ (s :: _)) => (c.hub.pushMail s).map (s, ·)
    | some (.withdrawing s _ armed) => armed.toList.map fun a => (s, ⟨a.mailbox, .withdrawn⟩)
    | some (.invalidating p _) =>
      (c.hub.receivers p).head?.toList.flatMap fun s => (c.hub.invalidateMail s).map (s, ·)
    | _ => []

def mail (c : Concurrent) (x : Step) : List Mail := (c.posts x).map Prod.snd

def untold (c : Concurrent) : List (Nat × Nat) := c.gathered Call.untold

def due (c : Concurrent) (m : Nat) : Nat := c.untold.countP fun e => e.2 = m

theorem posts_waiting (waits : c.MayWait x) : c.posts x = [] := by
  cases x with
  | start op =>
    cases op with
    | arm s mailbox | cancel s => exact if_pos waits
    | _ => rfl
  | resume id =>
    simp only [posts]
    split <;> first
      | rfl
      | rename_i found
        obtain ⟨s, p, same⟩ := waits _ found
        simp at same

theorem mail_atomic {op : Operation} (one : op.Atomic)
    (free : ∀ s, op.owner? = some s → ¬ c.dropping s) : c.mail (.start op) = c.hub.mail op := by
  cases op with
  | arm s mailbox | cancel s =>
    simp only [mail, posts, if_neg (free s rfl), List.map_map]
    exact List.map_id _
  | publish | dropSubscription | dropPublisher => exact one.elim
  | _ => rfl

theorem posts_invalidated {p n s : Nat} {P : Publisher} {rest : List Nat}
    (found : c.calls.get? id = some (.invalidating p n))
    (there : c.hub.publishers.get? p = some P) (first : P.receivers = s :: rest) :
    c.posts (.resume id) = (c.hub.invalidateMail s).map (s, ·) := by
  simp only [posts, found, receivers_eq there, first, List.head?_cons, Option.toList_some,
    List.flatMap_cons, List.flatMap_nil, List.append_nil]

theorem mailboxes_step (c : Concurrent) (old : x ≠ .start .newMailbox) :
    (c.step x).hub.mailboxes = post c.hub.mailboxes (c.mail x) := by
  have moved := step_transition c x
  generalize c.step x = c' at moved ⊢
  have unposted : ∀ {hub : Hub}, hub.mailboxes = c.hub.mailboxes → c.posts x = [] →
      hub.mailboxes = post c.hub.mailboxes (c.mail x) := by
    intro hub same nothing
    rw [mail, nothing]
    exact same
  cases moved with
  | idle waits => exact unposted rfl (posts_waiting waits)
  | atomic one free =>
    rw [mail_atomic one free]
    exact mailboxes_apply fun same => old (same ▸ rfl)
  | published | left | closed => exact unposted rfl rfl
  | pushed found =>
    rename_i r n _ s _
    simp only [mail, posts, found, List.map_map]
    exact (mailboxes_push c.hub r n s).trans (congrArg _ (List.map_id _).symm)
  | recycled found =>
    rename_i r _
    exact unposted (SamePeers.recycle c.hub r).links.mailboxes (by simp only [posts, found])
  | withdrawn log found =>
    rename_i armed
    simp only [mail, posts, found, List.map_map]
    cases armed <;> rfl
  | released found =>
    rename_i y _
    exact unposted (SamePeers.giveUp c.hub y).links.mailboxes (by simp only [posts, found])
  | invalidated found there first =>
    rename_i p n s P rest
    rw [mail, posts_invalidated found there first, List.map_map]
    exact (mailboxes_invalidate { c.hub with publishers := c.hub.publishers.modify p (·.tail) }
      s).trans (congrArg _ (List.map_id _).symm)
  | tornDown log found there nobody =>
    refine unposted rfl ?_
    simp only [posts, found, receivers_eq there, nobody]
    rfl
  | lost found gone =>
    refine unposted rfl ?_
    rcases gone with ⟨s, rfl, -⟩ | ⟨p, n, rfl, absent⟩
    · simp only [posts, found]
    · simp only [posts, found, receivers_absent absent]
      rfl
  | unheard found | counted found | unlocked found | delisted found | drained found | ended found =>
    exact unposted rfl (by simp only [posts, found])

/-- Every mailbox counts the subscriptions that are armed against it and the cells that it is still
to be told of. -/
structure Tallied (c : Concurrent) : Prop where
  hub : c.hub.Tallied c.due
  known : ∀ e ∈ c.untold, e.2 < c.hub.mailboxes.next

theorem Tallied.empty : ({} : Concurrent).Tallied :=
  ⟨⟨fun _ _ => nofun, fun _ hm => absurd hm (Nat.not_lt_zero _), fun _ _ => nofun⟩, fun _ => nofun⟩

namespace Tallied

theorem undue (ht : c.Tallied) : c.due c.hub.mailboxes.next = 0 := by
  refine List.countP_eq_zero.2 fun e he same => ?_
  exact Nat.ne_of_lt (ht.known e he) (of_decide_eq_true same)

theorem ofUntold (ht : c.Tallied) {c' : Concurrent} (untold : c.untold.Perm c'.untold)
    (counted : c'.hub.Tallied c.due) (next : c'.hub.mailboxes.next = c.hub.mailboxes.next) :
    c'.Tallied := by
  have due : c'.due = c.due := funext fun m => (untold.countP_eq _).symm
  refine ⟨due ▸ counted, fun e he => ?_⟩
  rw [next]
  exact ht.known e (untold.mem_iff.2 he)

theorem atomic (ht : c.Tallied) {op : Operation} (one : op.Atomic) :
    Tallied { c with hub := c.hub.apply op } := by
  refine ⟨ht.hub.atomic one ht.undue, fun e he => Nat.lt_of_lt_of_le (ht.known e he) ?_⟩
  by_cases old : op = .newMailbox
  · subst old
    exact Nat.le_succ _
  · exact Nat.le_of_eq ((congrArg Table.next (mailboxes_apply old)).trans (next_post _ _)).symm

theorem due_exchange (found : c.calls.get? id = some call) (hub : Hub) (call' : Call) (m : Nat) :
    (call.untold.countP fun e => e.2 = m) + (c.proceed id hub call').due m =
      (call'.untold.countP fun e => e.2 = m) + c.due m := by
  have exchanged := (gathered_exchange found hub call' Call.untold).countP_eq fun e => e.2 = m
  rwa [List.countP_append, List.countP_append] at exchanged

theorem drained (ht : c.Tallied) {s : Nat} {sub : Subscription}
    (found : c.calls.get? id = some (.draining s))
    (there : c.hub.subscriptions.get? s = some sub) :
    (c.proceed id (c.hub.modifySubscription s ({ · with queue := [], armed := none }))
      (.withdrawing s sub.queue sub.armed)).Tallied := by
  let emptied (sub : Subscription) : Subscription := { sub with queue := [], armed := none }
  let c' := c.proceed id (c.hub.modifySubscription s emptied) (.withdrawing s sub.queue sub.armed)
  have due : ∀ m, c'.due m = (if sub.armed.any (·.mailbox = m) then 1 else 0) + c.due m := by
    intro m
    have exchanged := due_exchange found (c.hub.modifySubscription s emptied)
      (.withdrawing s sub.queue sub.armed) m
    refine (Nat.zero_add _).symm.trans (exchanged.trans (congrArg (· + c.due m) ?_))
    cases sub.armed <;> simp [Call.untold, List.countP_cons]
  refine ⟨ht.hub.exchange (l := []) trivial rfl (fun t a armed => ht.hub.1 t a ?_) fun m => ?_,
    fun e he => ?_⟩
  · obtain ⟨sub', hsub', armed⟩ := armedOf?_eq_some.1 armed
    change (c.hub.subscriptions.modify s emptied).get? t = some sub' at hsub'
    rw [Table.get?_modify] at hsub'
    split at hsub'
    · obtain ⟨old, -, rfl⟩ := Option.map_eq_some_iff.1 hsub'
      simp [emptied] at armed
    · exact armedOf?_eq_some.2 ⟨sub', hsub', armed⟩
  · have change := armedWith_modify c.hub s emptied m
    rw [armedOf?, there] at change
    simp only [Option.bind_some, Option.map_some, emptied, Option.any_none, Bool.false_eq_true,
      ↓reduceIte, Nat.add_zero] at change
    have now := due m
    change (c'.hub.armedWith m + c'.due m + 0) = c.hub.armedWith m + c.due m + 0
    change c'.hub.armedWith m + _ = _ at change
    omega
  · have exchanged := gathered_exchange found (c.hub.modifySubscription s emptied)
      (.withdrawing s sub.queue sub.armed) Call.untold
    rcases List.mem_append.1 (exchanged.mem_iff.1 he) with own | other
    · obtain ⟨a, ha, rfl⟩ := List.mem_map.1 own
      exact ht.hub.1 s a (armedOf?_eq_some.2 ⟨sub, there, Option.mem_toList.1 ha⟩)
    · exact ht.known e other

theorem found_untold (ht : c.Tallied) {s m : Nat} (untold : (s, m) ∈ c.untold) :
    ∃ M, c.hub.mailboxes.get? m = some M ∧ 0 < M.pending := by
  obtain ⟨M, hM⟩ := Option.isSome_iff_exists.1 (ht.hub.2.1 m (ht.known _ untold))
  have counted := ht.hub.2.2 m M hM
  have positive : 0 < c.due m := List.countP_pos_iff.2 ⟨_, untold, decide_eq_true rfl⟩
  exact ⟨M, hM, by omega⟩

theorem unclamped_withdrawn (ht : c.Tallied) {s : Nat} {drained : List Copy} {armed : Option Armed}
    (found : c.calls.get? id = some (.withdrawing s drained armed)) :
    Unclamped c.hub.mailboxes (armed.toList.map fun a => ⟨a.mailbox, .withdrawn⟩) := by
  cases armed with
  | none => trivial
  | some a =>
    have untold : (s, a.mailbox) ∈ c.untold :=
      mem_gathered.2 ⟨id, _, found, List.mem_singleton_self _⟩
    obtain ⟨M, hM, positive⟩ := ht.found_untold untold
    exact ⟨⟨M, hM, fun _ => positive⟩, trivial⟩

theorem withdrawn (ht : c.Tallied) {s : Nat} {drained : List Copy} {armed : Option Armed}
    (log : List Record) (found : c.calls.get? id = some (.withdrawing s drained armed)) :
    (c.proceed id { c.hub.withdraw armed with log } (.releasing s drained)).Tallied := by
  let hub := { c.hub.withdraw armed with log }
  have exchanged := due_exchange found hub (.releasing s drained)
  have subscriptions : hub.subscriptions = c.hub.subscriptions := by cases armed <;> rfl
  have mailboxes : hub.mailboxes =
      post c.hub.mailboxes (armed.toList.map fun a => ⟨a.mailbox, .withdrawn⟩) := by
    cases armed <;> rfl
  refine ⟨ht.hub.exchange (ht.unclamped_withdrawn found) mailboxes (fun t a armed => ?_) fun m => ?_,
    fun e he => ?_⟩
  · refine ht.hub.1 t a ?_
    rwa [proceed, armedOf?, subscriptions] at armed
  · have change := exchanged m
    have untold : (Call.untold (.withdrawing s drained armed)).countP (fun e => e.2 = m) =
        if armed.any (·.mailbox = m) then 1 else 0 := by
      cases armed <;> simp [Call.untold, List.countP_cons]
    rw [discountedIn_map _ _ fun _ => rfl, expectedIn_map _ _ fun _ => rfl, proceed, armedWith,
      subscriptions, armedWith]
    rw [untold] at change
    simp only [Call.untold, List.countP_nil] at change
    change _ + (c.proceed id hub (.releasing s drained)).due m + _ = _
    omega
  · have next : hub.mailboxes.next = c.hub.mailboxes.next := by rw [mailboxes, next_post]
    have before := gathered_exchange found hub (.releasing s drained) Call.untold
    rw [proceed, next]
    exact ht.known e (before.mem_iff.1 (List.mem_append_right _ he))

theorem step (ht : c.Tallied) (hw : c.Wired) (x : Step) : (c.step x).Tallied := by
  have moved := step_transition c x
  generalize c.step x = c' at moved ⊢
  have posted : ∀ {t : Table Mailbox} {l : List Mail}, t = post c.hub.mailboxes l →
      t.next = c.hub.mailboxes.next := fun same => by rw [same, next_post]
  cases moved with
  | idle => exact ht
  | atomic one => exact ht.atomic one
  | published => exact ht.ofUntold (List.Perm.refl _) (ht.hub.ofLinks ⟨rfl, rfl, rfl, rfl⟩) rfl
  | left =>
    rename_i s sub _ _
    have still : (c.hub.modifySubscription s ({ · with publisher := none })).Tallied c.due :=
      ht.hub.ofArmed (s := s) (f := ({ · with publisher := none })) (fun _ _ => rfl) rfl rfl
    cases sub.publisher <;> exact ht.ofUntold (List.Perm.refl _) still rfl
  | closed => exact ht.ofUntold (List.Perm.refl _) ht.hub rfl
  | unheard found => exact ht.ofUntold (gathered_same found _ rfl) ht.hub rfl
  | counted found =>
    exact ht.ofUntold (gathered_same found _ rfl) (ht.hub.ofLinks ⟨rfl, rfl, rfl, rfl⟩) rfl
  | pushed found =>
    rename_i r n _ s _
    exact ht.ofUntold (gathered_same found _ rfl) (ht.hub.push r n s)
      (posted (mailboxes_push c.hub r n s))
  | unlocked found => exact ht.ofUntold (gathered_over found _ rfl) ht.hub rfl
  | recycled found =>
    rename_i r _
    have links := (SamePeers.recycle c.hub r).links
    have back : (c.hub.recycle r).Tallied c.due := ht.hub.ofLinks links
    exact ht.ofUntold (gathered_over found _ rfl) back (congrArg Table.next links.mailboxes)
  | delisted found =>
    exact ht.ofUntold (gathered_same found _ rfl) (ht.hub.congr (fun _ _ => id) rfl fun _ => rfl) rfl
  | drained found there => exact ht.drained found there
  | withdrawn log found => exact ht.withdrawn log found
  | released found =>
    rename_i y _
    have links := (SamePeers.giveUp c.hub y).links
    exact ht.ofUntold (gathered_same found _ rfl) (ht.hub.ofLinks links)
      (congrArg Table.next links.mailboxes)
  | ended found =>
    rename_i s
    obtain ⟨sub, there, -, -, unarmed⟩ := (hw.fits _ _ found).empty rfl
    have idle : c.hub.armedOf? s = none := by
      rw [armedOf?, there]
      exact unarmed
    exact ht.ofUntold (gathered_over found _ rfl) (ht.hub.forget idle rfl rfl) rfl
  | invalidated found =>
    rename_i p n s P rest _ _
    let tailed := { c.hub with publishers := c.hub.publishers.modify p (·.tail) }
    have still : tailed.Tallied c.due := ht.hub.congr (fun _ _ => id) rfl fun _ => rfl
    exact ht.ofUntold (gathered_same found _ rfl) (still.invalidate s)
      (posted (mailboxes_invalidate tailed s))
  | tornDown log found =>
    exact ht.ofUntold (gathered_over found _ rfl) (ht.hub.congr (fun _ _ => id) rfl fun _ => rfl) rfl
  | lost found gone =>
    refine ht.ofUntold (gathered_over found _ ?_) ht.hub rfl
    rcases gone with ⟨s, rfl, -⟩ | ⟨p, n, rfl, -⟩ <;> rfl

theorem unclamped (ht : c.Tallied) (x : Step) : Unclamped c.hub.mailboxes (c.mail x) := by
  have moved := step_transition c x
  generalize c.step x = c' at moved
  have unposted : c.posts x = [] → Unclamped c.hub.mailboxes (c.mail x) := by
    intro nothing
    rw [mail, nothing]
    trivial
  have told : ∀ (s : Nat) (l : List Mail), (l.map (s, ·)).map Prod.snd = l := fun s l => by
    rw [List.map_map]
    exact List.map_id l
  cases moved with
  | idle waits => exact unposted (posts_waiting waits)
  | atomic one free =>
    rw [mail_atomic one free]
    exact ht.hub.unclamped_mail _
  | published | left | closed => exact unposted rfl
  | pushed found =>
    rename_i s _
    simp only [mail, posts, found, told]
    exact ht.hub.unclamped s _
  | withdrawn log found =>
    simp only [mail, posts, found, List.map_map]
    exact ht.unclamped_withdrawn found
  | invalidated found there first =>
    rw [mail, posts_invalidated found there first, told]
    exact ht.hub.unclamped _ _
  | tornDown log found there nobody =>
    refine unposted ?_
    simp only [posts, found, receivers_eq there, nobody]
    rfl
  | lost found gone =>
    refine unposted ?_
    rcases gone with ⟨s, rfl, -⟩ | ⟨p, n, rfl, absent⟩
    · simp only [posts, found]
    · simp only [posts, found, receivers_absent absent]
      rfl
  | unheard found | counted found | unlocked found | recycled found | delisted found | drained found
  | released found | ended found => exact unposted (by simp only [posts, found])

end Tallied

theorem Reachable.tallied (hc : c.Reachable) : c.Tallied := by
  obtain ⟨steps, rfl⟩ := hc
  suffices ∀ c : Concurrent, c.Tallied → c.Wired → (c.run steps).Tallied from
    this {} Tallied.empty Wired.empty
  induction steps with
  | nil => exact fun c ht _ => ht
  | cons x steps ih => exact fun c ht hw => ih (c.step x) (ht.step hw x) (hw.step x)

end Concurrent

end BufferFlow
