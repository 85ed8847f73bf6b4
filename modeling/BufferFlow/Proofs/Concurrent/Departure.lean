import BufferFlow.Proofs.Concurrent.Deliveries
import BufferFlow.Proofs.Concurrent.Mail

set_option autoImplicit false

namespace BufferFlow

def Call.targets : Call → List Nat
  | counting _ _ _ l => l
  | pushing _ _ _ _ rest => rest
  | _ => []

/-- The mailboxes that are still to be told of the subscription's cell. -/
def Call.untoldOf (s : Nat) (call : Call) : List Nat :=
  (call.untold.filter (·.1 = s)).map Prod.snd

theorem Call.untoldOf_withdrawing (s t : Nat) (drained : List Copy) (armed : Option Armed) :
    (withdrawing t drained armed).untoldOf s =
      if t = s then armed.toList.map (·.mailbox) else [] := by
  rw [untoldOf, untold, List.filter_map]
  split
  · rename_i here
    simp [Function.comp_def, here]
  · rename_i other
    simp [Function.comp_def, other]

namespace Hub

variable {h : Hub} {s : Nat}

theorem armedOf?_push_own (h : Hub) (r : SlotRef) (serial s : Nat) :
    (h.push r serial s).armedOf? s = none := by
  obtain ⟨f, unarmed, subscriptions⟩ := subscriptions_push h r serial s
  rw [armedOf?, subscriptions, Table.get?_modify, if_pos rfl]
  cases h.subscriptions.get? s with
  | none => rfl
  | some sub => exact unarmed sub

theorem armedOf?_invalidate_own (h : Hub) (s : Nat) : (h.invalidate s).armedOf? s = none := by
  rw [armedOf?, get?_invalidate, if_pos rfl]
  cases h.subscriptions.get? s <;> rfl

theorem mail_gone (gone : h.Gone s) {op : Operation} (own : op.owner? = some s) :
    h.mail op = [] := by
  have idle : h.armedOf? s = none := by rw [armedOf?, gone.1]; rfl
  cases op with
  | pull => rfl
  | arm t mailbox =>
    obtain rfl : t = s := Option.some.inj own
    simp only [mail, armMail, cancelMail, armNewMail, idle, gone.1, Option.toList_none, List.map_nil,
      List.append_nil, ite_self]
  | cancel t =>
    obtain rfl : t = s := Option.some.inj own
    simp only [mail, cancelMail, idle, Option.toList_none, List.map_nil]
  | _ => simp [Operation.owner?] at own

end Hub

namespace Concurrent

open Hub

variable {c c' : Concurrent} {hub : Hub} {s id : Nat} {call call' : Call} {x : Step}

/-- The queue and the armed cell were taken away. -/
def Drained (s : Nat) (c : Concurrent) : Prop :=
  (∃ id call, c.calls.get? id = some call ∧ call.emptied = some s) ∨ c.hub.Gone s

def Leaving (s : Nat) (c : Concurrent) : Prop := c.dropping s ∨ c.hub.Gone s

/-- Nothing is there, and nothing can come. -/
structure Vacant (s : Nat) (c : Concurrent) : Prop where
  queue : c.hub.queueOf s = []
  armed : c.hub.armedOf? s = none
  unlisted : ∀ p, s ∉ c.hub.receivers p
  untargeted : ∀ id call, c.calls.get? id = some call → s ∉ call.targets

def pushesTo (c : Concurrent) : Step → Option Nat
  | .start _ => none
  | .resume id =>
    match c.calls.get? id with
    | some (.pushing _ _ _ _ (s :: _)) => some s
    | _ => none

/-- Other subscriptions are as they were, and on the same lists in the same order. -/
def Apart (s : Nat) (c c' : Concurrent) : Prop :=
  (∀ t, t ≠ s → c'.hub.subscriptions.get? t = c.hub.subscriptions.get? t) ∧
    ∀ p, (c'.hub.receivers p).filter (· ≠ s) = (c.hub.receivers p).filter (· ≠ s)

theorem drop_step (hw : c.Wired) (found : c.calls.get? id = some call)
    (drops : call.drops = some s) (x : Step) :
    (∃ call', (c.step x).calls.get? id = some call' ∧ call'.drops = some s ∧
      (call.emptied = some s → call'.emptied = some s)) ∨ (c.step x).hub.Gone s := by
  by_cases own : x = .resume id
  · subst own
    obtain ⟨sub, there, -⟩ := (hw.fits id call found).gone drops
    have moved := step_transition c (.resume id)
    generalize c.step (.resume id) = c' at moved ⊢
    have goes_on : ∀ {hub : Hub} {call' : Call}, call'.drops = some s →
        (call.emptied = some s → call'.emptied = some s) →
        ∃ call'', (c.proceed id hub call').calls.get? id = some call'' ∧ call''.drops = some s ∧
          (call.emptied = some s → call''.emptied = some s) := fun still empty =>
      ⟨_, (get?_proceed found _ _ id).trans (if_pos rfl), still, empty⟩
    cases moved with
    | idle => exact .inl ⟨call, found, drops, fun same => same⟩
    | unheard here | counted here | pushed here | unlocked here | recycled here | invalidated here
    | tornDown _ here =>
      obtain rfl := Option.some.inj (found.symm.trans here)
      simp [Call.drops] at drops
    | delisted here | drained here =>
      obtain rfl := Option.some.inj (found.symm.trans here)
      exact .inl (goes_on drops (by simp [Call.emptied]))
    | withdrawn _ here | released here =>
      obtain rfl := Option.some.inj (found.symm.trans here)
      exact .inl (goes_on drops fun same => same)
    | ended here =>
      obtain rfl := Option.some.inj (found.symm.trans here)
      obtain rfl := Option.some.inj drops
      exact .inr ⟨(Table.get?_erase _ _ _).trans (if_pos rfl),
        Table.get?_lt (t := c.hub.subscriptions) there⟩
    | lost here gone =>
      obtain rfl := Option.some.inj (found.symm.trans here)
      rcases gone with ⟨t, rfl, absent⟩ | ⟨p, n, rfl, -⟩
      · obtain rfl := Option.some.inj drops
        simp [there] at absent
      · simp [Call.drops] at drops
  · exact .inl ⟨call, get?_others found own, drops, fun same => same⟩

theorem gone_step (gone : c.hub.Gone s) (x : Step) : (c.step x).hub.Gone s :=
  (touches_step c x).gone s gone

theorem Leaving.step (hw : c.Wired) (leaving : c.Leaving s) (x : Step) : (c.step x).Leaving s := by
  rcases leaving with drops | gone
  · obtain ⟨id, call, found, drops⟩ := dropping_iff.1 drops
    exact (drop_step hw found drops x).imp_left fun ⟨call', there, still, _⟩ =>
      dropping_iff.2 ⟨id, call', there, still⟩
  · exact .inr (gone_step gone x)

theorem Leaving.run (hw : c.Wired) (leaving : c.Leaving s) (steps : List Step) :
    (c.run steps).Leaving s := by
  induction steps generalizing c with
  | nil => exact leaving
  | cons x steps ih => exact ih (hw.step x) (leaving.step hw x)

theorem Drained.step (hw : c.Wired) (drained : c.Drained s) (x : Step) : (c.step x).Drained s := by
  rcases drained with ⟨id, call, found, emptied⟩ | gone
  · exact (drop_step hw found (Call.drops_of_emptied emptied) x).imp_left
      fun ⟨call', there, _, empty⟩ => ⟨id, call', there, empty emptied⟩
  · exact .inr (gone_step gone x)

theorem unlisted_of_gone (hw : c.Wired) (gone : c.hub.Gone s) (p : Nat) :
    s ∉ c.hub.receivers p := by
  intro listed
  obtain ⟨sub, there⟩ := hw.present listed
  simp [gone.1] at there

theorem Drained.vacant (hw : c.Wired) (drained : c.Drained s) : c.Vacant s := by
  have unlisted : ∀ p, s ∉ c.hub.receivers p := by
    intro p
    rcases drained with ⟨id, call, found, emptied⟩ | gone
    · refine hw.unlisted found (Call.drops_of_emptied emptied) (fun q same => ?_) p
      subst same
      simp [Call.emptied] at emptied
    · exact unlisted_of_gone hw gone p
  have nothing : c.hub.queueOf s = [] ∧ c.hub.armedOf? s = none := by
    rw [queueOf, armedOf?]
    rcases drained with ⟨id, call, found, emptied⟩ | gone
    · obtain ⟨sub, there, -, queue, armed⟩ := (hw.fits id call found).empty emptied
      rw [there]
      exact ⟨queue, armed⟩
    · rw [gone.1]
      exact ⟨rfl, rfl⟩
  refine ⟨nothing.1, nothing.2, unlisted, fun id call found target => ?_⟩
  have fits := hw.fits id call found
  cases call with
  | counting p r n l => exact unlisted p ((show l = _ from fits) ▸ target)
  | pushing p r n fanOut rest => exact unlisted p ((show rest <:+ _ from fits).mem target)
  | _ => simp [Call.targets] at target

theorem Vacant.unpushed (vacant : c.Vacant s) (x : Step) : c.pushesTo x ≠ some s := by
  cases x with
  | start op => exact nofun
  | resume id =>
    simp only [pushesTo]
    split
    · rename_i found
      intro same
      obtain rfl := Option.some.inj same
      exact vacant.untargeted _ _ found List.mem_cons_self
    · exact nofun

theorem apart_step (own : x = .start (.dropSubscription s) ∨
    ∃ id call, x = .resume id ∧ c.calls.get? id = some call ∧ call.drops = some s) :
    Apart s c (c.step x) := by
  have moved := step_transition c x
  generalize c.step x = c' at moved ⊢
  have same : ∀ {c' : Concurrent}, c'.hub.publishers = c.hub.publishers →
      (∀ t, t ≠ s → c'.hub.subscriptions.get? t = c.hub.subscriptions.get? t) → Apart s c c' :=
    fun publishers others => ⟨others, fun p => by rw [receivers_congr publishers]⟩
  rcases own with rfl | ⟨id, call, rfl, found, drops⟩
  · cases moved with
    | idle => exact same rfl fun _ _ => rfl
    | atomic one => exact one.elim
    | left =>
      exact same rfl fun t other => (Table.get?_modify _ _ _ _).trans (if_neg other)
  · have here : ∀ {call'}, c.calls.get? id = some call' → call'.drops = some s := fun found' =>
      (Option.some.inj (found.symm.trans found')) ▸ drops
    cases moved with
    | idle => exact same rfl fun _ _ => rfl
    | unheard at_ | counted at_ | pushed at_ | unlocked at_ | recycled at_ | invalidated at_
    | tornDown _ at_ => simpa [Call.drops] using here at_
    | delisted at_ =>
      obtain rfl := Option.some.inj (here at_)
      refine ⟨fun _ _ => rfl, fun q => ?_⟩
      rw [proceed, receivers_delist]
      split
      · rw [List.filter_filter]
        exact List.filter_congr fun t _ => Bool.and_self _
      · rfl
    | drained at_ =>
      obtain rfl := Option.some.inj (here at_)
      exact same rfl fun t other => (Table.get?_modify _ _ _ _).trans (if_neg other)
    | withdrawn log at_ =>
      rename_i armed
      exact same (by cases armed <;> rfl) fun _ _ => by cases armed <;> rfl
    | released at_ =>
      rename_i y _
      have links := (SamePeers.giveUp c.hub y).links
      exact same links.publishers fun t _ => by rw [proceed, links.subscriptions]
    | ended at_ =>
      obtain rfl := Option.some.inj (here at_)
      exact same rfl fun t other => (Table.get?_erase _ _ _).trans (if_neg other)
    | lost => exact same rfl fun _ _ => rfl

/-- What a step tells a mailbox about the subscription. -/
def about (s : Nat) (c : Concurrent) (x : Step) : List Mail :=
  ((c.posts x).filter (·.1 = s)).map Prod.snd

/-- The mailbox that still counts the subscription: its cell is armed, or its drop is still to tell. -/
def countedBy (s : Nat) (c : Concurrent) : List Nat :=
  c.gathered (Call.untoldOf s) ++ (c.hub.armedOf? s).toList.map (·.mailbox)

theorem about_of_posts {t : Nat} {l : List Mail} (posts : c.posts x = l.map (t, ·)) :
    c.about s x = if t = s then l else [] := by
  rw [about, posts, List.filter_map]
  split
  · rename_i here
    simp [Function.comp_def, here]
  · rename_i other
    simp [Function.comp_def, other]

theorem countedBy_exchange (found : c.calls.get? id = some call) {l : List Nat}
    (exchanged : (call.untoldOf s ++ (c.hub.armedOf? s).toList.map (·.mailbox)).Perm
      (l ++ (call'.untoldOf s ++ (hub.armedOf? s).toList.map (·.mailbox)))) :
    (c.countedBy s).Perm (l ++ (c.proceed id hub call').countedBy s) :=
  gathered_moved (a := []) found hub exchanged

theorem countedBy_proceed (found : c.calls.get? id = some call)
    (untold : call'.untoldOf s = call.untoldOf s) (armed : hub.armedOf? s = c.hub.armedOf? s) :
    (c.countedBy s).Perm ((c.proceed id hub call').countedBy s) := by
  refine countedBy_exchange (l := []) found ?_
  rw [untold, armed]
  exact List.Perm.refl _

theorem countedBy_finish (found : c.calls.get? id = some call) (untold : call.untoldOf s = [])
    (armed : hub.armedOf? s = c.hub.armedOf? s) :
    (c.countedBy s).Perm ((c.finish id hub).countedBy s) := by
  rw [countedBy, countedBy, ← armed]
  exact (gathered_over found hub untold).append_right _

theorem posts_atomic {op : Operation} (one : op.Atomic)
    (free : ∀ t, op.owner? = some t → ¬ c.dropping t) :
    c.posts (.start op) = op.owner?.toList.flatMap fun t => (c.hub.mail op).map (t, ·) := by
  cases op with
  | arm t mailbox | cancel t =>
    simp only [posts, if_neg (free t rfl), Operation.owner?, Option.toList_some, List.flatMap_cons,
      List.flatMap_nil, List.append_nil, Hub.mail]
  | publish | dropSubscription | dropPublisher => exact one.elim
  | _ => rfl

theorem posts_start (c : Concurrent) (op : Operation) : c.posts (.start op) = [] ∨
    op.Atomic ∧ ∀ t, op.owner? = some t → ¬ c.dropping t := by
  cases op with
  | arm t mailbox | cancel t =>
    by_cases drops : c.dropping t
    · exact .inl (if_pos drops)
    · exact .inr ⟨trivial, fun u own => Option.some.inj own ▸ drops⟩
  | _ => exact .inl rfl

theorem about_atomic (leaving : c.Leaving s) {op : Operation} (one : op.Atomic)
    (free : ∀ t, op.owner? = some t → ¬ c.dropping t) : c.about s (.start op) = [] := by
  cases owner : op.owner? with
  | none => simp [about, posts_atomic one free, owner]
  | some t =>
    have posts : c.posts (.start op) = (c.hub.mail op).map (t, ·) := by
      simp [posts_atomic one free, owner]
    rw [about_of_posts posts]
    split
    · rename_i here
      subst here
      exact mail_gone (leaving.resolve_left (free t owner)) owner
    · rfl

theorem about_pushed {p : Nat} {r : SlotRef} {n fanOut t : Nat} {rest : List Nat}
    (found : c.calls.get? id = some (.pushing p r n fanOut (t :: rest))) :
    c.about s (.resume id) = if t = s then c.hub.pushMail t else [] :=
  about_of_posts (by simp only [posts, found])

theorem about_withdrawn {t : Nat} {drained : List Copy} {armed : Option Armed}
    (found : c.calls.get? id = some (.withdrawing t drained armed)) :
    c.about s (.resume id) =
      if t = s then armed.toList.map fun a => ⟨a.mailbox, .withdrawn⟩ else [] :=
  about_of_posts (by simp only [posts, found, List.map_map, Function.comp_def])

theorem about_invalidated {p n t : Nat} {P : Publisher} {rest : List Nat}
    (found : c.calls.get? id = some (.invalidating p n))
    (there : c.hub.publishers.get? p = some P) (first : P.receivers = t :: rest) :
    c.about s (.resume id) = if t = s then c.hub.invalidateMail t else [] :=
  about_of_posts (posts_invalidated found there first)

theorem posts_silent {P : Publisher} {p n : Nat} (found : c.calls.get? id = some (.invalidating p n))
    (there : c.hub.publishers.get? p = some P) (nobody : P.receivers = []) :
    c.posts (.resume id) = [] := by
  simp only [posts, found, receivers_eq there, nobody]
  rfl

theorem countedBy_step (hw : c.Wired) (leaving : c.Leaving s) (x : Step) :
    (c.countedBy s).Perm ((c.about s x).map (·.mailbox) ++ (c.step x).countedBy s) := by
  have moved := step_transition c x
  have touches := touches_step c x
  have gone_on : c.hub.Gone s → (c.step x).hub.Gone s := fun gone => gone_step gone x
  generalize c.step x = c' at moved touches gone_on ⊢
  have untold_of : ∀ {l : List Nat}, c.posts x = [] → (c.countedBy s).Perm l →
      (c.countedBy s).Perm ((c.about s x).map (·.mailbox) ++ l) := by
    intro l nothing same
    rw [about, nothing]
    exact same
  cases moved with
  | idle waits => exact untold_of (posts_waiting waits) (List.Perm.refl _)
  | atomic one free =>
    rename_i op _
    rw [about_atomic leaving one free, countedBy, countedBy]
    by_cases own : op.owner? = some s
    · have gone := leaving.resolve_left (free s own)
      rw [armedOf?, gone.1, armedOf?, (gone_on gone).1]
      exact List.Perm.refl _
    · rw [subject?_atomic one] at touches
      rw [touches.armedOf? own]
      exact List.Perm.refl _
  | published | closed => exact untold_of rfl (List.Perm.refl _)
  | left =>
    rename_i t sub found free
    have armed : (c.hub.modifySubscription t ({ · with publisher := none })).armedOf? s =
        c.hub.armedOf? s := by
      rw [armedOf?, modifySubscription, Table.get?_modify, armedOf?]
      split
      · cases c.hub.subscriptions.get? s <;> rfl
      · rfl
    refine untold_of rfl ?_
    rw [countedBy, ← armed]
    cases sub.publisher <;> exact List.Perm.refl _
  | pushed found =>
    rename_i p r n fanOut t rest
    rw [about_pushed found]
    refine countedBy_exchange found ?_
    split
    · rename_i here
      subst here
      rw [armedOf?_push_own, pushMail, List.map_map]
      exact List.Perm.of_eq (List.append_nil _).symm
    · rename_i other
      simp only [subject?, found] at touches
      exact (touches.armedOf? fun same => other (Option.some.inj same)) ▸ List.Perm.refl _
  | drained found there =>
    rename_i t sub
    refine untold_of (by simp only [posts, found]) ?_
    refine countedBy_exchange (l := []) found ?_
    rw [Call.untoldOf_withdrawing]
    by_cases here : t = s
    · subst here
      simp [Call.untoldOf, Call.untold, armedOf?, modifySubscription, Table.get?_modify, there]
    · simp only [subject?, found] at touches
      have armed := touches.armedOf? fun same => here (Option.some.inj same)
      rw [if_neg here]
      exact List.Perm.of_eq (congrArg (fun o => o.toList.map Armed.mailbox) armed.symm)
  | withdrawn log found =>
    rename_i t drained armed
    rw [about_withdrawn found]
    refine countedBy_exchange found ?_
    have same : { c.hub.withdraw armed with log }.armedOf? s = c.hub.armedOf? s := by
      cases armed <;> rfl
    rw [same, Call.untoldOf_withdrawing]
    split
    · rw [List.map_map]
      exact List.Perm.refl _
    · exact List.Perm.refl _
  | invalidated found there first =>
    rename_i p n t P rest
    rw [about_invalidated found there first]
    refine countedBy_exchange found ?_
    split
    · rename_i here
      subst here
      rw [armedOf?_invalidate_own, invalidateMail, List.map_map]
      exact List.Perm.of_eq (List.append_nil _).symm
    · rename_i other
      rw [subject?_invalidated found there first] at touches
      have armed := touches.armedOf? fun same => other (Option.some.inj same)
      exact List.Perm.of_eq (congrArg (fun o => o.toList.map Armed.mailbox) armed.symm)
  | ended found =>
    rename_i t
    refine untold_of (by simp only [posts, found]) (countedBy_finish found rfl ?_)
    by_cases here : t = s
    · subst here
      obtain ⟨sub, there, -, -, unarmed⟩ := (hw.fits _ _ found).empty rfl
      simp [armedOf?, count, Table.get?_erase, there, unarmed]
    · simp only [subject?, found] at touches
      exact touches.armedOf? fun same => here (Option.some.inj same)
  | recycled found | unlocked found =>
    simp only [subject?, found] at touches
    have armed := touches.armedOf? (t := s) (by simp)
    exact untold_of (by simp only [posts, found]) (countedBy_finish found rfl armed)
  | released found | unheard found | counted found | delisted found =>
    simp only [subject?, found] at touches
    have armed := touches.armedOf? (t := s) (by simp)
    exact untold_of (by simp only [posts, found]) (countedBy_proceed found rfl armed)
  | tornDown log found there nobody =>
    exact untold_of (posts_silent found there nobody) (countedBy_finish found rfl rfl)
  | lost found gone =>
    rcases gone with ⟨t, rfl, -⟩ | ⟨p, n, rfl, absent⟩
    · exact untold_of (by simp only [posts, found]) (countedBy_finish found rfl rfl)
    · refine untold_of ?_ (countedBy_finish found rfl rfl)
      simp only [posts, found, receivers_absent absent]
      rfl

theorem about_discounts (leaving : c.Leaving s) {told : Mail} (member : told ∈ c.about s x) :
    told.notice.discounts := by
  cases x with
  | start op =>
    rcases c.posts_start op with nothing | ⟨one, free⟩
    · simp [about, nothing] at member
    · simp [about_atomic leaving one free] at member
  | resume id =>
    obtain ⟨⟨t, notice⟩, filtered, rfl⟩ := List.mem_map.1 member
    have posted := (List.mem_filter.1 filtered).1
    simp only [posts] at posted
    split at posted
    · obtain ⟨m, hm, same⟩ := List.mem_map.1 posted
      obtain ⟨a, -, rfl⟩ := List.mem_map.1 hm
      obtain ⟨-, rfl⟩ := Prod.mk.inj same
      dsimp only
      split <;> rfl
    · obtain ⟨a, -, same⟩ := List.mem_map.1 posted
      obtain ⟨-, rfl⟩ := Prod.mk.inj same
      rfl
    · obtain ⟨u, -, posted⟩ := List.mem_flatMap.1 posted
      obtain ⟨m, hm, same⟩ := List.mem_map.1 posted
      obtain ⟨a, -, rfl⟩ := List.mem_map.1 hm
      obtain ⟨-, rfl⟩ := Prod.mk.inj same
      rfl
    · simp at posted

theorem countedBy_run (hw : c.Wired) (leaving : c.Leaving s) (steps : List Step) :
    (c.countedBy s).Perm
        ((c.along (about s) steps).map (·.mailbox) ++ (c.run steps).countedBy s) ∧
      ∀ told ∈ c.along (about s) steps, told.notice.discounts := by
  induction steps generalizing c with
  | nil => exact ⟨List.Perm.refl _, fun _ => nofun⟩
  | cons x steps ih =>
    obtain ⟨rest, discount⟩ := ih (hw.step x) (leaving.step hw x)
    rw [along, List.map_append, List.append_assoc]
    refine ⟨(countedBy_step hw leaving x).trans (rest.append_left _), fun told member => ?_⟩
    rcases List.mem_append.1 member with now | later
    · exact about_discounts leaving now
    · exact discount told later

theorem untold_free (free : ¬ c.dropping s) : c.gathered (Call.untoldOf s) = [] := by
  refine List.eq_nil_iff_forall_not_mem.2 fun m untold => free ?_
  obtain ⟨id, call, found, member⟩ := mem_gathered.1 untold
  cases call with
  | withdrawing t drained armed =>
    rw [Call.untoldOf_withdrawing] at member
    split at member
    · rename_i here
      exact dropping_iff.2 ⟨id, _, found, congrArg some here⟩
    · simp at member
  | _ => simp [Call.untoldOf, Call.untold] at member

theorem underway_over (vacant : c.Vacant s) (free : ¬ c.dropping s) : c.underway s = [] := by
  rw [underway, vacant.queue, List.map_nil, List.append_nil]
  refine List.eq_nil_iff_forall_not_mem.2 fun e member => ?_
  obtain ⟨id, call, found, bound⟩ := mem_gathered.1 member
  have undropped : call.drops ≠ some s := fun drops => free (dropping_iff.2 ⟨id, call, found, drops⟩)
  have untargeted := vacant.untargeted id call found
  cases call with
  | pushing p r n fanOut rest =>
    have absent : rest.count s = 0 := List.count_eq_zero.2 untargeted
    simp [Call.bound, absent] at bound
  | withdrawing t | releasing t =>
    rw [Call.bound, if_neg fun here => undropped (congrArg some here)] at bound
    exact List.not_mem_nil bound
  | _ => simp [Call.bound] at bound

theorem releases_given {t : SlotRef × Nat} (released : t ∈ c.releases s x) :
    t ∈ givenUp (c.moves x) := by
  cases x with
  | start op => simp [releases] at released
  | resume id =>
    simp only [releases] at released
    split at released
    · rename_i u y drained found
      simp only [moves, found]
      split at released
      · obtain rfl := List.mem_singleton.1 released
        exact List.mem_filterMap.2 ⟨_, List.mem_cons_self, rfl⟩
      · simp at released
    · simp at released

/-- What dropping a subscription comes to, seen in the state `c` after `whole` from the start. Its
last `steps`, from `c₁` on, were made since the drop began. -/
structure Departed (s : Nat) (armed : Option Armed) (whole steps : List Step) (c₁ c : Concurrent) :
    Prop where
  drained : ∀ id, c.calls.get? id = some (.draining s) → (c.step (.resume id)).Drained s
  /-- From the drain on nothing is there, and nothing is pushed any more. -/
  sealed : c.Drained s → c.Vacant s ∧ ∀ x, c.pushesTo x ≠ some s ∧ (c.step x).Drained s
  finished : ¬ c.dropping s →
    c.Drained s ∧ c.hub.Gone s ∧ c.underway s = [] ∧ c.countedBy s = []
  once : (({} : Concurrent).along (counts s) whole).Nodup
  copies : (({} : Concurrent).along (counts s) whole).Perm
    (({} : Concurrent).along (handsOut s) whole ++
      (({} : Concurrent).along (releases s) whole ++ c.underway s))
  handedOut : ∀ x, c.handsOut s x ≠ [] → ((c.step x).hub.delivered.map Copy.tag).Perm
    (c.handsOut s x ++ c.hub.delivered.map Copy.tag)
  released : ∀ x, ∀ t ∈ c.releases s x, t ∈ givenUp (c.moves x)
  told : (armed.toList.map (·.mailbox)).Perm
    ((c₁.along (about s) steps).map (·.mailbox) ++ c.countedBy s)
  discounts : ∀ told ∈ c₁.along (about s) steps, told.notice.discounts
  pending : ∀ m M, c.hub.mailboxes.get? m = some M → M.pending = c.hub.armedWith m + c.due m
  unclamped : ∀ x, Unclamped c.hub.mailboxes (c.mail x)
  mail : ∀ x, x ≠ .start .newMailbox →
    (c.step x).hub.mailboxes = post c.hub.mailboxes (c.mail x)
  apart : ∀ id call, c.calls.get? id = some call → call.drops = some s →
    Apart s c (c.step (.resume id))

/-- Dropping a subscription step by step, beside the steps of any other calls, loses no copy: what
is counted for it is handed out or released once, or is underway, and nothing is underway when the
drop is over. From the drain on nothing is pushed to it, its mailbox is discounted once, and no
other subscription changes. -/
theorem departed_without_loss {sub : Subscription} {c₀ c₁ : Concurrent} {before whole : List Step}
    (steps : List Step) (reached : c₀ = run {} before)
    (found : c₀.hub.subscriptions.get? s = some sub) (free : ¬ c₀.dropping s)
    (began : c₁ = c₀.step (.start (.dropSubscription s))) (ran : c = c₁.run steps)
    (history : whole = before ++ .start (.dropSubscription s) :: steps) :
    Apart s c₀ c₁ ∧ Departed s sub.armed whole steps c₁ c := by
  have ended : c = run {} whole := by
    rw [ran, began, reached, history, run_append]
    rfl
  have reached₀ : c₀.Reachable := ⟨before, reached⟩
  have reached₁ : c₁.Reachable := began ▸ reached₀.step _
  have reachedNow : c.Reachable := ⟨whole, ended⟩
  have hw := reachedNow.wired
  have starts : c₁ = c₀.begin (c₀.hub.modifySubscription s ({ · with publisher := none }))
      (leaving s sub.publisher) := by
    rw [began, step, start, found]
    exact if_neg free
  have leaving₁ : c₁.Leaving s := by
    refine .inl (dropping_iff.2 ⟨c₀.calls.next, leaving s sub.publisher, ?_, ?_⟩)
    · rw [starts, get?_begin, if_pos rfl]
    · cases sub.publisher <;> rfl
  obtain ⟨told, discounts⟩ := countedBy_run reached₁.wired leaving₁ steps
  have gone : ¬ c.dropping s → c.hub.Gone s :=
    (ran ▸ leaving₁.run reached₁.wired steps : c.Leaving s).resolve_left
  refine ⟨began ▸ apart_step (.inl rfl), {
    drained := fun id here => ?_
    sealed := fun drained => ⟨drained.vacant hw, fun x => ⟨(drained.vacant hw).unpushed x,
      drained.step hw x⟩⟩
    finished := fun finished => ?_
    once := counts_nodup s whole
    copies := ?_
    handedOut := fun x => delivered_step hw
    released := fun x t => releases_given
    told := ?_
    discounts
    pending := reachedNow.tallied.hub.2.2
    unclamped := reachedNow.tallied.unclamped
    mail := fun x => c.mailboxes_step
    apart := fun id call here drops => apart_step (.inr ⟨id, call, rfl, here, drops⟩) }⟩
  · obtain ⟨sub', there, -⟩ := hw.fits id _ here
    refine .inl ⟨id, .withdrawing s sub'.queue sub'.armed, ?_, rfl⟩
    simp only [step, resume, here, advance, there]
    exact (get?_proceed here _ _ id).trans (if_pos rfl)
  · have vacant := Drained.vacant hw (.inr (gone finished))
    refine ⟨.inr (gone finished), gone finished, underway_over vacant finished, ?_⟩
    rw [countedBy, untold_free finished, vacant.armed]
    rfl
  · have balance := underway_run Wired.empty s whole
    rw [← ended] at balance
    simpa [underway, gathered, Table.values, queueOf] using balance
  · have before : c₁.countedBy s = sub.armed.toList.map (·.mailbox) := by
      have same : c₁.gathered (Call.untoldOf s) = c₀.gathered (Call.untoldOf s) := by
        rw [starts]
        cases sub.publisher <;> rfl
      rw [countedBy, same, untold_free free, starts, begin, armedOf?, modifySubscription,
        Table.get?_modify, if_pos rfl, found]
      rfl
    rw [← before, ran]
    exact told

/-- Two publishes run between the drop's first two critical sections. The push of the first fills
the armed cell, and what the second pushes is drained. -/
theorem departed_without_loss_raced :
    ∃ (before steps whole : List Step) (c₀ c₁ c : Concurrent) (sub : Subscription),
      c₀ = run {} before ∧ c₀.hub.subscriptions.get? 0 = some sub ∧ ¬ c₀.dropping 0 ∧
      c₁ = c₀.step (.start (.dropSubscription 0)) ∧ c = c₁.run steps ∧
      whole = before ++ .start (.dropSubscription 0) :: steps ∧ ¬ c.dropping 0 ∧
      (({} : Concurrent).along (handsOut 0) whole = [(⟨0, 0⟩, 0)]) ∧
      (({} : Concurrent).along (releases 0) whole = [(⟨0, 1⟩, 1)]) ∧
      c₁.along (about 0) steps = [⟨0, .arrived⟩] ∧ Departed 0 sub.armed whole steps c₁ c := by
  let before : List Step := [.start (.newPool "frames" 2 Payload.Shape.signal.factory),
    .start (.newPublisher "camera" 0), .start (.subscribe 0 false), .start .newMailbox,
    .start (.arm 0 0), .start (.acquire 0), .start (.acquire 0), .start (.publish 0 ⟨0, 0⟩),
    .resume 0]
  let steps : List Step := [.resume 0, .resume 1, .resume 0, .start (.publish 0 ⟨0, 1⟩), .resume 2,
    .resume 2, .resume 2, .resume 1, .resume 1, .resume 1, .resume 1, .resume 1]
  obtain ⟨sub, found⟩ : ∃ sub, (run {} before).hub.subscriptions.get? 0 = some sub :=
    Option.isSome_iff_exists.1 (by decide +kernel)
  have free : ¬ (run {} before).dropping 0 := by decide +kernel
  obtain ⟨-, departed⟩ := departed_without_loss steps rfl found free rfl rfl rfl
  exact ⟨before, steps, _, _, _, _, sub, rfl, found, free, rfl, rfl, rfl, by decide +kernel,
    by decide +kernel, by decide +kernel, by decide +kernel, departed⟩

end Concurrent

end BufferFlow
