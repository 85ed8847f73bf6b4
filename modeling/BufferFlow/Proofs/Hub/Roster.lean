import BufferFlow.Proofs.Hub.Origins
import Mathlib.Data.List.Induction

set_option autoImplicit false

/-! # The lists of publishers

A subscription is on the list of the publisher that it was taken from, and on no other, until one of
the two is dropped. So a run of operations determines the lists, and the receivers of every
publication. -/

namespace BufferFlow

/-- A subscription as it was taken from a publisher. -/
structure Enrolment where
  subscription : Nat
  publisher : Nat
  erased : Bool
  deriving DecidableEq

def Operation.ends (e : Enrolment) : Operation → Bool
  | dropSubscription s => s = e.subscription
  | dropPublisher p => p = e.publisher
  | _ => false

theorem Operation.ends_iff {e : Enrolment} {op : Operation} :
    op.ends e = true ↔ op = .dropSubscription e.subscription ∨ op = .dropPublisher e.publisher := by
  cases op <;> simp [ends]

namespace Hub

variable {h : Hub} {p s : Nat} {e : Enrolment} {R : List Enrolment} {op : Operation}
  {ops : List Operation}

def enrolment? (h : Hub) : Operation → Option Enrolment
  | .subscribe p erased =>
    if h.publishers.contains p then some ⟨h.subscriptions.next, p, erased⟩ else none
  | _ => none

/-- The subscriptions that were taken along the run and of which neither side was dropped since, in
the order in which they were taken. -/
def roster (h : Hub) : List Operation → List Enrolment
  | [] => []
  | op :: ops =>
    (h.enrolment? op).toList.filter (fun e => ops.all fun later => !later.ends e) ++
      (h.apply op).roster ops

def listed (R : List Enrolment) (p : Nat) (erased : Bool) : List Nat :=
  (R.filter fun e => e.publisher = p ∧ e.erased = erased).map (·.subscription)

theorem mem_listed {erased : Bool} : s ∈ listed R p erased ↔ ⟨s, p, erased⟩ ∈ R := by
  rw [listed, List.mem_map]
  constructor
  · rintro ⟨e, member, rfl⟩
    obtain ⟨inR, same⟩ := List.mem_filter.1 member
    obtain ⟨rfl, rfl⟩ := of_decide_eq_true same
    exact inR
  · exact fun inR => ⟨_, List.mem_filter.2 ⟨inR, by simp⟩, rfl⟩

theorem listed_append (R S : List Enrolment) (p : Nat) (erased : Bool) :
    listed (R ++ S) p erased = listed R p erased ++ listed S p erased := by
  rw [listed, List.filter_append, List.map_append]
  rfl

theorem length_listed_add (R : List Enrolment) (p : Nat) :
    (listed R p false).length + (listed R p true).length = R.countP (·.publisher = p) := by
  induction R with
  | nil => rfl
  | cons e R ih =>
    rw [List.countP_cons, ← ih]
    simp only [listed, List.length_map, List.filter_cons]
    by_cases here : e.publisher = p
    · cases kind : e.erased <;> simp [here] <;> omega
    · simp [here]

theorem roster_snoc (h : Hub) (ops : List Operation) (op : Operation) :
    h.roster (ops ++ [op]) =
      (h.roster ops).filter (fun e => !op.ends e) ++ ((h.applyAll ops).enrolment? op).toList := by
  induction ops generalizing h with
  | nil =>
    have all : ∀ l : List Enrolment, (l.filter fun _ => true) = l := fun l => by simp
    simp only [List.nil_append, roster, List.all_nil, all, List.append_nil, List.filter_nil]
    rfl
  | cons first ops ih =>
    simp only [List.cons_append, roster, ih, List.filter_append, List.append_assoc,
      List.filter_filter, List.all_append, List.all_cons, List.all_nil, Bool.and_comm]
    rfl

theorem mem_roster : e ∈ h.roster ops ↔ ∃ before after,
    ops = before ++ .subscribe e.publisher e.erased :: after ∧
    (h.applyAll before).publishers.contains e.publisher ∧
    (h.applyAll before).subscriptions.next = e.subscription ∧
    .dropSubscription e.subscription ∉ after ∧ .dropPublisher e.publisher ∉ after := by
  have taken : ∀ (g : Hub) (op : Operation), e ∈ (g.enrolment? op).toList ↔
      op = .subscribe e.publisher e.erased ∧ g.publishers.contains e.publisher ∧
        g.subscriptions.next = e.subscription := by
    intro g op
    cases op with
    | subscribe p erased =>
      rw [enrolment?]
      constructor
      · intro member
        split at member
        · rename_i alive
          obtain rfl := List.mem_singleton.1 member
          exact ⟨rfl, alive, rfl⟩
        · exact absurd member List.not_mem_nil
      · rintro ⟨same, alive, next⟩
        obtain ⟨rfl, rfl⟩ := Operation.subscribe.inj same
        rw [if_pos alive, next]
        exact List.mem_cons_self
    | _ => simp [enrolment?]
  have spared : ∀ later : List Operation, (later.all fun op => !op.ends e) = true ↔
      .dropSubscription e.subscription ∉ later ∧ .dropPublisher e.publisher ∉ later := by
    intro later
    simp only [List.all_eq_true, Bool.not_eq_true', ← Bool.not_eq_true, Operation.ends_iff, not_or]
    exact ⟨fun all => ⟨fun member => (all _ member).1 rfl, fun member => (all _ member).2 rfl⟩,
      fun none_of op member => ⟨fun here => none_of.1 (here ▸ member),
        fun here => none_of.2 (here ▸ member)⟩⟩
  induction ops generalizing h with
  | nil => simp [roster]
  | cons op ops ih =>
    rw [roster, List.mem_append, List.mem_filter, taken, spared]
    refine (or_congr_right ih).trans ⟨?_, ?_⟩
    · rintro (⟨⟨rfl, alive, next⟩, kept⟩ | ⟨before, after, rfl, rest⟩)
      · exact ⟨[], ops, rfl, alive, next, kept⟩
      · exact ⟨op :: before, after, rfl, rest⟩
    · rintro ⟨_ | ⟨first, before⟩, after, same, alive, next, kept⟩
      · obtain ⟨rfl, rfl⟩ := List.cons.inj same
        exact .inl ⟨⟨rfl, alive, next⟩, kept⟩
      · obtain ⟨rfl, rfl⟩ := List.cons.inj same
        exact .inr ⟨before, after, rfl, alive, next, kept⟩

/-- Each publisher lists the subscriptions of the roster that were taken from it. -/
structure Rostered (h : Hub) (R : List Enrolment) : Prop where
  lists : ∀ p P, h.publishers.get? p = some P →
    P.typed = listed R p false ∧ P.observers = listed R p true
  alive : ∀ e ∈ R, h.publishers.contains e.publisher

namespace Rostered

theorem still (r : h.Rostered R) {h' : Hub} (publishers : h'.publishers = h.publishers) :
    h'.Rostered R := by
  refine ⟨?_, ?_⟩ <;> rw [publishers]
  · exact r.lists
  · exact r.alive

theorem receivers (r : h.Rostered R) {P : Publisher} (hp : h.publishers.get? p = some P) :
    s ∈ P.receivers ↔ ∃ erased, ⟨s, p, erased⟩ ∈ R := by
  obtain ⟨typed, observers⟩ := r.lists p P hp
  rw [Publisher.receivers, typed, observers, List.mem_append, mem_listed, mem_listed]
  constructor
  · exact fun either => either.elim (⟨_, ·⟩) (⟨_, ·⟩)
  · rintro ⟨erased, member⟩
    cases erased
    · exact .inl member
    · exact .inr member

theorem publisherOf? (r : h.Rostered R) (he : h.Enrolled) :
    h.publisherOf? s = some p ↔ ∃ erased, ⟨s, p, erased⟩ ∈ R := by
  constructor
  · intro named
    obtain ⟨P, hp⟩ := Option.isSome_iff_exists.1 (he.alive s p named)
    exact (r.receivers hp).1 ((he.paired p P hp s).2 named)
  · rintro ⟨erased, member⟩
    obtain ⟨P, hp⟩ := Option.isSome_iff_exists.1 (r.alive _ member)
    exact (he.paired p P hp s).1 ((r.receivers hp).2 ⟨erased, member⟩)

theorem newPublisher (r : h.Rostered R) (name : String) (pool : Nat) :
    (h.newPublisher name pool).2.Rostered R := by
  have given : ∀ e ∈ R, e.publisher ≠ h.publishers.next := fun e member here => by
    have alive := r.alive e member
    rw [Table.contains, here, Table.get?_of_le (Nat.le_refl _)] at alive
    exact Bool.false_ne_true alive
  refine ⟨fun p P hp => ?_, fun e member => ?_⟩
  · rw [Hub.newPublisher, Table.get?_insert] at hp
    split at hp
    · rename_i new
      obtain rfl := Option.some.inj hp
      have nobody : ∀ erased, listed R p erased = [] := fun erased =>
        List.eq_nil_iff_forall_not_mem.2 fun s member => given _ (mem_listed.1 member) new
      exact ⟨(nobody false).symm, (nobody true).symm⟩
    · exact r.lists p P hp
  · rw [Hub.newPublisher, Table.contains, Table.get?_insert, if_neg (given e member)]
    exact r.alive e member

theorem subscribe (r : h.Rostered R) (p : Nat) (erased : Bool) :
    (h.subscribe p erased).2.Rostered (R ++ (h.enrolment? (.subscribe p erased)).toList) := by
  rcases subscribe_cases h p erased with ⟨-, ⟨gone, same⟩ | ⟨P, counters, log, hP, same⟩⟩ <;>
    rw [same, enrolment?, Table.contains]
  · rw [gone]
    exact (List.append_nil R).symm ▸ r.still rfl
  · rw [hP]
    refine ⟨fun q Q hq => ?_, fun e member => ?_⟩
    · rw [Table.get?_modify] at hq
      change Q.typed = listed (R ++ [_]) q false ∧ Q.observers = listed (R ++ [_]) q true
      rw [listed_append, listed_append]
      split at hq
      · rename_i here
        rw [here, hP] at hq
        obtain rfl := Option.some.inj hq
        obtain ⟨typed, observers⟩ := r.lists p P hP
        cases erased <;> simp [attach, listed, here, typed, observers]
      · rename_i other
        obtain ⟨typed, observers⟩ := r.lists q Q hq
        have none_new : ∀ kind, listed [⟨h.subscriptions.next, p, erased⟩] q kind = [] := by
          intro kind
          simp [listed, Ne.symm other]
        rw [none_new, none_new, List.append_nil, List.append_nil]
        exact ⟨typed, observers⟩
    · rw [Table.contains_modify]
      rcases List.mem_append.1 member with old | new
      · exact r.alive e old
      · obtain rfl := List.mem_singleton.1 new
        rw [Table.contains, hP]
        rfl

theorem dropSubscription (r : h.Rostered R) (he : h.Enrolled) (s : Nat) :
    (h.dropSubscription s).Rostered (R.filter fun e => !Operation.ends e (.dropSubscription s)) := by
  have fewer : ∀ q erased, listed (R.filter fun e => !Operation.ends e (.dropSubscription s)) q
      erased = (listed R q erased).filter (· ≠ s) := by
    intro q erased
    simp only [listed, List.filter_map, List.filter_filter, Function.comp_def, Operation.ends]
    congr 1
    refine List.filter_congr fun e _ => ?_
    rw [Bool.and_comm]
    simp [eq_comm]
  have elsewhere : ∀ q, h.publisherOf? s ≠ some q → ∀ erased,
      (listed R q erased).filter (· ≠ s) = listed R q erased := by
    intro q other erased
    refine List.filter_eq_self.2 fun t member => decide_eq_true ?_
    rintro rfl
    exact other ((r.publisherOf? he).2 ⟨erased, mem_listed.1 member⟩)
  refine ⟨fun q Q hq => ?_, fun e member => ?_⟩
  · rw [fewer, fewer]
    rw [publishers_dropSubscription] at hq
    rcases unsubscribe_cases h s with ⟨detached, same⟩ | ⟨sub, p, hs, named, same⟩ <;>
      rw [same] at hq
    · have nowhere : h.publisherOf? s ≠ some q := fun named => by
        obtain ⟨sub, hs, here⟩ := publisherOf?_eq_some.1 named
        simp [detached sub hs] at here
      rw [elsewhere q nowhere, elsewhere q nowhere]
      exact r.lists q Q hq
    · rw [Table.get?_modify] at hq
      split at hq
      · obtain ⟨Q, old, rfl⟩ := Option.map_eq_some_iff.1 hq
        obtain ⟨typed, observers⟩ := r.lists q Q old
        exact ⟨by rw [← typed], by rw [← observers]⟩
      · rename_i other
        have here : h.publisherOf? s = some p := publisherOf?_eq_some.2 ⟨sub, hs, named⟩
        have nowhere : h.publisherOf? s ≠ some q := fun named =>
          other (Option.some.inj (named.symm.trans here))
        rw [elsewhere q nowhere, elsewhere q nowhere]
        exact r.lists q Q hq
  · have alive := r.alive e (List.mem_filter.1 member).1
    rw [publishers_dropSubscription]
    rcases unsubscribe_cases h s with ⟨-, same⟩ | ⟨sub, p, -, -, same⟩ <;> rw [same]
    · exact alive
    · rw [Table.contains_modify]
      exact alive

theorem dropPublisher (r : h.Rostered R) (p : Nat) :
    (h.dropPublisher p).Rostered (R.filter fun e => !Operation.ends e (.dropPublisher p)) := by
  have others : ∀ {q erased}, q ≠ p → listed (R.filter fun e =>
      !Operation.ends e (.dropPublisher p)) q erased = listed R q erased := by
    intro q erased other
    rw [listed, List.filter_filter, listed]
    congr 1
    refine List.filter_congr fun e _ => ?_
    by_cases here : e.publisher = q
    · simp [Operation.ends, here, Ne.symm other]
    · simp [here]
  have left : ∀ q, q ≠ p → (h.dropPublisher p).publishers.get? q = h.publishers.get? q := by
    intro q other
    rcases dropPublisher_cases h p with ⟨-, same⟩ | ⟨P, log, -, same⟩ <;> rw [same]
    rw [publishers_invalidateAll, Table.get?_erase, if_neg other]
  refine ⟨fun q Q hq => ?_, fun e member => ?_⟩
  · have other : q ≠ p := by
      rintro rfl
      simp [publisher_dropped] at hq
    rw [others other, others other]
    exact r.lists q Q (left q other ▸ hq)
  · obtain ⟨inR, spared⟩ := List.mem_filter.1 member
    have other : e.publisher ≠ p := fun here => by simp [Operation.ends, here] at spared
    rw [Table.contains, left _ other]
    exact r.alive e inR

theorem apply (r : h.Rostered R) (he : h.Enrolled) (op : Operation) :
    (h.apply op).Rostered (R.filter (fun e => !op.ends e) ++ (h.enrolment? op).toList) := by
  have all : (R.filter fun _ => !false) = R := by simp
  cases op with
  | subscribe p erased =>
    simp only [Operation.ends, all]
    exact r.subscribe p erased
  | newPublisher name pool =>
    simp only [Operation.ends, all, enrolment?, Option.toList_none, List.append_nil]
    exact r.newPublisher name pool
  | dropSubscription s =>
    simp only [enrolment?, Option.toList_none, List.append_nil]
    exact r.dropSubscription he s
  | dropPublisher p =>
    simp only [enrolment?, Option.toList_none, List.append_nil]
    exact r.dropPublisher p
  | newPool | newMailbox | subscribeDetached | acquire | write | chain | publish | dropBlank | pull
  | arm | cancel | wait | takeCell | dropCell | erase | release | tally =>
    simp only [Operation.ends, all, enrolment?, Option.toList_none, List.append_nil]
    exact r.still (publishers_apply fun moves => moves)

end Rostered

theorem rostered_applyAll (ops : List Operation) :
    (({} : Hub).applyAll ops).Rostered (({} : Hub).roster ops) := by
  induction ops using List.reverseRecOn with
  | nil => exact ⟨fun p P hp => by simp [applyAll] at hp, fun _ => nofun⟩
  | append_singleton ops op ih =>
    rw [applyAll_snoc, roster_snoc]
    exact ih.apply (Sound.empty.applyAll ops).enrolled op

theorem alive_applyAll (there : h.publishers.contains p) :
    (h.applyAll ops).publishers.contains p ↔ .dropPublisher p ∉ ops := by
  induction ops generalizing h with
  | nil => simpa [applyAll] using there
  | cons op ops ih =>
    obtain ⟨P, hp⟩ := Option.isSome_iff_exists.1 there
    have given := Table.get?_lt hp
    rw [applyAll_cons, List.mem_cons, not_or]
    by_cases torn : op = .dropPublisher p
    · have gone : (h.apply op).publishers.contains p = false := torn ▸ dead_dropPublisher h p
      have dead := dead_applyAll (next_apply given op) gone ops
      exact ⟨fun alive => absurd (dead.symm.trans alive) Bool.false_ne_true,
        fun spared => absurd torn.symm spared.1⟩
    · rw [ih ((publisher_apply given torn).1.trans there)]
      exact ⟨fun rest => ⟨Ne.symm torn, rest⟩, And.right⟩

theorem active_iff {before after : List Operation} {erased : Bool}
    (alive : (({} : Hub).applyAll before).publishers.contains p)
    (next : (({} : Hub).applyAll before).subscriptions.next = s)
    (kept : .dropSubscription s ∉ after) :
    ∃ sub, (({} : Hub).applyAll (before ++ .subscribe p erased :: after)).subscriptions.get? s =
      some sub ∧ sub.erased = erased ∧ (sub.isActive ↔ .dropPublisher p ∉ after) := by
  have sound := Sound.empty.applyAll before
  rw [applyAll_append, applyAll_cons]
  generalize ({} : Hub).applyAll before = h₀ at alive next sound
  have taken : h₀.subscribe p erased = (s, h₀.apply (.subscribe p erased)) :=
    Prod.ext ((subscribe_cases h₀ p erased).1.trans next) rfl
  obtain ⟨found, follows⟩ := subscribe_follows alive taken
  have sound' := sound.apply (.subscribe p erased)
  have there : (h₀.apply (.subscribe p erased)).publishers.contains p := by
    rcases follows.2 with named | ⟨lost, -⟩
    · exact sound'.enrolled.alive s p (publisherOf?_eq_some.2 ⟨_, found, named⟩)
    · exact absurd lost (Option.some_ne_none p)
  obtain ⟨sub, found', kind, ⟨-, follows'⟩, -⟩ :=
    departed_append_queue sound' found follows kept
  refine ⟨sub, found', kind, ?_⟩
  rw [← alive_applyAll there]
  rcases follows' with named | ⟨lost, gone⟩
  · have still := (sound'.applyAll after).enrolled.alive s p
      (publisherOf?_eq_some.2 ⟨sub, found', named⟩)
    exact iff_of_true (by rw [Subscription.isActive, named]; rfl) still
  · rw [gone, Subscription.isActive, lost]
    exact iff_of_false (by simp) (by simp)

theorem Reachable.receives {h₀ : Hub} (reached : h₀.Reachable)
    (closed : ∀ erased, .subscribe p erased ∉ ops) (receives : s ∈ (h₀.applyAll ops).receivers p) :
    s < h₀.subscriptions.next ∧ .dropSubscription s ∉ ops := by
  obtain ⟨first, rfl⟩ := reached
  rw [← applyAll_append, mem_receivers (Sound.empty.applyAll _).enrolled,
    (rostered_applyAll _).publisherOf? (Sound.empty.applyAll _).enrolled] at receives
  obtain ⟨erased, member⟩ := receives
  obtain ⟨before, after, split, alive, next, kept, -⟩ := mem_roster.1 member
  rcases List.append_eq_append_iff.1 split with ⟨later, -, rfl⟩ | ⟨rest, rfl, same⟩
  · exact absurd (List.mem_append_right _ List.mem_cons_self) (closed erased)
  cases rest with
  | nil =>
    obtain rfl : _ = ops := same
    exact absurd List.mem_cons_self (closed erased)
  | cons op rest =>
    obtain ⟨rfl, rfl⟩ := List.cons.inj same
    obtain ⟨early, late⟩ := not_or.1 (mt List.mem_append.2 kept)
    obtain ⟨sub, found, -⟩ := active_iff alive next early
    exact ⟨Table.get?_lt found, late⟩

theorem publish_receives (sound : h.Sound) {P : Publisher} {blank : SlotRef}
    (hp : h.publishers.get? p = some P) (owned : blank ∈ h.blanks) {sub : Subscription}
    (hs : h.subscriptions.get? s = some sub) :
    (s ∈ P.receivers →
      Receives s sub ⟨blank, h.serial, sub.erased⟩ h (h.publish p blank).2) ∧
    (s ∉ P.receivers → (h.publish p blank).2.subscriptions.get? s = some sub ∧
      ∀ a, sub.armed = some a → (h.publish p blank).2.contents? a.cell = none) := by
  have named : s ∈ P.receivers ↔ sub.publisher = some p := by
    rw [sound.enrolled.paired p P hp s, publisherOf?, hs]
    rfl
  have published : h.publication? (.publish p blank) ≠ none := by
    obtain ⟨slot, hslot, -⟩ := Balanced.blank_slot sound.accounted owned
    have shown : h.publication? (.publish p blank) = some ⟨p, blank, h.serial, slot.payload⟩ :=
      publication?_eq_some.2 ⟨rfl, owned, by rw [Table.contains, hp]; rfl, rfl,
        by simp [payload?, hslot]⟩
    simp [shown]
  rw [named]
  rcases others_cases sound hs (.publish p blank) (fun own => own) with
    ⟨same, empty, quiet, -⟩ | ⟨q, torn, -⟩ | ⟨pub, hpub, here, received⟩
  · refine ⟨fun here => ?_, fun _ => ⟨same, empty⟩⟩
    obtain ⟨pub, hpub⟩ := Option.ne_none_iff_exists'.1 published
    obtain ⟨hop, -⟩ := publication?_eq_some.1 hpub
    obtain ⟨rfl, -⟩ := Operation.publish.inj hop
    exact absurd here (quiet pub hpub)
  · cases torn
  · obtain ⟨hop, -, -, serial, -⟩ := publication?_eq_some.1 hpub
    obtain ⟨rfl, rfl⟩ := Operation.publish.inj hop
    refine ⟨fun _ => ?_, fun other => absurd here other⟩
    rw [Publication.copy, serial] at received
    exact received

theorem orphans_dropPublisher (enrolled : h.Enrolled) {sub : Subscription}
    (hs : h.subscriptions.get? s = some sub) (p : Nat) :
    ∃ sub', (h.dropPublisher p).subscriptions.get? s = some sub' ∧ sub'.queue = sub.queue ∧
      (sub'.isActive ↔ sub.isActive ∧ h.publisherOf? s ≠ some p) := by
  have named : s ∈ h.receivers p ↔ h.publisherOf? s = some p := mem_receivers enrolled
  rw [get?_dropPublisher, hs]
  split
  · rename_i mem
    exact ⟨_, rfl, rfl, iff_of_false (by simp [Subscription.isActive])
      fun both => both.2 (named.1 mem)⟩
  · rename_i other
    exact ⟨sub, rfl, rfl, fun act => ⟨act, fun same => other (named.2 same)⟩, And.left⟩

theorem fails_dropPublisher (enrolled : h.Enrolled) {m : Nat} {failed : Bool}
    (there : h.failedAt? m = some failed) (p : Nat) :
    ∃ failed', (h.dropPublisher p).failedAt? m = some failed' ∧ (failed' = true ↔ failed = true ∨
      ∃ s, h.publisherOf? s = some p ∧ ∃ a, h.armedOf? s = some a ∧ a.mailbox = m) := by
  obtain ⟨failed', there', verdict⟩ : ∃ failed', (h.apply (.dropPublisher p)).failedAt? m =
      some failed' ∧ _ := failedAt?_apply enrolled there (by simp)
  refine ⟨failed', there', verdict.trans (or_congr_right ⟨?_, ?_⟩)⟩
  · rintro ⟨q, s, a, same, named, armed, here⟩
    obtain rfl := Operation.dropPublisher.inj same
    exact ⟨s, named, a, armed, here⟩
  · rintro ⟨s, named, a, armed, here⟩
    exact ⟨p, s, a, rfl, named, armed, here⟩

/-- What publishers and subscriptions say of each other, told by the run that led to the hub. -/
structure Agrees (ops : List Operation) (h : Hub) (R : List Enrolment) : Prop where
  enrolled : ∀ e, e ∈ R ↔ ∃ before after,
    ops = before ++ .subscribe e.publisher e.erased :: after ∧
    (({} : Hub).applyAll before).publishers.contains e.publisher ∧
    (({} : Hub).applyAll before).subscriptions.next = e.subscription ∧
    .dropSubscription e.subscription ∉ after ∧ .dropPublisher e.publisher ∉ after
  lists : ∀ p P, h.publishers.get? p = some P → P.receivers.Nodup ∧
    (∀ s, s ∈ P.typed ↔ ⟨s, p, false⟩ ∈ R) ∧ ∀ s, s ∈ P.observers ↔ ⟨s, p, true⟩ ∈ R
  numbers : ∀ p P, h.publishers.get? p = some P →
    P.typed.length = R.countP (fun e => e.publisher = p ∧ e.erased = false) ∧
    P.observers.length = R.countP (fun e => e.publisher = p ∧ e.erased = true) ∧
    P.fanOut = R.countP (·.publisher = p)
  active : ∀ before after p erased s, ops = before ++ .subscribe p erased :: after →
    (({} : Hub).applyAll before).publishers.contains p →
    (({} : Hub).applyAll before).subscriptions.next = s → .dropSubscription s ∉ after →
    ∃ sub, h.subscriptions.get? s = some sub ∧ sub.erased = erased ∧
      (sub.isActive ↔ .dropPublisher p ∉ after)
  others : ∀ s sub, h.subscriptions.get? s = some sub →
    (sub.isActive ↔ ∃ e ∈ R, e.subscription = s)
  published : ∀ p P blank, h.publishers.get? p = some P → blank ∈ h.blanks →
    (h.publish p blank).1 = P.fanOut ∧
    (∀ e ∈ R, e.publisher = p → ∃ sub, h.subscriptions.get? e.subscription = some sub ∧
      Receives e.subscription sub ⟨blank, h.serial, e.erased⟩ h (h.publish p blank).2) ∧
    ∀ s sub, h.subscriptions.get? s = some sub → (∀ e ∈ R, e.publisher = p → e.subscription ≠ s) →
      (h.publish p blank).2.subscriptions.get? s = some sub ∧
      ∀ a, sub.armed = some a → (h.publish p blank).2.contents? a.cell = none
  /-- Of a publisher that is dropped nothing stays with its subscriptions but what is queued. -/
  torn : ∀ p,
    (∀ s sub, h.subscriptions.get? s = some sub →
      ∃ sub', (h.dropPublisher p).subscriptions.get? s = some sub' ∧ sub'.queue = sub.queue ∧
        (sub'.isActive ↔ sub.isActive ∧ ∀ e ∈ R, e.publisher = p → e.subscription ≠ s)) ∧
    ∀ m failed, h.failedAt? m = some failed →
      ∃ failed', (h.dropPublisher p).failedAt? m = some failed' ∧ (failed' = true ↔ failed = true ∨
        ∃ e ∈ R, e.publisher = p ∧ ∃ a, h.armedOf? e.subscription = some a ∧ a.mailbox = m)

/-- After any run the publishers' lists, the subscriptions and the run agree on who is subscribed to
whom. -/
theorem membership_agrees (ops : List Operation) :
    Agrees ops (({} : Hub).applyAll ops) (({} : Hub).roster ops) := by
  have sound := Sound.empty.applyAll ops
  have rostered := rostered_applyAll ops
  have enrolled : ∀ e, e ∈ ({} : Hub).roster ops ↔ _ := fun e => mem_roster
  have taken : ∀ e ∈ ({} : Hub).roster ops, ∃ sub, (({} : Hub).applyAll ops).subscriptions.get?
      e.subscription = some sub ∧ sub.erased = e.erased := by
    intro e member
    obtain ⟨before, after, same, alive, next, kept, -⟩ := (enrolled e).1 member
    obtain ⟨sub, found, kind, -⟩ := active_iff alive next kept
    exact ⟨sub, by rw [same]; exact found, kind⟩
  have active : ∀ before after p erased s, ops = before ++ .subscribe p erased :: after →
      (({} : Hub).applyAll before).publishers.contains p →
      (({} : Hub).applyAll before).subscriptions.next = s → .dropSubscription s ∉ after →
      ∃ sub, (({} : Hub).applyAll ops).subscriptions.get? s = some sub ∧ sub.erased = erased ∧
        (sub.isActive ↔ .dropPublisher p ∉ after) := by
    rintro before after p erased s rfl alive next kept
    exact active_iff alive next kept
  generalize ({} : Hub).applyAll ops = h at *
  generalize ({} : Hub).roster ops = R at *
  have names : ∀ {s p}, h.publisherOf? s = some p ↔ ∃ e ∈ R, e.publisher = p ∧ e.subscription = s := by
    intro s p
    rw [rostered.publisherOf? sound.enrolled]
    constructor
    · rintro ⟨erased, member⟩
      exact ⟨_, member, rfl, rfl⟩
    · rintro ⟨e, member, rfl, rfl⟩
      exact ⟨e.erased, member⟩
  refine ⟨enrolled, fun p P hp => ?_, fun p P hp => ?_, active, fun s sub hs => ?_,
    fun p P blank hp owned => ⟨?_, fun e member here => ?_, fun s sub hs other => ?_⟩,
    fun p => ⟨fun s sub hs => ?_, fun m failed there => ?_⟩⟩
  · obtain ⟨typed, observers⟩ := rostered.lists p P hp
    rw [typed, observers]
    exact ⟨sound.enrolled.once p P hp, fun s => mem_listed, fun s => mem_listed⟩
  · obtain ⟨typed, observers⟩ := rostered.lists p P hp
    have all := length_listed_add R p
    rw [Publisher.fanOut, Publisher.receivers, List.length_append, typed, observers, all]
    simp only [listed, List.length_map, List.countP_eq_length_filter, and_self]
  · have named : sub.publisher = h.publisherOf? s := by rw [publisherOf?, hs]; rfl
    rw [Subscription.isActive, named, Option.isSome_iff_exists]
    simp only [names]
    constructor
    · rintro ⟨_, e, member, -, here⟩
      exact ⟨e, member, here⟩
    · rintro ⟨e, member, here⟩
      exact ⟨e.publisher, e, member, rfl, here⟩
  · rcases publish_cases h p blank with ⟨foreign, -⟩ | ⟨-, told, -⟩
    · exact absurd owned foreign
    · rw [told, receivers, hp]
      rfl
  · obtain ⟨sub, found, kind⟩ := taken e member
    have mem : e.subscription ∈ P.receivers :=
      (sound.enrolled.paired p P hp _).2 (names.2 ⟨e, member, here, rfl⟩)
    have received := (publish_receives sound hp owned found).1 mem
    rw [kind] at received
    exact ⟨sub, found, received⟩
  · refine (publish_receives sound hp owned hs).2 fun mem => ?_
    obtain ⟨e, member, here, same⟩ := names.1 ((sound.enrolled.paired p P hp s).1 mem)
    exact other e member here same
  · obtain ⟨sub', found, queue, act⟩ := orphans_dropPublisher sound.enrolled hs p
    refine ⟨sub', found, queue, act.trans (and_congr_right fun _ => ?_)⟩
    rw [Ne, names]
    push Not
    rfl
  · obtain ⟨failed', there', verdict⟩ := fails_dropPublisher sound.enrolled there p
    refine ⟨failed', there', verdict.trans (or_congr_right ?_)⟩
    constructor
    · rintro ⟨s, named, armed⟩
      obtain ⟨e, member, here, rfl⟩ := names.1 named
      exact ⟨e, member, here, armed⟩
    · rintro ⟨e, member, here, armed⟩
      exact ⟨e.subscription, names.2 ⟨e, member, here, rfl⟩, armed⟩

example : ({} : Hub).roster [.newPublisher "camera" 0, .newPublisher "door" 0, .subscribe 0 false,
    .subscribe 0 true, .subscribe 1 false, .subscribeDetached false, .dropSubscription 0,
    .dropPublisher 1] = [⟨1, 0, true⟩] := by
  decide

end Hub

end BufferFlow
