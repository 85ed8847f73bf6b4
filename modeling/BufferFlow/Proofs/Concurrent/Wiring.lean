import BufferFlow.Proofs.Concurrent.Transitions
import BufferFlow.Proofs.Hub.Wiring

set_option autoImplicit false

namespace BufferFlow

namespace Hub

variable {h h' : Hub}

theorem receivers_eq {p : Nat} {P : Publisher} (found : h.publishers.get? p = some P) :
    h.receivers p = P.receivers := by
  rw [receivers, found]
  rfl

theorem receivers_absent {p : Nat} (absent : h.publishers.get? p = none) : h.receivers p = [] := by
  rw [receivers, absent]
  rfl

theorem receivers_congr (same : h'.publishers = h.publishers) (p : Nat) :
    h'.receivers p = h.receivers p := by
  rw [receivers, same, receivers]

theorem publisherOf?_congr (same : h'.subscriptions = h.subscriptions) (s : Nat) :
    h'.publisherOf? s = h.publisherOf? s := by
  rw [publisherOf?, same, publisherOf?]

theorem receivers_delist (h : Hub) (p s q : Nat) :
    (h.delist p s).receivers q =
      if q = p then (h.receivers q).filter (· ≠ s) else h.receivers q := by
  rw [delist, receivers, Table.get?_modify, receivers]
  split
  · cases h.publishers.get? q with
    | none => rfl
    | some P => simp [Publisher.receivers]
  · rfl

end Hub

theorem Publisher.receivers_tail (P : Publisher) : P.tail.receivers = P.receivers.tail := by
  rw [tail]
  split
  · rename_i s typed first
    simp only [receivers, first, List.cons_append, List.tail_cons]
  · rename_i nobody
    simp only [receivers, nobody, List.nil_append]

namespace Call

variable {h h' : Hub} {call : Call}

def emptied : Call → Option Nat
  | withdrawing s .. | releasing s _ => some s
  | _ => none

/-- What a call relies on. -/
def Fits (h : Hub) : Call → Prop
  | counting p _ _ l => l = h.receivers p
  | pushing p _ _ _ rest => rest <:+ h.receivers p
  | unsubscribing s _ | draining s =>
    ∃ sub, h.subscriptions.get? s = some sub ∧ sub.publisher = none
  | withdrawing s .. | releasing s _ =>
    ∃ sub, h.subscriptions.get? s = some sub ∧ sub.publisher = none ∧ sub.queue = [] ∧
      sub.armed = none
  | recycling .. | invalidating .. => True

theorem drops_of_emptied {s : Nat} (emptied : call.emptied = some s) : call.drops = some s := by
  cases call with
  | withdrawing | releasing => exact emptied
  | _ => simp [Call.emptied] at emptied

theorem Fits.gone (fits : call.Fits h) {s : Nat} (drops : call.drops = some s) :
    ∃ sub, h.subscriptions.get? s = some sub ∧ sub.publisher = none := by
  cases call with
  | unsubscribing t p | draining t =>
    obtain rfl : t = s := Option.some.inj drops
    exact fits
  | withdrawing t drained armed | releasing t drained =>
    obtain rfl : t = s := Option.some.inj drops
    obtain ⟨sub, found, unnamed, -⟩ := fits
    exact ⟨sub, found, unnamed⟩
  | _ => simp [Call.drops] at drops

theorem Fits.empty (fits : call.Fits h) {s : Nat} (emptied : call.emptied = some s) :
    ∃ sub, h.subscriptions.get? s = some sub ∧ sub.publisher = none ∧ sub.queue = [] ∧
      sub.armed = none := by
  cases call with
  | withdrawing t drained armed | releasing t drained =>
    obtain rfl : t = s := Option.some.inj emptied
    exact fits
  | _ => simp [Call.emptied] at emptied

theorem Fits.congr (fits : call.Fits h)
    (lists : ∀ p, call.locks = some p → h'.receivers p = h.receivers p)
    (dropped : ∀ s, call.drops = some s →
      (h'.subscriptions.get? s).map (·.publisher) = (h.subscriptions.get? s).map (·.publisher))
    (empty : ∀ s, call.emptied = some s → h'.subscriptions.get? s = h.subscriptions.get? s) :
    call.Fits h' := by
  cases call with
  | counting p r n l => exact fits.trans (lists p rfl).symm
  | pushing p r n fanOut rest =>
    rw [Fits, lists p rfl]
    exact fits
  | unsubscribing s p | draining s =>
    obtain ⟨sub, found, unnamed⟩ := fits
    have same := dropped s rfl
    rw [found] at same
    obtain ⟨sub', found', still⟩ := Option.map_eq_some_iff.1 same
    exact ⟨sub', found', still.trans unnamed⟩
  | withdrawing s drained armed | releasing s drained =>
    rw [Fits, empty s rfl]
    exact fits
  | recycling | invalidating => trivial

end Call

namespace Concurrent

open Hub

variable {c c' : Concurrent} {hub : Hub} {id : Nat} {call call' : Call}

structure Wired (c : Concurrent) : Prop where
  once : ∀ p, (c.hub.receivers p).Nodup
  named : ∀ s p, c.hub.publisherOf? s = some p → s ∈ c.hub.receivers p
  listed : ∀ s p, s ∈ c.hub.receivers p →
    c.hub.publisherOf? s = some p ∨ ∃ id, c.calls.get? id = some (.unsubscribing s p)
  alone : ∀ i j a b p, c.calls.get? i = some a → c.calls.get? j = some b → a.locks = some p →
    b.locks = some p → i = j
  single : ∀ i j a b s, c.calls.get? i = some a → c.calls.get? j = some b → a.drops = some s →
    b.drops = some s → i = j
  fits : ∀ id call, c.calls.get? id = some call → call.Fits c.hub

namespace Wired

theorem unnamed (hw : c.Wired) (found : c.calls.get? id = some call) {s : Nat}
    (drops : call.drops = some s) : c.hub.publisherOf? s = none := by
  obtain ⟨sub, there, unnamed⟩ := (hw.fits id call found).gone drops
  rw [publisherOf?, there]
  exact unnamed

theorem unlisted (hw : c.Wired) (found : c.calls.get? id = some call) {s : Nat}
    (drops : call.drops = some s) (off : ∀ p, call ≠ .unsubscribing s p) (p : Nat) :
    s ∉ c.hub.receivers p := by
  intro listed
  rcases hw.listed s p listed with named | ⟨i, waiting⟩
  · rw [hw.unnamed found drops] at named
    simp at named
  · have same := hw.single i id _ _ s waiting found rfl drops
    subst same
    exact off p (Option.some.inj (found.symm.trans waiting))

theorem present (hw : c.Wired) {s p : Nat} (listed : s ∈ c.hub.receivers p) :
    ∃ sub, c.hub.subscriptions.get? s = some sub := by
  rcases hw.listed s p listed with named | ⟨id, waiting⟩
  · obtain ⟨sub, found, -⟩ := publisherOf?_eq_some.1 named
    exact ⟨sub, found⟩
  · obtain ⟨sub, found, -⟩ := (hw.fits id _ waiting).gone rfl
    exact ⟨sub, found⟩

theorem unique (hw : c.Wired) {s p q : Nat} (hp : s ∈ c.hub.receivers p)
    (hq : s ∈ c.hub.receivers q) : p = q := by
  rcases hw.listed s p hp with named | ⟨i, waiting⟩ <;>
    rcases hw.listed s q hq with named' | ⟨j, waiting'⟩
  · exact Option.some.inj (named.symm.trans named')
  · rw [hw.unnamed waiting' rfl] at named
    simp at named
  · rw [hw.unnamed waiting rfl] at named'
    simp at named'
  · have same := hw.single i j _ _ s waiting waiting' rfl rfl
    subst same
    exact (Call.unsubscribing.inj (Option.some.inj (waiting.symm.trans waiting'))).2

theorem empty : ({} : Concurrent).Wired := by
  refine ⟨fun p => ?_, fun s p named => ?_, fun s p listed => ?_, fun i j a b p found => ?_,
    fun i j a b s found => ?_, fun id call found => ?_⟩
  · exact List.nodup_nil
  · simp [publisherOf?] at named
  · simp [receivers] at listed
  all_goals simp at found

end Wired

/-- Every call was there before, and has locked and drops no more than it did. -/
def Follows (c c' : Concurrent) : Prop :=
  ∀ i a', c'.calls.get? i = some a' → ∃ a, c.calls.get? i = some a ∧
    (∀ p, a'.locks = some p → a.locks = some p) ∧ ∀ s, a'.drops = some s → a.drops = some s

theorem follows_proceed (found : c.calls.get? id = some call)
    (locks : ∀ p, call'.locks = some p → call.locks = some p)
    (drops : ∀ s, call'.drops = some s → call.drops = some s) :
    Follows c (c.proceed id hub call') := by
  intro i a' ha'
  rw [get?_proceed found] at ha'
  split at ha'
  · rename_i here
    obtain rfl := Option.some.inj ha'
    exact ⟨call, here ▸ found, locks, drops⟩
  · exact ⟨a', ha', fun _ same => same, fun _ same => same⟩

theorem follows_finish : Follows c (c.finish id hub) := by
  intro i a' ha'
  rw [get?_finish] at ha'
  split at ha'
  · simp at ha'
  · exact ⟨a', ha', fun _ same => same, fun _ same => same⟩

theorem Follows.alone (hw : c.Wired) (follows : Follows c c') {i j p : Nat} {a b : Call}
    (ha : c'.calls.get? i = some a) (hb : c'.calls.get? j = some b) (locks : a.locks = some p)
    (locks' : b.locks = some p) : i = j := by
  obtain ⟨a₀, ha₀, hl, -⟩ := follows i a ha
  obtain ⟨b₀, hb₀, hl', -⟩ := follows j b hb
  exact hw.alone i j a₀ b₀ p ha₀ hb₀ (hl p locks) (hl' p locks')

theorem Follows.single (hw : c.Wired) (follows : Follows c c') {i j s : Nat} {a b : Call}
    (ha : c'.calls.get? i = some a) (hb : c'.calls.get? j = some b) (drops : a.drops = some s)
    (drops' : b.drops = some s) : i = j := by
  obtain ⟨a₀, ha₀, -, hd⟩ := follows i a ha
  obtain ⟨b₀, hb₀, -, hd'⟩ := follows j b hb
  exact hw.single i j a₀ b₀ s ha₀ hb₀ (hd s drops) (hd' s drops')

theorem fits_others (hw : c.Wired)
    (lists : ∀ i a p, i ≠ id → c.calls.get? i = some a → a.locks = some p →
      hub.receivers p = c.hub.receivers p)
    (dropped : ∀ i a s, i ≠ id → c.calls.get? i = some a → a.drops = some s →
      (hub.subscriptions.get? s).map (·.publisher) =
        (c.hub.subscriptions.get? s).map (·.publisher))
    (empty : ∀ i a s, i ≠ id → c.calls.get? i = some a → a.emptied = some s →
      hub.subscriptions.get? s = c.hub.subscriptions.get? s) :
    ∀ i a, i ≠ id → c.calls.get? i = some a → a.Fits hub := fun i a hne found =>
  (hw.fits i a found).congr (fun p => lists i a p hne found) (fun s => dropped i a s hne found)
    fun s => empty i a s hne found

theorem fits_same (hw : c.Wired) (publishers : hub.publishers = c.hub.publishers)
    (subscriptions : hub.subscriptions = c.hub.subscriptions) (i : Nat) (a : Call)
    (found : c.calls.get? i = some a) : a.Fits hub :=
  (hw.fits i a found).congr (fun p _ => receivers_congr publishers p)
    (fun s _ => by rw [subscriptions]) fun s _ => by rw [subscriptions]

theorem fits_proceed (found : c.calls.get? id = some call) (own : call'.Fits hub)
    (others : ∀ i a, i ≠ id → c.calls.get? i = some a → a.Fits hub) (i : Nat) (a : Call)
    (ha : (c.proceed id hub call').calls.get? i = some a) : a.Fits hub := by
  rw [get?_proceed found] at ha
  split at ha
  · obtain rfl := Option.some.inj ha
    exact own
  · rename_i hne
    exact others i a hne ha

theorem fits_finish (others : ∀ i a, i ≠ id → c.calls.get? i = some a → a.Fits hub) (i : Nat)
    (a : Call) (ha : (c.finish id hub).calls.get? i = some a) : a.Fits hub := by
  rw [get?_finish] at ha
  split at ha
  · simp at ha
  · rename_i hne
    exact others i a hne ha

theorem waiting_proceed (found : c.calls.get? id = some call)
    (off : ∀ s p, call ≠ .unsubscribing s p) (i s p : Nat)
    (waiting : c.calls.get? i = some (.unsubscribing s p)) :
    ∃ j, (c.proceed id hub call').calls.get? j = some (.unsubscribing s p) := by
  refine ⟨i, ?_⟩
  rw [get?_proceed found, if_neg]
  · exact waiting
  · rintro rfl
    exact off s p (Option.some.inj (found.symm.trans waiting))

theorem waiting_finish (found : c.calls.get? id = some call)
    (off : ∀ s p, call ≠ .unsubscribing s p) (i s p : Nat)
    (waiting : c.calls.get? i = some (.unsubscribing s p)) :
    ∃ j, (c.finish id hub).calls.get? j = some (.unsubscribing s p) := by
  refine ⟨i, ?_⟩
  rw [get?_finish, if_neg]
  · exact waiting
  · rintro rfl
    exact off s p (Option.some.inj (found.symm.trans waiting))

theorem alone_begin (hw : c.Wired) (free : ∀ p, call.locks = some p → ¬ c.locked p)
    (i j : Nat) (a b : Call) (p : Nat) (ha : (c.begin hub call).calls.get? i = some a)
    (hb : (c.begin hub call).calls.get? j = some b) (locks : a.locks = some p)
    (locks' : b.locks = some p) : i = j := by
  rw [get?_begin] at ha hb
  split at ha <;> split at hb
  · rename_i hi hj
    exact hi.trans hj.symm
  · obtain rfl := Option.some.inj ha
    exact absurd (locked_iff.2 ⟨j, b, hb, locks'⟩) (free p locks)
  · obtain rfl := Option.some.inj hb
    exact absurd (locked_iff.2 ⟨i, a, ha, locks⟩) (free p locks')
  · exact hw.alone i j a b p ha hb locks locks'

theorem single_begin (hw : c.Wired) (free : ∀ s, call.drops = some s → ¬ c.dropping s)
    (i j : Nat) (a b : Call) (s : Nat) (ha : (c.begin hub call).calls.get? i = some a)
    (hb : (c.begin hub call).calls.get? j = some b) (drops : a.drops = some s)
    (drops' : b.drops = some s) : i = j := by
  rw [get?_begin] at ha hb
  split at ha <;> split at hb
  · rename_i hi hj
    exact hi.trans hj.symm
  · obtain rfl := Option.some.inj ha
    exact absurd (dropping_iff.2 ⟨j, b, hb, drops'⟩) (free s drops)
  · obtain rfl := Option.some.inj hb
    exact absurd (dropping_iff.2 ⟨i, a, ha, drops⟩) (free s drops')
  · exact hw.single i j a b s ha hb drops drops'

theorem fits_begin (own : call.Fits hub)
    (others : ∀ i a, c.calls.get? i = some a → a.Fits hub) (i : Nat) (a : Call)
    (ha : (c.begin hub call).calls.get? i = some a) : a.Fits hub := by
  rw [get?_begin] at ha
  split at ha
  · obtain rfl := Option.some.inj ha
    exact own
  · exact others i a ha

theorem found_begin (found : c.calls.get? id = some call') :
    (c.begin hub call).calls.get? id = some call' := by
  rw [get?_begin, if_neg (Nat.ne_of_lt (Table.get?_lt found))]
  exact found

namespace Wired

theorem sameLists (hw : c.Wired) (lists : ∀ p, c'.hub.receivers p = c.hub.receivers p)
    (publishers : ∀ s, c'.hub.publisherOf? s = c.hub.publisherOf? s)
    (waiting : ∀ i s p, c.calls.get? i = some (.unsubscribing s p) →
      ∃ j, c'.calls.get? j = some (.unsubscribing s p))
    (follows : Follows c c')
    (fits : ∀ i a, c'.calls.get? i = some a → a.Fits c'.hub) : c'.Wired := by
  refine ⟨fun p => ?_, fun s p named => ?_, fun s p listed => ?_, fun i j a b p => follows.alone hw,
    fun i j a b s => follows.single hw, fits⟩
  · rw [lists]
    exact hw.once p
  · rw [lists]
    exact hw.named s p ((publishers s).symm.trans named)
  · rw [lists] at listed
    rw [publishers]
    refine (hw.listed s p listed).imp_right ?_
    rintro ⟨i, found⟩
    exact waiting i s p found

theorem proceedSame (hw : c.Wired) (found : c.calls.get? id = some call)
    (off : ∀ s p, call ≠ .unsubscribing s p)
    (locks : ∀ p, call'.locks = some p → call.locks = some p)
    (drops : ∀ s, call'.drops = some s → call.drops = some s)
    (publishers : hub.publishers = c.hub.publishers)
    (subscriptions : hub.subscriptions = c.hub.subscriptions) (own : call'.Fits hub) :
    (c.proceed id hub call').Wired :=
  hw.sameLists (receivers_congr publishers)
    (publisherOf?_congr subscriptions)
    (waiting_proceed found off) (follows_proceed found locks drops)
    (fits_proceed found own fun i a _ ha => fits_same hw publishers subscriptions i a ha)

theorem finishSame (hw : c.Wired) (found : c.calls.get? id = some call)
    (off : ∀ s p, call ≠ .unsubscribing s p) (publishers : hub.publishers = c.hub.publishers)
    (subscriptions : hub.subscriptions = c.hub.subscriptions) : (c.finish id hub).Wired :=
  hw.sameLists (receivers_congr publishers)
    (publisherOf?_congr subscriptions)
    (waiting_finish found off) follows_finish
    (fits_finish fun i a _ ha => fits_same hw publishers subscriptions i a ha)

theorem counted (hw : c.Wired) {p : Nat} {r : SlotRef} {n : Nat} {l : List Nat}
    (found : c.calls.get? id = some (.counting p r n l)) :
    (c.proceed id (c.hub.addCopies r l.length) (.pushing p r n l.length l)).Wired := by
  refine hw.proceedSame found (fun _ _ => nofun) (fun _ same => same) (fun _ => nofun) rfl rfl ?_
  have taken := hw.fits id _ found
  simp only [Call.Fits] at taken ⊢
  rw [taken]
  exact List.suffix_rfl

theorem pushed (hw : c.Wired) {p : Nat} {r : SlotRef} {n fanOut s : Nat} {rest : List Nat}
    (found : c.calls.get? id = some (.pushing p r n fanOut (s :: rest))) :
    (c.proceed id (c.hub.push r n s) (.pushing p r n fanOut rest)).Wired := by
  have moved := Local.push c.hub r n s
  have suffix : s :: rest <:+ c.hub.receivers p := hw.fits id _ found
  have listed : s ∈ c.hub.receivers p := suffix.mem List.mem_cons_self
  have lists := receivers_congr moved.publishers
  have kept : ∀ t, ((c.hub.push r n s).subscriptions.get? t).map (·.publisher) =
      (c.hub.subscriptions.get? t).map (·.publisher) := by
    intro t
    by_cases here : t = s
    · subst here
      simpa [Function.comp_def] using congrArg (Option.map Prod.fst) moved.kept
    · rw [moved.others t here]
  refine hw.sameLists lists moved.publisherOf? (waiting_proceed found fun _ _ => nofun)
    (follows_proceed found (fun _ same => same) fun _ => nofun)
    (fits_proceed found ?_ (fits_others hw (fun _ _ q _ _ _ => lists q) (fun _ _ t _ _ _ => kept t)
      fun i a t _ ha emptied => moved.others t ?_))
  · simp only [Call.Fits, lists]
    exact (List.suffix_cons s rest).trans suffix
  · -- what was emptied is on no list, so nothing is pushed to it
    rintro rfl
    refine hw.unlisted ha (Call.drops_of_emptied emptied) (fun q same => ?_) p listed
    subst same
    simp [Call.emptied] at emptied

theorem drained (hw : c.Wired) {s : Nat} {sub : Subscription}
    (found : c.calls.get? id = some (.draining s))
    (there : c.hub.subscriptions.get? s = some sub) :
    (c.proceed id (c.hub.modifySubscription s ({ · with queue := [], armed := none }))
      (.withdrawing s sub.queue sub.armed)).Wired := by
  have others : ∀ t, t ≠ s → (c.hub.modifySubscription s
      ({ · with queue := [], armed := none })).subscriptions.get? t =
        c.hub.subscriptions.get? t := fun t ht => by
    rw [modifySubscription, Table.get?_modify, if_neg ht]
  have here : (c.hub.modifySubscription s
      ({ · with queue := [], armed := none })).subscriptions.get? s =
        some { sub with queue := [], armed := none } := by
    rw [modifySubscription, Table.get?_modify, if_pos rfl, there]
    rfl
  have apart : ∀ i a t, i ≠ id → c.calls.get? i = some a → a.drops = some t → t ≠ s := by
    rintro i a t hne ha drops rfl
    exact hne (hw.single i id a _ t ha found drops rfl)
  refine hw.sameLists (receivers_congr rfl) (fun t => ?_) (waiting_proceed found (by simp))
    (follows_proceed found (by simp [Call.locks]) fun _ same => same)
    (fits_proceed found ?_ (fits_others hw (fun _ _ _ _ _ _ => rfl)
      (fun i a t hne ha drops => congrArg _ (others t (apart i a t hne ha drops)))
      fun i a t hne ha emptied => others t (apart i a t hne ha (Call.drops_of_emptied emptied))))
  · by_cases same : t = s
    · subst same
      rw [proceed, publisherOf?, here, publisherOf?, there]
      rfl
    · rw [proceed, publisherOf?, others t same, publisherOf?]
  · have unnamed := hw.unnamed found rfl
    rw [publisherOf?, there] at unnamed
    exact ⟨_, here, unnamed, rfl, rfl⟩

theorem begunSame (hw : c.Wired) (locks : ∀ p, call.locks = some p → ¬ c.locked p)
    (drops : ∀ s, call.drops = some s → ¬ c.dropping s)
    (publishers : hub.publishers = c.hub.publishers)
    (subscriptions : hub.subscriptions = c.hub.subscriptions) (own : call.Fits hub) :
    (c.begin hub call).Wired := by
  refine ⟨fun p => ?_, fun s p named => ?_, fun s p listed => ?_, alone_begin hw locks,
    single_begin hw drops, fits_begin own (fits_same hw publishers subscriptions)⟩
  · exact receivers_congr publishers p ▸ hw.once p
  · exact receivers_congr publishers p ▸ hw.named s p (publisherOf?_congr subscriptions s ▸ named)
  · refine (hw.listed s p (receivers_congr publishers p ▸ listed)).imp (fun named => ?_) ?_
    · exact (publisherOf?_congr subscriptions s).trans named
    · rintro ⟨i, waiting⟩
      exact ⟨i, found_begin waiting⟩

theorem published (hw : c.Wired) {p : Nat} {r : SlotRef} (unlocked : ¬ c.locked p) :
    (c.begin (c.hub.spend r) (.counting p r c.hub.serial (c.hub.receivers p))).Wired := by
  refine hw.begunSame (fun q locks => ?_) (fun _ => nofun) rfl rfl rfl
  obtain rfl : p = q := Option.some.inj locks
  exact unlocked

theorem closed (hw : c.Wired) {p n : Nat} (unlocked : ¬ c.locked p) :
    (c.begin c.hub (.invalidating p n)).Wired := by
  refine hw.begunSame (fun q locks => ?_) (fun _ => nofun) rfl rfl trivial
  obtain rfl : p = q := Option.some.inj locks
  exact unlocked

theorem left (hw : c.Wired) {s : Nat} {sub : Subscription}
    (found : c.hub.subscriptions.get? s = some sub) (free : ¬ c.dropping s) :
    (c.begin (c.hub.modifySubscription s ({ · with publisher := none }))
      (leaving s sub.publisher)).Wired := by
  have others : ∀ t, t ≠ s → (c.hub.modifySubscription s
      ({ · with publisher := none })).subscriptions.get? t = c.hub.subscriptions.get? t :=
    fun t ht => by rw [modifySubscription, Table.get?_modify, if_neg ht]
  have here : (c.hub.modifySubscription s
      ({ · with publisher := none })).subscriptions.get? s = some { sub with publisher := none } := by
    rw [modifySubscription, Table.get?_modify, if_pos rfl, found]
    rfl
  have unlocking : ∀ o, (leaving s o).locks = none := fun o => by cases o <;> rfl
  have own : ∀ o, (leaving s o).drops = some s := fun o => by cases o <;> rfl
  have apart : ∀ i a t, c.calls.get? i = some a → a.drops = some t → t ≠ s := by
    rintro i a t ha drops rfl
    exact free (dropping_iff.2 ⟨i, a, ha, drops⟩)
  have named : ∀ t p, (c.hub.modifySubscription s
      ({ · with publisher := none })).publisherOf? t = some p →
        t ≠ s ∧ c.hub.publisherOf? t = some p := by
    intro t p ht
    by_cases same : t = s
    · subst same
      rw [publisherOf?, here] at ht
      simp at ht
    · rw [publisherOf?, others t same] at ht
      exact ⟨same, ht⟩
  refine ⟨hw.once, fun t p ht => hw.named t p (named t p ht).2, fun t p listed => ?_,
    alone_begin hw fun p same => ?_, single_begin hw fun t same => ?_, fits_begin ?_ fun i a ha => ?_⟩
  · rcases hw.listed t p listed with before | ⟨i, waiting⟩
    · by_cases same : t = s
      · -- its own publisher lists it, and the call knows which that is
        subst same
        rw [publisherOf?, found] at before
        refine .inr ⟨c.calls.next, ?_⟩
        rw [get?_begin, if_pos rfl]
        exact congrArg (fun o => some (leaving t o)) before
      · refine .inl ?_
        rw [begin, publisherOf?, others t same]
        exact before
    · exact .inr ⟨i, found_begin waiting⟩
  · rw [unlocking] at same
    simp at same
  · rw [own] at same
    obtain rfl := Option.some.inj same
    exact free
  · cases sub.publisher <;> exact ⟨_, here, rfl⟩
  · exact (hw.fits i a ha).congr (fun _ _ => rfl)
      (fun t drops => congrArg _ (others t (apart i a t ha drops)))
      fun t emptied => others t (apart i a t ha (Call.drops_of_emptied emptied))

theorem delisted (hw : c.Wired) {s p : Nat} (found : c.calls.get? id = some (.unsubscribing s p))
    (unlocked : ¬ c.locked p) : (c.proceed id (c.hub.delist p s) (.draining s)).Wired := by
  have follows : Follows c (c.proceed id (c.hub.delist p s) (.draining s)) :=
    follows_proceed found (fun _ => nofun) fun _ same => same
  have lists := receivers_delist c.hub p s
  refine ⟨fun q => ?_, fun t q named => ?_, fun t q listed => ?_, fun i j a b q => follows.alone hw,
    fun i j a b t => follows.single hw, fits_proceed found (hw.fits id _ found)
      (fits_others hw (fun i a q _ ha locks => ?_) (fun _ _ _ _ _ _ => rfl) fun _ _ _ _ _ _ => rfl)⟩
  · rw [proceed, lists]
    split
    · exact (hw.once q).filter _
    · exact hw.once q
  · rw [proceed, lists]
    have member := hw.named t q named
    split
    · refine List.mem_filter.2 ⟨member, ?_⟩
      have unnamed := hw.unnamed found rfl
      have other : t ≠ s := by
        rintro rfl
        exact Option.some_ne_none q (named.symm.trans unnamed)
      simpa using other
    · exact member
  · have before : t ∈ c.hub.receivers q ∧ (q = p → t ≠ s) := by
      rw [proceed, lists] at listed
      split at listed
      · have both := List.mem_filter.1 listed
        exact ⟨both.1, fun _ => by simpa using both.2⟩
      · rename_i other
        exact ⟨listed, fun same => absurd same other⟩
    refine (hw.listed t q before.1).imp_right ?_
    rintro ⟨i, waiting⟩
    refine ⟨i, ?_⟩
    rw [get?_proceed found, if_neg]
    · exact waiting
    · rintro rfl
      obtain ⟨rfl, rfl⟩ := Call.unsubscribing.inj (Option.some.inj (waiting.symm.trans found))
      exact before.2 rfl rfl
  · rw [lists, if_neg]
    rintro rfl
    exact unlocked (locked_iff.2 ⟨i, a, ha, locks⟩)

theorem ended (hw : c.Wired) {s : Nat} (found : c.calls.get? id = some (.releasing s [])) :
    (c.finish id ({ c.hub with subscriptions := c.hub.subscriptions.erase s }.count
      .subscriptionClosed)).Wired := by
  have follows : Follows c (c.finish id ({ c.hub with
      subscriptions := c.hub.subscriptions.erase s }.count .subscriptionClosed)) := follows_finish
  have others : ∀ t, t ≠ s → (c.hub.subscriptions.erase s).get? t = c.hub.subscriptions.get? t :=
    fun t ht => by rw [Table.get?_erase, if_neg ht]
  have apart : ∀ i a t, i ≠ id → c.calls.get? i = some a → a.drops = some t → t ≠ s := by
    rintro i a t hne ha drops rfl
    exact hne (hw.single i id a _ t ha found drops rfl)
  have publishers : ∀ t, ((c.hub.subscriptions.erase s).get? t).bind (·.publisher) =
      c.hub.publisherOf? t := by
    intro t
    by_cases same : t = s
    · subst same
      rw [Table.get?_erase, if_pos rfl, hw.unnamed found rfl]
      rfl
    · rw [others t same, publisherOf?]
  exact hw.sameLists (receivers_congr rfl) publishers (waiting_finish found (by simp)) follows
    (fits_finish (fits_others hw (fun _ _ _ _ _ _ => rfl)
      (fun i a t hne ha drops => congrArg _ (others t (apart i a t hne ha drops)))
      fun i a t hne ha emptied => others t (apart i a t hne ha (Call.drops_of_emptied emptied))))

theorem invalidated (hw : c.Wired) {p n s : Nat} {P : Publisher} {rest : List Nat}
    (found : c.calls.get? id = some (.invalidating p n))
    (there : c.hub.publishers.get? p = some P) (first : P.receivers = s :: rest) :
    (c.proceed id ({ c.hub with publishers := c.hub.publishers.modify p (·.tail) }.invalidate s)
      (.invalidating p n)).Wired := by
  let hub := { c.hub with publishers := c.hub.publishers.modify p (·.tail) }.invalidate s
  have follows : Follows c (c.proceed id hub (.invalidating p n)) :=
    follows_proceed found (fun _ same => same) fun _ same => same
  have before : c.hub.receivers p = s :: rest := (receivers_eq there).trans first
  have lists : ∀ q, hub.receivers q = if q = p then rest else c.hub.receivers q := by
    intro q
    rw [receivers, publishers_invalidate, Table.get?_modify]
    split
    · rename_i same
      rw [same, there, Option.map_some, Option.map_some, Publisher.receivers_tail, first]
      rfl
    · rfl
  have subs : ∀ t, hub.subscriptions.get? t = if t = s then
      (c.hub.subscriptions.get? t).map ({ · with publisher := none, armed := none })
      else c.hub.subscriptions.get? t := get?_invalidate _ s
  have fresh : s ∉ rest := (List.nodup_cons.1 (before ▸ hw.once p)).1
  have listed : s ∈ c.hub.receivers p := before ▸ List.mem_cons_self
  have publishers : ∀ t, hub.publisherOf? t = if t = s then none else c.hub.publisherOf? t := by
    intro t
    rw [publisherOf?, subs]
    split
    · cases c.hub.subscriptions.get? t <;> rfl
    · rfl
  refine ⟨fun q => ?_, fun t q named => ?_, fun t q member => ?_, fun i j a b q => follows.alone hw,
    fun i j a b t => follows.single hw, fits_proceed found trivial
      (fits_others hw (fun i a q hne ha locks => ?_) (fun i a t _ ha drops => ?_)
        fun i a t _ ha emptied => ?_)⟩
  · rw [proceed, lists]
    split
    · exact (List.nodup_cons.1 (before ▸ hw.once p)).2
    · exact hw.once q
  · rw [proceed, publishers] at named
    rw [proceed, lists]
    split at named
    · simp at named
    · rename_i other
      have member := hw.named t q named
      split
      · rename_i same
        rw [same, before] at member
        exact (List.mem_cons.1 member).resolve_left other
      · exact member
  · have old : t ≠ s ∧ t ∈ c.hub.receivers q := by
      rw [proceed, lists] at member
      split at member
      · rename_i same
        exact ⟨fun here => fresh (here ▸ member), same ▸ before ▸ List.mem_cons_of_mem s member⟩
      · rename_i other
        exact ⟨fun here => other (hw.unique (here ▸ member) listed), member⟩
    rcases hw.listed t q old.2 with named | ⟨i, waiting⟩
    · refine .inl ?_
      rw [proceed, publishers, if_neg old.1]
      exact named
    · refine .inr ⟨i, ?_⟩
      rw [get?_proceed found, if_neg]
      · exact waiting
      · rintro rfl
        simp [found] at waiting
  · rw [lists, if_neg]
    rintro rfl
    exact hne (hw.alone i id a _ q ha found locks rfl)
  · obtain ⟨sub, hsub, unnamed⟩ := (hw.fits i a ha).gone drops
    rw [subs, hsub]
    split
    · exact congrArg some unnamed.symm
    · rfl
  · rw [subs, if_neg]
    rintro rfl
    refine hw.unlisted ha (Call.drops_of_emptied emptied) (fun q same => ?_) p listed
    subst same
    simp [Call.emptied] at emptied

theorem tornDown (hw : c.Wired) {p n : Nat} {P : Publisher} (log : List Record)
    (found : c.calls.get? id = some (.invalidating p n))
    (there : c.hub.publishers.get? p = some P) (nobody : P.receivers = []) :
    (c.finish id { c.hub with publishers := c.hub.publishers.erase p, log }).Wired := by
  have lists : ∀ q, { c.hub with publishers := c.hub.publishers.erase p, log }.receivers q =
      c.hub.receivers q := by
    intro q
    rw [receivers, Table.get?_erase]
    split
    · rename_i same
      rw [same, receivers_eq there, nobody]
      rfl
    · rfl
  exact hw.sameLists lists (fun _ => rfl) (waiting_finish found (by simp)) follows_finish
    (fits_finish (fits_others hw (fun _ _ q _ _ _ => lists q) (fun _ _ _ _ _ _ => rfl)
      fun _ _ _ _ _ _ => rfl))

theorem atomicSame (hw : c.Wired) (publishers : hub.publishers = c.hub.publishers)
    (named : ∀ s, hub.publisherOf? s = c.hub.publisherOf? s)
    (others : ∀ s, c.dropping s → hub.subscriptions.get? s = c.hub.subscriptions.get? s) :
    Wired { c with hub } := by
  have dropped : ∀ {i a s}, c.calls.get? i = some a → a.drops = some s →
      hub.subscriptions.get? s = c.hub.subscriptions.get? s := fun found drops =>
    others _ (dropping_iff.2 ⟨_, _, found, drops⟩)
  exact hw.sameLists (receivers_congr publishers) named (fun i s p waiting => ⟨i, waiting⟩)
    (fun i a ha => ⟨a, ha, fun _ same => same, fun _ same => same⟩) fun i a ha =>
      (hw.fits i a ha).congr (fun p _ => receivers_congr publishers p)
        (fun s drops => congrArg _ (dropped ha drops))
        fun s emptied => dropped ha (Call.drops_of_emptied emptied)

theorem atomicLocal (hw : c.Wired) {s : Nat} (moved : Local s c.hub hub) (free : ¬ c.dropping s) :
    Wired { c with hub } :=
  hw.atomicSame moved.publishers moved.publisherOf? fun t drops =>
    moved.others t fun same => free (same ▸ drops)

theorem dropped_lt (hw : c.Wired) {s : Nat} (drops : c.dropping s) :
    s < c.hub.subscriptions.next := by
  obtain ⟨i, a, ha, drops⟩ := dropping_iff.1 drops
  obtain ⟨sub, found, -⟩ := (hw.fits i a ha).gone drops
  exact Table.get?_lt found

theorem subscribeDetached (hw : c.Wired) (erased : Bool) :
    Wired { c with hub := (c.hub.subscribeDetached erased).2 } := by
  refine hw.atomicSame rfl (fun s => ?_) fun s drops => ?_
  · simp only [Hub.subscribeDetached, count, publisherOf?, Table.get?_insert]
    split
    · rename_i same
      rw [same, Table.get?_of_le (Nat.le_refl _)]
      rfl
    · rfl
  · exact (Table.get?_insert _ _ _).trans (if_neg (Nat.ne_of_lt (hw.dropped_lt drops)))

theorem newPublisher (hw : c.Wired) (name : String) (pool : Nat) :
    Wired { c with hub := (c.hub.newPublisher name pool).2 } := by
  have lists : ∀ q, (c.hub.newPublisher name pool).2.receivers q = c.hub.receivers q := by
    intro q
    rw [Hub.newPublisher, receivers, Table.get?_insert]
    split
    · rename_i same
      rw [same, receivers_absent (Table.get?_of_le (Nat.le_refl _))]
      rfl
    · rfl
  exact hw.sameLists lists (fun _ => rfl) (fun i s p waiting => ⟨i, waiting⟩)
    (fun i a ha => ⟨a, ha, fun _ same => same, fun _ same => same⟩) fun i a ha =>
      (hw.fits i a ha).congr (fun q _ => lists q) (fun _ _ => rfl) fun _ _ => rfl

theorem subscribe (hw : c.Wired) {p : Nat} (erased : Bool) (unlocked : ¬ c.locked p) :
    Wired { c with hub := (c.hub.subscribe p erased).2 } := by
  rcases subscribe_cases c.hub p erased with ⟨-, ⟨-, same⟩ | ⟨P, counters, log, hP, same⟩⟩ <;> rw [same]
  · exact hw.subscribeDetached erased
  let new := c.hub.subscriptions.next
  have lists : ∀ q, (c.hub.publishers.modify p fun _ => attach P erased new).get? q =
      if q = p then some (attach P erased new) else c.hub.publishers.get? q := by
    intro q
    rw [Table.get?_modify]
    split
    · rename_i here
      rw [here, hP]
      rfl
    · rfl
  have attached := attach_receivers P erased (s := new)
  have subs : ∀ t, (c.hub.subscriptions.insert { erased, publisher := some p }).2.get? t =
      if t = new then some { erased, publisher := some p } else c.hub.subscriptions.get? t :=
    Table.get?_insert _ _
  have old : ∀ {t q}, t ∈ c.hub.receivers q → t ≠ new := by
    rintro t q member rfl
    obtain ⟨sub, found⟩ := hw.present member
    exact Nat.lt_irrefl _ (Table.get?_lt found)
  have before := receivers_eq hP
  refine ⟨fun q => ?_, fun t q named => ?_, fun t q member => ?_, hw.alone, hw.single, fun i a ha =>
    (hw.fits i a ha).congr (fun q locks => ?_) (fun t drops => ?_) fun t emptied => ?_⟩
  · rw [receivers, lists]
    split
    · refine attached.nodup_iff.2 (List.nodup_cons.2 ⟨fun member => ?_, before ▸ hw.once p⟩)
      exact old (before.symm ▸ member) rfl
    · exact hw.once q
  · rw [publisherOf?, subs] at named
    rw [receivers, lists]
    split at named
    · rename_i here
      obtain rfl : p = q := Option.some.inj named
      rw [if_pos rfl, here]
      exact attached.mem_iff.2 List.mem_cons_self
    · have member := hw.named t q named
      split
      · rename_i here
        subst here
        exact attached.mem_iff.2 (List.mem_cons_of_mem _ (before ▸ member))
      · exact member
  · rw [receivers, lists] at member
    rw [publisherOf?, subs]
    split at member
    · rename_i here
      subst here
      rcases List.mem_cons.1 (attached.mem_iff.1 member) with here | member
      · rw [if_pos here]
        exact .inl rfl
      · have member : t ∈ c.hub.receivers q := before.symm ▸ member
        rw [if_neg (old member)]
        exact hw.listed t q member
    · rw [if_neg (old member)]
      exact hw.listed t q member
  · rw [receivers, lists, if_neg]
    · rfl
    · rintro rfl
      exact unlocked (locked_iff.2 ⟨i, a, ha, locks⟩)
  · rw [subs, if_neg (Nat.ne_of_lt (hw.dropped_lt (dropping_iff.2 ⟨i, a, ha, drops⟩)))]
  · rw [subs, if_neg (Nat.ne_of_lt (hw.dropped_lt
      (dropping_iff.2 ⟨i, a, ha, Call.drops_of_emptied emptied⟩)))]

theorem atomic (hw : c.Wired) {op : Operation} (one : op.Atomic)
    (free : ∀ s, op.owner? = some s → ¬ c.dropping s)
    (unlocked : ∀ p erased, op = .subscribe p erased → ¬ c.locked p) :
    Wired { c with hub := c.hub.apply op } := by
  have same : SameLinks c.hub (c.hub.apply op) → Wired { c with hub := c.hub.apply op } := fun links =>
    hw.atomicSame links.publishers (publisherOf?_congr links.subscriptions) fun _ _ => by
      rw [links.subscriptions]
  by_cases hop : op.OnBuffers
  · exact same (SameLinks.apply c.hub hop)
  cases op with
  | newPublisher name pool => exact hw.newPublisher name pool
  | newMailbox => exact hw.atomicSame rfl (fun _ => rfl) fun _ _ => rfl
  | subscribe p erased => exact hw.subscribe erased (unlocked p erased rfl)
  | subscribeDetached erased => exact hw.subscribeDetached erased
  | pull s => exact hw.atomicLocal (.pull c.hub s) (free s rfl)
  | arm s mailbox =>
    rw [apply]
    split
    · exact hw.atomicLocal (.arm c.hub s mailbox) (free s rfl)
    · exact hw
  | cancel s => exact hw.atomicLocal (.cancel c.hub s) (free s rfl)
  | takeCell cell =>
    rcases takeCell_cases c.hub cell with ⟨-, -, eq⟩ | ⟨x, -, -, eq⟩ <;> rw [apply, eq]
    · exact hw
    · exact hw.atomicSame rfl (fun _ => rfl) fun _ _ => rfl
  | dropCell cell =>
    rcases dropCell_cases c.hub cell with ⟨-, eq⟩ | ⟨x, -, eq⟩ <;> rw [apply, eq]
    · exact hw.atomicSame rfl (fun _ => rfl) fun _ _ => rfl
    · have links := (SamePeers.giveUp { c.hub with cells := c.hub.cells.erase cell } x).links
      exact hw.atomicSame links.publishers (publisherOf?_congr links.subscriptions) fun _ _ => by
        rw [links.subscriptions]
  | publish | dropSubscription | dropPublisher => exact one.elim
  | newPool | acquire | write | chain | dropBlank | wait | erase | release | tally =>
    exact absurd trivial hop

theorem step (hw : c.Wired) (x : Step) : (c.step x).Wired := by
  have moved := step_transition c x
  generalize c.step x = c' at moved ⊢
  cases moved with
  | idle => exact hw
  | atomic one free unlocked => exact hw.atomic one free unlocked
  | published owned unlocked => exact hw.published unlocked
  | left found free => exact hw.left found free
  | closed found unlocked => exact hw.closed unlocked
  | unheard found =>
    exact hw.proceedSame found (fun _ _ => nofun) (fun _ => nofun) (fun _ => nofun) rfl rfl trivial
  | counted found => exact hw.counted found
  | pushed found => exact hw.pushed found
  | unlocked found => exact hw.finishSame found (fun _ _ => nofun) rfl rfl
  | recycled found =>
    rename_i r _
    have links := (SamePeers.recycle c.hub r).links
    exact hw.finishSame found (fun _ _ => nofun) links.publishers links.subscriptions
  | delisted found unlocked => exact hw.delisted found unlocked
  | drained found there => exact hw.drained found there
  | withdrawn log found =>
    rename_i armed
    refine hw.proceedSame found (fun _ _ => nofun) (fun _ => nofun) (fun _ same => same) ?_ ?_ ?_
    · cases armed <;> rfl
    · cases armed <;> rfl
    · have fits := hw.fits _ _ found
      cases armed <;> exact fits
  | released found =>
    rename_i x _
    have links := (SamePeers.giveUp c.hub x).links
    refine hw.proceedSame found (fun _ _ => nofun) (fun _ => nofun) (fun _ same => same)
      links.publishers links.subscriptions ?_
    simp only [Call.Fits, links.subscriptions]
    exact hw.fits _ _ found
  | ended found => exact hw.ended found
  | invalidated found there first => exact hw.invalidated found there first
  | tornDown log found there nobody => exact hw.tornDown log found there nobody
  | lost found gone =>
    refine hw.finishSame found (fun s p same => ?_) rfl rfl
    subst same
    rcases gone with ⟨t, same, -⟩ | ⟨q, n, same, -⟩ <;> simp at same

theorem run (hw : c.Wired) (steps : List Step) : (c.run steps).Wired := by
  induction steps generalizing c with
  | nil => exact hw
  | cons x steps ih => exact ih (hw.step x)

end Wired

theorem Reachable.wired (hc : c.Reachable) : c.Wired := by
  obtain ⟨steps, rfl⟩ := hc
  exact Wired.empty.run steps

end Concurrent

end BufferFlow
