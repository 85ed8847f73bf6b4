import BufferFlow.Proofs.Hub.Delivery

set_option autoImplicit false

/-! # Deliveries of a subscription

The copies that left a subscription, followed by its queue, are what its publisher published since
the subscription was taken. -/

namespace BufferFlow.Hub

variable {h h' : Hub} {s : Nat} {sub : Subscription}

def placed (h : Hub) (s : Nat) (op : Operation) : List Copy :=
  ((h.armedOf? s).bind fun a => (h.apply op).contents? a.cell).toList

/-- The copies that leave the subscription in one operation: the one that is pulled, or the one that
is put into an armed cell. -/
def departures (h : Hub) (s : Nat) (op : Operation) : List Copy :=
  match op with
  | .pull t =>
    if t = s then
      match (h.pull s).1 with
      | .ready c => [c]
      | _ => []
    else h.placed s op
  | .arm t mailbox =>
    if t = s ∧ h.mailboxes.contains mailbox then
      ((h.arm s mailbox).2.contents? (h.arm s mailbox).1).toList
    else h.placed s op
  | _ => h.placed s op

def departed (h : Hub) (s : Nat) : List Operation → List Copy
  | [] => []
  | op :: ops => h.departures s op ++ (h.apply op).departed s ops

/-- The copies that come to the subscription in one operation. -/
def arrivals (h : Hub) (sub : Subscription) (op : Operation) : List Copy :=
  ((h.publication? op).toList.filter fun pub => sub.publisher = some pub.publisher).map
    (·.copy sub.erased)

/-! ## One operation -/

theorem departures_others {op : Operation} (others : ¬ op.Addresses s) :
    h.departures s op = h.placed s op := by
  cases op with
  | pull t => exact if_neg others
  | arm t mailbox => exact if_neg fun both => others both.1
  | _ => rfl

theorem placed_of_armed {op : Operation} {a : Armed} (hs : h.subscriptions.get? s = some sub)
    (armed : sub.armed = some a) : h.placed s op = ((h.apply op).contents? a.cell).toList := by
  rw [placed, armedOf?_eq_some.2 ⟨sub, hs, armed⟩, Option.bind_some]

theorem placed_of_idle {op : Operation} (hs : h.subscriptions.get? s = some sub)
    (idle : sub.armed = none) : h.placed s op = [] := by
  rw [placed, armedOf?, hs, Option.bind_some, idle]
  rfl

theorem placed_of_empty {op : Operation} (hs : h.subscriptions.get? s = some sub)
    (empty : ∀ a, sub.armed = some a → (h.apply op).contents? a.cell = none) :
    h.placed s op = [] := by
  cases armed : sub.armed with
  | none => exact placed_of_idle hs armed
  | some a =>
    rw [placed_of_armed hs armed, empty a armed]
    rfl

theorem Receives.departs {op : Operation} {c : Copy} (ha : h.Armament)
    (hs : h.subscriptions.get? s = some sub) (hr : Receives s sub c h (h.apply op)) :
    ∃ queue, (h.apply op).subscriptions.get? s = some { sub with armed := none, queue } ∧
      h.placed s op ++ queue = sub.queue ++ [c] := by
  rcases hr with ⟨a, armed, -, after, hsub⟩ | ⟨gone, hsub⟩
  · have drained := ha.drained s a (armedOf?_eq_some.2 ⟨sub, hs, armed⟩)
    have empty : sub.queue = [] := by simpa [queueOf, hs] using drained
    refine ⟨sub.queue, hsub, ?_⟩
    rw [placed_of_armed hs armed, contents?, after, empty]
    rfl
  · refine ⟨sub.queue ++ [c], hsub, ?_⟩
    rw [placed_of_empty hs fun a armed => by rw [contents?, (gone a armed).2]; rfl, List.nil_append]

theorem arrivals_eq_nil {op : Operation}
    (none_here : ∀ pub, h.publication? op = some pub → sub.publisher ≠ some pub.publisher) :
    h.arrivals sub op = [] := by
  rw [arrivals, List.map_eq_nil_iff, List.filter_eq_nil_iff]
  intro pub hpub
  simpa using none_here pub (Option.mem_toList.1 hpub)

/-- What one operation makes of a subscription that it does not drop: what leaves it and what is
queued afterwards are what was queued and what arrives. -/
structure Flows (h : Hub) (op : Operation) (sub sub' : Subscription) (s : Nat) : Prop where
  found : (h.apply op).subscriptions.get? s = some sub'
  kind : sub'.erased = sub.erased
  order : h.departures s op ++ sub'.queue = sub.queue ++ h.arrivals sub op
  publisher : (sub'.publisher = sub.publisher ∧ ∀ p, sub.publisher = some p → op ≠ .dropPublisher p) ∨
    ∃ p, op = .dropPublisher p ∧ sub.publisher = some p ∧ sub'.publisher = none

theorem flows_pull (hs : h.subscriptions.get? s = some sub) :
    ∃ sub', Flows h (.pull s) sub sub' s := by
  have none_here : h.arrivals sub (.pull s) = [] :=
    arrivals_eq_nil fun pub hpub => by simp [publication?] at hpub
  cases hq : sub.queue with
  | nil =>
    have unchanged : h.pull s = (if sub.isActive then .empty else .gone, h) := by
      simp only [pull, hs, hq]
    refine ⟨sub, ⟨by rw [apply, unchanged]; exact hs, rfl, ?_, .inl ⟨rfl, by simp⟩⟩⟩
    simp only [departures, ↓reduceIte, unchanged, none_here]
    split
    · split at * <;> simp_all
    · simp
  | cons c queue =>
    have taken : h.pull s = (.ready c, (h.modifySubscription s ({ · with queue })).hold c) := by
      simp only [pull, hs, hq]
    refine ⟨{ sub with queue }, ⟨?_, rfl, ?_, .inl ⟨rfl, by simp⟩⟩⟩
    · rw [apply, taken]
      simp only [hold, modifySubscription, Table.get?_modify, ↓reduceIte, hs, Option.map_some]
    · simp only [departures, ↓reduceIte, taken, none_here, hq]
      simp

theorem flows_cancel (ha : h.Armament) (hs : h.subscriptions.get? s = some sub) :
    Flows h (.cancel s) sub { sub with armed := none } s := by
  refine ⟨?_, rfl, ?_, .inl ⟨rfl, by simp⟩⟩
  · rw [apply, get?_cancel, hs]
    rfl
  · have empty : h.departures s (.cancel s) = [] := placed_of_empty hs fun a armed => by
      rw [apply, contents?, cells_cancel]
      exact ha.empty s a (armedOf?_eq_some.2 ⟨sub, hs, armed⟩)
    rw [empty, arrivals_eq_nil fun pub hpub => by simp [publication?] at hpub]
    simp

theorem flows_arm (hs : h.subscriptions.get? s = some sub) {mailbox : Nat}
    (there : h.mailboxes.contains mailbox) : ∃ sub', Flows h (.arm s mailbox) sub sub' s := by
  have cancelled : (h.cancel s).subscriptions.get? s = some { sub with armed := none } := by
    rw [get?_cancel, hs]
    rfl
  have none_here : h.arrivals sub (.arm s mailbox) = [] :=
    arrivals_eq_nil fun pub hpub => by simp [publication?] at hpub
  rcases arm_cases h s mailbox with ⟨new, ⟨absent, -⟩ | ⟨sub', hs', cases⟩⟩
  · simp [cancelled] at absent
  obtain rfl : { sub with armed := none } = sub' := by simpa [cancelled] using hs'
  rcases cases with ⟨c, queue, hq, same⟩ | ⟨hq, -, same⟩ | ⟨hq, -, same⟩
  · refine ⟨{ sub with armed := none, queue }, ⟨?_, rfl, ?_, .inl ⟨rfl, by simp⟩⟩⟩
    · rw [apply, if_pos there, same]
      simp only [Table.get?_modify, ↓reduceIte, cancelled, Option.map_some]
    · rw [none_here]
      simp only [departures, there, and_self, ↓reduceIte, new, same, contents?,
        Table.get?_insert] at hq ⊢
      simp [hq]
  · refine ⟨{ sub with armed := some ⟨(h.cancel s).cells.next, mailbox⟩ },
      ⟨?_, rfl, ?_, .inl ⟨rfl, by simp⟩⟩⟩
    · rw [apply, if_pos there, same]
      simp only [Table.get?_modify, ↓reduceIte, cancelled, Option.map_some]
    · rw [none_here]
      simp only [departures, there, and_self, ↓reduceIte, new, same, contents?,
        Table.get?_insert] at hq ⊢
      simp [hq]
  · refine ⟨{ sub with armed := none }, ⟨?_, rfl, ?_, .inl ⟨rfl, by simp⟩⟩⟩
    · rw [apply, if_pos there, same]
      exact cancelled
    · rw [none_here]
      simp only [departures, there, and_self, ↓reduceIte, new, same, contents?,
        Table.get?_insert] at hq ⊢
      simp [hq]

theorem flows_refused (ha : h.Armament) (hs : h.subscriptions.get? s = some sub) {mailbox : Nat}
    (missing : ¬ h.mailboxes.contains mailbox) : Flows h (.arm s mailbox) sub sub s := by
  have same : h.apply (.arm s mailbox) = h := if_neg missing
  refine ⟨by rw [same]; exact hs, rfl, ?_, .inl ⟨rfl, by simp⟩⟩
  have empty : h.departures s (.arm s mailbox) = [] := by
    refine (if_neg fun both => missing both.2).trans (placed_of_empty hs fun a armed => ?_)
    rw [same]
    exact ha.empty s a (armedOf?_eq_some.2 ⟨sub, hs, armed⟩)
  rw [empty, arrivals_eq_nil fun pub hpub => by simp [publication?] at hpub]
  simp

theorem flows {op : Operation} (sound : h.Sound) (hs : h.subscriptions.get? s = some sub)
    (kept : op ≠ .dropSubscription s) : ∃ sub', Flows h op sub sub' s := by
  by_cases own : op.Addresses s
  · cases op with
    | pull t =>
      obtain rfl : t = s := own
      exact flows_pull hs
    | arm t mailbox =>
      obtain rfl : t = s := own
      by_cases there : h.mailboxes.contains mailbox
      · exact flows_arm hs there
      · exact ⟨sub, flows_refused sound.armament hs there⟩
    | cancel t =>
      obtain rfl : t = s := own
      exact ⟨_, flows_cancel sound.armament hs⟩
    | dropSubscription t =>
      obtain rfl : t = s := own
      exact absurd rfl kept
    | _ => exact own.elim
  · have order : ∀ {l queue : List Copy}, h.placed s op ++ l = queue ++ h.arrivals sub op →
        h.departures s op ++ l = queue ++ h.arrivals sub op := by
      intro l queue
      rw [departures_others own]
      exact id
    rcases others_cases sound hs op own with
      ⟨same, empty, none_here, alive⟩ | ⟨p, rfl, hp, lost⟩ | ⟨pub, hpub, hp, received⟩
    · refine ⟨sub, ⟨same, rfl, order ?_, .inl ⟨rfl, alive⟩⟩⟩
      rw [placed_of_empty hs empty, arrivals_eq_nil none_here]
      simp
    · refine ⟨_, ⟨lost, rfl, order ?_, .inr ⟨p, rfl, hp, rfl⟩⟩⟩
      have empty : h.placed s (.dropPublisher p) = [] := placed_of_empty hs fun a armed => by
        rw [apply, contents?, cells_dropPublisher]
        exact sound.armament.empty s a (armedOf?_eq_some.2 ⟨sub, hs, armed⟩)
      rw [empty, arrivals_eq_nil fun pub hpub => by simp [publication?] at hpub]
      simp
    · obtain ⟨queue, found, placed⟩ := received.departs sound.armament hs
      refine ⟨_, ⟨found, rfl, order ?_, .inl ⟨rfl, fun p _ hop => ?_⟩⟩⟩
      · rw [placed, arrivals, hpub]
        simp [hp]
      · rw [hop] at hpub
        simp [publication?] at hpub

/-! ## A run -/

/-- The subscription is the publisher's as long as that is there. -/
def Follows (h : Hub) (sub : Subscription) (p : Nat) : Prop :=
  p < h.publishers.next ∧
    (sub.publisher = some p ∨ sub.publisher = none ∧ h.publishers.contains p = false)

theorem Flows.follows {op : Operation} {sub' : Subscription} {p : Nat}
    (flows : Flows h op sub sub' s) (follows : h.Follows sub p) : (h.apply op).Follows sub' p := by
  obtain ⟨given, named⟩ := follows
  by_cases torn : op = .dropPublisher p
  · subst torn
    have next : p < (h.dropPublisher p).publishers.next := by
      rcases dropPublisher_cases h p with ⟨-, same⟩ | ⟨P, log, -, same⟩ <;> rw [same]
      · exact given
      · rw [publishers_invalidateAll]
        exact given
    have gone : (h.dropPublisher p).publishers.contains p = false := dead_dropPublisher h p
    refine ⟨next, .inr ⟨?_, gone⟩⟩
    rcases flows.publisher with ⟨same, kept⟩ | ⟨q, -, -, lost⟩
    · rcases named with named | ⟨lost, -⟩
      · exact absurd rfl (kept p named)
      · exact same.trans lost
    · exact lost
  · obtain ⟨same, next⟩ := publisher_apply given torn
    refine ⟨next, ?_⟩
    rcases flows.publisher with ⟨kept, -⟩ | ⟨q, hop, hq, -⟩
    · rw [kept, same]
      exact named
    · rcases named with named | ⟨lost, -⟩
      · obtain rfl : q = p := by simpa [hq] using named
        exact absurd hop torn
      · simp [lost] at hq

theorem arrivals_eq {op : Operation} {p : Nat} (follows : h.Follows sub p) :
    h.arrivals sub op =
      ((h.publication? op).toList.filter (·.publisher = p)).map (·.copy sub.erased) := by
  rw [arrivals]
  congr 1
  refine List.filter_congr fun pub hpub => ?_
  rcases follows.2 with named | ⟨lost, gone⟩
  · simp [named, eq_comm]
  · have alive := (publication?_eq_some.1 (Option.mem_toList.1 hpub)).2.2.1
    have hne : pub.publisher ≠ p := by
      rintro rfl
      simp [gone] at alive
    simp [lost, hne]

/-- What left a subscription in a run, and what is queued after it, are what was queued before and
what its publisher published. -/
theorem departed_append_queue {p : Nat} {ops : List Operation} (sound : h.Sound)
    (hs : h.subscriptions.get? s = some sub) (follows : h.Follows sub p)
    (kept : .dropSubscription s ∉ ops) :
    ∃ sub', (h.applyAll ops).subscriptions.get? s = some sub' ∧ sub'.erased = sub.erased ∧
      (h.applyAll ops).Follows sub' p ∧
      h.departed s ops ++ sub'.queue =
        sub.queue ++ (h.publishedBy p ops).map (·.copy sub.erased) := by
  induction ops generalizing h sub with
  | nil => exact ⟨sub, hs, rfl, follows, by simp [departed, publishedBy, history]⟩
  | cons op ops ih =>
    obtain ⟨sub', step⟩ := flows sound hs fun heq => kept (heq ▸ List.mem_cons_self)
    obtain ⟨last, found, kind, later, order⟩ := ih (sound.apply op) step.found
      (step.follows follows) fun hm => kept (List.mem_cons_of_mem op hm)
    refine ⟨last, found, kind.trans step.kind, later, ?_⟩
    rw [departed, publishedBy, history, List.filter_append, List.map_append, List.append_assoc,
      order, ← List.append_assoc, step.order, arrivals_eq follows, step.kind, List.append_assoc]
    rfl

/-! ## Each buffer once -/

theorem history_serial (h : Hub) (ops : List Operation) :
    ((h.history ops).map (·.serial)).Pairwise (· < ·) ∧
      ∀ pub ∈ h.history ops, h.serial ≤ pub.serial := by
  induction ops generalizing h with
  | nil => exact ⟨List.Pairwise.nil, by simp [history]⟩
  | cons op ops ih =>
    obtain ⟨ordered, later⟩ := ih (h.apply op)
    rw [history]
    cases hp : h.publication? op with
    | none =>
      exact ⟨ordered, fun pub hpub => Nat.le_trans (serial_le h op) (later pub hpub)⟩
    | some first =>
      obtain ⟨now, next⟩ := serial_publication hp
      refine ⟨List.pairwise_cons.2 ⟨fun n hn => ?_, ordered⟩, fun pub hpub => ?_⟩
      · obtain ⟨pub, hpub, rfl⟩ := List.mem_map.1 hn
        have le := later pub hpub
        change first.serial < pub.serial
        omega
      · rcases List.mem_cons.1 hpub with rfl | hpub
        · exact Nat.le_of_eq now.symm
        · exact Nat.le_trans (serial_le h op) (later pub hpub)

theorem published_serials (h : Hub) (p : Nat) (ops : List Operation) :
    ((h.publishedBy p ops).map (·.serial)).Nodup :=
  ((history_serial h ops).1.sublist (List.filter_sublist.map _)).imp fun lt heq => Nat.ne_of_lt lt heq

theorem published_nodup (h : Hub) (p : Nat) (ops : List Operation) (erased : Bool) :
    ((h.publishedBy p ops).map (·.copy erased)).Nodup := by
  refine List.Nodup.of_map (·.serial) ?_
  rw [List.map_map]
  exact published_serials h p ops

theorem faithful_history {ops : List Operation} (sound : h.Sound) :
    ∀ pub ∈ h.history ops, (h.applyAll ops).Faithful pub := by
  induction ops generalizing h with
  | nil => simp [history]
  | cons op ops ih =>
    intro pub hpub
    rcases List.mem_append.1 hpub with now | later
    · have shown := faithful_publication sound.numbered sound.accounted (Option.mem_toList.1 now)
      exact shown.applyAll (sound.apply op) ops
    · exact ih (sound.apply op) pub later

theorem copies_applyAll {ops : List Operation} (sound : h.Sound) :
    ∀ c ∈ (h.applyAll ops).copies,
      (∃ d ∈ h.copies, d.ref = c.ref) ∨ ∃ pub ∈ h.history ops, pub.ref = c.ref := by
  induction ops generalizing h with
  | nil => exact fun c hc => .inl ⟨c, hc, rfl⟩
  | cons op ops ih =>
    intro c hc
    rcases ih (sound.apply op) c hc with ⟨d, hd, same⟩ | ⟨pub, later, same⟩
    · rcases copies_apply sound.accounted op d hd with ⟨e, he, ref, -⟩ | ⟨pub, hp, ref, -⟩
      · exact .inl ⟨e, he, ref.trans same⟩
      · exact .inr ⟨pub, List.mem_append_left _ (Option.mem_toList.2 hp), ref.trans same⟩
    · exact .inr ⟨pub, List.mem_append_right _ later, same⟩

/-! ## Exactly once, in order -/

theorem subscribe_follows {h₁ : Hub} {p : Nat} {erased : Bool} (alive : h.publishers.contains p)
    (taken : h.subscribe p erased = (s, h₁)) :
    h₁.subscriptions.get? s = some { erased, publisher := some p } ∧
      h₁.Follows { erased, publisher := some p } p := by
  rcases subscribe_cases h p erased with ⟨new, ⟨gone, -⟩ | ⟨P, counters, log, hP, same⟩⟩
  · simp [Table.contains, gone] at alive
  · rw [taken] at new same
    dsimp only at new same
    rw [new, same]
    have given : p < h.publishers.next := Table.get?_lt hP
    refine ⟨?_, given, .inl rfl⟩
    simp only [Table.get?_insert, ↓reduceIte]

theorem pull_gone_iff (hs : h.subscriptions.get? s = some sub) :
    (h.pull s).1 = .gone ↔ sub.publisher = none ∧ sub.queue = [] := by
  simp only [pull, hs]
  cases sub.queue with
  | nil => cases hp : sub.publisher <;> simp [Subscription.isActive, hp]
  | cons c queue => simp

theorem bounced_queued {a : Armed} {p : Nat} {blank : SlotRef} (sound : h.Sound)
    (hs : h.subscriptions.get? s = some sub) (armed : sub.armed = some a)
    (gone : h.cells.get? a.cell = none) (owned : blank ∈ h.blanks) (named : sub.publisher = some p) :
    (h.publish p blank).2.queueOf s = sub.queue ++ [⟨blank, h.serial, sub.erased⟩] := by
  rcases others_cases sound hs (.publish p blank) (fun own => own) with
    ⟨-, -, quiet, -⟩ | ⟨q, hop, -⟩ | ⟨pub, hpub, -, received⟩
  · obtain ⟨slot, hslot, -⟩ := Balanced.blank_slot sound.accounted owned
    have alive := sound.enrolled.alive s p (publisherOf?_eq_some.2 ⟨sub, hs, named⟩)
    refine absurd named (quiet ⟨p, blank, h.serial, slot.payload⟩ ?_)
    exact publication?_eq_some.2 ⟨rfl, owned, alive, rfl, by simp [payload?, hslot]⟩
  · simp at hop
  · obtain ⟨hop, -, -, serial, -⟩ := publication?_eq_some.1 hpub
    obtain ⟨-, ref⟩ := Operation.publish.inj hop
    rcases received with ⟨b, armed', there, -⟩ | ⟨-, queued⟩
    · obtain rfl : a = b := by simpa [armed] using armed'
      simp [gone] at there
    · change (h.apply (.publish p blank)).queueOf s = _
      rw [queueOf, queued, Publication.copy, ← ref, serial]
      rfl

theorem queueOf_dropPublisher (h : Hub) (p s : Nat) :
    (h.dropPublisher p).queueOf s = h.queueOf s := by
  rw [queueOf, get?_dropPublisher, queueOf]
  split
  · cases h.subscriptions.get? s <;> rfl
  · rfl

/-- From when a subscription is taken until it is dropped: the copies that left it, followed by its
queue, are the publications of its publisher since then, each once and in order. Every copy shows
the published payload, and the end is reported exactly when the publisher is gone and the queue is
empty. A copy for a dropped cell is queued, and a teardown keeps the queue. -/
theorem delivered_once_in_order {h₀ h₁ h : Hub} {p : Nat} {erased : Bool} (ops : List Operation)
    (reached : h₀.Reachable) (alive : h₀.publishers.contains p)
    (taken : h₀.subscribe p erased = (s, h₁)) (run : h = h₁.applyAll ops)
    (kept : .dropSubscription s ∉ ops) :
    h₁.departed s ops ++ h.queueOf s = (h₁.publishedBy p ops).map (·.copy erased) ∧
    ((h₁.publishedBy p ops).map (·.copy erased)).Nodup ∧
    (∀ pub ∈ h₁.publishedBy p ops, pub.copy erased ∈ h.copies →
      h.payload? pub.ref = some pub.payload) ∧
    ((h.pull s).1 = .gone ↔ h.publishers.contains p = false ∧
      h₁.departed s ops = (h₁.publishedBy p ops).map (·.copy erased)) ∧
    (∀ a blank, h.armedOf? s = some a → h.cells.get? a.cell = none → blank ∈ h.blanks →
      h.publishers.contains p →
      (h.publish p blank).2.queueOf s = h.queueOf s ++ [⟨blank, h.serial, erased⟩]) ∧
    ∀ q, (h.dropPublisher q).queueOf s = h.queueOf s := by
  have sound₁ : h₁.Sound := by
    have step := reached.sound.apply (.subscribe p erased)
    rwa [apply, taken] at step
  obtain ⟨hs, follows⟩ := subscribe_follows alive taken
  obtain ⟨sub, found, kind, later, order⟩ := departed_append_queue sound₁ hs follows kept
  subst run
  have sound := sound₁.applyAll ops
  have queue : (h₁.applyAll ops).queueOf s = sub.queue := by rw [queueOf, found]; rfl
  rw [List.nil_append] at order
  refine ⟨queue ▸ order, published_nodup h₁ p ops erased, fun pub hpub live => ?_, ?_,
    fun a blank armed gone owned there => ?_, fun q => queueOf_dropPublisher _ q s⟩
  · exact ((faithful_history sound₁ pub (List.mem_filter.1 hpub).1).shown _ live rfl).2
  · have ended : sub.publisher = none ↔ (h₁.applyAll ops).publishers.contains p = false := by
      rcases later.2 with named | ⟨lost, gone⟩
      · have there := sound.enrolled.alive s p (by rw [publisherOf?, found]; exact named)
        simp [named, Table.contains, there]
      · simp [lost, gone]
    have drained : sub.queue = [] ↔
        h₁.departed s ops = (h₁.publishedBy p ops).map (·.copy erased) := by
      rw [← order]
      simp
    rw [pull_gone_iff found, ended, drained]
  · have named : sub.publisher = some p :=
      later.2.resolve_right fun lost => by simp [lost.2] at there
    obtain ⟨sub', found', armed⟩ := armedOf?_eq_some.1 armed
    obtain rfl : sub = sub' := by simpa [found] using found'
    rw [queue, bounced_queued sound found armed gone owned named, kind]

/-- A cell is armed and dropped before the publication. -/
theorem delivered_once_in_order_bounced : ∃ h : Hub,
    h = ((({} : Hub).applyAll [.newPool "frames" 2 Payload.Shape.signal.factory,
      .newPublisher "camera" 0]).subscribe 0 false).2.applyAll
        [.newMailbox, .arm 0 0, .dropCell 0, .acquire 0] ∧
    (h.publish 0 ⟨0, 0⟩).2.queueOf 0 = h.queueOf 0 ++ [⟨⟨0, 0⟩, 0, false⟩] ∧
    (h.dropPublisher 0).queueOf 0 = h.queueOf 0 := by
  obtain ⟨-, -, -, -, bounced, torn⟩ := delivered_once_in_order (s := 0) (p := 0)
    [.newMailbox, .arm 0 0, .dropCell 0, .acquire 0]
    ⟨[.newPool "frames" 2 Payload.Shape.signal.factory, .newPublisher "camera" 0], rfl⟩
    (by decide +kernel) rfl rfl (by simp)
  refine ⟨_, rfl, ?_, torn 0⟩
  exact bounced ⟨0, 0⟩ ⟨0, 0⟩ (by decide +kernel) (by decide +kernel) (by decide +kernel)
    (by decide +kernel)

end BufferFlow.Hub
