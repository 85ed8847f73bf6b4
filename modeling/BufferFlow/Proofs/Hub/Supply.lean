import BufferFlow.Proofs.Hub.Frames

set_option autoImplicit false

namespace BufferFlow.Hub

variable {h : Hub} {s : Nat} {sub : Subscription} {ops : List Operation}

theorem applyAll_append (h : Hub) (a b : List Operation) :
    h.applyAll (a ++ b) = (h.applyAll a).applyAll b := List.foldl_append

theorem applyAll_cons (h : Hub) (op : Operation) (ops : List Operation) :
    h.applyAll (op :: ops) = (h.apply op).applyAll ops := rfl

theorem history_append (h : Hub) (a b : List Operation) :
    h.history (a ++ b) = h.history a ++ (h.applyAll a).history b :=
  append_of_cons (fun _ => rfl) (fun _ _ _ => rfl) h a b

theorem publishedBy_append (h : Hub) (p : Nat) (a b : List Operation) :
    h.publishedBy p (a ++ b) = h.publishedBy p a ++ (h.applyAll a).publishedBy p b := by
  rw [publishedBy, history_append, List.filter_append]
  rfl

theorem departed_append (h : Hub) (s : Nat) (a b : List Operation) :
    h.departed s (a ++ b) = h.departed s a ++ (h.applyAll a).departed s b :=
  append_of_cons (g := fun h => h.departed s) (fun _ => rfl) (fun _ _ _ => rfl) h a b

theorem departed_snoc (h : Hub) (s : Nat) (ops : List Operation) (op : Operation) :
    h.departed s (ops ++ [op]) = h.departed s ops ++ (h.applyAll ops).departures s op := by
  rw [departed_append, departed, departed, List.append_nil]

theorem publishedBy_snoc (h : Hub) (p : Nat) (ops : List Operation) (op : Operation) :
    h.publishedBy p (ops ++ [op]) = h.publishedBy p ops ++
      ((h.applyAll ops).publication? op).toList.filter (·.publisher = p) := by
  rw [publishedBy_append]
  congr 1
  rw [publishedBy, history, history, List.append_nil]

theorem publishedBy_quiet {p : Nat} {op : Operation} (quiet : ∀ blank, op ≠ .publish p blank) :
    h.publishedBy p (ops ++ [op]) = h.publishedBy p ops := by
  have nothing : ((h.applyAll ops).publication? op).toList.filter (·.publisher = p) = [] := by
    refine List.filter_eq_nil_iff.2 fun pub hpub => ?_
    obtain ⟨hop, -⟩ := publication?_eq_some.1 (Option.mem_toList.1 hpub)
    have apart : pub.publisher ≠ p := fun heq => quiet pub.ref (heq ▸ hop)
    simpa using apart
  rw [publishedBy_snoc, nothing, List.append_nil]

theorem publishedBy_quiet_all {p : Nat} {more : List Operation}
    (quiet : ∀ op ∈ more, ∀ blank, op ≠ .publish p blank) :
    h.publishedBy p (ops ++ more) = h.publishedBy p ops := by
  induction more generalizing ops with
  | nil => rw [List.append_nil]
  | cons op more ih =>
    have rest : h.publishedBy p (ops ++ [op] ++ more) = h.publishedBy p (ops ++ [op]) :=
      ih fun op hop => quiet op (List.mem_cons_of_mem _ hop)
    rw [List.append_assoc, List.singleton_append] at rest
    rw [rest, publishedBy_quiet (quiet op List.mem_cons_self)]

theorem publishedBy_publish {p : Nat} {blank : SlotRef} {payload : Payload}
    (alive : (h.applyAll ops).publishers.contains p) (owned : blank ∈ (h.applyAll ops).blanks)
    (shown : (h.applyAll ops).payload? blank = some payload) :
    h.publishedBy p (ops ++ [.publish p blank]) =
      h.publishedBy p ops ++ [⟨p, blank, (h.applyAll ops).serial, payload⟩] := by
  have publication : (h.applyAll ops).publication? (.publish p blank) =
      some ⟨p, blank, (h.applyAll ops).serial, payload⟩ :=
    publication?_eq_some.2 ⟨rfl, owned, alive, rfl, shown⟩
  rw [publishedBy_snoc, publication]
  simp

theorem getElem?_snoc {α : Type} {l : List α} {a b : α} {i : Nat} (found : (l ++ [a])[i]? = some b) :
    l[i]? = some b ∨ i = l.length ∧ b = a := by
  by_cases early : i < l.length
  · rw [List.getElem?_append_left early] at found
    exact .inl found
  · have last : i = l.length := by
      have bound := (List.getElem?_eq_some_iff.1 found).1
      rw [List.length_append, List.length_singleton] at bound
      omega
    rw [last, List.getElem?_concat_length] at found
    exact .inr ⟨last, (Option.some.inj found).symm⟩

theorem applyAll_snoc (h : Hub) (ops : List Operation) (op : Operation) :
    h.applyAll (ops ++ [op]) = (h.applyAll ops).apply op := applyAll_append h ops [op]

def publishedTo (h : Hub) (s : Nat) (ops : List Operation) : List Publication :=
  match h.publisherOf? s with
  | none => []
  | some p => h.publishedBy p ops

/-- The payloads that the subscription has queued. -/
def backlog (h : Hub) (s : Nat) : List Payload := (h.queueOf s).filterMap fun c => h.payload? c.ref

/-- All payloads for the subscription, counted from the oldest that is queued. -/
def supply (h : Hub) (s : Nat) (ops : List Operation) : List Payload :=
  h.backlog s ++ (h.publishedTo s ops).map (·.payload)

theorem publishedTo_append (h : Hub) (s : Nat) (a b : List Operation) :
    h.publishedTo s a <+: h.publishedTo s (a ++ b) := by
  rw [publishedTo, publishedTo]
  split
  · exact List.prefix_refl _
  · rw [publishedBy_append]
    exact List.prefix_append _ _

theorem supply_append (h : Hub) (s : Nat) (a b : List Operation) :
    h.supply s a <+: h.supply s (a ++ b) :=
  (List.prefix_append_right_inj _).2 ((publishedTo_append h s a b).map _)

theorem departed_append_queue_detached (sound : h.Sound) (hs : h.subscriptions.get? s = some sub)
    (lost : sub.publisher = none) (kept : .dropSubscription s ∉ ops) :
    ∃ sub', (h.applyAll ops).subscriptions.get? s = some sub' ∧ sub'.publisher = none ∧
      h.departed s ops ++ sub'.queue = sub.queue := by
  induction ops generalizing h sub with
  | nil => exact ⟨sub, hs, lost, rfl⟩
  | cons op ops ih =>
    obtain ⟨sub', step⟩ := flows sound hs fun heq => kept (heq ▸ List.mem_cons_self)
    have still : sub'.publisher = none := by
      rcases step.publisher with ⟨same, -⟩ | ⟨p, -, -, lost'⟩
      · exact same.trans lost
      · exact lost'
    obtain ⟨last, found, gone, order⟩ := ih (sound.apply op) step.found still
      fun hm => kept (List.mem_cons_of_mem op hm)
    refine ⟨last, found, gone, ?_⟩
    have none_here : h.arrivals sub op = [] := arrivals_eq_nil fun pub _ => by simp [lost]
    rw [departed, List.append_assoc, order, step.order, none_here, List.append_nil]

theorem departed_append_queueOf (sound : h.Sound) (hs : h.subscriptions.get? s = some sub)
    (kept : .dropSubscription s ∉ ops) :
    h.departed s ops ++ (h.applyAll ops).queueOf s =
      sub.queue ++ (h.publishedTo s ops).map (·.copy sub.erased) := by
  rw [publishedTo, publisherOf?, hs, Option.bind_some]
  cases named : sub.publisher with
  | none =>
    obtain ⟨sub', found, -, order⟩ := departed_append_queue_detached sound hs named kept
    rw [queueOf, found]
    exact order.trans (List.append_nil _).symm
  | some p =>
    have alive := sound.enrolled.alive s p (publisherOf?_eq_some.2 ⟨sub, hs, named⟩)
    obtain ⟨P, hP⟩ := Option.isSome_iff_exists.1 alive
    obtain ⟨sub', found, -, -, order⟩ :=
      departed_append_queue sound hs ⟨Table.get?_lt hP, .inl named⟩ kept
    rw [queueOf, found]
    exact order

theorem mem_copies_of_held {c : Copy} (hc : c ∈ h.held) : c ∈ h.copies :=
  List.mem_append_left _ (List.mem_append_left _ (List.mem_append_left _ hc))

theorem mem_copies_of_cell {c : Copy} {cell : Nat} (hc : h.cells.get? cell = some (some c)) :
    c ∈ h.copies := by
  refine List.mem_append_left _ (List.mem_append_right _ ?_)
  exact List.mem_filterMap.2 ⟨some c, Table.mem_values.2 ⟨cell, hc⟩, rfl⟩

theorem mem_copies_of_queue {c : Copy} (hs : h.subscriptions.get? s = some sub)
    (hc : c ∈ sub.queue) : c ∈ h.copies := by
  refine List.mem_append_left _ (List.mem_append_left _ (List.mem_append_right _ ?_))
  exact List.mem_flatMap.2 ⟨sub, Table.mem_values.2 ⟨s, hs⟩, hc⟩

theorem payload?_of_copy (ha : h.Accounted) {c : Copy} (hc : c ∈ h.copies) :
    ∃ v, h.payload? c.ref = some v := by
  obtain ⟨slot, hslot⟩ := Option.isSome_iff_exists.1 (copy_present ha hc)
  exact ⟨slot.payload, by rw [payload?, hslot]; rfl⟩

theorem filterMap_getElem? {α β : Type} {f : α → Option β} {l : List α}
    (total : ∀ a ∈ l, (f a).isSome) (i : Nat) : (l.filterMap f)[i]? = l[i]?.bind f := by
  induction l generalizing i with
  | nil => rfl
  | cons a l ih =>
    obtain ⟨b, hb⟩ := Option.isSome_iff_exists.1 (total a List.mem_cons_self)
    rw [List.filterMap_cons_some hb]
    cases i with
    | zero => exact hb.symm
    | succ i => exact ih (fun a ha => total a (List.mem_cons_of_mem _ ha)) i

theorem backlog_total (sound : h.Sound) (hs : h.subscriptions.get? s = some sub) :
    ∀ c ∈ h.queueOf s, (h.payload? c.ref).isSome := by
  intro c hc
  rw [queueOf, hs] at hc
  obtain ⟨v, hv⟩ := payload?_of_copy sound.accounted (mem_copies_of_queue hs hc)
  exact hv ▸ rfl

theorem length_supply (sound : h.Sound) (hs : h.subscriptions.get? s = some sub)
    (kept : .dropSubscription s ∉ ops) :
    (h.supply s ops).length =
      (h.departed s ops).length + ((h.applyAll ops).queueOf s).length := by
  have order := congrArg List.length (departed_append_queueOf sound hs kept)
  have queue : h.queueOf s = sub.queue := by rw [queueOf, hs]; rfl
  rw [supply, backlog, List.length_append, List.length_map,
    List.filterMap_length_eq_length.2 (backlog_total sound hs), queue]
  rw [List.length_append, List.length_append, List.length_map] at order
  exact order.symm

theorem faithful_queued (sound : h.Sound) (hs : h.subscriptions.get? s = some sub) {c : Copy}
    {v : Payload} (hc : c ∈ sub.queue) (shown : h.payload? c.ref = some v) :
    h.Faithful ⟨0, c.ref, c.serial, v⟩ := by
  have alive := mem_copies_of_queue hs hc
  refine ⟨sound.numbered.given c alive, fun d hd heq => ?_⟩
  have ref := sound.numbered.sameSlot d hd c alive heq
  exact ⟨ref, ref ▸ shown⟩

theorem supply_shown (sound : h.Sound) (hs : h.subscriptions.get? s = some sub)
    (kept : .dropSubscription s ∉ ops) {i : Nat} {c : Copy}
    (hc : (h.departed s ops ++ (h.applyAll ops).queueOf s)[i]? = some c)
    (alive : c ∈ (h.applyAll ops).copies) :
    (h.supply s ops)[i]? = (h.applyAll ops).payload? c.ref := by
  have queue : h.queueOf s = sub.queue := by rw [queueOf, hs]; rfl
  have total := backlog_total sound hs
  have length : (h.backlog s).length = sub.queue.length := by
    rw [backlog, List.filterMap_length_eq_length.2 total, queue]
  rw [departed_append_queueOf sound hs kept] at hc
  rw [supply]
  by_cases early : i < sub.queue.length
  · rw [List.getElem?_append_left early] at hc
    rw [List.getElem?_append_left (length ▸ early), backlog, filterMap_getElem? total, queue, hc,
      Option.bind_some]
    have queued := List.mem_of_getElem? hc
    obtain ⟨v, shown⟩ := payload?_of_copy sound.accounted (mem_copies_of_queue hs queued)
    have faithful := (faithful_queued sound hs queued shown).applyAll sound ops
    rw [shown, (faithful.shown c alive rfl).2]
  · rw [Nat.not_lt] at early
    rw [List.getElem?_append_right early, List.getElem?_map] at hc
    rw [List.getElem?_append_right (length ▸ early), length, List.getElem?_map]
    obtain ⟨pub, hpub, rfl⟩ := Option.map_eq_some_iff.1 hc
    have past : pub ∈ h.history ops := by
      have mem := List.mem_of_getElem? hpub
      rw [publishedTo] at mem
      split at mem
      · simp at mem
      · exact (List.mem_filter.1 mem).1
    rw [hpub, ((faithful_history sound pub past).shown _ alive rfl).2]
    rfl

theorem supply_detached (sound : h.Sound) (hs : h.subscriptions.get? s = some sub)
    {a b : List Operation} (kept : .dropSubscription s ∉ a ++ b)
    (gone : (h.applyAll a).publisherOf? s = none) :
    (h.applyAll (a ++ b)).publisherOf? s = none ∧
      (h.supply s (a ++ b)).length = (h.supply s a).length := by
  have kept_a : .dropSubscription s ∉ a := fun hm => kept (List.mem_append_left _ hm)
  have kept_b : .dropSubscription s ∉ b := fun hm => kept (List.mem_append_right _ hm)
  obtain ⟨sub', found⟩ : ∃ sub', (h.applyAll a).subscriptions.get? s = some sub' := by
    clear gone kept
    induction a generalizing h sub with
    | nil => exact ⟨sub, hs⟩
    | cons op a ih =>
      obtain ⟨sub', step⟩ := flows sound hs fun heq => kept_a (heq ▸ List.mem_cons_self)
      exact ih (sound.apply op) step.found fun hm => kept_a (List.mem_cons_of_mem op hm)
  have lost : sub'.publisher = none := by rwa [publisherOf?, found] at gone
  obtain ⟨sub'', found', gone', order⟩ :=
    departed_append_queue_detached (sound.applyAll a) found lost kept_b
  rw [← applyAll_append] at found'
  refine ⟨by rw [publisherOf?, found']; exact gone', ?_⟩
  have queue : (h.applyAll a).queueOf s = sub'.queue := by rw [queueOf, found]; rfl
  have queue' : (h.applyAll (a ++ b)).queueOf s = sub''.queue := by rw [queueOf, found']; rfl
  rw [length_supply sound hs kept, length_supply sound hs kept_a, departed_append, queue, queue',
    ← order, List.length_append, List.length_append, Nat.add_assoc]

end BufferFlow.Hub
