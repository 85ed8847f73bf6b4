import BufferFlow.Proofs.Hub.Origins
import BufferFlow.Proofs.Stage.Relay
import BufferFlow.Proofs.Stage.Verdict

set_option autoImplicit false

namespace BufferFlow

/-- What a party works with. It gives up copies of what the senders published, and of some of these,
the retained, it may have a copy in hand from one step to the next. -/
structure Kit where
  publishers : List Nat := []
  pools : List Nat := []
  subscriptions : List Nat := []
  mailboxes : List Nat := []
  cells : List Nat := []
  senders : List Nat := []
  retained : List Nat := []

/-- Whether a party with the one kit leaves alone a party with the other. -/
structure Kit.Apart (a b : Kit) : Prop where
  publishers : a.publishers.Disjoint b.publishers
  pools : a.pools.Disjoint b.pools
  subscriptions : a.subscriptions.Disjoint b.subscriptions
  mailboxes : a.mailboxes.Disjoint b.mailboxes
  cells : a.cells.Disjoint b.cells
  senders : a.senders.Disjoint b.retained

namespace Kit.Apart

variable {a b : Kit} {cells : List Nat}

theorem none (k : Kit) : Kit.Apart {} k :=
  ⟨List.disjoint_nil_left _, List.disjoint_nil_left _, List.disjoint_nil_left _,
    List.disjoint_nil_left _, List.disjoint_nil_left _, List.disjoint_nil_left _⟩

theorem withCells (apart : a.Apart b) (disjoint : ∀ cell ∈ cells, cell ∉ b.cells) :
    Kit.Apart { a with cells } b :=
  ⟨apart.publishers, apart.pools, apart.subscriptions, apart.mailboxes,
    fun cell hc => disjoint cell hc, apart.senders⟩

theorem withCells' (apart : a.Apart b) (disjoint : ∀ cell ∈ a.cells, cell ∉ cells) :
    Kit.Apart a { b with cells } :=
  ⟨apart.publishers, apart.pools, apart.subscriptions, apart.mailboxes,
    fun cell hc => disjoint cell hc, apart.senders⟩

end Kit.Apart

/-- Whether the operation is about nothing but what is in the kit, after a run. -/
def Operation.Within (k : Kit) (h₀ : Hub) (ops : List Operation) : Operation → Prop
  | acquire _ | wait _ | tally _ _ => True
  | write blank _ | dropBlank blank => blank.pool ∈ k.pools
  | chain blank c => blank.pool ∈ k.pools ∧ ∃ p ∈ k.senders, h₀.Sends p ops c
  | publish p blank => p ∈ k.publishers ∧ blank.pool ∈ k.pools
  | pull s | cancel s | dropSubscription s => s ∈ k.subscriptions
  | arm s m => s ∈ k.subscriptions ∧ m ∈ k.mailboxes
  | takeCell cell | dropCell cell => cell ∈ k.cells
  | erase c | release c => ∃ p ∈ k.senders, h₀.Sends p ops c
  | dropPublisher p => p ∈ k.publishers
  | newPool .. | newPublisher .. | newMailbox | subscribe .. | subscribeDetached _ => False

namespace Operation.Within

variable {k : Kit} {h₀ : Hub} {ops : List Operation} {op : Operation}

theorem consumes {c : Copy} (within : op.Within k h₀ ops) (consumed : op.Consumes c) :
    ∃ p ∈ k.senders, h₀.Sends p ops c := by
  cases op with
  | chain blank d =>
    obtain rfl : d = c := consumed
    exact within.2
  | erase d | release d =>
    obtain rfl : d = c := consumed
    exact within
  | _ => exact False.elim consumed

theorem addresses {s : Nat} (within : op.Within k h₀ ops) (own : op.Addresses s) :
    s ∈ k.subscriptions := by
  cases op with
  | pull t | cancel t | dropSubscription t =>
    obtain rfl : t = s := own
    exact within
  | arm t m =>
    obtain rfl : t = s := own
    exact within.1
  | _ => exact False.elim own

theorem avoids_blank {b : SlotRef} (within : op.Within k h₀ ops) (foreign : b.pool ∉ k.pools) :
    (∀ p, op ≠ .publish p b) ∧ (∀ payload, op ≠ .write b payload) ∧ op ≠ .dropBlank b := by
  refine ⟨?_, ?_, ?_⟩
  · rintro p rfl
    exact foreign within.2
  · rintro payload rfl
    exact foreign within
  · rintro rfl
    exact foreign within

theorem avoids_publisher {p : Nat} (within : op.Within k h₀ ops) (foreign : p ∉ k.publishers) :
    op ≠ .dropPublisher p ∧ ∀ blank, op ≠ .publish p blank := by
  refine ⟨?_, ?_⟩
  · rintro rfl
    exact foreign within
  · rintro blank rfl
    exact foreign within.1

end Operation.Within

namespace RelayLoop

variable {h₀ : Hub} {l : RelayLoop} {ops : List Operation} {op : Operation} {a : Kit}

def kit (l : RelayLoop) (h₀ : Hub) : Kit :=
  { publishers := [l.publisher], pools := (h₀.poolOf? l.publisher).toList }

theorem spares_of_within (within : op.Within a h₀ ops) (apart : a.Apart (l.kit h₀))
    (rooted : ∀ b, l.phase.blank? = some b → h₀.poolOf? l.publisher = some b.pool) :
    l.Spares op := by
  have foreign : l.publisher ∉ a.publishers := fun hp =>
    apart.publishers hp (List.mem_singleton.2 rfl)
  obtain ⟨publisher, unpublished⟩ := within.avoids_publisher foreign
  exact ⟨publisher, unpublished, fun b hb => within.avoids_blank fun hp =>
    apart.pools hp (Option.mem_toList.2 (rooted b hb))⟩

theorem requests_within {h : Hub}
    (rooted : ∀ b, l.phase.blank? = some b → h₀.poolOf? l.publisher = some b.pool) :
    ∀ op ∈ l.requests h, op.Within (l.kit h₀) h₀ ops := by
  have mine : ∀ b, l.phase.blank? = some b → b.pool ∈ (l.kit h₀).pools := fun b hb =>
    Option.mem_toList.2 (rooted b hb)
  have publisher : l.publisher ∈ (l.kit h₀).publishers := List.mem_singleton.2 rfl
  have turn := l.advance_turn h
  generalize l.advance h = progress at turn
  generalize l.requests h = asked at turn ⊢
  intro op hop
  cases turn with
  | starves =>
    obtain ⟨pool, -, rfl⟩ := Option.map_eq_some_iff.1 (Option.mem_toList.1 hop)
    trivial
  | acquires =>
    obtain rfl := List.mem_singleton.1 hop
    trivial
  | lacks => exact absurd hop List.not_mem_nil
  | fills phase =>
    obtain rfl := List.mem_singleton.1 hop
    exact mine _ (by rw [phase]; rfl)
  | faults phase =>
    rcases List.mem_pair.1 hop with rfl | rfl <;> exact mine _ (by rw [phase]; rfl)
  | publishes phase | overruns phase | unheard phase =>
    obtain rfl := List.mem_singleton.1 hop
    exact ⟨publisher, mine _ (by rw [phase]; rfl)⟩

end RelayLoop

namespace AggregatorLoop

variable {h₀ h : Hub} {l : AggregatorLoop} {ops : List Operation} {op : Operation} {a : Kit}

def kit (l : AggregatorLoop) (h₀ : Hub) : Kit where
  publishers := [l.publisher]
  pools := (h₀.poolOf? l.publisher).toList
  subscriptions := l.sources
  mailboxes := [l.mailbox]
  cells := l.phase.cells
  senders := l.sources.filterMap h₀.publisherOf?
  retained := (h₀.publisherOf? l.primary).toList

theorem Engaged.sends {k : Nat} {cells : List Nat} {s : Nat} {c : Copy}
    (e : l.Engaged h₀ ops k cells) (unqueued : ∀ s ∈ l.sources, h₀.queueOf s = [])
    (hs : s ∈ l.sources) (hc : c ∈ h₀.departed s ops) :
    ∃ p, h₀.publisherOf? s = some p ∧ h₀.Sends p ops c :=
  Hub.sends_departed e.sound (e.present s hs) (unqueued s hs) (e.kept s hs) hc

theorem Engaged.mine {k : Nat} {cells : List Nat} {s : Nat} {c : Copy}
    (e : l.Engaged h₀ ops k cells) (unqueued : ∀ s ∈ l.sources, h₀.queueOf s = [])
    (hs : s ∈ l.sources) (hc : c ∈ h₀.departed s ops) :
    ∃ p ∈ (l.kit h₀).senders, h₀.Sends p ops c := by
  obtain ⟨p, named, sent⟩ := e.sends unqueued hs hc
  exact ⟨p, List.mem_filterMap.2 ⟨s, hs, named⟩, sent⟩

theorem InRound.inHand (r : l.InRound h₀ ops) {c : Copy} (hc : l.phase.source? = some c) :
    c ∈ h₀.departed l.primary ops := by
  have prepared := r.prepared
  cases phase : l.phase with
  | acquiring source =>
    rw [phase] at hc prepared
    obtain rfl := Option.some.inj hc
    exact List.mem_of_getElem? prepared.2.last
  | transforming source blank =>
    rw [phase] at hc prepared
    obtain rfl := Option.some.inj hc
    exact List.mem_of_getElem? prepared.2.1.last
  | _ => simp [phase, AggregatorPhase.source?] at hc

theorem InRound.spares_of_within (r : l.InRound h₀ ops) (within : op.Within a h₀ ops)
    (apart : a.Apart (l.kit h₀)) (unqueued : ∀ s ∈ l.sources, h₀.queueOf s = [])
    (rooted : ∀ b, l.phase.blank? = some b → h₀.poolOf? l.publisher = some b.pool) (h : Hub) :
    l.Spares h op := by
  have foreign : l.publisher ∉ a.publishers := fun hp =>
    apart.publishers hp (List.mem_singleton.2 rfl)
  obtain ⟨publisher, unpublished⟩ := within.avoids_publisher foreign
  refine ⟨⟨⟨fun s hs own => apart.subscriptions (within.addresses own) hs, ?_, ?_⟩, publisher,
    unpublished⟩, fun c hc consumed => ?_, fun b hb => within.avoids_blank fun hp =>
    apart.pools hp (Option.mem_toList.2 (rooted b hb))⟩
  · rintro s rfl
    exact apart.mailboxes within.2 (List.mem_singleton.2 rfl)
  · intro cell hcell
    constructor
    · rintro rfl
      exact apart.cells within hcell
    · rintro rfl
      exact apart.cells within hcell
  · obtain ⟨p, named, sent⟩ := r.engaged.sends unqueued List.mem_cons_self (r.inHand hc)
    obtain ⟨q, hq, sent'⟩ := within.consumes consumed
    obtain rfl := sent.unique sent'
    exact absurd (Option.mem_toList.2 named) (apart.senders hq)

theorem gatesRequests_within {k : Kit} {cells : List Nat} (sound : h.Sound) (apart : cells.Nodup)
    (owned : ∀ cell ∈ cells, cell ∈ k.cells) (full : ∀ cell ∈ cells, ∃ c,
      h.contents? cell = some c ∧ ∃ p ∈ k.senders, h₀.Sends p ops c) :
    ∀ op ∈ gatesRequests h cells, op.Within k h₀ ops := by
  induction cells generalizing h with
  | nil => simp [gatesRequests]
  | cons cell cells ih =>
    obtain ⟨absent, apart⟩ := List.nodup_cons.1 apart
    intro op hop
    rw [gatesRequests] at hop
    rcases List.mem_append.1 hop with first | rest
    · obtain ⟨c, found, sent⟩ := full cell List.mem_cons_self
      rcases mem_gateRequests.1 first with rfl | ⟨d, found', rfl⟩ | rfl
      · exact owned cell List.mem_cons_self
      · obtain rfl : c = d := Option.some.inj (found.symm.trans found')
        exact sent
      · exact owned cell List.mem_cons_self
    · refine ih (sound.applyAll _) apart (fun other ho => owned other (List.mem_cons_of_mem _ ho))
        (fun other ho => ?_) op rest
      obtain ⟨c, found, sent⟩ := full other (List.mem_cons_of_mem _ ho)
      have hne : other ≠ cell := fun heq => absent (heq ▸ ho)
      have still := Hub.signal?_applyAll sound (by rw [found]; rfl) (gateRequests_spares (h := h) hne)
      exact ⟨c, still.1.trans found, sent⟩

theorem takeRequests_within {k : Kit} {cells : List Nat} (sound : h.Sound) (apart : cells.Nodup)
    (owned : ∀ cell ∈ cells, cell ∈ k.cells) (full : ∀ cell ∈ cells, ∃ c,
      h.contents? cell = some c ∧ ∃ p ∈ k.senders, h₀.Sends p ops c) :
    ∀ op ∈ takeRequests h cells, op.Within k h₀ ops := by
  obtain _ | ⟨primary, gates⟩ := cells
  · simp [takeRequests]
  obtain ⟨absent, apart⟩ := List.nodup_cons.1 apart
  obtain ⟨c, found, sent⟩ := full primary List.mem_cons_self
  have gatesWithin : ∀ op ∈ gatesRequests h gates, op.Within k h₀ ops :=
    gatesRequests_within sound apart (fun cell hc => owned cell (List.mem_cons_of_mem _ hc))
      fun cell hc => full cell (List.mem_cons_of_mem _ hc)
  have still := Hub.signal?_applyAll sound (by rw [found]; rfl)
    (gatesRequests_spares (h := h) absent)
  intro op hop
  rw [takeRequests] at hop
  rcases List.mem_append.1 hop with hop | released
  · rcases List.mem_append.1 hop with hop | hop
    · exact gatesWithin op hop
    · rcases List.mem_pair.1 hop with rfl | rfl <;> exact owned primary List.mem_cons_self
  · split at released
    · exact absurd released List.not_mem_nil
    · rw [still.1, found] at released
      obtain rfl := List.mem_singleton.1 released
      exact sent

theorem InRound.requests_within (r : l.InRound h₀ ops)
    (unqueued : ∀ s ∈ l.sources, h₀.queueOf s = [])
    (rooted : ∀ b, l.phase.blank? = some b → h₀.poolOf? l.publisher = some b.pool) :
    ∀ op ∈ l.requests (h₀.applyAll ops), op.Within (l.kit h₀) h₀ ops := by
  have mine : ∀ b, l.phase.blank? = some b → b.pool ∈ (l.kit h₀).pools := fun b hb =>
    Option.mem_toList.2 (rooted b hb)
  have publisher : l.publisher ∈ (l.kit h₀).publishers := List.mem_singleton.2 rfl
  have inHand : ∀ c, l.phase.source? = some c → ∃ p ∈ (l.kit h₀).senders, h₀.Sends p ops c :=
    fun c hc => r.engaged.mine unqueued List.mem_cons_self (r.inHand hc)
  have turn := l.advance_turn (h₀.applyAll ops)
  generalize l.advance (h₀.applyAll ops) = progress at turn
  generalize l.requests (h₀.applyAll ops) = asked at turn ⊢
  intro op hop
  cases turn with
  | armed | waits | lacks => exact absurd hop List.not_mem_nil
  | arms phase next =>
    obtain rfl := List.mem_singleton.1 hop
    exact ⟨List.mem_of_getElem? next, List.mem_singleton.2 rfl⟩
  | abandons phase waited =>
    rcases List.mem_append.1 hop with hop | hop
    · rcases List.mem_cons.1 hop with rfl | hop
      · trivial
      · obtain ⟨s, hs, rfl⟩ := List.mem_map.1 hop
        exact hs
    · obtain ⟨cell, hc, rfl⟩ := List.mem_map.1 hop
      change cell ∈ l.phase.cells
      rwa [phase]
  | @takes cells g phase waited =>
    rcases List.mem_cons.1 hop with rfl | hop
    · trivial
    obtain ⟨engaged, all⟩ := r.waits phase
    have verdict : ((h₀.applyAll ops).wait? l.mailbox).map (·.1) = some true := by rw [waited]; rfl
    obtain rfl := Hub.apply_wait waited
    refine takeRequests_within (r.engaged.soundly.apply (.wait l.mailbox)) engaged.joining.apart
      (fun cell hc => ?_) (fun cell hc => ?_) op hop
    · change cell ∈ l.phase.cells
      rwa [phase]
    · obtain ⟨i, hi⟩ := List.getElem?_of_mem hc
      have short : i < l.sources.length := all ▸ (List.getElem?_eq_some_iff.1 hi).1
      have hs := List.getElem?_eq_getElem short
      obtain ⟨c, v, full, left, -⟩ := engaged.come verdict hs hi
      refine ⟨c, ?_, engaged.mine unqueued (List.getElem_mem short) (List.mem_of_getElem? left)⟩
      rw [Hub.contents?, (wait_still _ _ cell).1, full]
      rfl
  | starves =>
    obtain ⟨pool, -, rfl⟩ := Option.map_eq_some_iff.1 (Option.mem_toList.1 hop)
    trivial
  | acquires =>
    obtain rfl := List.mem_singleton.1 hop
    trivial
  | transforms phase =>
    rcases List.mem_pair.1 hop with rfl | rfl
    · exact mine _ (by rw [phase]; rfl)
    · exact ⟨mine _ (by rw [phase]; rfl), inHand _ (by rw [phase]; rfl)⟩
  | faults phase =>
    rcases List.mem_cons.1 hop with rfl | hop
    · exact mine _ (by rw [phase]; rfl)
    · rcases List.mem_pair.1 hop with rfl | rfl
      · exact mine _ (by rw [phase]; rfl)
      · exact inHand _ (by rw [phase]; rfl)
  | publishes phase | unheard phase =>
    obtain rfl := List.mem_singleton.1 hop
    exact ⟨publisher, mine _ (by rw [phase]; rfl)⟩

theorem closing_within : ∀ op ∈ l.closing, op.Within (l.kit h₀) h₀ ops := by
  intro op hop
  rcases List.mem_cons.1 hop with rfl | hop
  · exact List.mem_singleton.2 rfl
  · obtain ⟨s, hs, rfl⟩ := List.mem_map.1 hop
    exact hs

end AggregatorLoop

end BufferFlow
