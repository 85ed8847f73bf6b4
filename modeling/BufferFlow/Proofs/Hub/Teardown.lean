import BufferFlow.Proofs.Hub.Origins
import BufferFlow.Proofs.Hub.Releases

set_option autoImplicit false

namespace BufferFlow

/-- Whether the operation only gives up a copy, a publisher or a subscription. -/
def Operation.LetsGo : Operation → Prop
  | release _ | dropPublisher _ | dropSubscription _ | tally .. => True
  | _ => False

namespace Hub

variable {h : Hub} {op : Operation} {ops a b : List Operation} {r : SlotRef} {c : Copy} {p s : Nat}
  {sub : Subscription} {sources : List Nat}

theorem pools_prepared_letsGo (hop : op.LetsGo) : (h.prepared op).pools = h.pools := by
  cases op with
  | release c =>
    simp only [prepared, settling]
    split <;> rfl
  | dropPublisher p => exact (SameStock.dropPublisher h p).pools
  | dropSubscription s => exact (SameStock.detach h s).pools
  | tally counters log => rfl
  | _ => exact hop.elim

theorem unreturned_letsGo (sound : h.Sound) (hop : op.LetsGo) (stacked : h.stackedAt r = 1) :
    .returned r ∉ h.moves op ∧ (h.apply op).stackedAt r = 1 := by
  have pools := pools_prepared_letsGo (h := h) hop
  obtain ⟨-, -, -, slot, hs, -⟩ := (Balanced.standing sound.accounted r).of_stacked (by omega)
  have present : ((h.prepared op).slot? r).isSome := by
    rw [slot?, pools, ← slot?, hs]
    rfl
  have played := stackedAt_performAll present (h.moves op)
  have after : (h.apply op).stackedAt r = 1 + (h.moves op).count (.returned r) := by
    rw [← stacked, stackedAt, pools_apply, ← stackedAt, played, stackedAt, pools, ← stackedAt]
  have le := (Balanced.standing (sound.apply op).accounted r).stacked_le_one
  exact ⟨List.count_eq_zero.1 (by omega), by omega⟩

theorem unreturned_trace (sound : h.Sound) (hops : ∀ op ∈ ops, op.LetsGo)
    (stacked : h.stackedAt r = 1) : .returned r ∉ h.trace ops ∧ (h.applyAll ops).stackedAt r = 1 := by
  induction ops generalizing h with
  | nil => exact ⟨List.not_mem_nil, stacked⟩
  | cons op ops ih =>
    obtain ⟨first, stacked⟩ := unreturned_letsGo sound (hops op List.mem_cons_self) stacked
    obtain ⟨rest, still⟩ :=
      ih (sound.apply op) (fun op hop => hops op (List.mem_cons_of_mem _ hop)) stacked
    exact ⟨fun hm => (List.mem_append.1 hm).elim first rest, still⟩

theorem moves_dropBlank (ha : h.Accounted) (owned : r ∈ h.blanks) (bare : h.chainedAt r = none) :
    h.moves (.dropBlank r) = [.returned r] := by
  obtain ⟨slot, hs, -⟩ := Balanced.blank_slot ha owned
  have room : 0 < (h.takeBlank r).slotCount := slotCount_pos (r := r) hs
  obtain ⟨fuel, enough⟩ := Nat.exists_eq_succ_of_ne_zero (Nat.pos_iff_ne_zero.1 room)
  have bare' : (h.takeBlank r).chainedAt r = none := bare
  rw [moves, settling, if_pos owned]
  dsimp only
  rw [recycleMoves, enough, recycleMovesWith, bare']

theorem returned_once (sound : h.Sound) (owned : r ∈ h.blanks) (bare : h.chainedAt r = none)
    (hops : ∀ op ∈ ops, op.LetsGo) : (h.trace (.dropBlank r :: ops)).count (.returned r) = 1 ∧
      (h.applyAll (.dropBlank r :: ops)).InState r .free := by
  obtain ⟨slot, hs, -⟩ := Balanced.blank_slot sound.accounted owned
  have present : (h.slot? r).isSome := hs ▸ rfl
  have unstacked := ((Balanced.standing sound.accounted r).of_blank (List.count_pos_iff.2 owned)).1
  have back := moves_dropBlank sound.accounted owned bare
  have stacked : (h.apply (.dropBlank r)).stackedAt r = 1 := by
    rw [stackedAt_apply _ present unstacked, back]
    exact List.count_singleton_self
  obtain ⟨never, free⟩ := unreturned_trace (sound.apply _) hops stacked
  constructor
  · rw [trace, back, List.count_append, List.count_singleton_self, List.count_eq_zero.2 never]
  · have after := sound.applyAll (.dropBlank r :: ops)
    obtain ⟨state, inState⟩ := after.accounted.inState (present_applyAll present _)
    cases state with
    | free => exact inState
    | owned | published => exact absurd (inState.1.symm.trans free) Nat.zero_ne_one

theorem queueOf_letsGo (hop : op.LetsGo) (kept : op ≠ .dropSubscription s) :
    (h.apply op).queueOf s = h.queueOf s := by
  cases op with
  | release c =>
    have links : SameLinks h (h.apply (.release c)) := .apply h trivial
    rw [queueOf, links.subscriptions, ← queueOf]
  | dropPublisher p => exact queueOf_dropPublisher h p s
  | dropSubscription t =>
    have hne : s ≠ t := fun same => kept (same ▸ rfl)
    rw [queueOf, apply, get?_dropSubscription, if_neg hne, ← queueOf]
  | tally counters log => rfl
  | _ => exact hop.elim

theorem gone_letsGo (hop : op.LetsGo) (gone : h.subscriptions.get? s = none) :
    (h.apply op).subscriptions.get? s = none := by
  cases op with
  | release c =>
    have links : SameLinks h (h.apply (.release c)) := .apply h trivial
    rw [links.subscriptions]
    exact gone
  | dropPublisher p =>
    rw [apply, get?_dropPublisher, gone]
    split <;> rfl
  | dropSubscription t =>
    rw [apply, get?_dropSubscription, gone]
    split <;> rfl
  | tally counters log => exact gone
  | _ => exact hop.elim

theorem gone_of_dropped (hops : ∀ op ∈ ops, op.LetsGo) (dropped : .dropSubscription s ∈ ops) :
    (h.applyAll ops).subscriptions.get? s = none := by
  have stays : ∀ (more : List Operation) (g : Hub), (∀ op ∈ more, op.LetsGo) →
      g.subscriptions.get? s = none → (g.applyAll more).subscriptions.get? s = none := by
    intro more g hmore gone
    induction more generalizing g with
    | nil => exact gone
    | cons op more ih =>
      exact ih _ (fun op hop => hmore op (List.mem_cons_of_mem _ hop))
        (gone_letsGo (hmore op List.mem_cons_self) gone)
  obtain ⟨a, b, rfl⟩ := List.append_of_mem dropped
  rw [applyAll_append, applyAll_cons]
  refine stays b _ (fun op hop => hops op (by simp [hop])) ?_
  rw [apply, get?_dropSubscription, if_pos rfl]

theorem released_dropSubscriptions (once : sources.Nodup) :
    released (h.trace (sources.map .dropSubscription)) = sources.flatMap h.queueOf := by
  induction sources generalizing h with
  | nil => rfl
  | cons s sources ih =>
    obtain ⟨absent, once⟩ := List.nodup_cons.1 once
    rw [List.map_cons, released_trace_cons, ih once, List.flatMap_cons]
    refine congrArg (h.queueOf s ++ ·) (List.flatMap_congr fun t ht => ?_)
    exact queueOf_letsGo trivial fun same => absent (Operation.dropSubscription.inj same ▸ ht)

theorem drains (sound : h.Sound) (hs : h.subscriptions.get? s = some sub)
    (named : sub.publisher = some p) (dead : (h.applyAll a).publishers.contains p = false)
    (kept : .dropSubscription s ∉ a ++ b) :
    h.departed s (a ++ b) ++ (h.applyAll (a ++ b)).queueOf s =
        sub.queue ++ (h.publishedBy p a).map (·.copy sub.erased) ∧
      ((h.applyAll (a ++ b)).pull s).1 =
        match (h.applyAll (a ++ b)).queueOf s with
        | [] => .gone
        | c :: _ => .ready c := by
  obtain ⟨P, hP⟩ := Option.isSome_iff_exists.1
    (sound.enrolled.alive s p (publisherOf?_eq_some.2 ⟨sub, hs, named⟩))
  have given := Table.get?_lt hP
  obtain ⟨sub', found, -, ⟨-, follows⟩, order⟩ :=
    departed_append_queue sound hs ⟨given, .inl named⟩ kept
  have gone : (h.applyAll (a ++ b)).publishers.contains p = false := by
    rw [applyAll_append]
    exact dead_applyAll (next_applyAll given a) dead b
  have lost : sub'.publisher = none := by
    refine (follows.resolve_left fun named' => ?_).1
    have alive := (sound.applyAll (a ++ b)).enrolled.alive s p
      (publisherOf?_eq_some.2 ⟨sub', found, named'⟩)
    exact absurd (gone.symm.trans alive) Bool.false_ne_true
  have queue : (h.applyAll (a ++ b)).queueOf s = sub'.queue := by rw [queueOf, found]; rfl
  rw [queue, order, publishedBy_dead given dead]
  refine ⟨rfl, ?_⟩
  simp only [pull, found]
  cases sub'.queue with
  | nil => simp [Subscription.isActive, lost]
  | cons c rest => rfl

end Hub

end BufferFlow
