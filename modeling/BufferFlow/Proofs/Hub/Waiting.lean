import BufferFlow.Proofs.Hub.Arming

set_option autoImplicit false

namespace BufferFlow.Hub

variable {h h' : Hub} {s : Nat} {sub : Subscription}

/-- How many subscriptions are armed against a mailbox. -/
def armedWith (h : Hub) (mailbox : Nat) : Nat :=
  h.subscriptions.values.countP fun sub => sub.armed.any (·.mailbox = mailbox)

structure Expected (h : Hub) : Prop where
  known : ∀ s a, h.armedOf? s = some a → a.mailbox < h.mailboxes.next
  pending : ∀ m M, h.mailboxes.get? m = some M → M.pending = h.armedWith m

def share (sub : Subscription) (mailbox : Nat) : Nat :=
  if sub.armed.any (·.mailbox = mailbox) then 1 else 0

theorem armedWith_split (hs : h.subscriptions.get? s = some sub) : ∃ rest : Nat → Nat,
    (∀ m, h.armedWith m = rest m + share sub m) ∧
    (∀ m, ((h.subscriptions.erase s).values.countP fun sub => sub.armed.any (·.mailbox = m)) =
      rest m) ∧
    ∀ f m, ((h.subscriptions.modify s f).values.countP fun sub => sub.armed.any (·.mailbox = m)) =
      rest m + share (f sub) m := by
  refine ⟨fun m => (h.subscriptions.others s).countP fun sub => sub.armed.any (·.mailbox = m),
    fun m => ?_, fun m => rfl, fun f m => ?_⟩
  · rw [armedWith, (Table.values_perm hs).countP_eq, List.countP_cons]
    rfl
  · rw [(Table.values_modify_perm hs f).countP_eq, List.countP_cons]
    rfl

theorem share_pos {a : Armed} (hs : h.subscriptions.get? s = some sub) (armed : sub.armed = some a) :
    0 < h.armedWith a.mailbox := by
  obtain ⟨rest, before, -⟩ := armedWith_split hs
  rw [before, share, armed]
  simp

namespace Expected

theorem congr (he : h.Expected) (armed : ∀ s a, h'.armedOf? s = some a → h.armedOf? s = some a)
    (mailboxes : h'.mailboxes = h.mailboxes) (counts : ∀ m, h'.armedWith m = h.armedWith m) :
    h'.Expected := by
  refine ⟨fun s a hs => ?_, fun m M hM => ?_⟩
  · rw [mailboxes]
    exact he.known s a (armed s a hs)
  · rw [mailboxes] at hM
    rw [counts]
    exact he.pending m M hM

theorem ofLinks (he : h.Expected) (same : SameLinks h h') : h'.Expected := by
  refine he.congr (fun s a hs => ?_) same.mailboxes fun m => ?_
  · rwa [armedOf?, same.subscriptions] at hs
  · rw [armedWith, same.subscriptions, armedWith]

theorem ofArmed (he : h.Expected) (s : Nat) (f : Subscription → Subscription)
    (publishers : Table Publisher) (cells : Table (Option Copy)) (held : List Copy)
    (hf : ∀ sub, (f sub).armed = sub.armed) :
    { h with subscriptions := h.subscriptions.modify s f, publishers, cells, held }.Expected := by
  refine he.congr (fun t a ht => ?_) rfl fun m => ?_
  · rw [armedOf?, Table.get?_modify] at ht
    rw [armedOf?]
    split at ht
    · cases hs : h.subscriptions.get? t with
      | none => simp [hs] at ht
      | some sub =>
        rw [hs] at ht
        exact (hf sub).symm.trans ht
    · exact ht
  · cases hs : h.subscriptions.get? s with
    | none => rw [armedWith, Table.modify_of_get?_eq_none hs, armedWith]
    | some sub =>
      obtain ⟨rest, before, -, after⟩ := armedWith_split hs
      rw [armedWith, after, before, share, hf, share]

theorem disarmed (he : h.Expected) {a : Armed} (hs : h.subscriptions.get? s = some sub)
    (armed : sub.armed = some a) (f : Subscription → Subscription) (g : Mailbox → Mailbox)
    (cells : Table (Option Copy)) (hf : ∀ sub, (f sub).armed = none)
    (hg : ∀ M, (g M).pending = M.pending - 1) :
    { h with
      subscriptions := h.subscriptions.modify s f
      mailboxes := h.mailboxes.modify a.mailbox g
      cells }.Expected := by
  refine ⟨fun t b ht => ?_, fun m M hM => ?_⟩
  · refine he.known t b ?_
    rw [armedOf?, Table.get?_modify] at ht
    split at ht
    · cases hsub : h.subscriptions.get? t with
      | none => simp [hsub] at ht
      | some sub => simp [hsub, hf] at ht
    · exact ht
  · obtain ⟨rest, before, -, after⟩ := armedWith_split hs
    rw [armedWith, after, share, hf]
    rw [Table.get?_modify] at hM
    have known := before m
    rw [share, armed] at known
    split at hM
    · rename_i heq
      obtain ⟨M', hM', rfl⟩ := Option.map_eq_some_iff.1 hM
      rw [hg, he.pending m M' hM', known]
      simp [heq]
    · rename_i hne
      rw [he.pending m M hM, known]
      simp [Ne.symm hne]

theorem cancel (he : h.Expected) (s : Nat) : (h.cancel s).Expected := by
  rcases cancel_cases h s with ⟨-, same⟩ | ⟨sub, a, hs, armed, same⟩ <;> rw [same]
  · exact he
  · exact he.disarmed hs armed _ _ _ (fun _ => rfl) fun _ => rfl

theorem push (he : h.Expected) (r : SlotRef) (serial s : Nat) : (h.push r serial s).Expected := by
  rcases push_cases h s r serial with
    ⟨-, same⟩ | ⟨sub, hs, ⟨idle, same⟩ | ⟨a, armed, ⟨-, same⟩ | ⟨-, same⟩⟩⟩ <;> rw [same]
  · exact he
  · exact he.ofArmed s _ _ _ _ fun _ => rfl
  · exact he.disarmed hs armed _ _ _ (fun _ => rfl) fun _ => rfl
  · exact he.disarmed hs armed _ _ _ (fun _ => rfl) fun _ => rfl

theorem pushAll (he : h.Expected) (r : SlotRef) (serial : Nat) (l : List Nat) :
    (h.pushAll r serial l).Expected := by
  induction l generalizing h with
  | nil => exact he
  | cons s l ih => exact ih (he.push r serial s)

theorem publish (he : h.Expected) (p : Nat) (blank : SlotRef) : (h.publish p blank).2.Expected := by
  rcases publish_cases h p blank with ⟨-, same⟩ | ⟨-, -, ⟨-, same⟩ | ⟨-, same⟩⟩ <;> rw [same]
  · exact he
  · have spent : (h.spend blank).Expected := he.ofLinks ⟨rfl, rfl, rfl, rfl⟩
    exact (spent.ofLinks (SamePeers.recycle _ blank).links).ofLinks ⟨rfl, rfl, rfl, rfl⟩
  · have counted : ((h.spend blank).addCopies blank (h.receivers p).length).Expected :=
      he.ofLinks ⟨rfl, rfl, rfl, rfl⟩
    exact (counted.pushAll _ _ _).ofLinks ⟨rfl, rfl, rfl, rfl⟩

theorem pull (he : h.Expected) (s : Nat) : (h.pull s).2.Expected := by
  rcases pull_cases h s with ⟨same, -⟩ | ⟨sub, c, queue, -, -, -, same⟩ <;> rw [same]
  · exact he
  · exact he.ofArmed s _ _ _ _ fun _ => rfl

theorem newMailbox (he : h.Expected) : h.newMailbox.2.Expected := by
  refine ⟨fun s a hs => Nat.lt_succ_of_lt (he.known s a hs), fun m M hM => ?_⟩
  rw [Hub.newMailbox, Table.get?_insert] at hM
  change M.pending = h.armedWith m
  split at hM
  · rename_i heq
    obtain rfl := Option.some.inj hM
    symm
    refine List.countP_eq_zero.2 fun sub hsub => ?_
    obtain ⟨s, hs⟩ := Table.mem_values.1 hsub
    cases armed : sub.armed with
    | none => simp
    | some a =>
      have known := he.known s a (armedOf?_eq_some.2 ⟨sub, hs, armed⟩)
      simpa using fun hm => absurd (hm.trans heq) (Nat.ne_of_lt known)
  · exact he.pending m M hM

theorem failed (he : h.Expected) (m : Nat) {mailboxes : Table Mailbox} {h' : Hub}
    (same : mailboxes = h.mailboxes.modify m (·.fail false))
    (subscriptions : h'.subscriptions = h.subscriptions) (hm : h'.mailboxes = mailboxes) :
    h'.Expected := by
  refine ⟨fun s a hs => ?_, fun i M hM => ?_⟩
  · rw [hm, same]
    rw [armedOf?, subscriptions] at hs
    exact he.known s a hs
  · rw [armedWith, subscriptions]
    rw [hm, same, Table.get?_modify] at hM
    split at hM
    · obtain ⟨M', hM', rfl⟩ := Option.map_eq_some_iff.1 hM
      exact he.pending i M' hM'
    · exact he.pending i M hM

theorem armNew (he : h.Expected) {cell mailbox : Nat} {cells : Table (Option Copy)}
    (hs : h.subscriptions.get? s = some sub) (idle : sub.armed = none)
    (there : h.mailboxes.contains mailbox) :
    { h with
      subscriptions := h.subscriptions.modify s ({ · with armed := some ⟨cell, mailbox⟩ })
      mailboxes := h.mailboxes.modify mailbox (·.expect)
      cells }.Expected := by
  refine ⟨fun t a ht => ?_, fun m M hM => ?_⟩
  · change a.mailbox < h.mailboxes.next
    rw [armedOf?, Table.get?_modify] at ht
    split at ht
    · rename_i heq
      subst heq
      rw [hs] at ht
      obtain rfl := Option.some.inj ht
      obtain ⟨M, hM⟩ := Option.isSome_iff_exists.1 there
      exact Table.get?_lt hM
    · exact he.known t a ht
  · obtain ⟨rest, before, -, after⟩ := armedWith_split hs
    rw [armedWith, after, share]
    rw [Table.get?_modify] at hM
    have known := before m
    rw [share, idle] at known
    split at hM
    · rename_i heq
      obtain ⟨M', hM', rfl⟩ := Option.map_eq_some_iff.1 hM
      rw [Mailbox.expect, he.pending m M' hM', known]
      simp [heq]
    · rename_i hne
      rw [he.pending m M hM, known]
      simp [Ne.symm hne]

theorem arm (he : h.Expected) (s : Nat) {mailbox : Nat} (there : h.mailboxes.contains mailbox) :
    (h.arm s mailbox).2.Expected := by
  have hc := he.cancel s
  rcases arm_cases h s mailbox with
    ⟨-, ⟨-, same⟩ | ⟨sub, hs, ⟨c, queue, -, same⟩ | ⟨-, -, same⟩ | ⟨-, -, same⟩⟩⟩ <;> rw [same]
  · exact hc.congr (fun _ _ => id) rfl fun _ => rfl
  · exact hc.ofArmed s _ _ _ _ fun _ => rfl
  · have idle : sub.armed = none := by
      have none_armed := armedOf?_cancel h s
      rwa [armedOf?, hs] at none_armed
    have there' : (h.cancel s).mailboxes.contains mailbox := by
      rcases cancel_cases h s with ⟨-, same⟩ | ⟨sub, a, -, -, same⟩ <;> rw [same]
      · exact there
      · rwa [Table.contains_modify]
    exact hc.armNew hs idle there'
  · exact hc.failed mailbox rfl rfl rfl

theorem newSubscription (he : h.Expected) (sub : Subscription) (idle : sub.armed = none)
    (subscriptions : h'.subscriptions = (h.subscriptions.insert sub).2)
    (mailboxes : h'.mailboxes = h.mailboxes) : h'.Expected := by
  refine he.congr (fun s a hs => ?_) mailboxes fun m => ?_
  · rw [armedOf?, subscriptions, Table.get?_insert] at hs
    split at hs
    · simp [idle] at hs
    · exact hs
  · rw [armedWith, subscriptions, Table.values_insert, List.countP_cons_of_neg (by simp [idle]),
      armedWith]

theorem subscribe (he : h.Expected) (p : Nat) (erased : Bool) :
    (h.subscribe p erased).2.Expected := by
  rcases subscribe_cases h p erased with ⟨-, ⟨-, same⟩ | ⟨P, counters, log, -, same⟩⟩ <;> rw [same]
  · exact he.newSubscription { erased, publisher := none } rfl rfl rfl
  · exact he.newSubscription { erased, publisher := some p } rfl rfl rfl

theorem unsubscribe (he : h.Expected) (s : Nat) : (h.unsubscribe s).Expected := by
  rcases unsubscribe_cases h s with ⟨-, same⟩ | ⟨sub, p, -, -, same⟩ <;> rw [same]
  · exact he
  · exact he.ofArmed s _ _ _ _ fun _ => rfl

theorem detach (he : h.Expected) (s : Nat) : (h.detach s).Expected := by
  have hc := (he.unsubscribe s).cancel s
  have idle := armedOf?_cancel (h.unsubscribe s) s
  refine hc.congr (fun t a ht => ?_) rfl fun m => ?_
  · rw [armedOf?, get?_detach] at ht
    rw [armedOf?]
    split at ht
    · simp at ht
    · rename_i hne
      have erased : ((h.detach s).subscriptions.get? t).bind (·.armed) = some a := by
        rw [get?_detach, if_neg hne]
        exact ht
      rwa [Hub.detach, Table.get?_erase, if_neg hne] at erased
  · cases hs : ((h.unsubscribe s).cancel s).subscriptions.get? s with
    | none => rw [armedWith, Hub.detach, Table.erase_of_get?_eq_none hs, armedWith]
    | some sub =>
      obtain ⟨rest, before, erased, -⟩ := armedWith_split hs
      have unarmed : sub.armed = none := by rwa [armedOf?, hs] at idle
      rw [armedWith, Hub.detach, erased, before, share, unarmed]
      rfl

theorem dropSubscription (he : h.Expected) (s : Nat) : (h.dropSubscription s).Expected := by
  rcases dropSubscription_cases h s with ⟨-, same⟩ | ⟨sub, log, -, same⟩ <;> rw [same]
  · exact he
  · have detached : { h.detach s with log }.Expected := (he.detach s).ofLinks ⟨rfl, rfl, rfl, rfl⟩
    exact (detached.ofLinks (SamePeers.giveUpAll _ _).links).ofLinks ⟨rfl, rfl, rfl, rfl⟩

theorem invalidate (he : h.Expected) (s : Nat) : (h.invalidate s).Expected := by
  rcases invalidate_cases h s with ⟨unarmed, same⟩ | ⟨sub, a, hs, armed, same⟩ <;> rw [same]
  · have keeps : h.subscriptions.modify s ({ · with publisher := none, armed := none }) =
        h.subscriptions.modify s ({ · with publisher := none }) :=
      Table.modify_congr fun sub hs => by simp only [unarmed sub hs]
    rw [keeps]
    exact he.ofArmed s _ _ _ _ fun _ => rfl
  · exact he.disarmed hs armed _ _ _ (fun _ => rfl) fun _ => rfl

theorem invalidateAll (he : h.Expected) (l : List Nat) : (l.foldl Hub.invalidate h).Expected := by
  induction l generalizing h with
  | nil => exact he
  | cons s l ih => exact ih (he.invalidate s)

theorem apply (he : h.Expected) (op : Operation) : (h.apply op).Expected := by
  by_cases hop : op.OnBuffers
  · exact he.ofLinks (.apply h hop)
  cases op with
  | newPublisher name pool => exact he.congr (fun _ _ => id) rfl fun _ => rfl
  | newMailbox => exact he.newMailbox
  | subscribe publisher erased => exact he.subscribe publisher erased
  | subscribeDetached erased =>
    exact he.newSubscription { erased, publisher := none } rfl rfl rfl
  | publish publisher blank => exact he.publish publisher blank
  | pull subscription => exact he.pull subscription
  | arm subscription mailbox =>
    rw [Hub.apply]
    split
    · rename_i there
      exact he.arm subscription there
    · exact he
  | cancel subscription => exact he.cancel subscription
  | takeCell cell =>
    rcases takeCell_cases h cell with ⟨-, -, same⟩ | ⟨c, -, -, same⟩ <;> rw [Hub.apply, same]
    · exact he
    · exact he.congr (fun _ _ => id) rfl fun _ => rfl
  | dropCell cell =>
    have without : { h with cells := h.cells.erase cell }.Expected :=
      he.congr (fun _ _ => id) rfl fun _ => rfl
    rcases dropCell_cases h cell with ⟨-, same⟩ | ⟨c, -, same⟩ <;> rw [Hub.apply, same]
    · exact without
    · exact without.ofLinks (SamePeers.giveUp _ c).links
  | dropSubscription subscription => exact he.dropSubscription subscription
  | dropPublisher publisher =>
    rcases dropPublisher_cases h publisher with ⟨-, same⟩ | ⟨P, log, -, same⟩ <;>
      rw [Hub.apply, same]
    · exact he
    · exact (he.invalidateAll P.receivers).congr (fun _ _ => id) rfl fun _ => rfl
  | newPool | acquire | write | chain | dropBlank | wait | erase | release | tally =>
    exact absurd trivial hop

end Expected

end BufferFlow.Hub
