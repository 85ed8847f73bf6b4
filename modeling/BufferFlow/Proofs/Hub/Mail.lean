import BufferFlow.Proofs.Hub.Frames
import BufferFlow.Proofs.Hub.Reachable

set_option autoImplicit false

namespace BufferFlow

inductive Notice
  | expected
  | arrived
  | withdrawn
  | failed (counted : Bool)
  deriving DecidableEq

namespace Notice

def expects : Notice → Bool
  | expected => true
  | _ => false

def discounts : Notice → Bool
  | expected => false
  | arrived | withdrawn => true
  | failed counted => counted

end Notice

def Mailbox.take (M : Mailbox) : Notice → Mailbox
  | .expected => M.expect
  | .arrived | .withdrawn => M.discount
  | .failed counted => M.fail counted

structure Mail where
  mailbox : Nat
  notice : Notice
  deriving DecidableEq

namespace Hub

variable {h h' : Hub} {s m : Nat} {t : Table Mailbox} {l : List Mail}

def post (t : Table Mailbox) (l : List Mail) : Table Mailbox :=
  l.foldl (fun t mail => t.modify mail.mailbox (·.take mail.notice)) t

def expectedIn (m : Nat) (l : List Mail) : Nat :=
  l.countP fun mail => mail.mailbox = m ∧ mail.notice.expects

def discountedIn (m : Nat) (l : List Mail) : Nat :=
  l.countP fun mail => mail.mailbox = m ∧ mail.notice.discounts

/-- Every notice finds its mailbox, and there a count of at least one if it takes one away. -/
def Unclamped (t : Table Mailbox) : List Mail → Prop
  | [] => True
  | mail :: l =>
    (∃ M, t.get? mail.mailbox = some M ∧ (mail.notice.discounts → 0 < M.pending)) ∧
      Unclamped (post t [mail]) l

theorem post_append (t : Table Mailbox) (a b : List Mail) :
    post t (a ++ b) = post (post t a) b :=
  List.foldl_append

theorem Unclamped.append {a b : List Mail} (ha : Unclamped t a) (hb : Unclamped (post t a) b) :
    Unclamped t (a ++ b) := by
  induction a generalizing t with
  | nil => exact hb
  | cons mail a ih => exact ⟨ha.1, ih ha.2 hb⟩

theorem get?_post_one (t : Table Mailbox) (mail : Mail) (m : Nat) :
    (post t [mail]).get? m =
      if m = mail.mailbox then (t.get? m).map (·.take mail.notice) else t.get? m :=
  Table.get?_modify t mail.mailbox (·.take mail.notice) m

theorem contains_post (t : Table Mailbox) (l : List Mail) (m : Nat) :
    (post t l).contains m = t.contains m := by
  induction l generalizing t with
  | nil => rfl
  | cons mail l ih => exact (ih _).trans (Table.contains_modify _ _ _ _)

theorem next_post (t : Table Mailbox) (l : List Mail) : (post t l).next = t.next := by
  induction l generalizing t with
  | nil => rfl
  | cons mail l ih => exact (ih _).trans (Table.modify_next _ _ _)

theorem Unclamped.pending (clean : Unclamped t l) {M : Mailbox} (found : t.get? m = some M) :
    ∃ M', (post t l).get? m = some M' ∧
      M'.pending + discountedIn m l = M.pending + expectedIn m l := by
  induction l generalizing t M with
  | nil => exact ⟨M, found, rfl⟩
  | cons mail l ih =>
    obtain ⟨⟨N, hN, positive⟩, rest⟩ := clean
    have here := get?_post_one t mail m
    rw [found] at here
    by_cases own : m = mail.mailbox
    · subst own
      obtain rfl : M = N := Option.some.inj (found.symm.trans hN)
      rw [if_pos rfl] at here
      obtain ⟨M', hM', counted⟩ := ih rest here
      refine ⟨M', hM', ?_⟩
      have step : (M.take mail.notice).pending + (if mail.notice.discounts then 1 else 0) =
          M.pending + (if mail.notice.expects then 1 else 0) := by
        cases hn : mail.notice with
        | expected => rfl
        | arrived | withdrawn =>
          have pos := positive (by rw [hn]; rfl)
          simp only [Mailbox.take, Mailbox.discount, Notice.discounts, Notice.expects, ↓reduceIte,
            Bool.false_eq_true]
          omega
        | failed counted =>
          cases counted with
          | false => rfl
          | true =>
            have pos := positive (by rw [hn]; rfl)
            simp only [Mailbox.take, Mailbox.fail, Notice.discounts, Notice.expects, ↓reduceIte,
              Bool.false_eq_true]
            omega
      simp only [discountedIn, expectedIn, List.countP_cons, true_and, decide_eq_true_eq] at counted ⊢
      omega
    · rw [if_neg own] at here
      obtain ⟨M', hM', counted⟩ := ih rest here
      refine ⟨M', hM', ?_⟩
      simpa [discountedIn, expectedIn, List.countP_cons, Ne.symm own] using counted

def cancelMail (h : Hub) (s : Nat) : List Mail :=
  (h.armedOf? s).toList.map fun a => ⟨a.mailbox, .withdrawn⟩

/-- A cell that is gone does not take the copy and is withdrawn instead. -/
def pushMail (h : Hub) (s : Nat) : List Mail :=
  (h.armedOf? s).toList.map fun a =>
    ⟨a.mailbox, if h.cells.get? a.cell = some none then .arrived else .withdrawn⟩

def invalidateMail (h : Hub) (s : Nat) : List Mail :=
  (h.armedOf? s).toList.map fun a => ⟨a.mailbox, .failed true⟩

def armNewMail (h : Hub) (s mailbox : Nat) : List Mail :=
  match h.subscriptions.get? s with
  | none => []
  | some sub =>
    if sub.queue = [] then [⟨mailbox, if sub.isActive then .expected else .failed false⟩] else []

def armMail (h : Hub) (s mailbox : Nat) : List Mail := h.cancelMail s ++ h.armNewMail s mailbox

def pushAllMail (h : Hub) (r : SlotRef) (serial : Nat) : List Nat → List Mail
  | [] => []
  | s :: l => h.pushMail s ++ (h.push r serial s).pushAllMail r serial l

def invalidateAllMail (h : Hub) : List Nat → List Mail
  | [] => []
  | s :: l => h.invalidateMail s ++ (h.invalidate s).invalidateAllMail l

def mail (h : Hub) : Operation → List Mail
  | .publish p blank =>
    if blank ∈ h.blanks then
      ((h.spend blank).addCopies blank (h.receivers p).length).pushAllMail blank h.serial
        (h.receivers p)
    else []
  | .arm s mailbox => if h.mailboxes.contains mailbox then h.armMail s mailbox else []
  | .cancel s | .dropSubscription s => h.cancelMail s
  | .dropPublisher p => h.invalidateAllMail (h.receivers p)
  | _ => []

theorem armedOf?_eq_none (idle : ∀ sub, h.subscriptions.get? s = some sub → sub.armed = none) :
    h.armedOf? s = none :=
  Option.bind_eq_none_iff.2 idle

theorem mailboxes_cancel (h : Hub) (s : Nat) :
    (h.cancel s).mailboxes = post h.mailboxes (h.cancelMail s) := by
  rcases cancel_cases h s with ⟨idle, same⟩ | ⟨sub, a, hs, armed, same⟩ <;> rw [same, cancelMail]
  · rw [armedOf?_eq_none idle]
    rfl
  · rw [armedOf?_eq_some.2 ⟨sub, hs, armed⟩]
    rfl

theorem mailboxes_push (h : Hub) (r : SlotRef) (serial s : Nat) :
    (h.push r serial s).mailboxes = post h.mailboxes (h.pushMail s) := by
  rcases push_cases h s r serial with
    ⟨absent, same⟩ | ⟨sub, hs, ⟨idle, same⟩ | ⟨a, armed, ⟨empty, same⟩ | ⟨full, same⟩⟩⟩ <;>
    rw [same, pushMail]
  · rw [armedOf?, absent]
    rfl
  · rw [armedOf?, hs, Option.bind_some, idle]
    rfl
  · rw [armedOf?_eq_some.2 ⟨sub, hs, armed⟩, Option.toList, List.map_singleton, if_pos empty]
    rfl
  · rw [armedOf?_eq_some.2 ⟨sub, hs, armed⟩, Option.toList, List.map_singleton, if_neg full]
    rfl

theorem mailboxes_invalidate (h : Hub) (s : Nat) :
    (h.invalidate s).mailboxes = post h.mailboxes (h.invalidateMail s) := by
  rcases invalidate_cases h s with ⟨idle, same⟩ | ⟨sub, a, hs, armed, same⟩ <;>
    rw [same, invalidateMail]
  · rw [armedOf?_eq_none idle]
    rfl
  · rw [armedOf?_eq_some.2 ⟨sub, hs, armed⟩]
    rfl

theorem armNewMail_cancel (h : Hub) (s mailbox : Nat) :
    (h.cancel s).armNewMail s mailbox = h.armNewMail s mailbox := by
  rw [armNewMail, get?_cancel, armNewMail]
  cases h.subscriptions.get? s <;> rfl

theorem mailboxes_arm (h : Hub) (s mailbox : Nat) :
    (h.arm s mailbox).2.mailboxes = post h.mailboxes (h.armMail s mailbox) := by
  rw [armMail, post_append, ← mailboxes_cancel, ← armNewMail_cancel, armNewMail]
  rcases arm_cases h s mailbox with ⟨-, ⟨absent, same⟩ |
    ⟨sub, hs, ⟨c, queue, hq, same⟩ | ⟨hq, active, same⟩ | ⟨hq, gone, same⟩⟩⟩ <;> rw [same]
  · rw [absent]
    rfl
  · simp only [hs, hq]
    rfl
  · simp only [hs, hq, active, ↓reduceIte]
    rfl
  · simp only [hs, hq, gone, ↓reduceIte]
    rfl

theorem mailboxes_pushAll (h : Hub) (r : SlotRef) (serial : Nat) (l : List Nat) :
    (h.pushAll r serial l).mailboxes = post h.mailboxes (h.pushAllMail r serial l) := by
  induction l generalizing h with
  | nil => rfl
  | cons s l ih =>
    rw [pushAllMail, post_append, ← mailboxes_push]
    exact ih (h.push r serial s)

theorem mailboxes_invalidateAll (h : Hub) (l : List Nat) :
    (l.foldl invalidate h).mailboxes = post h.mailboxes (h.invalidateAllMail l) := by
  induction l generalizing h with
  | nil => rfl
  | cons s l ih =>
    rw [invalidateAllMail, post_append, ← mailboxes_invalidate]
    exact ih (h.invalidate s)

theorem cancelMail_unsubscribe (h : Hub) (s : Nat) :
    (h.unsubscribe s).cancelMail s = h.cancelMail s := by
  rw [cancelMail, armedOf?, get?_unsubscribe, cancelMail, armedOf?]
  cases h.subscriptions.get? s <;> rfl

theorem mailboxes_apply {op : Operation} (old : op ≠ .newMailbox) :
    (h.apply op).mailboxes = post h.mailboxes (h.mail op) := by
  by_cases hop : op.OnBuffers
  · have silent : h.mail op = [] := by cases op <;> first | rfl | exact False.elim hop
    rw [(SameLinks.apply h hop).mailboxes, silent]
    rfl
  cases op with
  | newMailbox => exact absurd rfl old
  | newPublisher | subscribeDetached => rfl
  | subscribe publisher erased =>
    rcases subscribe_cases h publisher erased with ⟨-, ⟨-, eq⟩ | ⟨P, counters, log, -, eq⟩⟩ <;>
      rw [apply, eq] <;> rfl
  | publish p blank =>
    rw [mail]
    rcases publish_cases h p blank with
      ⟨foreign, eq⟩ | ⟨owned, -, ⟨nobody, eq⟩ | ⟨-, eq⟩⟩ <;> rw [apply, eq]
    · rw [if_neg foreign]
      rfl
    · rw [if_pos owned, nobody]
      exact (SamePeers.recycle (h.spend blank) blank).links.mailboxes
    · rw [if_pos owned]
      exact mailboxes_pushAll ((h.spend blank).addCopies blank (h.receivers p).length) _ _ _
  | pull s =>
    rcases pull_cases h s with ⟨eq, -⟩ | ⟨sub, c, queue, -, -, -, eq⟩ <;> rw [apply, eq] <;> rfl
  | arm s mailbox =>
    rw [mail, apply]
    split
    · exact mailboxes_arm h s mailbox
    · rfl
  | cancel s => exact mailboxes_cancel h s
  | takeCell cell =>
    rcases takeCell_cases h cell with ⟨-, -, eq⟩ | ⟨c, -, -, eq⟩ <;> rw [apply, eq] <;> rfl
  | dropCell cell =>
    rcases dropCell_cases h cell with ⟨-, eq⟩ | ⟨c, -, eq⟩ <;> rw [apply, eq]
    · rfl
    · exact (SamePeers.giveUp _ c).links.mailboxes
  | dropSubscription s =>
    rw [mail]
    rcases dropSubscription_cases h s with ⟨absent, eq⟩ | ⟨sub, log, -, eq⟩ <;> rw [apply, eq]
    · rw [cancelMail, armedOf?, absent]
      rfl
    · rw [count, (SamePeers.giveUpAll { h.detach s with log } sub.queue).links.mailboxes]
      refine (mailboxes_cancel (h.unsubscribe s) s).trans ?_
      rw [cancelMail_unsubscribe]
      rcases unsubscribe_cases h s with ⟨-, eq⟩ | ⟨sub, p, -, -, eq⟩ <;> rw [eq]
  | dropPublisher p =>
    rw [mail]
    rcases dropPublisher_cases h p with ⟨gone, eq⟩ | ⟨P, log, hP, eq⟩ <;> rw [apply, eq]
    · rw [receivers, gone]
      rfl
    · rw [receivers, hP]
      exact mailboxes_invalidateAll h P.receivers
  | newPool | acquire | write | chain | dropBlank | wait | erase | release | tally =>
    exact absurd trivial hop

/-- Every mailbox counts the subscriptions that are armed against it and what else is `due` from it:
what was disarmed and is still to be withdrawn. -/
def Tallied (h : Hub) (due : Nat → Nat) : Prop :=
  (∀ s a, h.armedOf? s = some a → a.mailbox < h.mailboxes.next) ∧
    (∀ m, m < h.mailboxes.next → h.mailboxes.contains m) ∧
      ∀ m M, h.mailboxes.get? m = some M → M.pending = h.armedWith m + due m

theorem armedWith_pos {a : Armed} (armed : h.armedOf? s = some a) : 0 < h.armedWith a.mailbox := by
  obtain ⟨sub, hs, ha⟩ := armedOf?_eq_some.1 armed
  exact share_pos hs ha

theorem armedWith_modify (h : Hub) (s : Nat) (f : Subscription → Subscription) (m : Nat) :
    { h with subscriptions := h.subscriptions.modify s f }.armedWith m +
        (if (h.armedOf? s).any (·.mailbox = m) then 1 else 0) =
      h.armedWith m +
        if (((h.subscriptions.get? s).map f).bind (·.armed)).any (·.mailbox = m) then 1 else 0 := by
  rw [armedOf?]
  cases hs : h.subscriptions.get? s with
  | none => rw [armedWith, Table.modify_of_get?_eq_none hs]; rfl
  | some sub =>
    obtain ⟨rest, before, -, after⟩ := armedWith_split hs
    rw [armedWith, after, before]
    simp only [share, Option.bind_some, Option.map_some]
    omega

theorem subscriptions_push (h : Hub) (r : SlotRef) (serial s : Nat) :
    ∃ f : Subscription → Subscription, (∀ sub, (f sub).armed = none) ∧
      (h.push r serial s).subscriptions = h.subscriptions.modify s f := by
  let queued (sub : Subscription) : Subscription :=
    { sub with armed := none, queue := sub.queue ++ [⟨r, serial, sub.erased⟩] }
  rcases push_cases h s r serial with
    ⟨absent, same⟩ | ⟨sub, hs, ⟨idle, same⟩ | ⟨a, -, ⟨-, same⟩ | ⟨-, same⟩⟩⟩
  · exact ⟨queued, fun _ => rfl, by rw [same, Table.modify_of_get?_eq_none absent]⟩
  · refine ⟨queued, fun _ => rfl, ?_⟩
    have still : ∀ t, h.subscriptions.get? s = some t →
        { t with queue := t.queue ++ [⟨r, serial, t.erased⟩] } = queued t := by
      intro t ht
      obtain rfl : sub = t := Option.some.inj (hs.symm.trans ht)
      simp only [queued, idle]
    rw [same]
    exact Table.modify_congr still
  · exact ⟨({ · with armed := none }), fun _ => rfl, by rw [same]⟩
  · exact ⟨queued, fun _ => rfl, by rw [same]⟩

theorem discountedIn_map (o : Option Armed) (n : Armed → Notice) (hn : ∀ a, (n a).discounts = true)
    (m : Nat) : discountedIn m (o.toList.map fun a => ⟨a.mailbox, n a⟩) =
      if o.any (·.mailbox = m) then 1 else 0 := by
  cases o <;> simp [discountedIn, List.countP_cons, hn]

theorem expectedIn_map (o : Option Armed) (n : Armed → Notice) (hn : ∀ a, (n a).expects = false)
    (m : Nat) : expectedIn m (o.toList.map fun a => ⟨a.mailbox, n a⟩) = 0 := by
  cases o <;> simp [expectedIn, hn]

namespace Tallied

variable {due : Nat → Nat}

theorem exchange {due' : Nat → Nat} (ht : h.Tallied due) (clean : Unclamped h.mailboxes l)
    (mailboxes : h'.mailboxes = post h.mailboxes l)
    (known : ∀ s a, h'.armedOf? s = some a → a.mailbox < h.mailboxes.next)
    (counts : ∀ m, h'.armedWith m + due' m + discountedIn m l =
      h.armedWith m + due m + expectedIn m l) : h'.Tallied due' := by
  refine ⟨fun s a hs => ?_, fun m hm => ?_, fun m M hM => ?_⟩
  · rw [mailboxes, next_post]
    exact known s a hs
  · rw [mailboxes, contains_post]
    exact ht.2.1 m (by rwa [mailboxes, next_post] at hm)
  · rw [mailboxes] at hM
    have there : (post h.mailboxes l).contains m = true := Option.isSome_iff_exists.2 ⟨M, hM⟩
    rw [contains_post] at there
    obtain ⟨N, hN⟩ := Option.isSome_iff_exists.1 there
    obtain ⟨M', hM', counted⟩ := clean.pending hN
    obtain rfl : M = M' := Option.some.inj (hM.symm.trans hM')
    have before := ht.2.2 m N hN
    have change := counts m
    omega

theorem step (ht : h.Tallied due) (clean : Unclamped h.mailboxes l)
    (mailboxes : h'.mailboxes = post h.mailboxes l)
    (known : ∀ s a, h'.armedOf? s = some a → a.mailbox < h.mailboxes.next)
    (counts : ∀ m, h'.armedWith m + discountedIn m l = h.armedWith m + expectedIn m l) :
    h'.Tallied due := by
  refine ht.exchange clean mailboxes known fun m => ?_
  have change := counts m
  omega

theorem congr (ht : h.Tallied due) (armed : ∀ s a, h'.armedOf? s = some a → h.armedOf? s = some a)
    (mailboxes : h'.mailboxes = h.mailboxes) (counts : ∀ m, h'.armedWith m = h.armedWith m) :
    h'.Tallied due :=
  ht.step (l := []) trivial mailboxes (fun s a hs => ht.1 s a (armed s a hs)) counts

theorem ofLinks (ht : h.Tallied due) (same : SameLinks h h') : h'.Tallied due := by
  refine ht.congr (fun s a hs => ?_) same.mailboxes fun m => ?_
  · rwa [armedOf?, same.subscriptions] at hs
  · rw [armedWith, same.subscriptions, armedWith]

theorem found (ht : h.Tallied due) {a : Armed} (armed : h.armedOf? s = some a) :
    ∃ M, h.mailboxes.get? a.mailbox = some M ∧ 0 < M.pending := by
  obtain ⟨M, hM⟩ := Option.isSome_iff_exists.1 (ht.2.1 a.mailbox (ht.1 s a armed))
  have positive := armedWith_pos armed
  have counted := ht.2.2 a.mailbox M hM
  exact ⟨M, hM, by omega⟩

theorem unclamped (ht : h.Tallied due) (s : Nat) (n : Armed → Notice) :
    Unclamped h.mailboxes ((h.armedOf? s).toList.map fun a => ⟨a.mailbox, n a⟩) := by
  cases armed : h.armedOf? s with
  | none => trivial
  | some a =>
    obtain ⟨M, hM, positive⟩ := ht.found armed
    exact ⟨⟨M, hM, fun _ => positive⟩, trivial⟩

theorem disarmed (ht : h.Tallied due) (n : Armed → Notice) (hd : ∀ a, (n a).discounts = true)
    (he : ∀ a, (n a).expects = false) {f : Subscription → Subscription}
    (hf : ∀ sub, (f sub).armed = none) (subscriptions : h'.subscriptions = h.subscriptions.modify s f)
    (mailboxes : h'.mailboxes =
      post h.mailboxes ((h.armedOf? s).toList.map fun a => ⟨a.mailbox, n a⟩)) :
    h'.Tallied due := by
  refine ht.step (ht.unclamped s n) mailboxes (fun t a hs => ht.1 t a ?_) fun m => ?_
  · rw [armedOf?, subscriptions, Table.get?_modify] at hs
    rw [armedOf?]
    split at hs
    · cases hsub : h.subscriptions.get? t with
      | none => simp [hsub] at hs
      | some sub => simp [hsub, hf] at hs
    · exact hs
  · have change := armedWith_modify h s f m
    have unarmed : ((h.subscriptions.get? s).map f).bind (·.armed) = none := by
      cases h.subscriptions.get? s <;> simp [hf]
    rw [unarmed] at change
    rw [discountedIn_map _ n hd, expectedIn_map _ n he, armedWith, subscriptions]
    exact change

theorem cancel (ht : h.Tallied due) (s : Nat) : (h.cancel s).Tallied due := by
  refine ht.disarmed (s := s) (fun _ => .withdrawn) (fun _ => rfl) (fun _ => rfl)
    (f := ({ · with armed := none })) (fun _ => rfl) ?_ (mailboxes_cancel h s)
  rcases cancel_cases h s with ⟨idle, same⟩ | ⟨sub, a, -, -, same⟩ <;> rw [same]
  exact (Table.modify_eq_self fun sub hs => by simp [← idle sub hs]).symm

theorem invalidate (ht : h.Tallied due) (s : Nat) : (h.invalidate s).Tallied due := by
  refine ht.disarmed (s := s) (fun _ => .failed true) (fun _ => rfl) (fun _ => rfl)
    (f := ({ · with publisher := none, armed := none })) (fun _ => rfl) ?_ (mailboxes_invalidate h s)
  rcases invalidate_cases h s with ⟨-, same⟩ | ⟨sub, a, -, -, same⟩ <;> rw [same]

theorem push (ht : h.Tallied due) (r : SlotRef) (serial s : Nat) :
    (h.push r serial s).Tallied due := by
  obtain ⟨f, hf, subscriptions⟩ := subscriptions_push h r serial s
  refine ht.disarmed (s := s) (fun a => if h.cells.get? a.cell = some none then .arrived
    else .withdrawn) (fun a => ?_) (fun a => ?_) hf subscriptions (mailboxes_push h r serial s) <;>
    split <;> rfl

theorem ofArmed (ht : h.Tallied due) {f : Subscription → Subscription}
    (hf : ∀ sub, h.subscriptions.get? s = some sub → (f sub).armed = sub.armed)
    (subscriptions : h'.subscriptions = h.subscriptions.modify s f)
    (mailboxes : h'.mailboxes = h.mailboxes) : h'.Tallied due := by
  have still : ((h.subscriptions.get? s).map f).bind (·.armed) = h.armedOf? s := by
    rw [armedOf?]
    cases hs : h.subscriptions.get? s with
    | none => rfl
    | some sub => exact hf sub hs
  refine ht.congr (fun t a hs => ?_) mailboxes fun m => ?_
  · rw [armedOf?, subscriptions, Table.get?_modify] at hs
    split at hs
    · rename_i heq
      subst heq
      exact still ▸ hs
    · exact hs
  · have change := armedWith_modify h s f m
    rw [still] at change
    rw [armedWith, subscriptions]
    exact Nat.add_right_cancel change

theorem newSubscription (ht : h.Tallied due) {sub : Subscription} (idle : sub.armed = none)
    (subscriptions : h'.subscriptions = (h.subscriptions.insert sub).2)
    (mailboxes : h'.mailboxes = h.mailboxes) : h'.Tallied due := by
  refine ht.congr (fun s a hs => ?_) mailboxes fun m => ?_
  · rw [armedOf?, subscriptions, Table.get?_insert] at hs
    split at hs
    · simp [idle] at hs
    · exact hs
  · rw [armedWith, subscriptions, Table.values_insert, List.countP_cons_of_neg (by simp [idle]),
      armedWith]

theorem forget (ht : h.Tallied due) (idle : h.armedOf? s = none)
    (subscriptions : h'.subscriptions = h.subscriptions.erase s)
    (mailboxes : h'.mailboxes = h.mailboxes) : h'.Tallied due := by
  refine ht.congr (fun t a hs => ?_) mailboxes fun m => ?_
  · rw [armedOf?, subscriptions, Table.get?_erase] at hs
    split at hs
    · simp at hs
    · exact hs
  · rw [armedWith, subscriptions]
    cases hs : h.subscriptions.get? s with
    | none => rw [Table.erase_of_get?_eq_none hs, armedWith]
    | some sub =>
      obtain ⟨rest, before, erased, -⟩ := armedWith_split hs
      have unarmed : sub.armed = none := by rwa [armedOf?, hs] at idle
      rw [erased, before, share, unarmed]
      rfl

theorem newMailbox (ht : h.Tallied due) (undue : due h.mailboxes.next = 0) :
    h.newMailbox.2.Tallied due := by
  refine ⟨fun s a hs => Nat.lt_succ_of_lt (ht.1 s a hs), fun m hm => ?_, fun m M hM => ?_⟩
  · rw [Hub.newMailbox, Table.contains, Table.get?_insert]
    split
    · rfl
    · rename_i old
      exact ht.2.1 m (Nat.lt_of_le_of_ne (Nat.le_of_lt_succ hm) old)
  · change M.pending = h.armedWith m + due m
    rw [Hub.newMailbox, Table.get?_insert] at hM
    split at hM
    · rename_i new
      obtain rfl := Option.some.inj hM
      have unarmed : h.armedWith m = 0 := by
        refine List.countP_eq_zero.2 fun sub hsub => ?_
        obtain ⟨s, hs⟩ := Table.mem_values.1 hsub
        cases armed : sub.armed with
        | none => simp
        | some a =>
          have known := ht.1 s a (armedOf?_eq_some.2 ⟨sub, hs, armed⟩)
          simpa using fun hm => absurd (hm.trans new) (Nat.ne_of_lt known)
      rw [unarmed, new, undue]
    · exact ht.2.2 m M hM

theorem arm (ht : h.Tallied due) (s : Nat) {mailbox : Nat} (there : h.mailboxes.contains mailbox) :
    (h.arm s mailbox).2.Tallied due := by
  have hc := ht.cancel s
  have idle := armedOf?_cancel h s
  have there' : (h.cancel s).mailboxes.contains mailbox := by
    rw [mailboxes_cancel, contains_post]
    exact there
  obtain ⟨M, hM⟩ := Option.isSome_iff_exists.1 there'
  rcases arm_cases h s mailbox with ⟨-, ⟨-, same⟩ |
    ⟨sub, hs, ⟨c, queue, hq, same⟩ | ⟨hq, active, same⟩ | ⟨hq, gone, same⟩⟩⟩ <;> rw [same]
  · exact hc.congr (fun _ _ => id) rfl fun _ => rfl
  · exact hc.ofArmed (s := s) (f := ({ · with queue })) (fun _ _ => rfl) rfl rfl
  · have clean : Unclamped (h.cancel s).mailboxes [⟨mailbox, .expected⟩] :=
      ⟨⟨M, hM, by simp [Notice.discounts]⟩, trivial⟩
    refine hc.step clean rfl (fun t a hs' => ?_) fun m => ?_
    · rw [armedOf?, Table.get?_modify] at hs'
      split at hs'
      · rename_i heq
        subst heq
        rw [hs] at hs'
        obtain rfl := Option.some.inj hs'
        exact Table.get?_lt hM
      · exact hc.1 t a hs'
    · have change := armedWith_modify (h.cancel s) s
        ({ · with armed := some ⟨(h.cancel s).cells.next, mailbox⟩ }) m
      rw [idle, hs] at change
      have none_less : discountedIn m [⟨mailbox, .expected⟩] = 0 := by
        simp [discountedIn, Notice.discounts]
      have one_more : expectedIn m [⟨mailbox, .expected⟩] = if mailbox = m then 1 else 0 := by
        simp [expectedIn, Notice.expects, List.countP_cons]
      rw [none_less, one_more]
      simp only [Option.any_none, Bool.false_eq_true, ↓reduceIte, Option.map_some, Option.bind_some,
        Option.any_some, decide_eq_true_eq] at change
      exact change
  · have clean : Unclamped (h.cancel s).mailboxes [⟨mailbox, .failed false⟩] :=
      ⟨⟨M, hM, by simp [Notice.discounts]⟩, trivial⟩
    exact hc.step clean rfl hc.1 fun m => by simp [discountedIn, expectedIn, Notice.discounts,
      Notice.expects, armedWith]

theorem unclamped_arm (ht : h.Tallied due) (s : Nat) {mailbox : Nat}
    (there : h.mailboxes.contains mailbox) : Unclamped h.mailboxes (h.armMail s mailbox) := by
  refine (ht.unclamped s fun _ => .withdrawn).append ?_
  rw [armNewMail]
  cases h.subscriptions.get? s with
  | none => trivial
  | some sub =>
    dsimp only
    split
    · have still : (post h.mailboxes (h.cancelMail s)).contains mailbox := by
        rw [contains_post]
        exact there
      obtain ⟨M, hM⟩ := Option.isSome_iff_exists.1 still
      refine ⟨⟨M, hM, fun counted => ?_⟩, trivial⟩
      cases active : sub.isActive <;> simp [active, Notice.discounts] at counted
    · trivial

theorem unclamped_pushAll (ht : h.Tallied due) (r : SlotRef) (serial : Nat) (l : List Nat) :
    Unclamped h.mailboxes (h.pushAllMail r serial l) := by
  induction l generalizing h with
  | nil => trivial
  | cons s l ih =>
    have first : Unclamped h.mailboxes (h.pushMail s) := ht.unclamped s _
    have rest := ih (ht.push r serial s)
    rw [mailboxes_push] at rest
    exact first.append rest

theorem unclamped_invalidateAll (ht : h.Tallied due) (l : List Nat) :
    Unclamped h.mailboxes (h.invalidateAllMail l) := by
  induction l generalizing h with
  | nil => trivial
  | cons s l ih =>
    have first : Unclamped h.mailboxes (h.invalidateMail s) := ht.unclamped s _
    have rest := ih (ht.invalidate s)
    rw [mailboxes_invalidate] at rest
    exact first.append rest

theorem unclamped_mail (ht : h.Tallied due) (op : Operation) :
    Unclamped h.mailboxes (h.mail op) := by
  cases op with
  | publish p blank =>
    rw [mail]
    split
    · have counted : ((h.spend blank).addCopies blank (h.receivers p).length).Tallied due :=
        ht.ofLinks ⟨rfl, rfl, rfl, rfl⟩
      exact counted.unclamped_pushAll blank h.serial (h.receivers p)
    · trivial
  | arm s mailbox =>
    rw [mail]
    split
    · rename_i there
      exact ht.unclamped_arm s there
    · trivial
  | cancel s | dropSubscription s => exact ht.unclamped s fun _ => .withdrawn
  | dropPublisher p => exact ht.unclamped_invalidateAll (h.receivers p)
  | _ => trivial

end Tallied

end Hub

end BufferFlow
