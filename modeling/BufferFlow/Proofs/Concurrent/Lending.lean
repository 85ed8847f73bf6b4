import BufferFlow.Proofs.Concurrent.Transitions
import BufferFlow.Proofs.Hub.Chaining

set_option autoImplicit false

namespace BufferFlow.Hub

variable {h : Hub} {B : List SlotRef} {C : List Copy}

/-- The hub with these blanks and copies as if in somebody's hands. -/
def lend (h : Hub) (B : List SlotRef) (C : List Copy) : Hub :=
  { h with blanks := h.blanks ++ B, held := h.held ++ C }

@[simp] theorem lend_pools : (h.lend B C).pools = h.pools := rfl

@[simp] theorem lend_publishers : (h.lend B C).publishers = h.publishers := rfl

@[simp] theorem lend_subscriptions : (h.lend B C).subscriptions = h.subscriptions := rfl

@[simp] theorem lend_mailboxes : (h.lend B C).mailboxes = h.mailboxes := rfl

@[simp] theorem lend_cells : (h.lend B C).cells = h.cells := rfl

theorem mem_lend_blanks {r : SlotRef} (owned : r ∈ h.blanks) : r ∈ (h.lend B C).blanks :=
  List.mem_append_left B owned

theorem mem_lend_held {c : Copy} (inHand : c ∈ h.held) : c ∈ (h.lend B C).held :=
  List.mem_append_left C inHand

theorem letGo_lend {c : Copy} (inHand : c ∈ h.held) :
    (h.lend B C).letGo c = (h.letGo c).lend B C := by
  simp only [letGo, lend, List.erase_append_left C inHand]

theorem takeBlank_lend {r : SlotRef} (owned : r ∈ h.blanks) :
    (h.lend B C).takeBlank r = (h.takeBlank r).lend B C := by
  simp only [takeBlank, lend, List.erase_append_left B owned]

theorem recycleWith_lend (fuel : Nat) (h : Hub) (r : SlotRef) :
    recycleWith fuel (h.lend B C) r = (recycleWith fuel h r).lend B C := by
  induction fuel generalizing h r with
  | zero => rfl
  | succ fuel ih =>
    rw [recycleWith, recycleWith]
    have held : (h.lend B C).chainedAt r = h.chainedAt r := rfl
    rw [held]
    cases h.chainedAt r with
    | none => rfl
    | some c =>
      dsimp only
      have counted : ((h.lend B C).unchain r).copiesAt c.ref = (h.unchain r).copiesAt c.ref := rfl
      rw [counted]
      split
      · have lent := ih ((h.unchain r).discount c.ref) c.ref
        exact congrArg (·.putBack r) lent
      · rfl

theorem recycle_lend (h : Hub) (r : SlotRef) : (h.lend B C).recycle r = (h.recycle r).lend B C :=
  recycleWith_lend _ h r

theorem giveUp_lend (h : Hub) (c : Copy) : (h.lend B C).giveUp c = (h.giveUp c).lend B C := by
  rw [giveUp, giveUp]
  have counted : (h.lend B C).copiesAt c.ref = h.copiesAt c.ref := rfl
  rw [counted]
  split
  · exact recycle_lend (h.discount c.ref) c.ref
  · rfl

theorem chain_lend {blank : SlotRef} {upstream : Copy} (owned : blank ∈ h.blanks)
    (inHand : upstream ∈ h.held) :
    (h.lend B C).chain blank upstream = (h.chain blank upstream).lend B C := by
  have held : (h.lend B C).chainedAt blank = h.chainedAt blank := rfl
  simp only [chain]
  rw [if_pos ⟨mem_lend_blanks owned, mem_lend_held inHand⟩, if_pos ⟨owned, inHand⟩,
    letGo_lend inHand, held]
  cases h.chainedAt blank with
  | none => rfl
  | some c =>
    exact giveUp_lend ((h.letGo upstream).modifySlot blank
      ({ · with chained := some { upstream with erased := true } })) c

theorem arm_lend (h : Hub) (s mailbox : Nat) :
    (h.lend B C).arm s mailbox = ((h.arm s mailbox).1, (h.arm s mailbox).2.lend B C) := by
  have cancelled : (h.lend B C).cancel s = (h.cancel s).lend B C := by
    rw [cancel, cancel, lend_subscriptions]
    cases (h.subscriptions.get? s).bind (·.armed) <;> rfl
  simp only [arm, cancelled, lend_subscriptions]
  cases (h.cancel s).subscriptions.get? s with
  | none => rfl
  | some sub =>
    cases hq : sub.queue with
    | cons c queue => simp only [hq]; rfl
    | nil =>
      simp only [hq]
      cases sub.isActive <;> rfl

/-- Whether what the operation takes is there. -/
def Admits (h : Hub) : Operation → Prop
  | .write blank _ | .dropBlank blank => blank ∈ h.blanks
  | .chain blank upstream => blank ∈ h.blanks ∧ upstream ∈ h.held
  | .erase copy | .release copy => copy ∈ h.held
  | _ => True

theorem apply_refused {op : Operation} (refused : ¬ h.Admits op) : h.apply op = h := by
  cases op with
  | write | dropBlank | chain | erase | release => exact if_neg refused
  | _ => exact absurd trivial refused

theorem apply_lend {op : Operation} (one : op.Atomic) (admitted : h.Admits op) :
    (h.lend B C).apply op = (h.apply op).lend B C := by
  cases op with
  | newPool name capacity factory =>
    simp only [apply, newPool, bind, Except.bind]
    cases Pool.new name capacity factory <;> rfl
  | newPublisher | newMailbox | subscribeDetached | tally => rfl
  | subscribe p erased =>
    simp only [apply, subscribe, lend_publishers]
    cases h.publishers.get? p with
    | none => rfl
    | some P => cases erased <;> rfl
  | acquire pool =>
    simp only [apply, acquire?, bind, Option.bind, lend_pools]
    cases h.pools.get? pool with
    | none => rfl
    | some p =>
      dsimp only
      cases p.take? <;> rfl
  | write blank payload =>
    have owned : blank ∈ h.blanks := admitted
    simp only [apply, write]
    rw [if_pos owned, if_pos (mem_lend_blanks owned)]
    rfl
  | chain blank upstream => exact chain_lend admitted.1 admitted.2
  | dropBlank blank =>
    have owned : blank ∈ h.blanks := admitted
    simp only [apply, dropBlank]
    rw [if_pos owned, if_pos (mem_lend_blanks owned), takeBlank_lend owned]
    exact recycle_lend _ blank
  | pull s =>
    simp only [apply, pull, lend_subscriptions]
    cases h.subscriptions.get? s with
    | none => rfl
    | some sub =>
      cases hq : sub.queue with
      | nil => simp only [hq]
      | cons c queue =>
        simp only [hq]
        rfl
  | arm s mailbox =>
    simp only [apply, lend_mailboxes, arm_lend]
    split <;> rfl
  | cancel s =>
    simp only [apply, cancel, lend_subscriptions]
    cases (h.subscriptions.get? s).bind (·.armed) <;> rfl
  | wait mailbox =>
    simp only [apply, wait?, bind, Option.bind, lend_mailboxes]
    cases h.mailboxes.get? mailbox with
    | none => rfl
    | some M =>
      dsimp only
      cases M.verdict? <;> rfl
  | takeCell cell =>
    simp only [apply, takeCell, lend_cells]
    cases (h.cells.get? cell).bind id <;> rfl
  | dropCell cell =>
    simp only [apply, dropCell, lend_cells]
    cases (h.cells.get? cell).bind id with
    | none => rfl
    | some c => exact giveUp_lend { h with cells := h.cells.erase cell } c
  | erase copy =>
    have inHand : copy ∈ h.held := admitted
    simp only [apply, erase]
    rw [if_pos inHand, if_pos (mem_lend_held inHand), letGo_lend inHand]
    rfl
  | release copy =>
    have inHand : copy ∈ h.held := admitted
    simp only [apply, release]
    rw [if_pos inHand, if_pos (mem_lend_held inHand), letGo_lend inHand]
    exact giveUp_lend _ copy
  | publish | dropSubscription | dropPublisher => exact one.elim

theorem recycleMovesWith_lend (fuel : Nat) (h : Hub) (r : SlotRef) :
    recycleMovesWith fuel (h.lend B C) r = recycleMovesWith fuel h r := by
  induction fuel generalizing h r with
  | zero => rfl
  | succ fuel ih =>
    rw [recycleMovesWith, recycleMovesWith]
    have held : (h.lend B C).chainedAt r = h.chainedAt r := rfl
    rw [held]
    cases h.chainedAt r with
    | none => rfl
    | some c =>
      dsimp only
      have counted : ((h.lend B C).unchain r).copiesAt c.ref = (h.unchain r).copiesAt c.ref := rfl
      have same : recycleMovesWith fuel (((h.lend B C).unchain r).discount c.ref) c.ref =
          recycleMovesWith fuel ((h.unchain r).discount c.ref) c.ref :=
        ih ((h.unchain r).discount c.ref) c.ref
      rw [counted, same]

theorem recycleMoves_lend (h : Hub) (r : SlotRef) :
    (h.lend B C).recycleMoves r = h.recycleMoves r :=
  recycleMovesWith_lend _ h r

theorem giveUpMoves_lend (h : Hub) (c : Copy) : (h.lend B C).giveUpMoves c = h.giveUpMoves c := by
  have counted : (h.lend B C).copiesAt c.ref = h.copiesAt c.ref := rfl
  have same : ((h.lend B C).discount c.ref).recycleMoves c.ref =
      (h.discount c.ref).recycleMoves c.ref := recycleMoves_lend (h.discount c.ref) c.ref
  rw [giveUpMoves, giveUpMoves, counted, same]

theorem giveUpAllMoves_lend (h : Hub) (cs : List Copy) :
    (h.lend B C).giveUpAllMoves cs = h.giveUpAllMoves cs := by
  induction cs generalizing h with
  | nil => rfl
  | cons c cs ih => rw [giveUpAllMoves, giveUpAllMoves, giveUpMoves_lend, giveUp_lend, ih]

theorem moves_refused {op : Operation} (one : op.Atomic) (refused : ¬ h.Admits op) :
    h.moves op = [] := by
  cases op with
  | dropBlank | chain | release => exact congrArg Prod.snd (if_neg refused)
  | publish | dropSubscription | dropPublisher => exact one.elim
  | write | erase => rfl
  | _ => exact absurd trivial refused

theorem moves_lend {op : Operation} (one : op.Atomic) (admitted : h.Admits op) :
    (h.lend B C).moves op = h.moves op := by
  cases op with
  | chain blank upstream =>
    have both : blank ∈ h.blanks ∧ upstream ∈ h.held := admitted
    have lent : blank ∈ (h.lend B C).blanks ∧ upstream ∈ (h.lend B C).held :=
      ⟨mem_lend_blanks both.1, mem_lend_held both.2⟩
    simp only [moves, settling]
    rw [if_pos both, if_pos lent, letGo_lend both.2]
    exact giveUpAllMoves_lend ((h.letGo upstream).modifySlot blank
      ({ · with chained := some { upstream with erased := true } })) _
  | dropBlank blank =>
    have owned : blank ∈ h.blanks := admitted
    simp only [moves, settling]
    rw [if_pos owned, if_pos (mem_lend_blanks owned), takeBlank_lend owned]
    exact recycleMoves_lend (h.takeBlank blank) blank
  | release copy =>
    have inHand : copy ∈ h.held := admitted
    simp only [moves, settling]
    rw [if_pos inHand, if_pos (mem_lend_held inHand), letGo_lend inHand]
    exact giveUpAllMoves_lend (h.letGo copy) [copy]
  | dropCell cell => exact giveUpAllMoves_lend { h with cells := h.cells.erase cell } _
  | publish | dropSubscription | dropPublisher => exact one.elim
  | _ => rfl

end BufferFlow.Hub
