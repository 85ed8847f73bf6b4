import BufferFlow.Proofs.Hub.Reachable

set_option autoImplicit false

namespace BufferFlow

inductive Move
  | released (copy : Copy)
  | unchained (slot : SlotRef) (copy : Copy)
  | returned (slot : SlotRef)
  deriving DecidableEq

def Move.Touches (r : SlotRef) : Move → Prop
  | released _ => False
  | unchained q _ | returned q => q = r

namespace Hub

variable {h : Hub} {r q : SlotRef} {c : Copy} {ms : List Move} {blanks : List SlotRef}
  {loose : List Copy}

def perform (h : Hub) : Move → Hub
  | .released c => h.discount c.ref
  | .unchained r c => (h.unchain r).discount c.ref
  | .returned r => h.putBack r

def performAll (h : Hub) (ms : List Move) : Hub := ms.foldl perform h

def recycleMovesWith : Nat → Hub → SlotRef → List Move
  | 0, _, _ => []
  | fuel + 1, h, r =>
    match h.chainedAt r with
    | none => [.returned r]
    | some c =>
      .unchained r c ::
        (if (h.unchain r).copiesAt c.ref = 1 then
          recycleMovesWith fuel ((h.unchain r).discount c.ref) c.ref
        else []) ++ [.returned r]

def recycleMoves (h : Hub) (r : SlotRef) : List Move := recycleMovesWith h.slotCount h r

def giveUpMoves (h : Hub) (c : Copy) : List Move :=
  .released c ::
    if h.copiesAt c.ref = 1 then (h.discount c.ref).recycleMoves c.ref else []

def giveUpAllMoves : Hub → List Copy → List Move
  | _, [] => []
  | h, c :: cs => h.giveUpMoves c ++ giveUpAllMoves (h.giveUp c) cs

theorem performAll_append (h : Hub) (a b : List Move) :
    h.performAll (a ++ b) = (h.performAll a).performAll b :=
  List.foldl_append

theorem recycleWith_eq (fuel : Nat) (h : Hub) (r : SlotRef) :
    recycleWith fuel h r = h.performAll (recycleMovesWith fuel h r) := by
  induction fuel generalizing h r with
  | zero => rfl
  | succ fuel ih =>
    rw [recycleWith, recycleMovesWith]
    cases h.chainedAt r with
    | none => rfl
    | some c =>
      dsimp only
      rw [performAll_append]
      split
      · rw [ih]
        rfl
      · rfl

theorem recycle_eq (h : Hub) (r : SlotRef) : h.recycle r = h.performAll (h.recycleMoves r) :=
  recycleWith_eq _ h r

theorem giveUp_eq (h : Hub) (c : Copy) : h.giveUp c = h.performAll (h.giveUpMoves c) := by
  rw [giveUp, giveUpMoves]
  split
  · rw [recycle_eq]
    rfl
  · rfl

theorem giveUpAll_eq (h : Hub) (cs : List Copy) :
    h.giveUpAll cs = h.performAll (h.giveUpAllMoves cs) := by
  induction cs generalizing h with
  | nil => rfl
  | cons c cs ih =>
    rw [giveUpAllMoves, performAll_append, ← giveUp_eq, ← ih]
    rfl

theorem slot?_perform_isSome (h : Hub) (m : Move) (q : SlotRef) :
    ((h.perform m).slot? q).isSome = (h.slot? q).isSome := by
  cases m with
  | released c =>
    rw [perform, slot?_discount]
    split <;> simp
  | unchained r c =>
    rw [perform, slot?_discount, slot?_unchain]
    split <;> split <;> simp
  | returned r => rw [perform, slot?_putBack]

theorem chainedAt_perform {m : Move} (untouched : ¬ m.Touches q) :
    (h.perform m).chainedAt q = h.chainedAt q := by
  cases m with
  | released c => exact chainedAt_discount h c.ref q
  | unchained r c =>
    rw [perform, chainedAt_discount, chainedAt_unchain, if_neg fun here => untouched here.symm]
  | returned r => exact chainedAt_putBack h r q

theorem copiesAt_perform_le (h : Hub) (m : Move) (q : SlotRef) :
    (h.perform m).copiesAt q ≤ h.copiesAt q := by
  cases m with
  | released c =>
    rw [perform, copiesAt_discount]
    split <;> omega
  | unchained r c =>
    rw [perform, copiesAt_discount, copiesAt_unchain]
    split <;> omega
  | returned r =>
    rw [perform, copiesAt, slot?_putBack]
    exact Nat.le_refl _

theorem slot?_performAll_isSome (h : Hub) (ms : List Move) (q : SlotRef) :
    ((h.performAll ms).slot? q).isSome = (h.slot? q).isSome := by
  induction ms generalizing h with
  | nil => rfl
  | cons m ms ih => exact (ih (h.perform m)).trans (slot?_perform_isSome h m q)

theorem stackedAt_discount (h : Hub) (r q : SlotRef) :
    (h.discount r).stackedAt q = h.stackedAt q := by
  rw [discount, modifyPool, stackedAt, stackedAt]
  dsimp only
  rw [Table.get?_modify]
  split
  · cases h.pools.get? q.pool with
    | none => rfl
    | some p =>
      simp only [Option.map_some, Pool.discount, Pool.modifySlot, Pool.expect]
      split <;> rfl
  · rfl

theorem stackedAt_perform (present : (h.slot? q).isSome) (m : Move) :
    (h.perform m).stackedAt q = h.stackedAt q + [m].count (.returned q) := by
  cases m with
  | released c => simp [perform, stackedAt_discount]
  | unchained r c => simp [perform, stackedAt_discount, unchain, stackedAt_modifySlot]
  | returned r =>
    obtain ⟨s, hs⟩ := Option.isSome_iff_exists.1 present
    obtain ⟨p, hp, -⟩ := slot?_eq_some.1 hs
    by_cases here : q = r
    · subst here
      rw [perform, stackedAt_putBack hp, if_pos rfl]
      simp
    · have other : [Move.returned r].count (.returned q) = 0 :=
        List.count_eq_zero.2 (by simpa using here)
      rw [perform, other]
      cases hr : h.pools.get? r.pool with
      | none =>
        rw [putBack, modifyPool, Table.modify_of_get?_eq_none hr]
        rfl
      | some p' => rw [stackedAt_putBack hr, if_neg here]

theorem stackedAt_performAll (present : (h.slot? q).isSome) (ms : List Move) :
    (h.performAll ms).stackedAt q = h.stackedAt q + ms.count (.returned q) := by
  induction ms generalizing h with
  | nil => rfl
  | cons m ms ih =>
    have next := ih (h := h.perform m) (by rwa [slot?_perform_isSome])
    change ((h.perform m).performAll ms).stackedAt q = _
    rw [next, stackedAt_perform present, List.count_cons, List.count_cons, List.count_nil]
    omega

theorem copiesAt_performAll_le (h : Hub) (ms : List Move) (q : SlotRef) :
    (h.performAll ms).copiesAt q ≤ h.copiesAt q := by
  induction ms generalizing h with
  | nil => exact Nat.le_refl _
  | cons m ms ih => exact Nat.le_trans (ih _) (copiesAt_perform_le h m q)

def Silent (q : SlotRef) (ms : List Move) : Prop := ∀ m ∈ ms, ¬ m.Touches q

/-- The moves recycle the slot, once: it lets go of the copy that it held, if any, and goes back. -/
def RecycledOnce (q : SlotRef) (held : Option Copy) (ms : List Move) : Prop :=
  ∃ x y z, ms = x ++ (held.toList.map (.unchained q)) ++ y ++ .returned q :: z ∧
    Silent q x ∧ Silent q y ∧ Silent q z

theorem Silent.append {a b : List Move} (ha : Silent q a) (hb : Silent q b) :
    Silent q (a ++ b) := fun m hm =>
  (List.mem_append.1 hm).elim (ha m) (hb m)

theorem silent_nil (q : SlotRef) : Silent q [] := fun _ hm => by simp at hm

theorem RecycledOnce.wrap {held : Option Copy} (once : RecycledOnce q held ms) {a b : List Move}
    (ha : Silent q a) (hb : Silent q b) : RecycledOnce q held (a ++ ms ++ b) := by
  obtain ⟨x, y, z, rfl, hx, hy, hz⟩ := once
  exact ⟨a ++ x, y, z ++ b, by simp, ha.append hx, hy, hz.append hb⟩

theorem chainedAt_performAll (silent : Silent q ms) :
    (h.performAll ms).chainedAt q = h.chainedAt q := by
  induction ms generalizing h with
  | nil => rfl
  | cons m ms ih =>
    change ((h.perform m).performAll ms).chainedAt q = _
    rw [ih fun m hm => silent m (List.mem_cons_of_mem _ hm),
      chainedAt_perform (silent m List.mem_cons_self)]

theorem Silent.unreturned (silent : Silent q ms) : .returned q ∉ ms :=
  fun hm => silent _ hm rfl

theorem silent_recycleMovesWith {fuel : Nat} (other : q ≠ r) (uncounted : h.copiesAt q = 0) :
    Silent q (recycleMovesWith fuel h r) := by
  induction fuel generalizing h r with
  | zero => exact silent_nil q
  | succ fuel ih =>
    rw [recycleMovesWith]
    split
    · intro m hm
      obtain rfl := List.mem_singleton.1 hm
      exact fun here => other here.symm
    · rename_i c _
      refine Silent.append (fun m hm => ?_) (fun m hm => ?_)
      · rcases List.mem_cons.1 hm with rfl | hm
        · exact fun here => other here.symm
        · split at hm
          · rename_i last
            have apart : q ≠ c.ref := by
              rintro rfl
              rw [copiesAt_unchain] at last
              omega
            refine ih apart ?_ m hm
            rw [copiesAt_discount, if_neg apart, copiesAt_unchain, uncounted]
          · simp at hm
      · obtain rfl := List.mem_singleton.1 hm
        exact fun here => other here.symm

theorem recycleMovesWith_once (fuel : Nat) (uncounted : q = r → h.copiesAt r = 0) :
    Silent q (recycleMovesWith fuel h r) ∨
      RecycledOnce q (h.chainedAt q) (recycleMovesWith fuel h r) := by
  induction fuel generalizing h r with
  | zero => exact .inl (silent_nil q)
  | succ fuel ih =>
    rw [recycleMovesWith]
    by_cases here : q = r
    · subst here
      refine .inr ?_
      cases hc : h.chainedAt q with
      | none => exact ⟨[], [], [], rfl, silent_nil q, silent_nil q, silent_nil q⟩
      | some c =>
        refine ⟨[], if (h.unchain q).copiesAt c.ref = 1 then
          recycleMovesWith fuel ((h.unchain q).discount c.ref) c.ref else [], [], rfl, silent_nil q,
          ?_, silent_nil q⟩
        split
        · rename_i last
          rw [copiesAt_unchain] at last
          have apart : q ≠ c.ref := by
            rintro rfl
            have zero := uncounted rfl
            omega
          refine silent_recycleMovesWith apart ?_
          rw [copiesAt_discount, if_neg apart, copiesAt_unchain, uncounted rfl]
        · exact silent_nil q
    · have silent : ∀ ms : List Move, (∀ m ∈ ms, m = .returned r ∨ ∃ c, m = .unchained r c) →
          Silent q ms := by
        intro ms hms m hm same
        rcases hms m hm with rfl | ⟨c, rfl⟩ <;> exact here same.symm
      cases hc : h.chainedAt r with
      | none => exact .inl (silent _ fun m hm => .inl (List.mem_singleton.1 hm))
      | some c =>
        have first : Silent q [.unchained r c] :=
          silent _ fun m hm => .inr ⟨c, List.mem_singleton.1 hm⟩
        have last : Silent q [.returned r] := silent _ fun m hm => .inl (List.mem_singleton.1 hm)
        dsimp only
        split
        · rename_i one
          have inner := ih (h := (h.unchain r).discount c.ref) (r := c.ref) fun _ => by
            rw [copiesAt_discount, if_pos rfl, one]
          rw [chainedAt_discount, chainedAt_unchain, if_neg here] at inner
          exact inner.imp (fun silent => (first.append silent).append last)
            fun once => once.wrap first last
        · exact .inl ((first.append (silent_nil q)).append last)

theorem unreleased_recycleMovesWith (fuel : Nat) (h : Hub) (r : SlotRef) (c : Copy) :
    .released c ∉ recycleMovesWith fuel h r := by
  induction fuel generalizing h r with
  | zero => simp [recycleMovesWith]
  | succ fuel ih =>
    rw [recycleMovesWith]
    split
    · simp
    · split <;> simp [ih]

theorem giveUpMoves_once (h : Hub) (c : Copy) (q : SlotRef) :
    Silent q (h.giveUpMoves c) ∨ RecycledOnce q (h.chainedAt q) (h.giveUpMoves c) := by
  have first : Silent q [.released c] := by
    intro m hm
    obtain rfl := List.mem_singleton.1 hm
    exact id
  rw [giveUpMoves]
  split
  · rename_i one
    have uncounted : (h.discount c.ref).copiesAt c.ref = 0 := by
      rw [copiesAt_discount, if_pos rfl, one]
    have inner := recycleMovesWith_once (h.discount c.ref).slotCount fun _ : q = c.ref => uncounted
    rw [chainedAt_discount] at inner
    refine inner.imp (fun silent => first.append silent) fun once => ?_
    have wrapped := once.wrap first (silent_nil q)
    rwa [List.append_nil] at wrapped
  · exact .inl first

theorem silent_giveUpAllMoves {cs : List Copy} (hk : h.Kept blanks (cs ++ loose))
    (uncounted : h.copiesAt q = 0) : Silent q (h.giveUpAllMoves cs) := by
  induction cs generalizing h with
  | nil => exact silent_nil q
  | cons c cs ih =>
    have next := ih (h := h.giveUp c) (Kept.giveUp hk) (by
      have le := copiesAt_performAll_le h (h.giveUpMoves c) q
      rw [← giveUp_eq] at le
      omega)
    refine Silent.append ?_ next
    have apart : q ≠ c.ref := by
      rintro rfl
      obtain ⟨s, hs, pos⟩ := hk.copy_slot List.mem_cons_self
      rw [copiesAt_eq hs] at uncounted
      omega
    intro m hm
    rcases List.mem_cons.1 hm with rfl | hm
    · exact id
    · split at hm
      · exact silent_recycleMovesWith apart
          (by rw [copiesAt_discount, if_neg apart, uncounted]) m hm
      · simp at hm

theorem Kept.uncounted_of_returned (hk : (h.performAll ms).Kept blanks loose)
    (present : (h.slot? q).isSome) (returned : .returned q ∈ ms) :
    (h.performAll ms).copiesAt q = 0 := by
  have stacked := stackedAt_performAll present ms
  have pos : 0 < ms.count (.returned q) := List.count_pos_iff.2 returned
  obtain ⟨-, -, -, s, hs, zero, -⟩ := (Balanced.standing hk q).of_stacked (by omega)
  rw [copiesAt_eq hs, zero]

theorem RecycledOnce.returned {held : Option Copy} (once : RecycledOnce q held ms) :
    .returned q ∈ ms := by
  obtain ⟨x, y, z, rfl, -⟩ := once
  simp

theorem giveUpAllMoves_once {cs : List Copy} (hk : h.Kept blanks (cs ++ loose))
    (present : (h.slot? q).isSome) :
    Silent q (h.giveUpAllMoves cs) ∨ RecycledOnce q (h.chainedAt q) (h.giveUpAllMoves cs) := by
  induction cs generalizing h with
  | nil => exact .inl (silent_nil q)
  | cons c cs ih =>
    have kept : (h.performAll (h.giveUpMoves c)).Kept blanks (cs ++ loose) := by
      rw [← giveUp_eq]
      exact Kept.giveUp hk
    rw [giveUpAllMoves, giveUp_eq]
    rcases giveUpMoves_once h c q with silent | once
    · have there : ((h.performAll (h.giveUpMoves c)).slot? q).isSome := by
        rwa [slot?_performAll_isSome]
      refine (ih kept there).imp silent.append fun later => ?_
      rw [chainedAt_performAll silent] at later
      have wrapped := later.wrap silent (silent_nil q)
      rwa [List.append_nil] at wrapped
    · have rest := silent_giveUpAllMoves kept (kept.uncounted_of_returned present once.returned)
      exact .inr (once.wrap (silent_nil q) rest)

end Hub

end BufferFlow
