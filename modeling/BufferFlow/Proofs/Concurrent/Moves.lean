import BufferFlow.Proofs.Concurrent.Accounting

set_option autoImplicit false

namespace BufferFlow

namespace Concurrent

open Hub

variable {c : Concurrent} {q : SlotRef} {α : Type}

/-- What a step gives up. -/
def moves (c : Concurrent) : Step → List Move
  | .start (.publish ..) | .start (.dropSubscription _) => []
  | .start op => c.hub.moves op
  | .resume id =>
    match c.calls.get? id with
    | some (.recycling r _) => c.hub.recycleMoves r
    | some (.releasing _ (x :: _)) => c.hub.giveUpMoves x
    | _ => []

def along (c : Concurrent) (f : Concurrent → Step → List α) : List Step → List α
  | [] => []
  | x :: steps => f c x ++ (c.step x).along f steps

theorem along_append (c : Concurrent) (f : Concurrent → Step → List α) (a b : List Step) :
    c.along f (a ++ b) = c.along f a ++ (c.run a).along f b := by
  induction a generalizing c with
  | nil => rfl
  | cons x a ih =>
    rw [List.cons_append, along, along, ih, List.append_assoc]
    rfl

theorem moves_atomic {op : Operation} (one : op.Atomic) : c.moves (.start op) = c.hub.moves op := by
  cases op with
  | publish | dropSubscription => exact one.elim
  | _ => rfl

theorem moves_waiting {x : Step} (waits : c.MayWait x) : c.moves x = [] := by
  cases x with
  | start op =>
    cases op with
    | subscribe | pull | arm | cancel | publish | dropSubscription | dropPublisher => rfl
    | _ => exact waits.elim
  | resume id =>
    simp only [moves]
    split
    · rename_i r n found
      obtain ⟨s, p, same⟩ := waits _ found
      simp at same
    · rename_i s x rest found
      obtain ⟨t, p, same⟩ := waits _ found
      simp at same
    · rfl

theorem settles_step (c : Concurrent) (x : Step) (present : (c.hub.slot? q).isSome)
    (unowned : q ∉ c.hub.blanks) :
    ∃ g, Steady q c.hub g ∧ (c.step x).hub.pools = (g.performAll (c.moves x)).pools := by
  have moved := step_transition c x
  generalize c.step x = c' at moved ⊢
  have nothing : ∀ {hub : Hub}, hub.pools = c.hub.pools → c.moves x = [] →
      ∃ g, Steady q c.hub g ∧ hub.pools = (g.performAll (c.moves x)).pools := by
    intro hub pools none
    rw [none]
    exact ⟨hub, .ofPools present pools, rfl⟩
  have still : Steady q c.hub c.hub := .ofPools present rfl
  cases moved with
  | idle waits => exact nothing rfl (moves_waiting waits)
  | atomic one =>
    rename_i op _ _
    rw [moves_atomic one]
    exact ⟨c.hub.prepared op, steady_prepared present fun _ _ => unowned, pools_apply c.hub op⟩
  | published | left | closed => exact nothing rfl rfl
  | counted found =>
    rename_i r _ l _
    simp only [moves, found]
    have counted : Steady q c.hub (c.hub.addCopies r l.length) :=
      .modifySlot present fun _ _ => rfl
    exact ⟨_, counted, rfl⟩
  | pushed found =>
    rename_i r n _ s _
    exact nothing (SameStock.push c.hub r n s).pools (by simp only [moves, found])
  | recycled found =>
    rename_i r _
    have played : (c.hub.recycle r).pools = (c.hub.performAll (c.hub.recycleMoves r)).pools := by
      rw [recycle_eq]
    simp only [moves, found]
    exact ⟨c.hub, still, played⟩
  | released found =>
    rename_i x _
    simp only [moves, found]
    exact ⟨c.hub, still, congrArg Hub.pools (giveUp_eq c.hub x)⟩
  | withdrawn log found =>
    rename_i armed
    refine nothing ?_ (by simp only [moves, found])
    cases armed <;> rfl
  | invalidated found =>
    rename_i p _ s _ _ _ _
    exact nothing (SameStock.invalidate { c.hub with
      publishers := c.hub.publishers.modify p (·.tail) } s).pools (by simp only [moves, found])
  | lost found gone =>
    refine nothing rfl ?_
    rcases gone with ⟨s, rfl, -⟩ | ⟨p, n, rfl, -⟩ <;> simp only [moves, found]
  | unheard found | unlocked found | delisted found | drained found | ended found
  | tornDown _ found =>
    exact nothing rfl (by simp only [moves, found])

theorem stackedAt_congr {h h' : Hub} (pools : h'.pools = h.pools) (q : SlotRef) :
    h'.stackedAt q = h.stackedAt q := by
  rw [stackedAt, pools, stackedAt]

theorem chainedAt_congr {h h' : Hub} (pools : h'.pools = h.pools) (q : SlotRef) :
    h'.chainedAt q = h.chainedAt q := by
  rw [chainedAt, slot?, pools, chainedAt, slot?]

theorem present_step (x : Step) (present : (c.hub.slot? q).isSome) (unowned : q ∉ c.hub.blanks) :
    ((c.step x).hub.slot? q).isSome := by
  obtain ⟨g, steady, pools⟩ := settles_step c x present unowned
  rw [slot?, pools, ← slot?, slot?_performAll_isSome]
  exact steady.present

theorem stackedAt_step (x : Step) (present : (c.hub.slot? q).isSome) (unowned : q ∉ c.hub.blanks)
    (unstacked : c.hub.stackedAt q = 0) :
    (c.step x).hub.stackedAt q = (c.moves x).count (.returned q) := by
  obtain ⟨g, steady, pools⟩ := settles_step c x present unowned
  have down : g.stackedAt q = 0 := Nat.eq_zero_of_le_zero (unstacked ▸ steady.stacked)
  rw [stackedAt_congr pools, stackedAt_performAll steady.present, down, Nat.zero_add]

theorem chainedAt_step (x : Step) (present : (c.hub.slot? q).isSome) (unowned : q ∉ c.hub.blanks)
    (silent : Silent q (c.moves x)) : (c.step x).hub.chainedAt q = c.hub.chainedAt q := by
  obtain ⟨g, steady, pools⟩ := settles_step c x present unowned
  rw [chainedAt_congr pools, chainedAt_performAll silent, steady.chained]

theorem moves_once (ha : c.Accounted) (x : Step) (present : (c.hub.slot? q).isSome)
    (unowned : q ∉ c.hub.blanks) :
    Silent q (c.moves x) ∨ RecycledOnce q (c.hub.chainedAt q) (c.moves x) := by
  have moved := step_transition c x
  generalize c.step x = c' at moved
  have nothing : c.moves x = [] → Silent q (c.moves x) ∨
      RecycledOnce q (c.hub.chainedAt q) (c.moves x) := by
    intro none
    rw [none]
    exact .inl (silent_nil q)
  cases moved with
  | idle waits => exact nothing (moves_waiting waits)
  | atomic one =>
    rename_i op _ _
    by_cases admitted : c.hub.Admits op
    · have once := Hub.moves_once (accounted_iff.1 ha) op (q := q) present
      have steady : Steady q c.lent (c.lent.prepared op) := by
        refine steady_prepared present ?_
        rintro u rfl
        exact absurd admitted.1 unowned
      rw [steady.chained, lent, moves_lend one admitted] at once
      rw [moves_atomic one]
      exact once
    · exact nothing ((moves_atomic one).trans (moves_refused one admitted))
  | published | left | closed => exact nothing rfl
  | recycled found =>
    rename_i r n
    simp only [moves, found]
    refine recycleMovesWith_once _ fun _ => ?_
    have lent : r ∈ c.lentBlanks := mem_gathered.2 ⟨_, _, found, List.mem_singleton_self r⟩
    obtain ⟨s, hs, zero⟩ := Balanced.blank_slot ha (List.mem_append_left _ lent)
    exact (copiesAt_eq hs).trans zero
  | released found =>
    simp only [moves, found]
    exact giveUpMoves_once c.hub _ q
  | lost found gone =>
    refine nothing ?_
    rcases gone with ⟨s, rfl, -⟩ | ⟨p, n, rfl, -⟩ <;> simp only [moves, found]
  | counted found | pushed found | withdrawn _ found | invalidated found | unheard found
  | unlocked found | delisted found | drained found | ended found | tornDown _ found =>
    exact nothing (by simp only [moves, found])

end Concurrent

end BufferFlow
