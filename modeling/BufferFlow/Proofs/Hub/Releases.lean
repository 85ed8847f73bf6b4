import BufferFlow.Proofs.Hub.Chaining

set_option autoImplicit false

namespace BufferFlow

/-- What copies of one publication have in common. -/
def Copy.tag (c : Copy) : SlotRef × Nat := (c.ref, c.serial)

def Move.gives : Move → Option (SlotRef × Nat)
  | released c | unchained _ c => some c.tag
  | returned _ => none

theorem filterMap_modify {α β : Type} {f : α → α} {g : α → Option β}
    (same : ∀ a, g (f a) = g a) (l : List α) (i : Nat) :
    (l.modify i f).filterMap g = l.filterMap g := by
  induction l generalizing i with
  | nil => simp
  | cons a l ih =>
    cases i with
    | zero => simp [List.filterMap_cons, same]
    | succ i => simp [List.filterMap_cons, ih]

namespace Hub

variable {h h' : Hub} {r : SlotRef} {c : Copy} {op : Operation}

def givenUp (ms : List Move) : List (SlotRef × Nat) := ms.filterMap Move.gives

theorem givenUp_append (a b : List Move) : givenUp (a ++ b) = givenUp a ++ givenUp b :=
  List.filterMap_append

def chainedTags (h : Hub) : List (SlotRef × Nat) := h.chained.map Copy.tag

def tags (h : Hub) : List (SlotRef × Nat) := h.copies.map Copy.tag

theorem tags_eq (h : Hub) : h.tags = h.loose.map Copy.tag ++ h.chainedTags := List.map_append

theorem chainedTags_congr (pools : h'.pools = h.pools) : h'.chainedTags = h.chainedTags := by
  rw [chainedTags, chained, allSlots, pools, chainedTags, chained, allSlots]

theorem chained_discount (h : Hub) (r : SlotRef) : (h.discount r).chained.Perm h.chained := by
  have slots : ∀ p : Pool, (p.discount r.slot).slots.toList.filterMap (·.chained) =
      p.slots.toList.filterMap (·.chained) := by
    intro p
    have same : (p.expect (p.slots[r.slot]?.any (0 < ·.copies)) .releasedTooOften).slots = p.slots := by
      rw [Pool.expect]
      split <;> rfl
    simp only [Pool.discount, Pool.modifySlot, same, Array.toList_modify]
    exact filterMap_modify (f := fun s : BufferSlot => { s with copies := s.copies - 1 })
      (fun _ => rfl) _ _
  simp only [chained, allSlots, List.filterMap_flatMap]
  cases hp : h.pools.get? r.pool with
  | none =>
    rw [discount, modifyPool, Table.modify_of_get?_eq_none hp]
  | some p =>
    refine ((Table.values_modify_perm hp _).flatMap_right _).trans ?_
    rw [List.flatMap_cons, slots, ← List.flatMap_cons (f := fun p : Pool =>
      p.slots.toList.filterMap (·.chained))]
    exact ((Table.values_perm hp).flatMap_right _).symm

theorem tags_recycleWith (fuel : Nat) (h : Hub) (r : SlotRef) : h.chainedTags.Perm
    (givenUp (recycleMovesWith fuel h r) ++ (recycleWith fuel h r).chainedTags) := by
  induction fuel generalizing h r with
  | zero => exact List.Perm.refl _
  | succ fuel ih =>
    rw [recycleMovesWith, recycleWith]
    cases hc : h.chainedAt r with
    | none => exact ((chained_putBack h r).map _).symm
    | some c =>
      obtain ⟨s, hs, hchained⟩ := exists_slot_of_chainedAt hc
      have gone : h.chainedTags.Perm (c.tag :: ((h.unchain r).discount c.ref).chainedTags) :=
        ((chained_unchain hs hchained).map _).trans
          (((chained_discount (h.unchain r) c.ref).map _).symm.cons _)
      dsimp only
      rw [givenUp_append]
      split
      · have rest := ih ((h.unchain r).discount c.ref) c.ref
        have back := (chained_putBack (recycleWith fuel ((h.unchain r).discount c.ref) c.ref) r).map
          Copy.tag
        refine gone.trans (List.Perm.cons _ (rest.trans ?_))
        change List.Perm _ ((givenUp _ ++ []) ++ _)
        rw [List.append_nil]
        exact back.symm.append_left _
      · exact gone.trans (((chained_putBack ((h.unchain r).discount c.ref) r).map _).symm.cons _)

theorem tags_recycle (h : Hub) (r : SlotRef) : h.chainedTags.Perm
    (givenUp (h.recycleMoves r) ++ (h.recycle r).chainedTags) :=
  tags_recycleWith _ h r

theorem tags_giveUp (h : Hub) (c : Copy) : (c.tag :: h.chainedTags).Perm
    (givenUp (h.giveUpMoves c) ++ (h.giveUp c).chainedTags) := by
  have counted := (chained_discount h c.ref).map Copy.tag
  rw [giveUpMoves, giveUp]
  refine List.Perm.cons _ ?_
  split
  · exact counted.symm.trans (tags_recycle (h.discount c.ref) c.ref)
  · exact counted.symm

theorem tags_giveUpAll (h : Hub) (cs : List Copy) : (cs.map Copy.tag ++ h.chainedTags).Perm
    (givenUp (h.giveUpAllMoves cs) ++ (h.giveUpAll cs).chainedTags) := by
  induction cs generalizing h with
  | nil => exact List.Perm.refl _
  | cons c cs ih =>
    rw [giveUpAllMoves, givenUp_append, List.append_assoc]
    refine List.Perm.trans ?_ ((ih (h.giveUp c)).append_left _)
    have first := (tags_giveUp h c).append_left (cs.map Copy.tag)
    rw [List.map_cons, List.cons_append]
    refine List.perm_middle.symm.trans (first.trans ?_)
    rw [← List.append_assoc, ← List.append_assoc]
    exact List.perm_append_comm.append_right _

theorem tags_surrender {l : List Copy} (before : h.tags.Perm (l.map Copy.tag ++ h'.tags)) :
    h.tags.Perm (givenUp (h'.giveUpAllMoves l) ++ (h'.giveUpAll l).tags) := by
  refine before.trans (List.perm_iff_count.2 fun t => ?_)
  have given := (tags_giveUpAll h' l).count_eq t
  simp only [tags_eq, (SamePeers.giveUpAll h' l).loose, List.count_append] at given ⊢
  omega

theorem tags_recycled (h : Hub) (r : SlotRef) :
    h.tags.Perm (givenUp (h.recycleMoves r) ++ (h.recycle r).tags) := by
  refine List.perm_iff_count.2 fun t => ?_
  have given := (tags_recycle h r).count_eq t
  simp only [tags_eq, (SamePeers.recycle h r).loose, List.count_append] at given ⊢
  omega

theorem tags_without {l : List Copy} (loose : h.loose.Perm (l ++ h'.loose))
    (pools : h'.pools = h.pools) : h.tags.Perm (l.map Copy.tag ++ h'.tags) := by
  rw [tags_eq, tags_eq, chainedTags_congr pools, ← List.append_assoc, ← List.map_append]
  exact (loose.map _).append_right _

theorem tags_chain {blank : SlotRef} {upstream : Copy} (present : (h.slot? blank).isSome)
    (inHand : upstream ∈ h.held) :
    h.tags.Perm ((h.chainedAt blank).toList.map Copy.tag ++ ((h.letGo upstream).modifySlot blank
      ({ · with chained := some { upstream with erased := true } })).tags) := by
  obtain ⟨s, hs⟩ := Option.isSome_iff_exists.1 present
  obtain ⟨rest, before, after⟩ := allSlots_perm (h := h.letGo upstream) (r := blank) hs
  rw [tags_eq, tags_eq, chainedAt_eq hs]
  refine List.perm_iff_count.2 fun t => ?_
  have without := ((loose_letGo inHand).map Copy.tag).count_eq t
  have old := (((show h.allSlots.Perm (s :: rest) from before).filterMap (·.chained)).map
    Copy.tag).count_eq t
  have new := (((after ({ · with chained := some { upstream with erased := true } })).filterMap
    (·.chained)).map Copy.tag).count_eq t
  have same : Copy.tag { upstream with erased := true } = upstream.tag := rfl
  have left : ((h.letGo upstream).modifySlot blank
    ({ · with chained := some { upstream with erased := true } })).loose = (h.letGo upstream).loose := rfl
  cases hc : s.chained <;>
    simp only [hc, chainedTags, chained, List.filterMap_cons, List.map_cons, List.count_append,
      List.count_cons, Option.toList, List.map_nil, List.count_nil, same, left] at without old new ⊢ <;>
    omega

theorem tags_apply (ha : h.Accounted) (quiet : ∀ p blank, op ≠ .publish p blank) :
    h.tags.Perm (givenUp (h.moves op) ++ (h.apply op).tags) := by
  have kept : (h.apply op).pools = h.pools → (h.apply op).loose.Perm h.loose → h.moves op = [] →
      h.tags.Perm (givenUp (h.moves op) ++ (h.apply op).tags) := by
    intro pools loose nothing
    rw [nothing, tags_eq, tags_eq, chainedTags_congr pools]
    exact (loose.symm.map _).append_right _
  cases op with
  | newPool name capacity factory =>
    simp only [moves, settling, apply, newPool, bind, Except.bind]
    cases made : Pool.new name capacity factory with
    | error failure => exact List.Perm.refl _
    | ok p =>
      change h.tags.Perm ((h.loose ++ { h with pools := (h.pools.insert p).2 }.chained).map Copy.tag)
      rw [chained_newPool (Pool.new_untouched made)]
      exact List.Perm.refl _
  | acquire pool =>
    simp only [moves, settling, apply]
    split
    · exact List.Perm.refl _
    · rename_i blank h' taken
      obtain ⟨p, free, hp, -, rfl, rfl⟩ := acquire?_eq_some taken
      have slots : (h.modifyPool blank.pool fun _ =>
          { p with free, acquires := p.acquires + 1 }).allSlots.Perm h.allSlots := by
        refine allSlots_modifyPool fun q hq => ?_
        obtain rfl : p = q := by simpa [hp] using hq
        rfl
      exact ((slots.filterMap (·.chained)).symm.append_left h.loose).map _
  | write blank payload =>
    simp only [moves, settling, apply, write]
    split
    · rename_i owned
      obtain ⟨slot, hs, -⟩ := Balanced.blank_slot ha owned
      have chained := chained_modifySlot (f := ({ · with payload })) hs rfl
      exact (chained.symm.append_left h.loose).map _
    · exact List.Perm.refl _
  | chain blank upstream =>
    simp only [moves, settling, apply, chain]
    split
    · rename_i both
      obtain ⟨s, hs, -⟩ := Balanced.blank_slot ha both.1
      have present : (h.slot? blank).isSome := hs ▸ rfl
      have exchanged := tags_chain present both.2
      cases hc : h.chainedAt blank with
      | none =>
        rw [hc] at exchanged
        exact exchanged
      | some d =>
        rw [hc] at exchanged
        exact tags_surrender (l := [d]) exchanged
    · exact List.Perm.refl _
  | dropBlank blank =>
    simp only [moves, settling, apply, dropBlank]
    split
    · exact tags_recycled (h.takeBlank blank) blank
    · exact List.Perm.refl _
  | release c =>
    simp only [moves, settling, apply, release]
    split
    · rename_i inHand
      have without : h.tags.Perm ([c].map Copy.tag ++ (h.letGo c).tags) :=
        tags_without (loose_letGo inHand) rfl
      exact tags_surrender without
    · exact List.Perm.refl _
  | erase c =>
    simp only [moves, settling, apply, erase]
    split
    · rename_i inHand
      have without := ((loose_letGo inHand).append_right h.chained).map Copy.tag
      exact without
    · exact List.Perm.refl _
  | dropCell cell =>
    rcases dropCell_cases h cell with ⟨empty, same⟩ | ⟨c, full, same⟩
    · have nothing : h.contents? cell = none :=
        Option.eq_none_iff_forall_ne_some.2 fun c full => empty c (contents?_eq_some.1 full)
      simp only [moves, settling, nothing, apply, same]
      exact tags_without (l := []) (loose_erase_empty empty).symm rfl
    · simp only [moves, settling, contents?_eq_some.2 full, apply, same]
      exact tags_surrender (tags_without (l := [c]) (loose_erase_cell full) rfl)
  | dropSubscription s =>
    simp only [moves, settling, queueOf, apply]
    rw [dropSubscription]
    cases hs : h.subscriptions.get? s with
    | none => exact List.Perm.refl _
    | some sub =>
      have detached : h.tags.Perm (sub.queue.map Copy.tag ++ ((h.detach s).note .trace
          "Subscription dropped" [("released", toString sub.queue.length)]).tags) :=
        tags_without (loose_detach hs) (SameStock.detach h s).pools
      exact tags_surrender detached
  | pull s => exact kept (SameStock.pull h s).pools (loose_pull h s) rfl
  | arm s mailbox =>
    refine kept ?_ ?_ rfl <;> rw [apply] <;> split
    · exact (SameStock.arm h s mailbox).pools
    · rfl
    · exact loose_arm h s mailbox
    · exact List.Perm.refl _
  | cancel s => exact kept (SameStock.cancel h s).pools (loose_cancel h s) rfl
  | wait mailbox =>
    obtain ⟨counters, same⟩ := wait_cases h mailbox
    exact kept (by rw [same]) (by rw [same]; exact List.Perm.refl _) rfl
  | takeCell cell => exact kept (SameStock.takeCell h cell).pools (loose_takeCell h cell) rfl
  | subscribe p erased =>
    exact kept (SameStock.subscribe h p erased).pools (loose_subscribe h p erased) rfl
  | dropPublisher p =>
    exact kept (SameStock.dropPublisher h p).pools (loose_dropPublisher h p) rfl
  | publish p blank => exact absurd rfl (quiet p blank)
  | newPublisher | newMailbox | subscribeDetached | tally =>
    exact kept rfl (List.Perm.refl _) rfl

/-- The copies that are given up by whoever had them, in order. -/
def released (ms : List Move) : List Copy := ms.filterMap fun
  | .released c => some c
  | _ => none

def handsBack (h : Hub) : Operation → List Copy
  | .chain blank upstream =>
    if blank ∈ h.blanks ∧ upstream ∈ h.held then (h.chainedAt blank).toList else []
  | .dropCell cell => (h.contents? cell).toList
  | .release copy => if copy ∈ h.held then [copy] else []
  | .dropSubscription s => h.queueOf s
  | _ => []

theorem released_append (a b : List Move) : released (a ++ b) = released a ++ released b :=
  List.filterMap_append

theorem released_recycleMoves (h : Hub) (r : SlotRef) : released (h.recycleMoves r) = [] := by
  refine List.filterMap_eq_nil_iff.2 fun m hm => ?_
  cases m with
  | released c => exact absurd hm (unreleased_recycleMovesWith _ h r c)
  | unchained | returned => rfl

theorem released_giveUpAllMoves (h : Hub) (cs : List Copy) : released (h.giveUpAllMoves cs) = cs := by
  induction cs generalizing h with
  | nil => rfl
  | cons c cs ih =>
    rw [giveUpAllMoves, giveUpMoves, released_append, ih]
    refine congrArg (c :: · ++ cs) (show released _ = [] from ?_)
    split
    · exact released_recycleMoves _ c.ref
    · rfl

theorem released_moves (h : Hub) (op : Operation) : released (h.moves op) = h.handsBack op := by
  cases op with
  | chain blank upstream =>
    simp only [moves, settling, handsBack]
    split
    · exact released_giveUpAllMoves _ _
    · rfl
  | publish p blank =>
    simp only [moves, settling, handsBack]
    split
    · exact released_recycleMoves _ _
    · rfl
  | dropBlank blank =>
    simp only [moves, settling, handsBack]
    split
    · exact released_recycleMoves _ _
    · rfl
  | release c =>
    simp only [moves, settling, handsBack]
    split
    · exact released_giveUpAllMoves _ _
    · rfl
  | dropCell cell => exact released_giveUpAllMoves _ _
  | dropSubscription s => exact released_giveUpAllMoves _ _
  | _ => rfl

theorem trace_append (h : Hub) (a b : List Operation) :
    h.trace (a ++ b) = h.trace a ++ (h.applyAll a).trace b :=
  append_of_cons (fun _ => rfl) (fun _ _ _ => rfl) h a b

theorem released_trace_cons (h : Hub) (op : Operation) (ops : List Operation) :
    released (h.trace (op :: ops)) = h.handsBack op ++ released ((h.apply op).trace ops) := by
  rw [trace, released_append, released_moves]

theorem released_trace_append (h : Hub) (a b : List Operation) :
    released (h.trace (a ++ b)) = released (h.trace a) ++ released ((h.applyAll a).trace b) := by
  rw [trace_append, released_append]

end Hub

end BufferFlow
