import BufferFlow.Proofs.Concurrent.Tags
import BufferFlow.Proofs.Hub.Frames

set_option autoImplicit false

/-! # Recycling beside other threads

From the moment in which a blank is taken to be published until the last copy of it is given up, the
slot is neither a blank nor free. The step that gives up the last copy, or finds that nobody listened,
recycles the slot, once. -/

namespace BufferFlow

theorem Hub.stacked_of_acquire {h h' : Hub} {pool : Nat} {r : SlotRef}
    (taken : h.acquire? pool = some (r, h')) : 0 < h.stackedAt r := by
  obtain ⟨p, free, hp, hfree, rfl, -⟩ := acquire?_eq_some taken
  rw [stackedAt, hp]
  simp [hfree]

theorem Hub.mem_blanks_apply {h : Hub} {r : SlotRef} {op : Operation}
    (owned : r ∈ (h.apply op).blanks) : r ∈ h.blanks ∨ 0 < h.stackedAt r :=
  (blanks_apply_cases owned).imp_right fun ⟨_, _, taken⟩ => stacked_of_acquire taken

namespace Concurrent

open Hub

variable {c : Concurrent} {x : Step} {r : SlotRef} {n : Nat} {t : SlotRef × Nat}

/-! ## What is on its way -/

/-- The blanks and the copies that are to be recycled or given up some time. -/
def carried (c : Concurrent) : List (SlotRef × Nat) := c.preparing ++ c.unpushed ++ c.alive

/-- Something of the publication is still on its way. -/
def Unfinished (c : Concurrent) (n : Nat) : Prop := ∃ t ∈ c.carried, t.2 = n

instance (c : Concurrent) (n : Nat) : Decidable (c.Unfinished n) :=
  inferInstanceAs (Decidable (∃ t ∈ c.carried, t.2 = n))

def numbered (n : Nat) (l : List (SlotRef × Nat)) : Nat := l.countP (·.2 = n)

def Publishes (c : Concurrent) (x : Step) (t : SlotRef × Nat) : Prop :=
  ∃ p, x = .start (.publish p t.1) ∧ t.1 ∈ c.hub.blanks ∧ ¬ c.locked p ∧ t.2 = c.hub.serial

theorem mem_announces (member : t ∈ c.announces x) : c.Publishes x t := by
  cases x with
  | start op =>
    cases op with
    | publish p r =>
      simp only [announces] at member
      split at member
      · rename_i both
        obtain rfl := List.eq_of_mem_replicate member
        exact ⟨p, rfl, both.1, both.2, rfl⟩
      · simp at member
    | _ => simp [announces] at member
  | resume id => simp [announces] at member

theorem step_publishes {p : Nat} (owned : r ∈ c.hub.blanks) (unlocked : ¬ c.locked p) :
    c.step (.start (.publish p r)) =
      c.begin (c.hub.spend r) (.counting p r c.hub.serial (c.hub.receivers p)) :=
  if_pos ⟨owned, unlocked⟩

theorem Publishes.serial (publishes : c.Publishes x t) :
    (c.step x).hub.serial = c.hub.serial + 1 := by
  obtain ⟨p, rfl, owned, unlocked, -⟩ := publishes
  rw [step_publishes owned unlocked]
  rfl

theorem mem_preparing_proceed {id : Nat} {call call' : Call} {hub : Hub}
    (found : c.calls.get? id = some call) (less : call'.preparing ⊆ call.preparing)
    (member : t ∈ (c.proceed id hub call').preparing) : t ∈ c.preparing := by
  have exchanged := gathered_exchange found hub call' Call.preparing
  have gathered := exchanged.subset (List.mem_append_right _ member)
  rcases List.mem_append.1 gathered with own | others
  · exact mem_gathered.2 ⟨id, call, found, less own⟩
  · exact others

theorem mem_preparing_finish {id : Nat} {call : Call} {hub : Hub}
    (found : c.calls.get? id = some call) (member : t ∈ (c.finish id hub).preparing) :
    t ∈ c.preparing :=
  (gathered_finish found hub Call.preparing).symm.subset (List.mem_append_right _ member)

theorem preparing_step (c : Concurrent) (x : Step) (member : t ∈ (c.step x).preparing) :
    t ∈ c.preparing ∨ c.Publishes x t := by
  have moved := step_transition c x
  generalize c.step x = c' at moved member
  cases moved with
  | idle | atomic | closed => exact .inl member
  | published owned unlocked =>
    rename_i p r
    rcases List.mem_cons.1 (show t ∈ (r, c.hub.serial) :: c.preparing from member) with rfl | old
    · exact .inr ⟨p, rfl, owned, unlocked, rfl⟩
    · exact .inl old
  | left =>
    rename_i s sub found free
    cases hp : sub.publisher <;> rw [hp] at member <;> exact .inl member
  | unheard found | counted found | pushed found | delisted found | drained found | withdrawn _ found
  | released found | invalidated found =>
    exact .inl (mem_preparing_proceed found (by simp [Call.preparing]) member)
  | unlocked found | recycled found | ended found | tornDown _ found | lost found =>
    exact .inl (mem_preparing_finish found member)

theorem carried_step (ha : c.Accounted) (hw : c.Wired) (member : t ∈ (c.step x).carried) :
    t ∈ c.carried ∨ c.Publishes x t := by
  have pushed : ∀ {t}, t ∈ c.announces x ++ c.unpushed → t ∈ c.carried ∨ c.Publishes x t := by
    intro t ht
    rcases List.mem_append.1 ht with new | old
    · exact .inr (mem_announces new)
    · exact .inl (List.mem_append_left _ (List.mem_append_right _ old))
  rcases List.mem_append.1 member with member | alive
  · rcases List.mem_append.1 member with preparing | unpushed
    · exact (preparing_step c x preparing).imp_left fun old =>
        List.mem_append_left _ (List.mem_append_left _ old)
    · exact pushed ((unpushed_step c x).symm.subset (List.mem_append_right _ unpushed))
  · have before := (alive_step ha hw x).symm.subset (List.mem_append_right _ alive)
    rcases List.mem_append.1 before with now | old
    · exact pushed ((unpushed_step c x).symm.subset (List.mem_append_left _ now))
    · exact .inl (List.mem_append_right _ old)

/-! ## Numbers -/

theorem serial_le_step (c : Concurrent) (x : Step) : c.hub.serial ≤ (c.step x).hub.serial := by
  have moved := step_transition c x
  generalize c.step x = c' at moved ⊢
  cases moved with
  | atomic => exact serial_le c.hub _
  | published => exact Nat.le_succ _
  | pushed => exact Nat.le_of_eq (SameStock.push c.hub _ _ _).serial.symm
  | recycled => exact Nat.le_of_eq (SamePeers.recycle c.hub _).serial.symm
  | released => exact Nat.le_of_eq (SamePeers.giveUp c.hub _).serial.symm
  | invalidated found there first =>
    rename_i p _ s _ _
    exact Nat.le_of_eq (SameStock.invalidate { c.hub with
      publishers := c.hub.publishers.modify p (·.tail) } s).serial.symm
  | withdrawn log found =>
    rename_i armed
    cases armed <;> exact Nat.le_refl _
  | _ => exact Nat.le_refl _

theorem Reachable.given (reached : c.Reachable) : ∀ t ∈ c.carried, t.2 < c.hub.serial := by
  obtain ⟨steps, rfl⟩ := reached
  suffices ∀ {c : Concurrent}, c.Reachable → (∀ t ∈ c.carried, t.2 < c.hub.serial) →
      ∀ t ∈ (c.run steps).carried, t.2 < (c.run steps).hub.serial from
    this ⟨[], rfl⟩ fun t ht => by simp [carried, preparing, unpushed, alive, gathered, Table.values,
      tags, copies, Hub.loose, queued, filled, chained, allSlots] at ht
  intro c reached given
  induction steps generalizing c with
  | nil => exact given
  | cons x steps ih =>
    refine ih (reached.step x) fun t ht => ?_
    rcases carried_step reached.accounted reached.wired ht with old | new
    · exact Nat.lt_of_lt_of_le (given t old) (serial_le_step c x)
    · obtain ⟨p, -, -, -, number⟩ := id new
      rw [new.serial, number]
      exact Nat.lt_succ_self _

/-! ## The slot of a publication -/

theorem lentBlanks_eq (c : Concurrent) : c.lentBlanks = c.preparing.map Prod.fst := by
  rw [lentBlanks, gathered, preparing, gathered, List.map_flatMap]
  congr 1
  funext call
  cases call <;> rfl

theorem gathered_append {α : Type} (c : Concurrent) (f g : Call → List α) :
    (c.gathered fun call => f call ++ g call).Perm (c.gathered f ++ c.gathered g) :=
  (List.flatMap_append_perm _ f g).symm

theorem owed_perm (c : Concurrent) : (c.unpushed ++ c.alive).Perm
    ((c.gathered Call.announced).map Copy.tag ++ (c.loose ++ c.hub.chained).map Copy.tag) := by
  have unpushed : c.unpushed = (c.gathered fun call => call.announced ++ call.outstanding).map
      Copy.tag := by
    rw [Concurrent.unpushed, gathered, gathered, List.map_flatMap]
    rfl
  refine List.perm_iff_count.2 fun t => ?_
  have toPush := ((c.gathered_append Call.announced Call.outstanding).map Copy.tag).count_eq t
  have inHand := ((c.gathered_append Call.outstanding Call.drained).map Copy.tag).count_eq t
  simp only [unpushed, alive, tags, copies, Concurrent.loose, lentCopies, List.map_append,
    List.count_append] at toPush inHand ⊢
  omega

theorem preparing_of_announced {d : Copy} (member : d ∈ c.gathered Call.announced) :
    d.tag ∈ c.preparing := by
  obtain ⟨id, call, found, member⟩ := mem_gathered.1 member
  refine mem_gathered.2 ⟨id, call, found, ?_⟩
  cases call with
  | counting p r n l =>
    obtain rfl := List.eq_of_mem_replicate member
    exact List.mem_singleton_self _
  | _ => simp [Call.announced] at member

theorem mem_carried : t ∈ c.carried ↔
    t ∈ c.preparing ∨ ∃ d ∈ c.loose ++ c.hub.chained, d.tag = t := by
  rw [carried, List.append_assoc, List.mem_append, c.owed_perm.mem_iff, List.mem_append,
    List.mem_map, List.mem_map]
  constructor
  · rintro (preparing | ⟨d, announced, rfl⟩ | copy)
    · exact .inl preparing
    · exact .inl (preparing_of_announced announced)
    · exact .inr copy
  · exact Or.imp_right .inr

/-- A slot of which something is on its way is in use: no blank of the hub owns it, and it is not
free. -/
structure InUse (c : Concurrent) (r : SlotRef) : Prop where
  present : (c.hub.slot? r).isSome
  unowned : r ∉ c.hub.blanks
  unstacked : c.hub.stackedAt r = 0

theorem inUse_of_carried (ha : c.Accounted) (member : t ∈ c.carried) : c.InUse t.1 := by
  have standing := Balanced.standing ha t.1
  rw [List.count_append] at standing
  rcases mem_carried.1 member with preparing | ⟨d, hd, rfl⟩
  · have lent : 0 < c.lentBlanks.count t.1 := by
      rw [lentBlanks_eq]
      exact List.count_pos_iff.2 (List.mem_map_of_mem preparing)
    obtain ⟨unstacked, one, -, s, hs, -⟩ := standing.of_blank (by omega)
    exact ⟨hs ▸ rfl, List.count_eq_zero.1 (by omega), unstacked⟩
  · have counted : 0 < (c.loose ++ c.hub.chained).countP fun e => e.ref = d.tag.1 :=
      List.countP_pos_iff.2 ⟨d, hd, by simp [Copy.tag]⟩
    obtain ⟨unstacked, none, s, hs, -⟩ := standing.of_copy counted
    exact ⟨hs ▸ rfl, List.count_eq_zero.1 (by omega), unstacked⟩

theorem free_of_uncarried (ha : c.Accounted) (present : (c.hub.slot? r).isSome)
    (unowned : r ∉ c.hub.blanks) (uncarried : ∀ t ∈ c.carried, t.1 ≠ r) :
    c.hub.stackedAt r = 1 := by
  have standing := Balanced.standing ha r
  obtain ⟨s, hs⟩ := Option.isSome_iff_exists.1 present
  have blanks : (c.lentBlanks ++ c.hub.blanks).count r = 0 := by
    rw [List.count_append, List.count_eq_zero.2 unowned, Nat.add_zero, List.count_eq_zero,
      lentBlanks_eq]
    intro lent
    obtain ⟨t, preparing, same⟩ := List.mem_map.1 lent
    exact uncarried t (mem_carried.2 (.inl preparing)) same
  have copies : (c.loose ++ c.hub.chained).countP (fun d => d.ref = r) = 0 := by
    refine List.countP_eq_zero.2 fun d hd same => ?_
    exact uncarried d.tag (mem_carried.2 (.inr ⟨d, hd, rfl⟩)) (of_decide_eq_true same)
  rw [hs, blanks, copies] at standing
  exact standing.of_unused

theorem blanks_step (c : Concurrent) (x : Step) (owned : r ∈ (c.step x).hub.blanks) :
    r ∈ c.hub.blanks ∨ 0 < c.hub.stackedAt r := by
  have moved := step_transition c x
  generalize c.step x = c' at moved owned
  cases moved with
  | atomic one => exact mem_blanks_apply owned
  | published => exact .inl (List.mem_of_mem_erase owned)
  | pushed => exact .inl ((SameStock.push c.hub _ _ _).blanks ▸ owned)
  | recycled => exact .inl ((SamePeers.recycle c.hub _).blanks ▸ owned)
  | released => exact .inl ((SamePeers.giveUp c.hub _).blanks ▸ owned)
  | invalidated found there first =>
    rename_i p _ s _ _
    exact .inl ((SameStock.invalidate { c.hub with
      publishers := c.hub.publishers.modify p (·.tail) } s).blanks ▸ owned)
  | withdrawn log found =>
    rename_i armed
    cases armed <;> exact .inl owned
  | _ => exact .inl owned

/-- The publication is on its way, and nothing else of the slot is. -/
structure Underway (c : Concurrent) (r : SlotRef) (n : Nat) : Prop where
  given : n < c.hub.serial
  own : ∀ t ∈ c.carried, t.1 = r ↔ t.2 = n
  unfinished : c.Unfinished n

namespace Underway

theorem inUse (underway : c.Underway r n) (ha : c.Accounted) : c.InUse r := by
  obtain ⟨t, carried, number⟩ := underway.unfinished
  exact (underway.own t carried).2 number ▸ inUse_of_carried ha carried

theorem own_step (underway : c.Underway r n) (ha : c.Accounted) (hw : c.Wired) :
    ∀ t ∈ (c.step x).carried, t.1 = r ↔ t.2 = n := by
  intro t ht
  rcases carried_step ha hw ht with old | ⟨p, -, owned, -, number⟩
  · exact underway.own t old
  · have given := underway.given
    refine ⟨?_, fun same => by omega⟩
    rintro rfl
    exact absurd owned (underway.inUse ha).unowned

theorem step (underway : c.Underway r n) (reached : c.Reachable) (x : Step)
    (unfinished : (c.step x).Unfinished n) :
    (c.step x).Underway r n ∧ .returned r ∉ c.moves x ∧
      (c.step x).hub.chainedAt r = c.hub.chainedAt r := by
  have ha := reached.accounted
  have inUse := underway.inUse ha
  have next : (c.step x).Underway r n :=
    ⟨Nat.lt_of_lt_of_le underway.given (serial_le_step c x), underway.own_step ha reached.wired,
      unfinished⟩
  have unreturned : .returned r ∉ c.moves x := by
    have stacked := stackedAt_step x inUse.present inUse.unowned inUse.unstacked
    rw [(next.inUse (reached.step x).accounted).unstacked] at stacked
    exact List.count_eq_zero.1 stacked.symm
  have silent := (moves_once ha x inUse.present inUse.unowned).resolve_right fun once =>
    unreturned once.returned
  exact ⟨next, unreturned, chainedAt_step x inUse.present inUse.unowned silent⟩

theorem last (underway : c.Underway r n) (reached : c.Reachable) (x : Step)
    (finished : ¬ (c.step x).Unfinished n) :
    RecycledOnce r (c.hub.chainedAt r) (c.moves x) ∧ (c.step x).hub.stackedAt r = 1 := by
  have ha := reached.accounted
  have inUse := underway.inUse ha
  have own := underway.own_step (x := x) ha reached.wired
  have unowned : r ∉ (c.step x).hub.blanks := by
    intro owned
    rcases blanks_step c x owned with old | stacked
    · exact inUse.unowned old
    · exact Nat.ne_of_gt stacked inUse.unstacked
  have stacked := free_of_uncarried (reached.step x).accounted
    (present_step x inUse.present inUse.unowned) unowned
    fun t ht same => finished ⟨t, ht, (own t ht).1 same⟩
  refine ⟨(moves_once ha x inUse.present inUse.unowned).resolve_left fun silent => ?_, stacked⟩
  rw [stackedAt_step x inUse.present inUse.unowned inUse.unstacked,
    List.count_eq_zero.2 silent.unreturned] at stacked
  simp at stacked

theorem numbered_owed (underway : c.Underway r n) (prepared : (r, n) ∉ c.preparing) :
    (c.loose ++ c.hub.chained).countP (fun d => d.ref = r) =
      numbered n c.unpushed + numbered n c.alive := by
  have unannounced : ((c.gathered Call.announced).map Copy.tag).countP (·.1 = r) = 0 := by
    refine List.countP_eq_zero.2 fun t ht same => ?_
    obtain ⟨d, announced, rfl⟩ := List.mem_map.1 ht
    have slot := of_decide_eq_true same
    have preparing := preparing_of_announced announced
    have number := (underway.own _ (mem_carried.2 (.inl preparing))).1 slot
    exact prepared (slot ▸ number ▸ preparing)
  have owed := (c.owed_perm.countP_eq fun t => t.1 = r).trans List.countP_append
  rw [unannounced, Nat.zero_add, List.countP_map] at owed
  have same : (c.unpushed ++ c.alive).countP (·.1 = r) = (c.unpushed ++ c.alive).countP (·.2 = n) := by
    refine List.countP_congr fun t ht => ?_
    have carried : t ∈ c.carried := by
      rw [Concurrent.carried, List.append_assoc]
      exact List.mem_append_right _ ht
    simpa using underway.own t carried
  rw [numbered, numbered, ← List.countP_append, ← same]
  exact owed.symm

theorem owed_pos (underway : c.Underway r n) (prepared : (r, n) ∉ c.preparing) :
    0 < numbered n c.unpushed + numbered n c.alive := by
  obtain ⟨t, carried, number⟩ := underway.unfinished
  have slot : t.1 = r := (underway.own t carried).2 number
  have owed : t ∈ c.unpushed ++ c.alive := by
    rw [Concurrent.carried, List.append_assoc] at carried
    exact (List.mem_append.1 carried).resolve_left fun preparing =>
      prepared (slot ▸ number ▸ preparing)
  rw [numbered, numbered, ← List.countP_append]
  exact List.countP_pos_iff.2 ⟨t, owed, by simpa using number⟩

theorem copiesAt (underway : c.Underway r n) (ha : c.Accounted) :
    c.hub.copiesAt r =
      if (r, n) ∈ c.preparing then 0 else numbered n c.unpushed + numbered n c.alive := by
  have standing := Balanced.standing ha r
  obtain ⟨s, hs⟩ := Option.isSome_iff_exists.1 (underway.inUse ha).present
  split
  · rename_i preparing
    have lent : 0 < (c.lentBlanks ++ c.hub.blanks).count r := by
      rw [lentBlanks_eq]
      exact List.count_pos_iff.2 (List.mem_append_left _ (List.mem_map_of_mem preparing))
    obtain ⟨-, -, -, s, hs, zero⟩ := standing.of_blank lent
    rw [copiesAt_eq hs, zero]
  · rename_i prepared
    have counted : 0 < (c.loose ++ c.hub.chained).countP fun d => d.ref = r := by
      rw [underway.numbered_owed prepared]
      exact underway.owed_pos prepared
    obtain ⟨-, -, s, hs, copies⟩ := standing.of_copy counted
    rw [copiesAt_eq hs, copies, underway.numbered_owed prepared]

end Underway

/-! ## Runs -/

theorem unpushed_run (c : Concurrent) (steps : List Step) :
    (c.along announces steps ++ c.unpushed).Perm
      (c.along pushes steps ++ (c.run steps).unpushed) := by
  induction steps generalizing c with
  | nil => exact List.Perm.refl _
  | cons x steps ih =>
    refine List.perm_iff_count.2 fun t => ?_
    have now := (c.unpushed_step x).count_eq t
    have later := (ih (c.step x)).count_eq t
    simp only [along, List.count_append] at now later ⊢
    change _ = _ + ((c.step x).run steps).unpushed.count t
    omega

theorem alive_run (reached : c.Reachable) (steps : List Step) :
    (c.along pushes steps ++ c.alive).Perm
      (givenUp (c.along moves steps) ++ (c.run steps).alive) := by
  induction steps generalizing c with
  | nil => exact List.Perm.refl _
  | cons x steps ih =>
    refine List.perm_iff_count.2 fun t => ?_
    have now := (alive_step reached.accounted reached.wired x).count_eq t
    have later := (ih (reached.step x)).count_eq t
    simp only [along, givenUp_append, List.count_append] at now later ⊢
    change _ = _ + ((c.step x).run steps).alive.count t
    omega

theorem unannounced_run (given : n < c.hub.serial) (steps : List Step) :
    numbered n (c.along announces steps) = 0 := by
  induction steps generalizing c with
  | nil => rfl
  | cons x steps ih =>
    have later := ih (c := c.step x) (Nat.lt_of_lt_of_le given (serial_le_step c x))
    rw [numbered] at later ⊢
    rw [along, List.countP_append, later, Nat.add_zero, List.countP_eq_zero]
    intro t ht same
    obtain ⟨-, -, -, -, number⟩ := mem_announces ht
    have here := of_decide_eq_true same
    omega

theorem finished_run (reached : c.Reachable) (given : n < c.hub.serial)
    (finished : ¬ c.Unfinished n) (steps : List Step) : ¬ (c.run steps).Unfinished n := by
  induction steps generalizing c with
  | nil => exact finished
  | cons x steps ih =>
    refine ih (reached.step x) (Nat.lt_of_lt_of_le given (serial_le_step c x)) ?_
    rintro ⟨t, ht, number⟩
    rcases carried_step reached.accounted reached.wired ht with old | ⟨p, -, -, -, new⟩
    · exact finished ⟨t, old, number⟩
    · omega

theorem Underway.run (underway : c.Underway r n) (reached : c.Reachable) (steps : List Step) :
    ((c.run steps).Underway r n ∧ .returned r ∉ c.along moves steps ∧
      (c.run steps).hub.chainedAt r = c.hub.chainedAt r) ∨
    ∃ early x late, steps = early ++ x :: late ∧
      (c.run early).Underway r n ∧ .returned r ∉ c.along moves early ∧
      RecycledOnce r (c.hub.chainedAt r) ((c.run early).moves x) ∧
      ((c.run early).step x).hub.stackedAt r = 1 ∧ ¬ ((c.run early).step x).Unfinished n := by
  induction steps generalizing c with
  | nil => exact .inl ⟨underway, by simp [along], rfl⟩
  | cons x steps ih =>
    by_cases unfinished : (c.step x).Unfinished n
    · obtain ⟨next, unreturned, chained⟩ := underway.step reached x unfinished
      rcases ih next (reached.step x) with
        ⟨still, quiet, same⟩ | ⟨early, y, late, rfl, before, quiet, once, free, finished⟩
      · refine .inl ⟨still, ?_, same.trans chained⟩
        rw [along, List.mem_append, not_or]
        exact ⟨unreturned, quiet⟩
      · refine .inr ⟨x :: early, y, late, rfl, before, ?_, ?_, free, finished⟩
        · rw [along, List.mem_append, not_or]
          exact ⟨unreturned, quiet⟩
        · rw [← chained]
          exact once
    · obtain ⟨once, free⟩ := underway.last reached x unfinished
      exact .inr ⟨[], x, steps, rfl, underway, by simp [along], once, free, unfinished⟩

theorem numbered_finished (finished : ¬ c.Unfinished n) :
    numbered n c.unpushed = 0 ∧ numbered n c.alive = 0 := by
  refine ⟨List.countP_eq_zero.2 fun t ht number => ?_, List.countP_eq_zero.2 fun t ht number => ?_⟩
  · exact finished ⟨t, List.mem_append_left _ (List.mem_append_right _ ht),
      of_decide_eq_true number⟩
  · exact finished ⟨t, List.mem_append_right _ ht, of_decide_eq_true number⟩

theorem unpushing_of_moves {m : Move} (moved : m ∈ c.moves x) : c.pushes x = [] := by
  cases x with
  | start op => rfl
  | resume id =>
    simp only [moves] at moved
    simp only [pushes]
    split at moved
    · rename_i found
      rw [found]
    · rename_i found
      rw [found]
    · simp at moved

section Publication

variable {c₀ c₁ : Concurrent} {p : Nat}

theorem underway_published (reached : c₀.Reachable) (owned : r ∈ c₀.hub.blanks)
    (unlocked : ¬ c₀.locked p) :
    (c₀.step (.start (.publish p r))).Underway r c₀.hub.serial := by
  have ha := reached.accounted
  have preparing : (r, c₀.hub.serial) ∈ (c₀.step (.start (.publish p r))).preparing := by
    rw [step_publishes owned unlocked]
    exact List.mem_cons_self
  refine ⟨?_, fun t ht => ?_, ⟨_, mem_carried.2 (.inl preparing), rfl⟩⟩
  · rw [step_publishes owned unlocked]
    exact Nat.lt_succ_self _
  · rcases carried_step ha reached.wired ht with old | ⟨q, same, -, -, number⟩
    · have given := reached.given t old
      have unowned := (inUse_of_carried ha old).unowned
      refine ⟨?_, fun same => by omega⟩
      rintro rfl
      exact absurd owned unowned
    · obtain ⟨-, rfl⟩ := Operation.publish.inj (Step.start.inj same)
      exact ⟨fun _ => number, fun _ => rfl⟩

theorem numbered_published (reached : c₀.Reachable) (owned : r ∈ c₀.hub.blanks)
    (unlocked : ¬ c₀.locked p) :
    numbered c₀.hub.serial (c₀.step (.start (.publish p r))).unpushed =
        (c₀.hub.receivers p).length ∧
      numbered c₀.hub.serial (c₀.step (.start (.publish p r))).alive = 0 := by
  have none_before : ∀ l, (∀ t ∈ l, t ∈ c₀.carried) → numbered c₀.hub.serial l = 0 := by
    intro l carried
    refine List.countP_eq_zero.2 fun t ht same => ?_
    have given := reached.given t (carried t ht)
    have number := of_decide_eq_true same
    omega
  have announced := (c₀.unpushed_step (.start (.publish p r))).countP_eq fun t =>
    t.2 = c₀.hub.serial
  have before := none_before c₀.unpushed fun t ht =>
    List.mem_append_left _ (List.mem_append_right _ ht)
  rw [announces, if_pos ⟨owned, unlocked⟩, List.countP_append, List.countP_replicate] at announced
  rw [numbered] at before
  rw [before] at announced
  refine ⟨by simpa [pushes, numbered] using announced.symm, ?_⟩
  rw [step_publishes owned unlocked]
  exact none_before c₀.alive fun t ht => List.mem_append_right _ ht

/-- A blank is published to `N` receivers, step by step beside the steps of any other calls. Copies
pushed and copies still to be pushed are `N` together, and each pushed copy is given up once or
alive. While anything of the publication is underway the slot is not free, nobody can acquire it,
and its count covers all outstanding copies. Once nothing is underway, exactly one step has recycled
the slot: after all pushes, with the release of the last copy, and after what the slot held. -/
theorem recycled_after_release {n N : Nat} (steps : List Step) (reached : c₀.Reachable)
    (owned : r ∈ c₀.hub.blanks) (unlocked : ¬ c₀.locked p)
    (published : c₁ = c₀.step (.start (.publish p r))) (run : c = c₁.run steps)
    (number : n = c₀.hub.serial) (fanOut : N = (c₀.hub.receivers p).length) :
    numbered n (c₁.along pushes steps) + numbered n c.unpushed = N ∧
    numbered n (givenUp (c₁.along moves steps)) + numbered n c.alive =
      numbered n (c₁.along pushes steps) ∧
    (c.Unfinished n → .returned r ∉ c₁.along moves steps ∧ c.hub.stackedAt r = 0 ∧
      (∀ pool h', c.hub.acquire? pool ≠ some (r, h')) ∧
      ((r, n) ∉ c.preparing →
        c.hub.copiesAt r = numbered n c.unpushed + numbered n c.alive ∧ 0 < c.hub.copiesAt r)) ∧
    (¬ c.Unfinished n → ∃ early x late, steps = early ++ x :: late ∧
      (c₁.run early).Unfinished n ∧ .returned r ∉ c₁.along moves early ∧
      RecycledOnce r (c₀.hub.chainedAt r) ((c₁.run early).moves x) ∧
      numbered n (c₁.along pushes early) = N ∧
      numbered n (givenUp (c₁.along moves (early ++ [x]))) = N ∧
      ((c₁.run early).step x).hub.stackedAt r = 1 ∧
      ∀ more, ¬ (((c₁.run early).step x).run more).Unfinished n) ∧
    (c.Unfinished n → ∀ x, ∃ g, Steady r c.hub g ∧
      (c.step x).hub.pools = (g.performAll (c.moves x)).pools) := by
  have reached₁ : c₁.Reachable := published ▸ reached.step _
  have underway : c₁.Underway r n := published ▸ number ▸ underway_published reached owned unlocked
  obtain ⟨announced, unborn⟩ := numbered_published reached owned unlocked
  rw [← published, ← number, ← fanOut] at announced
  rw [← published, ← number] at unborn
  -- the two balances of a run from there
  have pushed : ∀ l, numbered n (c₁.along pushes l) + numbered n (c₁.run l).unpushed = N := by
    intro l
    have moved := (c₁.unpushed_run l).countP_eq fun t => t.2 = n
    rw [List.countP_append, List.countP_append] at moved
    have none_new := unannounced_run underway.given l
    simp only [numbered] at announced none_new ⊢
    omega
  have released : ∀ l, numbered n (givenUp (c₁.along moves l)) + numbered n (c₁.run l).alive =
      numbered n (c₁.along pushes l) := by
    intro l
    have moved := (alive_run reached₁ l).countP_eq fun t => t.2 = n
    rw [List.countP_append, List.countP_append] at moved
    simp only [numbered] at unborn ⊢
    omega
  have held : c₁.hub.chainedAt r = c₀.hub.chainedAt r := by
    rw [published, step_publishes owned unlocked]
    rfl
  have ended : ∀ {early x}, (c₁.run early).Underway r n →
      ¬ ((c₁.run early).step x).Unfinished n → ∀ more,
        ¬ (((c₁.run early).step x).run more).Unfinished n := fun before finished more =>
    finished_run ((reached₁.run _).step _)
      (Nat.lt_of_lt_of_le before.given (serial_le_step _ _)) finished more
  have still : c.Unfinished n → c.Underway r n ∧ .returned r ∉ c₁.along moves steps := by
    intro unfinished
    rcases underway.run reached₁ steps with
      ⟨still, unreturned, -⟩ | ⟨early, x, late, rfl, before, -, -, -, finished⟩
    · exact ⟨run ▸ still, unreturned⟩
    · rw [run, run_append] at unfinished
      exact absurd unfinished (ended before finished late)
  have ha : c.Accounted := run ▸ (reached₁.run steps).accounted
  refine ⟨run ▸ pushed steps, run ▸ released steps, fun unfinished => ?_, fun finished => ?_,
    fun unfinished x => ?_⟩
  · obtain ⟨still, unreturned⟩ := still unfinished
    have inUse := still.inUse ha
    refine ⟨unreturned, inUse.unstacked, fun pool h' taken => ?_, fun prepared => ?_⟩
    · exact Nat.ne_of_gt (stacked_of_acquire taken) inUse.unstacked
    · have copies := still.copiesAt ha
      rw [if_neg prepared] at copies
      exact ⟨copies, copies ▸ still.owed_pos prepared⟩
  · rcases underway.run reached₁ steps with
      ⟨still, -, -⟩ | ⟨early, x, late, rfl, before, unreturned, once, free, finished⟩
    · exact absurd (run ▸ still.unfinished) finished
    · have after : c₁.run (early ++ [x]) = (c₁.run early).step x := run_append c₁ early [x]
      obtain ⟨unpushed, alive⟩ := numbered_finished finished
      have allPushed := pushed (early ++ [x])
      have allReleased := released (early ++ [x])
      rw [after, unpushed, Nat.add_zero] at allPushed
      rw [after, alive, Nat.add_zero, allPushed] at allReleased
      refine ⟨early, x, late, rfl, before.unfinished, unreturned, held ▸ once, ?_, allReleased, free,
        ended before finished⟩
      rw [along_append, along, unpushing_of_moves once.returned] at allPushed
      simpa [along] using allPushed
  · have inUse := (still unfinished).1.inUse ha
    exact settles_step c x inUse.present inUse.unowned

/-- One receiver releases its copy before the push to the other, and the slot is recycled with the
release of the other's copy. -/
theorem recycled_after_release_interleaved : ∃ c₀ c₁ : Concurrent,
    c₀ = Concurrent.run {} [.start (.newPool "frames" 1 Payload.Shape.signal.factory),
      .start (.newPublisher "camera" 0), .start (.subscribe 0 false), .start (.subscribe 0 true),
      .start (.acquire 0)] ∧
    (⟨0, 0⟩ : SlotRef) ∈ c₀.hub.blanks ∧ ¬ c₀.locked 0 ∧ c₀.hub.serial = 0 ∧
    (c₀.hub.receivers 0).length = 2 ∧ c₁ = c₀.step (.start (.publish 0 ⟨0, 0⟩)) ∧
    (c₁.run [.resume 0, .resume 0, .start (.pull 0),
      .start (.release ⟨⟨0, 0⟩, 0, false⟩)]).hub.copiesAt ⟨0, 0⟩ = 1 ∧
    ∃ early x late, [.resume 0, .resume 0, .start (.pull 0),
        .start (.release ⟨⟨0, 0⟩, 0, false⟩), .resume 0, .resume 0, .start (.pull 1),
        .start (.release ⟨⟨0, 0⟩, 0, true⟩)] = early ++ x :: late ∧
      numbered 0 (c₁.along pushes early) = 2 ∧
      RecycledOnce ⟨0, 0⟩ (c₀.hub.chainedAt ⟨0, 0⟩) ((c₁.run early).moves x) := by
  obtain ⟨-, -, -, once, -⟩ := recycled_after_release (r := ⟨0, 0⟩) (p := 0) (n := 0) (N := 2)
    [.resume 0, .resume 0, .start (.pull 0), .start (.release ⟨⟨0, 0⟩, 0, false⟩), .resume 0,
      .resume 0, .start (.pull 1), .start (.release ⟨⟨0, 0⟩, 0, true⟩)]
    ⟨[.start (.newPool "frames" 1 Payload.Shape.signal.factory), .start (.newPublisher "camera" 0),
      .start (.subscribe 0 false), .start (.subscribe 0 true), .start (.acquire 0)], rfl⟩
    (by decide +kernel) (by decide +kernel) rfl rfl (by decide +kernel) (by decide +kernel)
  obtain ⟨early, x, late, same, -, -, once, pushed, -⟩ := once (by decide +kernel)
  exact ⟨_, _, rfl, by decide +kernel, by decide +kernel, by decide +kernel, by decide +kernel, rfl,
    by decide +kernel, early, x, late, same, pushed, once⟩

end Publication

end Concurrent

end BufferFlow
