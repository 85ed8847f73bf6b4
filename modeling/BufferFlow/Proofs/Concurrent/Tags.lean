import BufferFlow.Proofs.Concurrent.Moves
import BufferFlow.Proofs.Hub.Releases

set_option autoImplicit false

namespace BufferFlow

namespace Call

/-- The blank that is on its way to be published, and as what. -/
def preparing : Call → List (SlotRef × Nat)
  | counting _ r n _ | recycling r n => [(r, n)]
  | _ => []

def unpushed (call : Call) : List (SlotRef × Nat) :=
  (call.announced ++ call.outstanding).map Copy.tag

end Call

namespace Concurrent

open Hub

variable {c : Concurrent} {hub : Hub} {id : Nat} {call call' : Call} {α : Type}

def preparing (c : Concurrent) : List (SlotRef × Nat) := c.gathered Call.preparing

def unpushed (c : Concurrent) : List (SlotRef × Nat) := c.gathered Call.unpushed

/-- What the copies are of that were pushed and not given up. -/
def alive (c : Concurrent) : List (SlotRef × Nat) :=
  (c.gathered Call.drained).map Copy.tag ++ c.hub.tags

def announces (c : Concurrent) : Step → List (SlotRef × Nat)
  | .start (.publish p r) =>
    if r ∈ c.hub.blanks ∧ ¬ c.locked p then
      List.replicate (c.hub.receivers p).length (r, c.hub.serial)
    else []
  | _ => []

def pushes (c : Concurrent) : Step → List (SlotRef × Nat)
  | .start _ => []
  | .resume id =>
    match c.calls.get? id with
    | some (.pushing _ r n _ (_ :: _)) => [(r, n)]
    | _ => []

theorem announces_waiting {x : Step} (waits : c.MayWait x) : c.announces x = [] := by
  cases x with
  | start op =>
    cases op with
    | publish p r => exact if_neg waits
    | _ => rfl
  | resume id => rfl

theorem announces_atomic {op : Operation} (one : op.Atomic) : c.announces (.start op) = [] := by
  cases op with
  | publish p r => exact one.elim
  | _ => rfl

theorem pushes_waiting {x : Step} (waits : c.MayWait x) : c.pushes x = [] := by
  cases x with
  | start op => rfl
  | resume id =>
    simp only [pushes]
    split
    · rename_i found
      obtain ⟨s, p, same⟩ := waits _ found
      simp at same
    · rfl

theorem unpushed_pushed {p : Nat} {r : SlotRef} {n fanOut s : Nat} {rest : List Nat}
    (found : c.calls.get? id = some (.pushing p r n fanOut (s :: rest))) (hub : Hub) :
    c.unpushed.Perm ((r, n) :: (c.proceed id hub (.pushing p r n fanOut rest)).unpushed) := by
  have exchanged := gathered_exchange found hub (.pushing p r n fanOut rest) Call.unpushed
  refine (List.perm_append_left_iff (Call.unpushed (.pushing p r n fanOut rest))).1 ?_
  exact exchanged.symm.trans List.perm_middle.symm

theorem unpushed_step (c : Concurrent) (x : Step) :
    (c.announces x ++ c.unpushed).Perm (c.pushes x ++ (c.step x).unpushed) := by
  have moved := step_transition c x
  generalize c.step x = c' at moved ⊢
  cases moved with
  | idle waits => rw [announces_waiting waits, pushes_waiting waits]
  | atomic one =>
    rw [announces_atomic one]
    exact List.Perm.refl _
  | published owned unlocked =>
    rw [announces, if_pos ⟨owned, unlocked⟩]
    simp only [pushes, unpushed, gathered_begin, Call.unpushed, Call.announced, Call.outstanding,
      List.append_nil, List.map_replicate, List.nil_append]
    exact List.Perm.refl _
  | left =>
    rename_i s sub found free
    cases sub.publisher <;> exact List.Perm.refl _
  | closed => exact List.Perm.refl _
  | counted found =>
    simp only [announces, pushes, found, List.nil_append]
    refine gathered_same found _ ?_
    simp [Call.unpushed, Call.announced, Call.outstanding]
  | pushed found =>
    simp only [announces, pushes, found, List.nil_append]
    exact unpushed_pushed found _
  | unheard found | delisted found | drained found | withdrawn _ found | released found
  | invalidated found =>
    simp only [announces, pushes, found, List.nil_append]
    exact gathered_same found _ rfl
  | unlocked found | recycled found | ended found | tornDown _ found =>
    simp only [announces, pushes, found, List.nil_append]
    exact gathered_over found _ rfl
  | lost found gone =>
    rcases gone with ⟨s, rfl, -⟩ | ⟨p, n, rfl, -⟩ <;>
      simp only [announces, pushes, found, List.nil_append] <;>
      exact gathered_over found _ rfl

theorem tags_lend (h : Hub) (B : List SlotRef) (C : List Copy) :
    (h.lend B C).tags.Perm (h.tags ++ C.map Copy.tag) := by
  refine List.perm_iff_count.2 fun t => ?_
  simp only [tags_eq, Hub.loose, queued, filled, lend, chainedTags, chained, allSlots,
    List.map_append, List.count_append]
  omega

theorem alive_exchange (found : c.calls.get? id = some call) {g : List (SlotRef × Nat)}
    (exchanged : (call.drained.map Copy.tag ++ c.hub.tags).Perm
      (g ++ (call'.drained.map Copy.tag ++ hub.tags))) :
    c.alive.Perm (g ++ (c.proceed id hub call').alive) := by
  rw [alive, alive, gathered_map, gathered_map]
  exact gathered_moved (a := []) found hub exchanged

theorem alive_proceed (found : c.calls.get? id = some call)
    (same : call'.drained = call.drained) (tags : c.hub.tags.Perm hub.tags) :
    c.alive.Perm (c.proceed id hub call').alive := by
  refine alive_exchange (g := []) found ?_
  rw [same]
  exact tags.append_left _

theorem alive_finish (found : c.calls.get? id = some call) (nothing : call.drained = [])
    (tags : c.hub.tags.Perm hub.tags) : c.alive.Perm (c.finish id hub).alive :=
  ((gathered_over found hub nothing).map _).append tags

theorem tags_perm {h h' : Hub} (pools : h'.pools = h.pools) (loose : h'.loose.Perm h.loose) :
    h.tags.Perm h'.tags := by
  rw [tags_eq, tags_eq, chainedTags_congr pools]
  exact (loose.symm.map _).append_right _

theorem alive_atomic (ha : c.Accounted) {op : Operation} (one : op.Atomic) :
    c.alive.Perm (givenUp (c.moves (.start op)) ++ alive { c with hub := c.hub.apply op }) := by
  rw [moves_atomic one]
  by_cases admitted : c.hub.Admits op
  · have given : c.lent.tags.Perm (givenUp (c.lent.moves op) ++ (c.lent.apply op).tags) :=
      tags_apply (accounted_iff.1 ha) one.quiet
    rw [lent, moves_lend one admitted, apply_lend one admitted] at given
    refine List.perm_iff_count.2 fun t => ?_
    have before := (tags_lend c.hub c.lentBlanks c.lentCopies).count_eq t
    have after := (tags_lend (c.hub.apply op) c.lentBlanks c.lentCopies).count_eq t
    have moved := given.count_eq t
    simp only [alive, gathered, List.count_append] at before after moved ⊢
    omega
  · rw [moves_refused one admitted, apply_refused admitted]
    exact List.Perm.refl _

theorem alive_counted (ha : c.Accounted) {p : Nat} {r : SlotRef} {n : Nat} {l : List Nat}
    (found : c.calls.get? id = some (.counting p r n l)) :
    c.alive.Perm (c.proceed id (c.hub.addCopies r l.length) (.pushing p r n l.length l)).alive := by
  have owned : r ∈ c.lentBlanks := mem_gathered.2 ⟨id, _, found, List.mem_singleton_self r⟩
  obtain ⟨s, hs, -⟩ := Balanced.blank_slot ha (List.mem_append_left _ owned)
  have chained : (c.hub.addCopies r l.length).chained.Perm c.hub.chained :=
    chained_modifySlot (f := fun s => { s with copies := s.copies + l.length }) hs rfl
  exact alive_proceed found rfl ((chained.symm.append_left c.hub.loose).map _)

theorem alive_pushed {p : Nat} {r : SlotRef} {n fanOut s : Nat} {rest : List Nat} {sub : Subscription}
    (found : c.calls.get? id = some (.pushing p r n fanOut (s :: rest)))
    (there : c.hub.subscriptions.get? s = some sub) :
    ((r, n) :: c.alive).Perm (c.proceed id (c.hub.push r n s) (.pushing p r n fanOut rest)).alive := by
  have calls : (c.gathered Call.drained).Perm
      ((c.proceed id (c.hub.push r n s) (.pushing p r n fanOut rest)).gathered Call.drained) :=
    gathered_same found _ rfl
  have tags : ((r, n) :: c.hub.tags).Perm (c.hub.push r n s).tags := by
    rw [tags_eq, tags_eq, chainedTags_congr (SameStock.push c.hub r n s).pools]
    exact ((loose_push there r n).symm.map Copy.tag).append_right _
  exact List.perm_middle.symm.trans ((calls.map _).append tags)

theorem alive_drained {s : Nat} {sub : Subscription}
    (found : c.calls.get? id = some (.draining s))
    (there : c.hub.subscriptions.get? s = some sub) :
    c.alive.Perm (c.proceed id (c.hub.modifySubscription s ({ · with queue := [], armed := none }))
      (.withdrawing s sub.queue sub.armed)).alive :=
  alive_exchange (g := []) found (tags_without (loose_emptied there) rfl)

theorem alive_released {s : Nat} {x : Copy} {drained : List Copy}
    (found : c.calls.get? id = some (.releasing s (x :: drained))) :
    c.alive.Perm (givenUp (c.hub.giveUpMoves x) ++
      (c.proceed id (c.hub.giveUp x) (.releasing s drained)).alive) := by
  refine alive_exchange found (List.perm_iff_count.2 fun t => ?_)
  have given := (tags_giveUp c.hub x).count_eq t
  simp only [Call.drained, List.map_cons, List.count_append, List.count_cons, tags_eq,
    (SamePeers.giveUp c.hub x).loose] at given ⊢
  omega

theorem alive_recycled {r : SlotRef} {n : Nat} (found : c.calls.get? id = some (.recycling r n)) :
    c.alive.Perm (givenUp (c.hub.recycleMoves r) ++
      (c.finish id ((c.hub.recycle r).count (.published 0))).alive) := by
  have drained := (gathered_over found ((c.hub.recycle r).count (.published 0))
    (f := Call.drained) rfl).map Copy.tag
  refine (drained.append (tags_recycled c.hub r)).trans ?_
  rw [← List.append_assoc]
  refine (List.perm_append_comm.append_right _).trans ?_
  rw [List.append_assoc]
  exact List.Perm.refl _

theorem alive_step (ha : c.Accounted) (hw : c.Wired) (x : Step) :
    (c.pushes x ++ c.alive).Perm (givenUp (c.moves x) ++ (c.step x).alive) := by
  have moved := step_transition c x
  generalize c.step x = c' at moved ⊢
  cases moved with
  | idle waits =>
    rw [pushes_waiting waits, moves_waiting waits]
    exact List.Perm.refl _
  | atomic one => exact alive_atomic ha one
  | published owned unlocked => exact List.Perm.refl _
  | left =>
    rename_i s sub found free
    have tags : c.hub.tags.Perm (c.hub.modifySubscription s ({ · with publisher := none })).tags :=
      tags_perm rfl (loose_of_queued rfl rfl (queued_modify c.hub s fun _ => rfl))
    cases sub.publisher <;> exact tags.append_left _
  | closed => exact List.Perm.refl _
  | counted found =>
    simp only [pushes, moves, found]
    exact alive_counted ha found
  | pushed found =>
    obtain ⟨sub, there⟩ := hw.present ((hw.fits _ _ found).mem List.mem_cons_self)
    simp only [pushes, moves, found]
    exact alive_pushed found there
  | drained found there =>
    simp only [pushes, moves, found]
    exact alive_drained found there
  | released found =>
    simp only [pushes, moves, found]
    exact alive_released found
  | recycled found =>
    simp only [pushes, moves, found]
    exact alive_recycled found
  | ended found =>
    obtain ⟨sub, there, -, empty, -⟩ := (hw.fits _ _ found).empty rfl
    simp only [pushes, moves, found]
    exact alive_finish found rfl (tags_perm rfl (loose_vacated there empty))
  | invalidated found there first =>
    rename_i p n s P rest
    let tailed := { c.hub with publishers := c.hub.publishers.modify p (·.tail) }
    simp only [pushes, moves, found]
    exact alive_proceed found rfl
      (tags_perm (SameStock.invalidate tailed s).pools (loose_invalidate tailed s))
  | withdrawn log found =>
    rename_i armed
    simp only [pushes, moves, found]
    cases armed <;> exact alive_proceed found rfl (List.Perm.refl _)
  | unheard found | delisted found =>
    simp only [pushes, moves, found]
    exact alive_proceed found rfl (List.Perm.refl _)
  | unlocked found | tornDown _ found =>
    simp only [pushes, moves, found]
    exact alive_finish found rfl (List.Perm.refl _)
  | lost found gone =>
    rcases gone with ⟨s, rfl, -⟩ | ⟨p, n, rfl, -⟩ <;> simp only [pushes, moves, found] <;>
      exact alive_finish found rfl (List.Perm.refl _)

end Concurrent

end BufferFlow
