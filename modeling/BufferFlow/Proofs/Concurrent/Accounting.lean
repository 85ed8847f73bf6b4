import BufferFlow.Proofs.Concurrent.Lending
import BufferFlow.Proofs.Concurrent.Wiring

set_option autoImplicit false

namespace BufferFlow

namespace Call

def lentBlanks : Call → List SlotRef
  | counting _ r _ _ | recycling r _ => [r]
  | _ => []

/-- Copies that are counted and still to be pushed. -/
def outstanding : Call → List Copy
  | pushing _ r n _ rest => List.replicate rest.length ⟨r, n, false⟩
  | _ => []

def drained : Call → List Copy
  | withdrawing _ drained _ | releasing _ drained => drained
  | _ => []

/-- Copies that a publish is about to count. -/
def announced : Call → List Copy
  | counting _ r n l => List.replicate l.length ⟨r, n, false⟩
  | _ => []

end Call

namespace Concurrent

open Hub

variable {c c' : Concurrent} {hub : Hub} {id : Nat} {call call' : Call} {α : Type}

def lentBlanks (c : Concurrent) : List SlotRef := c.gathered Call.lentBlanks

def lentCopies (c : Concurrent) : List Copy := c.gathered fun call => call.outstanding ++ call.drained

def loose (c : Concurrent) : List Copy := c.lentCopies ++ c.hub.loose

/-- The hub with everything that the calls have in hand. -/
def lent (c : Concurrent) : Hub := c.hub.lend c.lentBlanks c.lentCopies

theorem loose_lent (c : Concurrent) : c.lent.loose.Perm c.loose := by
  rw [Hub.loose, loose, Hub.loose, ← List.append_assoc, ← List.append_assoc]
  exact (List.perm_append_comm.append_right _).append_right _

theorem loose_moved (found : c.calls.get? id = some call) {a b : List Copy}
    (moved : (a ++ ((call.outstanding ++ call.drained) ++ c.hub.loose)).Perm
      (b ++ ((call'.outstanding ++ call'.drained) ++ hub.loose))) :
    (a ++ c.loose).Perm (b ++ (c.proceed id hub call').loose) :=
  gathered_moved found hub moved

theorem loose_proceed (found : c.calls.get? id = some call)
    (same : call'.outstanding ++ call'.drained = call.outstanding ++ call.drained)
    (moved : hub.loose.Perm c.hub.loose) : (c.proceed id hub call').loose.Perm c.loose := by
  refine (loose_moved (a := []) (b := []) found ?_).symm
  rw [same]
  exact moved.symm.append_left _

theorem loose_finish (found : c.calls.get? id = some call)
    (nothing : call.outstanding ++ call.drained = []) (moved : hub.loose.Perm c.hub.loose) :
    (c.finish id hub).loose.Perm c.loose := by
  have before := gathered_finish found hub fun call => call.outstanding ++ call.drained
  simp only [nothing] at before
  exact before.symm.append moved

theorem loose_counted {p : Nat} {r : SlotRef} {n : Nat} {l : List Nat}
    (found : c.calls.get? id = some (.counting p r n l)) :
    (c.proceed id (c.hub.addCopies r l.length) (.pushing p r n l.length l)).loose.Perm
      (List.replicate l.length ⟨r, n, false⟩ ++ c.loose) := by
  refine (loose_moved (b := []) found ?_).symm
  simp only [Call.outstanding, Call.drained, List.nil_append, List.append_nil]
  exact List.Perm.refl _

theorem lentCopies_pushed {p : Nat} {r : SlotRef} {n fanOut s : Nat} {rest : List Nat}
    (found : c.calls.get? id = some (.pushing p r n fanOut (s :: rest))) :
    c.lentCopies.Perm (⟨r, n, false⟩ ::
      (c.proceed id (c.hub.push r n s) (.pushing p r n fanOut rest)).lentCopies) := by
  have before := gathered_finish found (c.hub.push r n s)
    fun call => call.outstanding ++ call.drained
  have after := gathered_proceed found (c.hub.push r n s) (.pushing p r n fanOut rest)
    fun call => call.outstanding ++ call.drained
  exact before.trans (after.symm.cons _)

theorem loose_emptied {h : Hub} {s : Nat} {sub : Subscription}
    (there : h.subscriptions.get? s = some sub) : h.loose.Perm (sub.queue ++
      (h.modifySubscription s ({ · with queue := [], armed := none })).loose) := by
  obtain ⟨rest, queued, -, emptied⟩ := queued_perm there
  refine List.perm_iff_count.2 fun d => ?_
  have before := queued.count_eq d
  have after := (emptied ({ · with queue := [], armed := none })).count_eq d
  simp only [List.nil_append, List.count_append, Hub.loose, Hub.queued, filled,
    modifySubscription] at before after ⊢
  omega

theorem loose_drained {s : Nat} {sub : Subscription}
    (found : c.calls.get? id = some (.draining s))
    (there : c.hub.subscriptions.get? s = some sub) :
    (c.proceed id (c.hub.modifySubscription s ({ · with queue := [], armed := none }))
      (.withdrawing s sub.queue sub.armed)).loose.Perm c.loose := by
  refine (loose_moved (a := []) (b := []) found ?_).symm
  exact loose_emptied there

theorem loose_released {s : Nat} {x : Copy} {drained : List Copy}
    (found : c.calls.get? id = some (.releasing s (x :: drained))) :
    c.loose.Perm (x :: (c.proceed id (c.hub.giveUp x) (.releasing s drained)).loose) := by
  refine loose_moved (a := []) (b := [x]) found ?_
  rw [(SamePeers.giveUp c.hub x).loose]
  exact List.Perm.refl _

theorem loose_vacated {h : Hub} {s : Nat} {sub : Subscription}
    (there : h.subscriptions.get? s = some sub) (empty : sub.queue = []) :
    { h with subscriptions := h.subscriptions.erase s }.loose.Perm h.loose := by
  obtain ⟨rest, before, erased, -⟩ := queued_perm there
  rw [empty] at before
  refine loose_of_queued rfl rfl ?_
  rw [Hub.queued, erased]
  exact before.symm

theorem loose_ended (hw : c.Wired) {s : Nat} (found : c.calls.get? id = some (.releasing s [])) :
    (c.finish id ({ c.hub with subscriptions := c.hub.subscriptions.erase s }.count
      .subscriptionClosed)).loose.Perm c.loose := by
  obtain ⟨sub, there, -, empty, -⟩ := (hw.fits id _ found).empty rfl
  exact loose_finish found rfl (loose_vacated there empty)

theorem loose_left {s : Nat} (sub : Subscription) :
    (c.begin (c.hub.modifySubscription s ({ · with publisher := none }))
      (leaving s sub.publisher)).loose.Perm c.loose := by
  have queues : (c.hub.modifySubscription s ({ · with publisher := none })).loose.Perm
      c.hub.loose := loose_of_queued rfl rfl (queued_modify c.hub s fun _ => rfl)
  cases sub.publisher <;> exact queues.append_left _

/-- The slots count what the hub and the calls have. -/
def Accounted (c : Concurrent) : Prop := c.hub.Kept (c.lentBlanks ++ c.hub.blanks) c.loose

theorem accounted_iff : c.Accounted ↔ c.lent.Accounted := by
  have blanks : c.lent.blanks.Perm (c.lentBlanks ++ c.hub.blanks) := List.perm_append_comm
  exact ⟨fun ha => Kept.congr (Kept.perm ha blanks.symm c.loose_lent.symm) rfl,
    fun ha => Kept.congr (Kept.perm ha blanks c.loose_lent) rfl⟩

namespace Accounted

theorem empty : ({} : Concurrent).Accounted := Hub.Accounted.empty

theorem moved (ha : c.Accounted) (pools : c'.hub.pools = c.hub.pools)
    (blanks : (c'.lentBlanks ++ c'.hub.blanks).Perm (c.lentBlanks ++ c.hub.blanks))
    (copies : c'.loose.Perm c.loose) : c'.Accounted :=
  (Kept.perm ha blanks.symm copies.symm).congr pools

theorem proceed (ha : c.Accounted) (found : c.calls.get? id = some call)
    (blanks : call'.lentBlanks = call.lentBlanks) (stock : SameStock c.hub hub)
    (copies : (c.proceed id hub call').loose.Perm c.loose) :
    (c.proceed id hub call').Accounted := by
  refine ha.moved stock.pools ?_ copies
  have before := gathered_finish found hub Call.lentBlanks
  have after := gathered_proceed found hub call' Call.lentBlanks
  rw [blanks] at after
  change (_ ++ hub.blanks).Perm _
  rw [stock.blanks]
  exact (after.trans before.symm).append_right _

theorem finish (ha : c.Accounted) (found : c.calls.get? id = some call)
    (blanks : call.lentBlanks = []) (stock : SameStock c.hub hub)
    (copies : (c.finish id hub).loose.Perm c.loose) : (c.finish id hub).Accounted := by
  refine ha.moved stock.pools ?_ copies
  have before := gathered_finish found hub Call.lentBlanks
  rw [blanks] at before
  change (_ ++ hub.blanks).Perm _
  rw [stock.blanks]
  exact before.symm.append_right _

theorem atomic (ha : c.Accounted) {op : Operation} (one : op.Atomic) :
    Accounted { c with hub := c.hub.apply op } := by
  by_cases admitted : c.hub.Admits op
  · have applied := (accounted_iff.1 ha).apply_quiet one.quiet
    rw [lent, apply_lend one admitted] at applied
    exact accounted_iff.2 applied
  · rw [apply_refused admitted]
    exact ha

theorem published (ha : c.Accounted) {p n : Nat} {r : SlotRef} {l : List Nat}
    (owned : r ∈ c.hub.blanks) : (c.begin (c.hub.spend r) (.counting p r n l)).Accounted := by
  refine ha.moved rfl ?_ (List.Perm.refl _)
  refine List.Perm.trans ?_ ((List.perm_cons_erase owned).append_left _).symm
  exact List.perm_middle.symm

theorem counted (ha : c.Accounted) {p : Nat} {r : SlotRef} {n : Nat} {l : List Nat}
    (found : c.calls.get? id = some (.counting p r n l)) (somebody : l ≠ []) :
    (c.proceed id (c.hub.addCopies r l.length) (.pushing p r n l.length l)).Accounted := by
  let hub := c.hub.addCopies r l.length
  have blanks := gathered_finish found hub Call.lentBlanks
  have blanks' := gathered_proceed found hub (.pushing p r n l.length l) Call.lentBlanks
  have owned : c.hub.Kept (r :: ((c.finish id hub).lentBlanks ++ c.hub.blanks)) c.loose :=
    Kept.perm ha (blanks.append_right _) (List.Perm.refl _)
  have published := owned.addCopies (List.replicate l.length ⟨r, n, false⟩)
    (by simpa using somebody) fun d hd => by rw [List.eq_of_mem_replicate hd]
  rw [List.length_replicate] at published
  exact published.perm (blanks'.symm.append_right _) (loose_counted found).symm

theorem pushed (ha : c.Accounted) {p : Nat} {r : SlotRef} {n fanOut s : Nat} {rest : List Nat}
    {sub : Subscription} (found : c.calls.get? id = some (.pushing p r n fanOut (s :: rest)))
    (there : c.hub.subscriptions.get? s = some sub) :
    (c.proceed id (c.hub.push r n s) (.pushing p r n fanOut rest)).Accounted := by
  let hub := c.hub.push r n s
  have stock := SameStock.push c.hub r n s
  have blanks := gathered_finish found hub Call.lentBlanks
  have blanks' := gathered_proceed found hub (.pushing p r n fanOut rest) Call.lentBlanks
  have kept : c.hub.Kept (c.lentBlanks ++ c.hub.blanks) (⟨r, n, false⟩ ::
      (c.proceed id hub (.pushing p r n fanOut rest)).lentCopies ++ c.hub.loose) :=
    Kept.perm ha (List.Perm.refl _) ((lentCopies_pushed found).append_right _)
  refine (kept.push there n).perm ?_ (List.Perm.refl _)
  change (c.lentBlanks ++ c.hub.blanks).Perm (_ ++ hub.blanks)
  rw [stock.blanks]
  exact (blanks.trans blanks'.symm).append_right _

theorem recycled (ha : c.Accounted) {r : SlotRef} {n : Nat}
    (found : c.calls.get? id = some (.recycling r n)) :
    (c.finish id ((c.hub.recycle r).count (.published 0))).Accounted := by
  let hub := (c.hub.recycle r).count (.published 0)
  have same := SamePeers.recycle c.hub r
  have blanks := gathered_finish found hub Call.lentBlanks
  have owned : c.hub.Kept (r :: ((c.finish id hub).lentBlanks ++ c.hub.blanks)) c.loose :=
    Kept.perm ha (blanks.append_right _) (List.Perm.refl _)
  have kept : hub.Kept _ _ := owned.recycle.congr rfl
  refine kept.perm ?_ ?_
  · change List.Perm _ (_ ++ (c.hub.recycle r).blanks)
    rw [same.blanks]
  · exact (loose_finish found rfl (List.Perm.of_eq same.loose)).symm

theorem released (ha : c.Accounted) {s : Nat} {x : Copy} {drained : List Copy}
    (found : c.calls.get? id = some (.releasing s (x :: drained))) :
    (c.proceed id (c.hub.giveUp x) (.releasing s drained)).Accounted := by
  let hub := c.hub.giveUp x
  have same := SamePeers.giveUp c.hub x
  have blanks := gathered_finish found hub Call.lentBlanks
  have blanks' := gathered_proceed found hub (.releasing s drained) Call.lentBlanks
  have kept : c.hub.Kept (c.lentBlanks ++ c.hub.blanks)
      (x :: (c.proceed id hub (.releasing s drained)).loose) :=
    Kept.perm ha (List.Perm.refl _) (loose_released found)
  refine kept.giveUp.perm ?_ (List.Perm.refl _)
  change List.Perm _ (_ ++ hub.blanks)
  rw [same.blanks]
  exact (blanks.trans blanks'.symm).append_right _

theorem step (ha : c.Accounted) (hw : c.Wired) (x : Step) : (c.step x).Accounted := by
  have moved := step_transition c x
  generalize c.step x = c' at moved ⊢
  cases moved with
  | idle => exact ha
  | atomic one => exact ha.atomic one
  | published owned => exact ha.published owned
  | left =>
    rename_i s sub found free
    refine ha.moved rfl ?_ (loose_left sub)
    cases sub.publisher <;> exact List.Perm.refl _
  | closed => exact ha.moved rfl (List.Perm.refl _) (List.Perm.refl _)
  | unheard found =>
    exact ha.proceed found rfl ⟨rfl, rfl, rfl⟩ (loose_proceed found rfl (List.Perm.refl _))
  | counted found somebody => exact ha.counted found somebody
  | pushed found =>
    obtain ⟨sub, there⟩ := hw.present ((hw.fits _ _ found).mem List.mem_cons_self)
    exact ha.pushed found there
  | unlocked found =>
    exact ha.finish found rfl ⟨rfl, rfl, rfl⟩ (loose_finish found rfl (List.Perm.refl _))
  | recycled found => exact ha.recycled found
  | delisted found =>
    exact ha.proceed found rfl ⟨rfl, rfl, rfl⟩ (loose_proceed found rfl (List.Perm.refl _))
  | drained found there => exact ha.proceed found rfl ⟨rfl, rfl, rfl⟩ (loose_drained found there)
  | withdrawn log found =>
    rename_i armed
    cases armed <;>
      exact ha.proceed found rfl ⟨rfl, rfl, rfl⟩ (loose_proceed found rfl (List.Perm.refl _))
  | released found => exact ha.released found
  | ended found => exact ha.finish found rfl ⟨rfl, rfl, rfl⟩ (loose_ended hw found)
  | invalidated found =>
    rename_i p n s P rest there first
    let tailed := { c.hub with publishers := c.hub.publishers.modify p (·.tail) }
    have stock := SameStock.invalidate tailed s
    exact ha.proceed found rfl ⟨stock.pools, stock.blanks, stock.serial⟩
      (loose_proceed found rfl (loose_invalidate tailed s))
  | tornDown log found =>
    exact ha.finish found rfl ⟨rfl, rfl, rfl⟩ (loose_finish found rfl (List.Perm.refl _))
  | lost found gone =>
    rcases gone with ⟨t, rfl, -⟩ | ⟨q, n, rfl, -⟩ <;>
      exact ha.finish found rfl ⟨rfl, rfl, rfl⟩ (loose_finish found rfl (List.Perm.refl _))

end Accounted

theorem Reachable.accounted (hc : c.Reachable) : c.Accounted := by
  obtain ⟨steps, rfl⟩ := hc
  suffices ∀ {c : Concurrent}, c.Accounted → c.Wired → (c.run steps).Accounted from
    this Accounted.empty Wired.empty
  intro c ha hw
  induction steps generalizing c with
  | nil => exact ha
  | cons x steps ih => exact ih (ha.step hw x) (hw.step x)

end Concurrent

end BufferFlow
