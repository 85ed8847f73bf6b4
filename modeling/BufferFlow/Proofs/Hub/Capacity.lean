import BufferFlow.Proofs.Hub.Supply
import BufferFlow.Proofs.Hub.Turnover
import Mathlib.Data.List.Induction

set_option autoImplicit false

namespace BufferFlow.Hub

variable {h h₀ : Hub} {ops : List Operation} {l : List Copy} {pool capacity p s : Nat}

/-- Live copies of one slot are of one publication. -/
def Single (h : Hub) : Prop := ∀ c ∈ h.copies, ∀ d ∈ h.copies, c.ref = d.ref → c.serial = d.serial

theorem Single.empty : ({} : Hub).Single :=
  fun c hc => absurd (Sound.empty.numbered.given c hc) (Nat.not_lt_zero _)

theorem Single.apply (single : h.Single) (sound : h.Sound) (op : Operation) :
    (h.apply op).Single := by
  -- a slot that is published is a blank's, and no copy refers to that
  have apart : ∀ pub, h.publication? op = some pub → ∀ c ∈ h.copies, c.ref ≠ pub.ref :=
    fun pub hpub c hc same =>
      copy_unblank sound.accounted hc (same ▸ (publication?_eq_some.1 hpub).2.1)
  intro c hc d hd same
  rcases copies_apply sound.accounted op c hc with ⟨c₀, hc₀, cref, cserial⟩ | ⟨pub, hpub, cref, cserial⟩ <;>
    rcases copies_apply sound.accounted op d hd with ⟨d₀, hd₀, dref, dserial⟩ | ⟨pub', hpub', dref, dserial⟩
  · rw [← cserial, ← dserial]
    exact single c₀ hc₀ d₀ hd₀ (cref.trans (same.trans dref.symm))
  · exact absurd (cref.trans (same.trans dref.symm)) (apart pub' hpub' c₀ hc₀)
  · exact absurd (dref.trans (same.symm.trans cref.symm)) (apart pub hpub d₀ hd₀)
  · obtain rfl := Option.some.inj (hpub.symm.trans hpub')
    exact cserial.symm.trans dserial

theorem Reachable.single (reached : h.Reachable) : h.Single := by
  obtain ⟨ops, rfl⟩ := reached
  induction ops using List.reverseRecOn with
  | nil => exact .empty
  | append_singleton ops op ih =>
    rw [applyAll_snoc]
    exact ih.apply (Sound.empty.applyAll ops) op

/-- Live copies of different publications of one pool are no more than the pool has slots. -/
theorem Reachable.length_le_capacity (reached : h.Reachable) (live : ∀ c ∈ l, c ∈ h.copies)
    (once : (l.map (·.serial)).Nodup) (home : ∀ c ∈ l, c.ref.pool = pool)
    (sized : h.capacityOf? pool = some capacity) : l.length ≤ capacity := by
  have slots : (l.map (·.ref.slot)).Nodup := by
    refine (List.Nodup.of_map _ once).map_on fun c hc d hd same => ?_
    have ref : c.ref = d.ref := by
      rw [show c.ref = ⟨c.ref.pool, c.ref.slot⟩ from rfl, home c hc, same, ← home d hd]
    exact List.inj_on_of_nodup_map once hc hd (reached.single c (live c hc) d (live d hd) ref)
  rw [← List.length_map (·.ref.slot)]
  refine Balanced.length_le_of_lt slots fun i hi => ?_
  obtain ⟨c, hc, rfl⟩ := List.mem_map.1 hi
  obtain ⟨slot, found, -⟩ := Balanced.copy_slot reached.sound.accounted (live c hc)
  obtain ⟨q, hq, there⟩ := slot?_eq_some.1 found
  obtain ⟨q', hq', rfl⟩ := Option.map_eq_some_iff.1 sized
  obtain rfl := Option.some.inj ((home c hc ▸ hq).symm.trans hq')
  exact (Array.getElem?_eq_some_iff.1 there).1

end BufferFlow.Hub
