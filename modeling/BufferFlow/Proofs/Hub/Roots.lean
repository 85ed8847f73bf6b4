import BufferFlow.Proofs.Hub.Chaining
import BufferFlow.Proofs.Hub.Custody

set_option autoImplicit false

namespace BufferFlow.Hub

variable {h : Hub} {op : Operation} {r q : SlotRef} {c : Copy}

def Descends (h : Hub) : Prop :=
  ∀ q c, h.chainedAt q = some c → ∀ d ∈ h.copies, d.ref = q → c.serial < d.serial

theorem chainedAt_of_copy (ha : h.Accounted) {d : Copy} (alive : d ∈ h.copies)
    (holds : (h.apply op).chainedAt d.ref = some c) : h.chainedAt d.ref = some c := by
  have unblank := copy_unblank ha alive
  by_cases new : ∃ name capacity factory, op = .newPool name capacity factory
  · obtain ⟨name, capacity, factory, rfl⟩ := new
    have steady : Steady d.ref h (h.prepared (.newPool name capacity factory)) :=
      steady_prepared (copy_present ha alive) fun _ => nofun
    exact steady.chained.symm.trans holds
  · have old : ∀ name capacity factory, op ≠ .newPool name capacity factory :=
      fun name capacity factory same => new ⟨name, capacity, factory, same⟩
    rcases chainedAt_apply_cases old holds with before | ⟨u, -, rfl, -⟩
    · exact before
    · rwa [apply, chain, if_neg fun both => unblank both.1] at holds

theorem Descends.apply (sound : h.Sound) (descends : h.Descends) (op : Operation) :
    (h.apply op).Descends := by
  rintro _ c holds d alive rfl
  rcases copies_apply sound.accounted op d alive with
    ⟨e, old, ref, serial⟩ | ⟨pub, published, ref, serial⟩
  · rw [← ref] at holds
    have before := chainedAt_of_copy sound.accounted old holds
    exact serial ▸ descends _ c before e old rfl
  · obtain ⟨rfl, -⟩ := publication?_eq_some.1 published
    have fades : Fades h (h.apply (.publish pub.publisher pub.ref)) := .apply h id
    have before := mem_chained.2 ⟨_, fades.chained _ c holds⟩
    rw [← serial, (serial_publication published).1]
    exact sound.numbered.given c (List.mem_append_right _ before)

theorem Descends.applyAll (sound : h.Sound) (descends : h.Descends) (ops : List Operation) :
    (h.applyAll ops).Descends := by
  induction ops generalizing h with
  | nil => exact descends
  | cons op ops ih => exact ih (sound.apply op) (descends.apply sound op)

theorem Reachable.descends (reached : h.Reachable) : h.Descends := by
  obtain ⟨ops, rfl⟩ := reached
  exact Descends.applyAll .empty (fun _ _ _ _ alive => absurd alive List.not_mem_nil) ops

/-- Somebody has the slot as a blank, or has a copy of its buffer in hand, in a queue or in a cell. -/
def Had (h : Hub) (r : SlotRef) : Prop := r ∈ h.blanks ∨ ∃ c ∈ h.loose, c.ref = r

/-- Somebody has the slot, or one that holds it. -/
def Rooted (h : Hub) (r : SlotRef) : Prop := ∃ q, h.Had q ∧ (q = r ∨ h.Holds q r)

theorem Rooted.chains (rooted : h.Rooted q) (chains : h.Chains q r) : h.Rooted r := by
  obtain ⟨x, had, rfl | holds⟩ := rooted
  · exact ⟨x, had, .inr (.single chains)⟩
  · exact ⟨x, had, .inr (holds.tail chains)⟩

theorem rooted_of_copy (sound : h.Sound) (descends : h.Descends) {c : Copy} (alive : c ∈ h.copies) :
    h.Rooted c.ref := by
  induction left : h.serial - c.serial using Nat.strongRecOn generalizing c with
  | ind n ih =>
    rcases List.mem_append.1 alive with loose | chained
    · exact ⟨c.ref, .inr ⟨c, loose, rfl⟩, .inl rfl⟩
    obtain ⟨q, holds⟩ := mem_chained.1 chained
    have up : h.Chains q c.ref := ⟨c, holds, rfl⟩
    obtain ⟨s, hs, -⟩ := exists_slot_of_chainedAt holds
    obtain ⟨state, inState⟩ := sound.accounted.inState (r := q) (hs ▸ rfl)
    cases state with
    | free => exact nomatch inState.2.2.2.2.symm.trans holds
    | owned =>
      have owned : 0 < h.blanks.count q := by rw [inState.2.1]; exact Nat.one_pos
      exact .chains ⟨q, .inl (List.count_pos_iff.1 owned), .inl rfl⟩ up
    | published =>
      obtain ⟨d, younger, here⟩ := List.countP_pos_iff.1 inState.2.2.2
      obtain rfl : d.ref = q := by simpa using here
      have higher := descends _ c holds d younger rfl
      have given := sound.numbered.given d younger
      exact (ih _ (by omega) younger rfl).chains up

theorem rooted_of_unstacked (sound : h.Sound) (descends : h.Descends) (present : (h.slot? r).isSome)
    (unstacked : h.stackedAt r = 0) : h.Rooted r := by
  obtain ⟨state, inState⟩ := sound.accounted.inState present
  cases state with
  | free => exact absurd (inState.1.symm.trans unstacked) Nat.one_ne_zero
  | owned =>
    have owned : 0 < h.blanks.count r := by rw [inState.2.1]; exact Nat.one_pos
    exact ⟨r, .inl (List.count_pos_iff.1 owned), .inl rfl⟩
  | published =>
    obtain ⟨c, alive, here⟩ := List.countP_pos_iff.1 inState.2.2.2
    obtain rfl : c.ref = r := by simpa using here
    exact rooted_of_copy sound descends alive

theorem Rooted.unstacked (ha : h.Accounted) (rooted : h.Rooted r) :
    (h.slot? r).isSome ∧ h.stackedAt r = 0 := by
  have live : ∀ {x}, (∃ c ∈ h.copies, c.ref = x) → (h.slot? x).isSome ∧ h.stackedAt x = 0 := by
    rintro x ⟨c, hc, rfl⟩
    exact ⟨copy_present ha hc, (published_of_live ha ⟨c, hc, rfl⟩).1⟩
  obtain ⟨q, had, rfl | holds⟩ := rooted
  · rcases had with owned | ⟨c, loose, here⟩
    · obtain ⟨s, hs, -⟩ := Balanced.blank_slot ha owned
      have standing := Balanced.standing ha q
      exact ⟨hs ▸ rfl, (standing.of_blank (List.count_pos_iff.2 owned)).1⟩
    · exact live ⟨c, List.mem_append_left _ loose, here⟩
  · exact live holds.live

theorem full_iff (sound : h.Sound) (descends : h.Descends) {id : Nat} {p : Pool}
    (hp : h.pools.get? id = some p) :
    p.stats.available = p.stats.capacity ↔ ∀ r, r.pool = id → ¬ h.Rooted r := by
  have stacked : ∀ i, h.stackedAt ⟨id, i⟩ = p.free.count i := fun i => by simp [stackedAt, hp]
  have slot : ∀ i, h.slot? ⟨id, i⟩ = p.slots[i]? := fun i => by simp [slot?, hp]
  obtain ⟨nodup, inside⟩ := Balanced.free_lt sound.accounted hp
  change p.free.length = p.slots.size ↔ _
  constructor
  · rintro full ⟨_, i⟩ rfl rooted
    obtain ⟨present, unstacked⟩ := rooted.unstacked sound.accounted
    rw [stacked, List.count_eq_zero] at unstacked
    rw [slot, Option.isSome_iff_exists] at present
    obtain ⟨s, hs⟩ := present
    obtain ⟨short, -⟩ := Array.getElem?_eq_some_iff.1 hs
    -- otherwise the slot would be one more besides as many as there are
    have many := Balanced.length_le_of_lt (List.nodup_cons.2 ⟨unstacked, nodup⟩) fun j hj =>
      (List.mem_cons.1 hj).elim (fun same => same ▸ short) (inside j)
    rw [List.length_cons, full] at many
    omega
  · intro nobody
    refine Nat.le_antisymm (Balanced.free_length_le sound.accounted hp) ?_
    have all : List.range p.slots.size ⊆ p.free := by
      intro i hi
      by_contra absent
      refine nobody ⟨id, i⟩ rfl (rooted_of_unstacked sound descends ?_ ?_)
      · rw [slot, Array.getElem?_eq_getElem (List.mem_range.1 hi)]
        rfl
      · rw [stacked]
        exact List.count_eq_zero.2 absent
    simpa using (List.nodup_range.subperm all).length_le

def surrender (h : Hub) : List Operation :=
  h.blanks.map .dropBlank ++ h.held.map .release ++ h.cells.ids.map .dropCell ++
    h.subscriptions.ids.map .dropSubscription

namespace Entrusts

variable {copies : List Copy} {blanks : List SlotRef} {cells subscriptions : List Nat}

theorem dropBlanks {dropped : List SlotRef}
    (e : h.Entrusts ⟨copies, dropped ++ blanks, cells, subscriptions⟩) :
    (dropped.foldl Hub.dropBlank h).Entrusts ⟨copies, blanks, cells, subscriptions⟩ := by
  induction dropped generalizing h with
  | nil => exact e
  | cons r dropped ih => exact ih e.dropBlank

theorem releaseAll {released : List Copy}
    (e : h.Entrusts ⟨released ++ copies, blanks, cells, subscriptions⟩) :
    (released.foldl Hub.release h).Entrusts ⟨copies, blanks, cells, subscriptions⟩ := by
  induction released generalizing h with
  | nil => exact e
  | cons c released ih => exact ih e.release

theorem unrooted (e : h.Entrusts {}) (r : SlotRef) : ¬ h.Rooted r := by
  rintro ⟨q, owned | ⟨c, loose, -⟩, -⟩
  · exact absurd (e.blanks.mem_iff.1 owned) List.not_mem_nil
  · rcases List.mem_append.1 loose with loose | filled
    · rcases List.mem_append.1 loose with held | queued
      · exact absurd (e.copies.mem_iff.1 held) List.not_mem_nil
      · obtain ⟨sub, there, -⟩ := List.mem_flatMap.1 queued
        obtain ⟨s, hs⟩ := Table.mem_values.1 there
        exact absurd (e.subscriptions s (by rw [Table.contains, hs]; rfl)) List.not_mem_nil
    · obtain ⟨o, there, -⟩ := List.mem_filterMap.1 filled
      obtain ⟨cell, hc⟩ := Table.mem_values.1 there
      exact absurd (e.cells cell (by rw [Table.contains, hc]; rfl)) List.not_mem_nil

end Entrusts

theorem mem_ids {α : Type} {t : Table α} {id : Nat} (there : t.contains id) : id ∈ t.ids := by
  obtain ⟨a, found⟩ := Option.isSome_iff_exists.1 there
  exact List.mem_map.2 ⟨(id, a), Table.mem_entries.2 found, rfl⟩

theorem entrusts_surrendered (h : Hub) : (h.applyAll h.surrender).Entrusts {} := by
  have all : h.Entrusts ⟨h.held ++ [], h.blanks ++ [], h.cells.ids ++ [], h.subscriptions.ids ++ []⟩ := by
    simp only [List.append_nil]
    exact ⟨.refl _, .refl _, fun _ => mem_ids, fun _ => mem_ids⟩
  have given := all.dropBlanks.releaseAll.dropCells.dropSubscriptions
  simp only [surrender, applyAll, List.foldl_append, List.foldl_map]
  exact given

theorem full_surrendered (sound : h.Sound) (descends : h.Descends) :
    (∀ r, (h.slot? r).isSome → (h.applyAll h.surrender).InState r .free) ∧
      ∀ id p, (h.applyAll h.surrender).pools.get? id = some p →
        p.stats.available = p.stats.capacity := by
  have sound' := sound.applyAll h.surrender
  have descends' := descends.applyAll sound h.surrender
  have unrooted := (entrusts_surrendered h).unrooted
  refine ⟨fun r present => ?_, fun id p hp =>
    (full_iff sound' descends' hp).2 fun r _ => unrooted r⟩
  have still := present_applyAll present h.surrender
  obtain ⟨state, inState⟩ := sound'.accounted.inState still
  cases state with
  | free => exact inState
  | owned | published =>
    exact absurd (rooted_of_unstacked sound' descends' still inState.1) (unrooted r)

end BufferFlow.Hub
