import BufferFlow.Proofs.Hub.Slots
import Mathlib.Algebra.Group.Nat.Defs
import Mathlib.Data.List.Nodup
import Mathlib.Data.List.Perm.Subperm

set_option autoImplicit false

/-! # The balance of slots, blanks and copies

Pools are in balance with a list of blanks and a list of copies when every slot is free, owned by
one of the blanks, or published with as many copies counted on it as are in the list. The lists say
who holds what; where a blank or copy lies does not matter here. -/

namespace BufferFlow

/-- How a slot stands: how often it is on the stack, what it holds, how many blanks own it and how
many copies of it there are. -/
inductive Standing : Nat → Option BufferSlot → Nat → Nat → Prop
  | absent : Standing 0 none 0 0
  | free {s : BufferSlot} (uncounted : s.copies = 0) (unchained : s.chained = none) :
      Standing 1 (some s) 0 0
  | blank {s : BufferSlot} (uncounted : s.copies = 0) : Standing 0 (some s) 1 0
  | published {s : BufferSlot} {n : Nat} (counted : s.copies = n + 1) :
      Standing 0 (some s) 0 (n + 1)

namespace Standing

variable {stacked blanks copies : Nat} {slot : Option BufferSlot}

theorem of_stacked (h : Standing stacked slot blanks copies) (hs : 0 < stacked) :
    stacked = 1 ∧ blanks = 0 ∧ copies = 0 ∧
      ∃ s, slot = some s ∧ s.copies = 0 ∧ s.chained = none := by
  cases h with
  | free uncounted unchained => exact ⟨rfl, rfl, rfl, _, rfl, uncounted, unchained⟩
  | absent | blank | published => exact absurd hs (Nat.lt_irrefl 0)

theorem of_blank (h : Standing stacked slot blanks copies) (hb : 0 < blanks) :
    stacked = 0 ∧ blanks = 1 ∧ copies = 0 ∧ ∃ s, slot = some s ∧ s.copies = 0 := by
  cases h with
  | blank uncounted => exact ⟨rfl, rfl, rfl, _, rfl, uncounted⟩
  | absent | free | published => exact absurd hb (Nat.lt_irrefl 0)

theorem of_copy (h : Standing stacked slot blanks copies) (hc : 0 < copies) :
    stacked = 0 ∧ blanks = 0 ∧ ∃ s, slot = some s ∧ s.copies = copies := by
  cases h with
  | published counted => exact ⟨rfl, rfl, _, rfl, counted⟩
  | absent | free | blank => exact absurd hc (Nat.lt_irrefl 0)

theorem of_absent (h : Standing stacked none blanks copies) : blanks = 0 ∧ copies = 0 := by
  cases h
  exact ⟨rfl, rfl⟩

theorem of_unused {s : BufferSlot} (h : Standing stacked (some s) 0 0) : stacked = 1 := by
  cases h
  rfl

theorem stacked_le_one (h : Standing stacked slot blanks copies) : stacked ≤ 1 := by
  cases h <;> omega

end Standing

/-- A pool of which nothing was asked that it does not expect, and whose counts of blanks taken and
slots put back differ by the slots that are in use. -/
structure Pool.Sound (p : Pool) : Prop where
  unmisused : p.misuses = []
  bounded : p.slots.size < 2 ^ 64
  taken : p.acquires = p.recycles + (p.slots.size - p.free.length).toUInt64

namespace Hub

/-- The blanks own and the copies share exactly the slots that are not free. -/
structure Balanced (h : Hub) (blanks : List SlotRef) (copies : List Copy) : Prop where
  standing : ∀ r, Standing (h.stackedAt r) (h.slot? r) (blanks.count r)
    (copies.countP fun c => c.ref = r)
  sound : ∀ id p, h.pools.get? id = some p → p.Sound

namespace Balanced

variable {h h' : Hub} {blanks : List SlotRef} {copies : List Copy} {r : SlotRef} {c : Copy}

theorem perm {blanks' : List SlotRef} {copies' : List Copy} (hb : h.Balanced blanks copies)
    (pb : blanks.Perm blanks') (pc : copies.Perm copies') : h.Balanced blanks' copies' := by
  refine ⟨fun q => ?_, hb.sound⟩
  rw [← pb.count_eq, ← pc.countP_eq]
  exact hb.standing q

theorem retype {copies' : List Copy} (hb : h.Balanced blanks copies)
    (pc : (copies.map (·.ref)).Perm (copies'.map (·.ref))) : h.Balanced blanks copies' := by
  refine ⟨fun q => ?_, hb.sound⟩
  have same := pc.countP_eq fun r => r = q
  simp only [List.countP_map, Function.comp_def] at same
  rw [← same]
  exact hb.standing q

theorem congr (hb : h.Balanced blanks copies) (same : h'.pools = h.pools) :
    h'.Balanced blanks copies := by
  refine ⟨fun q => ?_, same ▸ hb.sound⟩
  have hs : h'.stackedAt q = h.stackedAt q := by simp only [stackedAt, same]
  have hq : h'.slot? q = h.slot? q := by simp only [slot?, same]
  rw [hs, hq]
  exact hb.standing q

theorem blank_slot (hb : h.Balanced blanks copies) (hr : r ∈ blanks) :
    ∃ s, h.slot? r = some s ∧ s.copies = 0 :=
  ((hb.standing r).of_blank (List.count_pos_iff.2 hr)).2.2.2

theorem blank_uncopied (hb : h.Balanced blanks copies) (hr : r ∈ blanks) :
    ∀ c ∈ copies, c.ref ≠ r := by
  have hz := ((hb.standing r).of_blank (List.count_pos_iff.2 hr)).2.2.1
  simpa using List.countP_eq_zero.1 hz

theorem copy_slot (hb : h.Balanced blanks copies) (hc : c ∈ copies) :
    ∃ s, h.slot? c.ref = some s ∧ s.copies = copies.countP (fun d => d.ref = c.ref) ∧
      0 < s.copies := by
  have hpos : 0 < copies.countP fun d => d.ref = c.ref :=
    List.countP_pos_iff.2 ⟨c, hc, by simp⟩
  obtain ⟨-, -, s, hs, hn⟩ := (hb.standing c.ref).of_copy hpos
  exact ⟨s, hs, hn, hn ▸ hpos⟩

theorem free_lt (hb : h.Balanced blanks copies) {id : Nat} {p : Pool}
    (hp : h.pools.get? id = some p) : p.free.Nodup ∧ ∀ i ∈ p.free, i < p.slots.size := by
  have hstack : ∀ i, h.stackedAt ⟨id, i⟩ = p.free.count i := by simp [stackedAt, hp]
  constructor
  · refine List.nodup_iff_count_le_one.2 fun i => ?_
    rw [← hstack]
    exact (hb.standing _).stacked_le_one
  · intro i hi
    have hpos : 0 < h.stackedAt ⟨id, i⟩ := hstack i ▸ List.count_pos_iff.2 hi
    obtain ⟨-, -, -, s, hs, -⟩ := (hb.standing _).of_stacked hpos
    obtain ⟨q, hq, hslot⟩ := slot?_eq_some.1 hs
    obtain rfl : p = q := by simpa [hp] using hq
    exact (Array.getElem?_eq_some_iff.1 hslot).1

theorem length_le_of_lt {l : List Nat} {n : Nat} (nodup : l.Nodup) (bound : ∀ i ∈ l, i < n) :
    l.length ≤ n := by
  have hsub : l ⊆ List.range n := fun i hi => List.mem_range.2 (bound i hi)
  simpa using (nodup.subperm hsub).length_le

theorem free_length_le (hb : h.Balanced blanks copies) {id : Nat} {p : Pool}
    (hp : h.pools.get? id = some p) : p.free.length ≤ p.slots.size :=
  length_le_of_lt (hb.free_lt hp).1 (hb.free_lt hp).2

theorem free_length_lt (hb : h.Balanced blanks copies) (hr : r ∈ blanks) {p : Pool}
    (hp : h.pools.get? r.pool = some p) : p.free.length < p.slots.size := by
  obtain ⟨nodup, bound⟩ := hb.free_lt hp
  obtain ⟨hz, -, -, s, hs, -⟩ := (hb.standing r).of_blank (List.count_pos_iff.2 hr)
  have absent : r.slot ∉ p.free :=
    List.count_eq_zero.1 (by simpa [stackedAt, hp] using hz)
  have inside : r.slot < p.slots.size := by
    obtain ⟨q, hq, hslot⟩ := slot?_eq_some.1 hs
    obtain rfl : p = q := by simpa [hp] using hq
    exact (Array.getElem?_eq_some_iff.1 hslot).1
  refine length_le_of_lt (List.nodup_cons.2 ⟨absent, nodup⟩) fun i hi => ?_
  rcases List.mem_cons.1 hi with rfl | hi
  · exact inside
  · exact bound i hi

theorem modifySlot (hb : h.Balanced blanks copies) {f : BufferSlot → BufferSlot}
    {blanks' : List SlotRef} {copies' : List Copy}
    (here : Standing (h.stackedAt r) ((h.slot? r).map f) (blanks'.count r)
      (copies'.countP fun c => c.ref = r))
    (blanksElsewhere : ∀ q, q ≠ r → blanks'.count q = blanks.count q)
    (copiesElsewhere : ∀ q, q ≠ r →
      (copies'.countP fun c => c.ref = q) = copies.countP fun c => c.ref = q) :
    (h.modifySlot r f).Balanced blanks' copies' := by
  refine ⟨fun q => ?_, fun id p hp => ?_⟩
  · rw [stackedAt_modifySlot, slot?_modifySlot]
    by_cases hq : q = r
    · subst hq
      simpa using here
    · rw [if_neg hq, blanksElsewhere q hq, copiesElsewhere q hq]
      exact hb.standing q
  · simp only [Hub.modifySlot, modifyPool, Table.get?_modify] at hp
    split at hp
    · obtain ⟨q, hq, rfl⟩ := Option.map_eq_some_iff.1 hp
      obtain ⟨unmisused, bounded, taken⟩ := hb.sound id q hq
      exact ⟨unmisused, by simpa [Pool.modifySlot] using bounded,
        by simpa [Pool.modifySlot] using taken⟩
    · exact hb.sound id p hp

theorem modifyBlank (hb : h.Balanced blanks copies) (hr : r ∈ blanks)
    {f : BufferSlot → BufferSlot} (hf : ∀ s, (f s).copies = s.copies) :
    (h.modifySlot r f).Balanced blanks copies := by
  obtain ⟨stacked, owned, uncopied, s, hs, uncounted⟩ :=
    (hb.standing r).of_blank (List.count_pos_iff.2 hr)
  refine hb.modifySlot ?_ (fun _ _ => rfl) fun _ _ => rfl
  rw [stacked, owned, uncopied, hs]
  exact .blank ((hf s).trans uncounted)

theorem count_cons_elsewhere {q : SlotRef} (hq : q ≠ r) : (r :: blanks).count q = blanks.count q := by
  rw [List.count_cons_of_ne (Ne.symm hq)]

theorem countP_cons_elsewhere {q : SlotRef} (hq : q ≠ c.ref) :
    ((c :: copies).countP fun d => d.ref = q) = copies.countP fun d => d.ref = q :=
  List.countP_cons_of_neg (by simpa using Ne.symm hq)

theorem countP_cons_here :
    ((c :: copies).countP fun d => d.ref = c.ref) = (copies.countP fun d => d.ref = c.ref) + 1 :=
  List.countP_cons_of_pos (by simp)

theorem discount_last (hb : h.Balanced blanks (c :: copies)) (hc : h.copiesAt c.ref = 1) :
    (h.discount c.ref).Balanced (c.ref :: blanks) copies := by
  obtain ⟨stacked, owned, s, hs, counted⟩ :=
    (hb.standing c.ref).of_copy (by rw [countP_cons_here]; omega)
  rw [countP_cons_here] at counted
  have one : s.copies = 1 := by rw [← copiesAt_eq hs, hc]
  have none_left : (copies.countP fun d => d.ref = c.ref) = 0 := by omega
  rw [discount_eq hs (by omega)]
  refine hb.modifySlot ?_ (fun q hq => count_cons_elsewhere hq)
    fun q hq => (countP_cons_elsewhere hq).symm
  rw [stacked, none_left, List.count_cons_self, owned, hs]
  exact .blank (by simp [one])

theorem discount (hb : h.Balanced blanks (c :: copies)) (hc : h.copiesAt c.ref ≠ 1) :
    (h.discount c.ref).Balanced blanks copies := by
  obtain ⟨stacked, owned, s, hs, counted⟩ :=
    (hb.standing c.ref).of_copy (by rw [countP_cons_here]; omega)
  rw [countP_cons_here] at counted
  have several : s.copies ≠ 1 := by rwa [copiesAt_eq hs] at hc
  rw [discount_eq hs (by omega)]
  refine hb.modifySlot ?_ (fun _ _ => rfl) fun q hq => (countP_cons_elsewhere hq).symm
  obtain ⟨n, hn⟩ : ∃ n, (copies.countP fun d => d.ref = c.ref) = n + 1 :=
    Nat.exists_eq_succ_of_ne_zero (by omega)
  rw [stacked, owned, hs, hn]
  exact .published (by simp only; omega)

theorem addCopies (hb : h.Balanced (r :: blanks) copies) (cs : List Copy) (hne : cs ≠ [])
    (href : ∀ c ∈ cs, c.ref = r) :
    (h.modifySlot r fun s => { s with copies := s.copies + cs.length }).Balanced blanks
      (cs ++ copies) := by
  obtain ⟨stacked, owned, uncopied, s, hs, uncounted⟩ :=
    (hb.standing r).of_blank (by rw [List.count_cons_self]; omega)
  have all : (cs.countP fun c => c.ref = r) = cs.length :=
    List.countP_eq_length.2 fun c hc => by simpa using href c hc
  refine hb.modifySlot ?_ (fun q hq => (count_cons_elsewhere hq).symm) fun q hq => ?_
  · rw [List.count_cons_self] at owned
    obtain ⟨n, hn⟩ : ∃ n, cs.length = n + 1 :=
      Nat.exists_eq_succ_of_ne_zero (by simpa using hne)
    rw [stacked, List.countP_append, all, uncopied, hs, hn, Nat.add_zero,
      show blanks.count r = 0 by omega]
    exact .published (by simp [uncounted])
  · have none_here : (cs.countP fun c => c.ref = q) = 0 :=
      List.countP_eq_zero.2 fun c hc => by simpa [href c hc] using Ne.symm hq
    rw [List.countP_append, none_here, Nat.zero_add]

theorem toUInt64_sub_length {size length : Nat} (hlt : length < size) :
    (size - length).toUInt64 = (size - (length + 1)).toUInt64 + 1 := by
  have hsucc : size - length = size - (length + 1) + 1 := by omega
  rw [hsucc]
  exact UInt64.ofNat_add _ 1

theorem putBack (hb : h.Balanced (r :: blanks) copies) (unchained : h.chainedAt r = none) :
    (h.putBack r).Balanced blanks copies := by
  obtain ⟨stacked, owned, uncopied, s, hs, uncounted⟩ :=
    (hb.standing r).of_blank (by rw [List.count_cons_self]; omega)
  obtain ⟨p, hp, -⟩ := slot?_eq_some.1 hs
  have room := hb.free_length_lt List.mem_cons_self hp
  refine ⟨fun q => ?_, fun id q hq => ?_⟩
  · rw [stackedAt_putBack hp, slot?_putBack]
    by_cases hq : q = r
    · subst hq
      rw [List.count_cons_self] at owned
      rw [stacked, if_pos rfl, hs, uncopied, show blanks.count q = 0 by omega]
      exact .free uncounted (by rwa [chainedAt_eq hs] at unchained)
    · rw [if_neg hq, ← count_cons_elsewhere hq]
      exact hb.standing q
  · simp only [Hub.putBack, Hub.count, modifyPool, Table.get?_modify] at hq
    split at hq
    · rename_i heq
      obtain ⟨p', hp', rfl⟩ := Option.map_eq_some_iff.1 hq
      obtain rfl : p = p' := by simpa [heq, hp] using hp'
      obtain ⟨unmisused, bounded, taken⟩ := hb.sound id p hp'
      refine ⟨by simpa [Pool.put, Pool.expect, room] using unmisused,
        by simpa using bounded, ?_⟩
      simp only [Pool.put, Pool.expect, room, decide_true, ↓reduceIte, List.length_cons]
      rw [taken, toUInt64_sub_length room, UInt64.add_assoc, UInt64.add_comm 1]
    · exact hb.sound id q hq

theorem acquire {pool : Nat} (hb : h.Balanced blanks copies)
    (ha : h.acquire? pool = some (r, h')) :
    h'.Balanced (r :: blanks) copies ∧ h'.chainedAt r = none := by
  obtain ⟨p, free, hp, hfree, rfl, rfl⟩ := acquire?_eq_some ha
  let popped : Pool := { p with free, acquires := p.acquires + 1 }
  have kept : ∀ q, (h.modifyPool r.pool fun _ => popped).slot? q = h.slot? q :=
    slot?_modifyPool fun q hq => by
      obtain rfl : p = q := by simpa [hp] using hq
      rfl
  have pop : ∀ q, (h.modifyPool r.pool fun _ => popped).stackedAt q + (if q = r then 1 else 0) =
      h.stackedAt q := stackedAt_pop hp hfree
  have top := pop r
  rw [if_pos rfl] at top
  obtain ⟨stacked, owned, uncopied, s, hs, uncounted, unchained⟩ :=
    (hb.standing r).of_stacked (by omega)
  refine ⟨⟨fun q => ?_, fun id q hq => ?_⟩, ?_⟩
  · change Standing ((h.modifyPool r.pool fun _ => popped).stackedAt q)
      ((h.modifyPool r.pool fun _ => popped).slot? q) _ _
    rw [kept]
    by_cases hq : q = r
    · subst hq
      rw [show (h.modifyPool q.pool fun _ => popped).stackedAt q = 0 by omega, hs,
        List.count_cons_self, owned, uncopied]
      exact .blank uncounted
    · have same := pop q
      rw [if_neg hq, Nat.add_zero] at same
      rw [same, count_cons_elsewhere hq]
      exact hb.standing q
  · simp only [Hub.count, modifyPool, Table.get?_modify] at hq
    split at hq
    · obtain ⟨-, -, rfl⟩ := Option.map_eq_some_iff.1 hq
      obtain ⟨unmisused, bounded, taken⟩ := hb.sound _ p hp
      refine ⟨unmisused, bounded, ?_⟩
      have le := hb.free_length_le hp
      rw [hfree, List.length_cons] at le taken
      have one_more := toUInt64_sub_length (show free.length < p.slots.size by omega)
      change p.acquires + 1 = p.recycles + (p.slots.size - free.length).toUInt64
      rw [taken, one_more, UInt64.add_assoc]
    · exact hb.sound id q hq
  · change (h.modifyPool r.pool fun _ => popped).chainedAt r = none
    rw [chainedAt, kept, hs]
    exact unchained

end Balanced

end Hub

end BufferFlow
