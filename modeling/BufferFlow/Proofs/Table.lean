import BufferFlow.Table
import Mathlib.Data.List.Basic
import Mathlib.Data.List.Perm.Basic

set_option autoImplicit false

namespace BufferFlow.Table

variable {α : Type}

@[simp] theorem insert_next (t : Table α) (a : α) : (t.insert a).2.next = t.next + 1 := rfl

@[simp] theorem modify_next (t : Table α) (id : Nat) (f : α → α) :
    (t.modify id f).next = t.next := rfl

@[simp] theorem erase_next (t : Table α) (id : Nat) : (t.erase id).next = t.next := rfl

theorem get?_cons (next id : Nat) (a : α) (es : List (Nat × α)) (h h') (i : Nat) :
    (Table.mk next ((id, a) :: es) h).get? i =
      if i = id then some a else (Table.mk next es h').get? i := by
  simp only [get?, List.lookup_cons]
  by_cases hi : i = id
  · simp [hi]
  · have hne : (i == id) = false := by simpa using hi
    simp [hne, hi]

theorem tail_newestFirst {next : Nat} {e : Nat × α} {es : List (Nat × α)}
    (h : (next :: (e :: es).map Prod.fst).Pairwise (· > ·)) :
    (next :: es.map Prod.fst).Pairwise (· > ·) :=
  h.sublist ((List.sublist_cons_self _ _).cons_cons next)

theorem mem_entries {t : Table α} {id : Nat} {a : α} :
    (id, a) ∈ t.entries ↔ t.get? id = some a := by
  obtain ⟨next, es, h⟩ := t
  induction es with
  | nil => simp [get?]
  | cons e es ih =>
    obtain ⟨i, b⟩ := e
    have older := (List.pairwise_cons.1 h.of_cons).1
    rw [get?_cons next i b es h (tail_newestFirst h)]
    change (id, a) ∈ (i, b) :: es ↔ _
    by_cases hi : id = i
    · subst hi
      have absent : (id, a) ∉ es := fun hm =>
        Nat.lt_irrefl _ (older id (List.mem_map.2 ⟨(id, a), hm, rfl⟩))
      simp [absent, eq_comm]
    · simpa [hi] using ih (tail_newestFirst h)

theorem get?_lt {t : Table α} {id : Nat} {a : α} (h : t.get? id = some a) : id < t.next :=
  t.lt_next (List.mem_map.2 ⟨(id, a), mem_entries.2 h, rfl⟩)

theorem get?_of_le {t : Table α} {id : Nat} (h : t.next ≤ id) : t.get? id = none := by
  cases hg : t.get? id with
  | none => rfl
  | some a => exact absurd (get?_lt hg) (Nat.not_lt.2 h)

@[simp] theorem get?_empty (id : Nat) : ({} : Table α).get? id = none := rfl

theorem get?_insert (t : Table α) (a : α) (id : Nat) :
    (t.insert a).2.get? id = if id = t.next then some a else t.get? id :=
  get?_cons (t.next + 1) t.next a t.entries _ (List.pairwise_cons.2
    ⟨fun _ hi => Nat.lt_succ_of_lt (t.lt_next hi), t.newestFirst.of_cons⟩) id

theorem get?_modify (t : Table α) (id : Nat) (f : α → α) (i : Nat) :
    (t.modify id f).get? i = if i = id then (t.get? i).map f else t.get? i := by
  simp only [get?, modify]
  induction t.entries with
  | nil => simp
  | cons e es ih =>
    have key : (if e.1 = id then (e.1, f e.2) else e).1 = e.1 := by split <;> rfl
    rw [List.map_cons, List.lookup_cons, List.lookup_cons, key, ih]
    by_cases hi : i = e.1
    · subst hi
      by_cases he : e.1 = id <;> simp [he]
    · have hne : (i == e.1) = false := by simpa using hi
      simp [hne]

@[simp] theorem contains_modify (t : Table α) (id : Nat) (f : α → α) (i : Nat) :
    (t.modify id f).contains i = t.contains i := by
  rw [contains, get?_modify, contains]
  split
  · rw [Option.isSome_map]
  · rfl

theorem get?_erase (t : Table α) (id i : Nat) :
    (t.erase id).get? i = if i = id then none else t.get? i := by
  simp only [get?, erase]
  induction t.entries with
  | nil => simp
  | cons e es ih =>
    by_cases he : e.1 = id
    · rw [List.filter_cons_of_neg (by simpa using he), ih, List.lookup_cons]
      by_cases hi : i = id
      · simp [hi]
      · have hne : (i == e.1) = false := by simpa [he] using hi
        simp [hi, hne]
    · rw [List.filter_cons_of_pos (by simpa using he), List.lookup_cons, List.lookup_cons, ih]
      by_cases hi : i = e.1
      · simp [hi, he]
      · have hne : (i == e.1) = false := by simpa using hi
        simp [hne]

theorem mem_values {t : Table α} {a : α} : a ∈ t.values ↔ ∃ id, t.get? id = some a := by
  simp only [values, List.mem_map, Prod.exists, exists_eq_right, mem_entries]

@[simp] theorem values_insert (t : Table α) (a : α) : (t.insert a).2.values = a :: t.values := rfl

def others (t : Table α) (id : Nat) : List α := (t.erase id).values

theorem values_perm {t : Table α} {id : Nat} {a : α} (h : t.get? id = some a) :
    t.values.Perm (a :: t.others id) := by
  obtain ⟨next, es, ho⟩ := t
  simp only [values, others, erase]
  induction es with
  | nil => simp [get?] at h
  | cons e es ih =>
    obtain ⟨i, b⟩ := e
    have older := (List.pairwise_cons.1 ho.of_cons).1
    rw [get?_cons next i b es ho (tail_newestFirst ho)] at h
    by_cases hi : id = i
    · subst hi
      obtain rfl : b = a := by simpa using h
      have alone : es.filter (fun e => e.1 ≠ id) = es := by
        refine List.filter_eq_self.2 fun e he => ?_
        have hlt : e.1 < id := older e.1 (List.mem_map_of_mem he)
        simpa using Nat.ne_of_lt hlt
      rw [List.filter_cons_of_neg (by simp), alone, List.map_cons]
    · rw [List.filter_cons_of_pos (by simpa using fun heq => hi heq.symm)]
      exact ((ih _ (by simpa [hi] using h)).cons b).trans (List.Perm.swap _ _ _)

theorem others_modify (t : Table α) (id : Nat) (f : α → α) :
    (t.modify id f).others id = t.others id := by
  simp only [others, values, erase, modify]
  induction t.entries with
  | nil => rfl
  | cons e es ih =>
    by_cases he : e.1 = id
    · rw [List.map_cons, List.filter_cons_of_neg (by simp [he]),
        List.filter_cons_of_neg (by simpa using he), ih]
    · rw [List.map_cons, if_neg he, List.filter_cons_of_pos (by simpa using he),
        List.filter_cons_of_pos (by simpa using he), List.map_cons, List.map_cons, ih]

theorem values_modify_perm {t : Table α} {id : Nat} {a : α} (h : t.get? id = some a) (f : α → α) :
    (t.modify id f).values.Perm (f a :: t.others id) := by
  have hm : (t.modify id f).get? id = some (f a) := by simp [get?_modify, h]
  simpa only [others_modify] using values_perm hm

theorem modify_congr {t : Table α} {id : Nat} {f g : α → α}
    (h : ∀ a, t.get? id = some a → f a = g a) : t.modify id f = t.modify id g := by
  have same : t.entries.map (fun e => if e.1 = id then (e.1, f e.2) else e) =
      t.entries.map (fun e => if e.1 = id then (e.1, g e.2) else e) := by
    refine List.map_congr_left fun e he => ?_
    split
    · rename_i heq
      rw [h e.2 (heq ▸ mem_entries.1 he)]
    · rfl
  simp only [modify, same]

theorem modify_eq_self {t : Table α} {id : Nat} {f : α → α}
    (h : ∀ a, t.get? id = some a → f a = a) : t.modify id f = t := by
  have same : t.entries.map (fun e => if e.1 = id then (e.1, e.2) else e) = t.entries := by
    conv_rhs => rw [← List.map_id t.entries]
    refine List.map_congr_left fun e _ => ?_
    split <;> rfl
  rw [modify_congr (g := fun a => a) h]
  obtain ⟨next, es, ho⟩ := t
  simpa only [modify, mk.injEq, true_and] using same

theorem modify_of_get?_eq_none {t : Table α} {id : Nat} (h : t.get? id = none) (f : α → α) :
    t.modify id f = t :=
  modify_eq_self fun a ha => by simp [h] at ha

theorem modify_modify (t : Table α) (id : Nat) (f g : α → α) :
    (t.modify id f).modify id g = t.modify id fun a => g (f a) := by
  simp only [modify, List.map_map, mk.injEq, true_and]
  refine List.map_congr_left fun e _ => ?_
  by_cases he : e.1 = id <;> simp [he]

theorem modify_comm (t : Table α) {i j : Nat} {f g g' : α → α}
    (here : j = i → ∀ a, g' (f a) = f (g a)) (apart : j ≠ i → g' = g) :
    (t.modify i f).modify j g' = (t.modify j g).modify i f := by
  by_cases same : j = i
  · subst same
    rw [modify_modify, modify_modify]
    exact modify_congr fun a _ => here rfl a
  · rw [apart same]
    simp only [modify, List.map_map, mk.injEq, true_and]
    refine List.map_congr_left fun e _ => ?_
    by_cases first : e.1 = i
    · have other : ¬ i = j := fun eq => same eq.symm
      simp [first, other]
    · by_cases second : e.1 = j <;> simp [first, second, same]

theorem erase_of_get?_eq_none {t : Table α} {id : Nat} (h : t.get? id = none) : t.erase id = t := by
  have same : t.entries.filter (fun e => e.1 ≠ id) = t.entries :=
    List.filter_eq_self.2 fun e he => by
      have hne : e.1 ≠ id := by
        rintro rfl
        simp [mem_entries.1 he] at h
      simpa using hne
  obtain ⟨next, es, ho⟩ := t
  simpa only [erase, mk.injEq, true_and] using same

end BufferFlow.Table
