set_option autoImplicit false

namespace BufferFlow

theorem newestFirst_none : [0].Pairwise (· > ·) := List.pairwise_singleton _ _

/-- The newest object is in front, and every number in use was given before the next one. -/
structure Table (α : Type) where
  next : Nat := 0
  entries : List (Nat × α) := []
  newestFirst : (next :: entries.map Prod.fst).Pairwise (· > ·) := by exact newestFirst_none

namespace Table

variable {α : Type}

def get? (t : Table α) (id : Nat) : Option α := t.entries.lookup id

def contains (t : Table α) (id : Nat) : Bool := (t.get? id).isSome

theorem lt_next (t : Table α) {id : Nat} (h : id ∈ t.entries.map Prod.fst) : id < t.next :=
  (List.pairwise_cons.1 t.newestFirst).1 id h

def insert (t : Table α) (a : α) : Nat × Table α :=
  (t.next, ⟨t.next + 1, (t.next, a) :: t.entries, by
    refine List.pairwise_cons.2 ⟨fun id h => ?_, t.newestFirst⟩
    rcases List.mem_cons.1 h with rfl | h
    · exact Nat.lt_succ_self _
    · exact Nat.lt_succ_of_lt (t.lt_next h)⟩)

def modify (t : Table α) (id : Nat) (f : α → α) : Table α :=
  ⟨t.next, t.entries.map fun e => if e.1 = id then (e.1, f e.2) else e, by
    have same : (Prod.fst ∘ fun e : Nat × α => if e.1 = id then (e.1, f e.2) else e) = Prod.fst := by
      funext e
      simp only [Function.comp]
      split <;> rfl
    simpa only [List.map_map, same] using t.newestFirst⟩

def erase (t : Table α) (id : Nat) : Table α :=
  ⟨t.next, t.entries.filter fun e => e.1 ≠ id,
    t.newestFirst.sublist ((List.filter_sublist.map Prod.fst).cons_cons t.next)⟩

def values (t : Table α) : List α := t.entries.map Prod.snd

def ids (t : Table α) : List Nat := t.entries.map Prod.fst

end Table

end BufferFlow
