import BufferFlow.Proofs.Hub.Origins

set_option autoImplicit false

namespace BufferFlow

/-- The kind of a payload and its sizes. -/
def Payload.extent : Payload → Payload.Kind × Nat × Nat
  | .signal _ => (.signal, 0, 0)
  | .exchange v => (.exchange, v.bits, v.words.size)
  | .fire v => (.fire, 0, v.words.size)
  | .sink b => (.sink, 0, b.data.length)
  | .bytes data => (.bytes, 0, data.length)

/-- Whether the operation keeps the extents that slots had in a hub, and publishes from the
publisher's own pool only. -/
def Operation.Fits (h₀ : Hub) : Operation → Prop
  | newPool .. => False
  | write r payload => ∃ v, h₀.payload? r = some v ∧ payload.extent = v.extent
  | publish p r => h₀.poolOf? p = some r.pool
  | _ => True

namespace Hub

variable {h₀ h : Hub} {ops : List Operation} {r : SlotRef} {v : Payload}

/-- Every slot is one that was there and has the extent that it had. -/
def Keeps (h₀ h : Hub) : Prop :=
  ∀ r v, h.payload? r = some v → ∃ v₀, h₀.payload? r = some v₀ ∧ v.extent = v₀.extent

theorem payload?_write_cases {payload : Payload} {b : SlotRef}
    (shown : (h.apply (.write b payload)).payload? r = some v) :
    h.payload? r = some v ∨ r = b ∧ v = payload := by
  by_cases here : r = b ∧ b ∈ h.blanks
  · obtain ⟨rfl, owned⟩ := here
    rw [apply, write, if_pos owned, payload?, slot?_modifySlot, if_pos rfl] at shown
    obtain ⟨slot, hslot, rfl⟩ := Option.map_eq_some_iff.1 shown
    obtain ⟨old, -, rfl⟩ := Option.map_eq_some_iff.1 hslot
    exact .inr ⟨rfl, rfl⟩
  · refine .inl ?_
    rw [← shown]
    have old : ∀ name capacity factory, Operation.write b payload = .newPool name capacity factory →
        (h.slot? r).isSome := by simp
    refine (payload?_apply_of_old old fun payload' heq owned => ?_).symm
    obtain ⟨rfl, -⟩ := Operation.write.inj heq
    exact here ⟨rfl, owned⟩

theorem payload?_apply_cases {op : Operation} (there : h.pools.contains r.pool)
    (shown : (h.apply op).payload? r = some v) :
    h.payload? r = some v ∨ op = .write r v ∧ r ∈ h.blanks := by
  have same : (∀ payload, op = .write r payload → r ∉ h.blanks) →
      (h.apply op).payload? r = h.payload? r := by
    intro unwritten
    by_cases adds : ∃ name capacity factory, op = .newPool name capacity factory
    · obtain ⟨name, capacity, factory, rfl⟩ := adds
      obtain ⟨p, hp⟩ := Option.isSome_iff_exists.1 there
      simp only [apply, newPool, bind, Except.bind]
      cases Pool.new name capacity factory with
      | error failure => rfl
      | ok pool =>
        have older : r.pool ≠ h.pools.next := Nat.ne_of_lt (Table.get?_lt hp)
        simp only [payload?, slot?, note, pure, Except.pure, Table.get?_insert, if_neg older]
    · exact payload?_apply_of_old (fun name capacity factory heq => absurd ⟨_, _, _, heq⟩ adds)
        unwritten
  by_cases writes : ∃ payload, op = .write r payload
  · obtain ⟨payload, rfl⟩ := writes
    by_cases owned : r ∈ h.blanks
    · rcases payload?_write_cases shown with before | ⟨-, rfl⟩
      · exact .inl before
      · exact .inr ⟨rfl, owned⟩
    · exact .inl ((same fun _ _ => owned).symm.trans shown)
  · exact .inl ((same fun payload heq => absurd ⟨payload, heq⟩ writes).symm.trans shown)

theorem Keeps.apply (keeps : Keeps h₀ h) {op : Operation} (fits : op.Fits h₀) :
    Keeps h₀ (h.apply op) := by
  intro r v shown
  by_cases writes : ∃ b payload, op = .write b payload
  · obtain ⟨b, payload, rfl⟩ := writes
    rcases payload?_write_cases shown with before | ⟨rfl, rfl⟩
    · exact keeps r v before
    · exact fits
  · rw [payload?_apply_of_old] at shown
    · exact keeps r v shown
    · rintro name capacity factory rfl
      exact fits.elim
    · exact fun payload heq => absurd ⟨r, payload, heq⟩ writes

theorem keeps_applyAll (fits : ∀ op ∈ ops, op.Fits h₀) (keeps : Keeps h₀ h) :
    Keeps h₀ (h.applyAll ops) := by
  induction ops generalizing h with
  | nil => exact keeps
  | cons op ops ih =>
    exact ih (fun op hop => fits op (List.mem_cons_of_mem _ hop))
      (keeps.apply (fits op List.mem_cons_self))

theorem Keeps.refl (h : Hub) : Keeps h h := fun _ v shown => ⟨v, shown, rfl⟩

theorem history_extent (fits : ∀ op ∈ ops, op.Fits h₀) (keeps : Keeps h₀ h) :
    ∀ pub ∈ h.history ops, ∃ r v, h₀.poolOf? pub.publisher = some r.pool ∧
      h₀.payload? r = some v ∧ pub.payload.extent = v.extent := by
  induction ops generalizing h with
  | nil => simp [history]
  | cons op ops ih =>
    intro pub hpub
    rcases List.mem_append.1 hpub with now | later
    · obtain ⟨rfl, -, -, -, shown⟩ := publication?_eq_some.1 (Option.mem_toList.1 now)
      obtain ⟨v, there, same⟩ := keeps _ _ shown
      exact ⟨pub.ref, v, fits _ List.mem_cons_self, there, same⟩
    · exact ih (fun op hop => fits op (List.mem_cons_of_mem _ hop))
        (keeps.apply (fits op List.mem_cons_self)) pub later

theorem history_pool (fits : ∀ op ∈ ops, op.Fits h₀) :
    ∀ pub ∈ h.history ops, h₀.poolOf? pub.publisher = some pub.ref.pool := by
  induction ops generalizing h with
  | nil => simp [history]
  | cons op ops ih =>
    intro pub hpub
    rcases List.mem_append.1 hpub with now | later
    · obtain ⟨rfl, -⟩ := publication?_eq_some.1 (Option.mem_toList.1 now)
      exact fits _ List.mem_cons_self
    · exact ih (fun op hop => fits op (List.mem_cons_of_mem _ hop)) pub later

theorem publishedBy_extent {p : Nat} {extent : Payload.Kind × Nat × Nat}
    (fits : ∀ op ∈ ops, op.Fits h₀)
    (uniform : ∀ r v, h₀.poolOf? p = some r.pool → h₀.payload? r = some v → v.extent = extent) :
    ∀ pub ∈ h₀.publishedBy p ops, pub.payload.extent = extent := by
  intro pub hpub
  obtain ⟨past, named⟩ := List.mem_filter.1 hpub
  obtain rfl := of_decide_eq_true named
  obtain ⟨r, v, pool, there, same⟩ := history_extent fits (.refl h₀) pub past
  exact same.trans (uniform r v pool there)

end Hub

end BufferFlow
