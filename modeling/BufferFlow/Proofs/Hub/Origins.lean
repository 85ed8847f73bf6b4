import BufferFlow.Proofs.Hub.Supply

set_option autoImplicit false

namespace BufferFlow.Hub

variable {h : Hub} {p q s : Nat} {c : Copy} {a b ops : List Operation}

theorem next_apply (given : p < h.publishers.next) (op : Operation) :
    p < (h.apply op).publishers.next := by
  by_cases torn : op = .dropPublisher p
  · subst torn
    rcases dropPublisher_cases h p with ⟨-, same⟩ | ⟨P, log, -, same⟩ <;> rw [apply, same]
    · exact given
    · rw [publishers_invalidateAll]
      exact given
  · exact (publisher_apply given torn).2

theorem dead_apply (given : p < h.publishers.next) (dead : h.publishers.contains p = false)
    (op : Operation) : (h.apply op).publishers.contains p = false := by
  by_cases torn : op = .dropPublisher p
  · exact torn ▸ dead_dropPublisher h p
  · rw [(publisher_apply given torn).1]
    exact dead

theorem next_applyAll (given : p < h.publishers.next) (ops : List Operation) :
    p < (h.applyAll ops).publishers.next := by
  induction ops generalizing h with
  | nil => exact given
  | cons op ops ih => exact ih (next_apply given op)

theorem dead_applyAll (given : p < h.publishers.next) (dead : h.publishers.contains p = false)
    (ops : List Operation) : (h.applyAll ops).publishers.contains p = false := by
  induction ops generalizing h with
  | nil => exact dead
  | cons op ops ih => exact ih (next_apply given op) (dead_apply given dead op)

theorem poolOf?_applyAll (given : p < h.publishers.next)
    (alive : (h.applyAll ops).publishers.contains p) : (h.applyAll ops).poolOf? p = h.poolOf? p := by
  induction ops generalizing h with
  | nil => rfl
  | cons op ops ih =>
    have kept : op ≠ .dropPublisher p := by
      rintro rfl
      have gone := dead_applyAll (next_apply given _) (dead_dropPublisher h p) ops
      rw [applyAll_cons, gone] at alive
      exact Bool.noConfusion alive
    exact (ih (next_apply given op) alive).trans (poolOf?_apply given kept).1

theorem publishedBy_dead (given : p < h.publishers.next)
    (dead : (h.applyAll a).publishers.contains p = false) :
    h.publishedBy p (a ++ b) = h.publishedBy p a := by
  induction b generalizing a with
  | nil => rw [List.append_nil]
  | cons op b ih =>
    have nothing : ((h.applyAll a).publication? op).toList.filter (·.publisher = p) = [] := by
      refine List.filter_eq_nil_iff.2 fun pub hpub => ?_
      obtain ⟨-, -, alive, -⟩ := publication?_eq_some.1 (Option.mem_toList.1 hpub)
      have apart : pub.publisher ≠ p := by
        rintro rfl
        simp [dead] at alive
      simpa using apart
    have still : (h.applyAll (a ++ [op])).publishers.contains p = false := by
      rw [applyAll_snoc]
      exact dead_apply (next_applyAll given a) dead op
    have rest := ih still
    rw [List.append_assoc, List.singleton_append] at rest
    rw [rest, publishedBy_snoc, nothing, List.append_nil]

theorem history_inj {x y : Publication} (hx : x ∈ h.history ops) (hy : y ∈ h.history ops)
    (same : x.serial = y.serial) : x = y :=
  List.inj_on_of_nodup_map ((history_serial h ops).1.imp fun lt heq => Nat.ne_of_lt lt heq) hx hy same

/-- The copy has the number of a buffer that the publisher published. -/
def Sends (h : Hub) (p : Nat) (ops : List Operation) (c : Copy) : Prop :=
  ∃ pub ∈ h.publishedBy p ops, pub.serial = c.serial

theorem Sends.mono (sent : h.Sends p a c) (b : List Operation) : h.Sends p (a ++ b) c := by
  obtain ⟨pub, hpub, serial⟩ := sent
  exact ⟨pub, publishedBy_append h p a b ▸ List.mem_append_left _ hpub, serial⟩

theorem Sends.unique (x : h.Sends p ops c) (y : h.Sends q ops c) : p = q := by
  obtain ⟨pub, hpub, serial⟩ := x
  obtain ⟨pub', hpub', serial'⟩ := y
  obtain ⟨past, named⟩ := List.mem_filter.1 hpub
  obtain ⟨past', named'⟩ := List.mem_filter.1 hpub'
  obtain rfl := history_inj past past' (serial.trans serial'.symm)
  exact (of_decide_eq_true named).symm.trans (of_decide_eq_true named')

theorem sends_departed (sound : h.Sound) (known : h.subscriptions.contains s)
    (empty : h.queueOf s = []) (kept : .dropSubscription s ∉ ops) (hc : c ∈ h.departed s ops) :
    ∃ p, h.publisherOf? s = some p ∧ h.Sends p ops c := by
  obtain ⟨sub, hs⟩ := Option.isSome_iff_exists.1 known
  have order := departed_append_queueOf sound hs kept
  have queue : sub.queue = [] := by rwa [queueOf, hs] at empty
  have sent : c ∈ (h.publishedTo s ops).map (·.copy sub.erased) := by
    rw [queue, List.nil_append] at order
    rw [← order]
    exact List.mem_append_left _ hc
  rw [publishedTo] at sent
  split at sent
  · simp at sent
  · rename_i p named
    obtain ⟨pub, hpub, rfl⟩ := List.mem_map.1 sent
    exact ⟨p, named, pub, hpub, rfl⟩

end BufferFlow.Hub
