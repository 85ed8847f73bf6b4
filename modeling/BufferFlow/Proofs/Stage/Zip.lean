import BufferFlow.Proofs.Building
import BufferFlow.Proofs.Stage.Verdict
import BufferFlow.Payload.Shape

set_option autoImplicit false

namespace BufferFlow

namespace AggregatorLoop

variable {h₀ h h₁ : Hub} {l₀ l l₁ : AggregatorLoop} {ops more : List Operation} {n m : Nat}

/-- A run of the loop among others: how many steps of its own it took, all that was asked of the
hub, and the loop and the hub afterwards. -/
inductive Woven (l₀ : AggregatorLoop) (h₀ : Hub) :
    Nat → List Operation → AggregatorLoop → Hub → Prop
  | start : Woven l₀ h₀ 0 [] l₀ h₀
  | own {n : Nat} {ops : List Operation} {l l' : AggregatorLoop} {h h' : Hub}
      (run : Woven l₀ h₀ n ops l h) (step : l.advance h = .running h' l') :
      Woven l₀ h₀ (n + 1) (ops ++ l.requests h) l' h'
  | other {n : Nat} {ops : List Operation} {l : AggregatorLoop} {h : Hub}
      (run : Woven l₀ h₀ n ops l h) (op : Operation) (spares : l.Spares h op) :
      Woven l₀ h₀ n (ops ++ [op]) l (h.apply op)

theorem InRound.start (sound : h₀.Sound) (once : l.sources.Nodup)
    (handed : ∀ s ∈ l.sources, ∃ sub, h₀.subscriptions.get? s = some sub ∧ sub.armed = none)
    (foreign : ∀ s ∈ l.sources, h₀.publisherOf? s ≠ some l.publisher)
    (alive : h₀.publishers.contains l.publisher) (unfailed : h₀.failedAt? l.mailbox = some false)
    (alone : ∀ s a, h₀.armedOf? s = some a → a.mailbox ≠ l.mailbox) (calls : l.calls = 0)
    (phase : l.phase = .arming []) : l.InRound h₀ [] := by
  have known : ∀ s ∈ l.sources, h₀.subscriptions.contains s := by
    intro s hs
    obtain ⟨sub, hsub, -⟩ := handed s hs
    exact Hub.contains_of_get? hsub
  have idle : ∀ s ∈ l.sources, h₀.armedOf? s = none := by
    intro s hs
    obtain ⟨sub, hsub, unarmed⟩ := handed s hs
    rw [Hub.armedOf?, hsub]
    exact unarmed
  have joining : h₀.Joining (h₀.departed · []) l.mailbox l.sources l.joins [] := by
    refine ⟨known, List.nodup_nil, Nat.zero_le _, fun i s cell _ hc => by simp at hc,
      fun i s _ hs => ⟨idle s (List.mem_of_getElem? hs), ?_⟩, ⟨false, unfailed, by simp⟩,
      fun s a armed hm => absurd hm (alone s a armed)⟩
    rw [joins, phase, calls]
    rfl
  constructor
  · rw [phase]
    exact ⟨sound, once, known, fun _ _ => by simp, foreign, alive, joining, fun j pub hpub => by
      simp [Hub.publishedBy, Hub.history] at hpub⟩
  · rw [phase]
    exact calls.symm

theorem Woven.inRound (run : Woven l h m more l₁ h₁) (hub : h = h₀.applyAll ops)
    (r : l.InRound h₀ ops) : h₁ = h₀.applyAll (ops ++ more) ∧ l₁.InRound h₀ (ops ++ more) := by
  induction run with
  | start =>
    rw [List.append_nil]
    exact ⟨hub, r⟩
  | own run step ih =>
    obtain ⟨rfl, r⟩ := ih
    obtain ⟨next, rfl⟩ := r.own step
    rw [← List.append_assoc]
    exact ⟨rfl, next⟩
  | other run op spares ih =>
    obtain ⟨rfl, r⟩ := ih
    rw [← List.append_assoc, Hub.applyAll_snoc]
    exact ⟨rfl, r.other spares⟩

theorem Woven.keeps (run : Woven l h m more l₁ h₁) : ∃ calls phase, l₁ = { l with calls, phase } := by
  induction run with
  | start => exact ⟨l.calls, l.phase, rfl⟩
  | own run step ih =>
    obtain ⟨calls, phase, rfl⟩ := ih
    obtain ⟨calls', phase', rfl⟩ := advance_keeps step
    exact ⟨calls', phase', rfl⟩
  | other run op spares ih => exact ih

theorem Woven.ends {reason : Termination} (run : Woven l h m more l₁ h₁)
    (hub : h = h₀.applyAll ops) (r : l.InRound h₀ ops) (due : l.Due h₀ ops reason)
    (lasting : reason ≠ .noListeners) :
    l₁.Due h₀ (ops ++ more) reason ∧ l₁.round h₀ (ops ++ more) = l.round h₀ ops ∧
      l₁.rank + m ≤ l.rank := by
  induction run with
  | start =>
    rw [List.append_nil]
    exact ⟨due, rfl, Nat.le_refl _⟩
  | @own n more l₁ l' h₁ h' run step ih =>
    obtain ⟨due', same, less⟩ := ih
    obtain ⟨rfl, r'⟩ := run.inRound hub r
    have next := (r'.own step).1
    rcases r'.progress step with ⟨stays, fewer⟩ | ⟨-, nothing⟩
    · rw [← List.append_assoc]
      obtain ⟨calls, phase, rfl⟩ := advance_keeps step
      refine ⟨due'.mono lasting (next.engaged.withPhase l₁.calls l₁.phase) stays, stays.trans same, ?_⟩
      omega
    · exact absurd due' (nothing reason)
  | @other n more l₁ h₁ run op spares ih =>
    obtain ⟨due', same, less⟩ := ih
    obtain ⟨rfl, r'⟩ := run.inRound hub r
    have stays : l₁.round h₀ (ops ++ more ++ [op]) = l₁.round h₀ (ops ++ more) :=
      round_quiet spares.heeds.unpublished
    rw [← List.append_assoc]
    refine ⟨due'.mono lasting ((r'.other spares).engaged) stays, stays.trans same, less⟩

theorem InRound.built {n n' : Network} {primary stage : Nat} {gates : List Nat}
    {transform : Transform} {S : Stage} (reached : n.hub.Reachable) (once : (primary :: gates).Nodup)
    (handed : ∀ s ∈ primary :: gates,
      ∃ sub, n.hub.subscriptions.get? s = some sub ∧ sub.armed = none)
    (built : n.Builds primary gates transform stage n') (found : n'.stages.get? stage = some S)
    (loop : S.loop = .aggregator l) :
    l = n.nextLoop primary gates transform ∧ l.InRound n'.hub [] := by
  obtain ⟨name, capacity, factory, pool, log, fresh, rfl, rfl⟩ := built.eq
  rw [Table.get?_insert, if_pos rfl] at found
  obtain rfl := Option.some.inj found
  obtain rfl := Loop.aggregator.inj loop
  have before := reached.sound
  have sound : (n.hub.equip name pool log).Sound := by
    rw [Hub.equip_eq fresh]
    exact (reached.applyAll _).sound
  refine ⟨rfl, .start sound once handed (fun s _ named => ?_) ?_ ?_ (fun s a armed same => ?_) rfl rfl⟩
  · obtain ⟨P, hP⟩ := Option.isSome_iff_exists.1 (before.enrolled.alive s _ named)
    exact Nat.lt_irrefl _ (Table.get?_lt hP)
  · rw [Table.contains]
    change ((n.hub.publishers.insert _).2.get? n.hub.publishers.next).isSome = true
    rw [Table.get?_insert, if_pos rfl]
    rfl
  · rw [Hub.failedAt?]
    change ((n.hub.mailboxes.insert _).2.get? n.hub.mailboxes.next).map _ = some false
    rw [Table.get?_insert, if_pos rfl]
    rfl
  · have known := before.expected.known s a armed
    rw [same] at known
    exact Nat.lt_irrefl _ known

/-- An aggregator or a sink, among operations that spare what is its own. It publishes in order the
transform of each primary buffer for which all gates are open, and a completed join takes exactly
the copy of the round from each source. It stops exactly for the termination that is due, blocks for
a source that is not gone or for its own pool, and faults only where its transform does. Any other
step stays in the round, with fewer steps left, or ends it while nothing is due; a termination that
is due because of the sources comes within the steps that are left. -/
theorem zips_gated {n n' : Network} {primary stage : Nat} {gates : List Nat} {transform : Transform}
    {S : Stage} (reached : n.hub.Reachable) (once : (primary :: gates).Nodup)
    (handed : ∀ s ∈ primary :: gates,
      ∃ sub, n.hub.subscriptions.get? s = some sub ∧ sub.armed = none)
    (built : n.Builds primary gates transform stage n') (found : n'.stages.get? stage = some S)
    (loop : S.loop = .aggregator l₀) (run : Woven l₀ n'.hub m ops l h) :
    (l.primary = primary ∧ l.gates = gates ∧ l.transform = transform) ∧
    (∀ (j : Nat) pub, (n'.hub.publishedBy l.publisher ops)[j]? = some pub →
      l.Derived n'.hub ops j pub.payload) ∧
    (l.phase = .arming [] →
      ∀ s ∈ l.sources, (n'.hub.departed s ops).length = l.round n'.hub ops) ∧
    (∀ cells h', l.phase = .waiting cells → (h.wait? l.mailbox).map (·.1) = some true →
      (l.advance h).hub? = some h' →
      (∀ i s cell : Nat, l.sources[i]? = some s → cells[i]? = some cell → ∃ c,
        h.contents? cell = some c ∧ (n'.hub.departed s ops)[l.round n'.hub ops]? = some c) ∧
      (∀ s ∈ l.sources, (n'.hub.departed s (ops ++ l.requests h)).length = l.round n'.hub ops + 1) ∧
      ∀ cell ∈ cells, h'.cells.contains cell = false) ∧
    (∀ h' reason, l.advance h = .stopped h' reason →
      ∀ other, l.Due n'.hub ops other ↔ other = reason) ∧
    (l.advance h = .blocked → (∀ reason, l.Due n'.hub ops reason → reason = .noListeners) ∧
      ((∃ s ∈ l.sources, (h.publisherOf? s).isSome ∧
        (n'.hub.supply s ops).length = l.round n'.hub ops) ∨ h.acquireFor? l.publisher = none)) ∧
    (∀ h' fault, l.advance h = .faulted h' fault →
      ∃ v old, (n'.hub.supply l.primary ops)[l.round n'.hub ops]? = some v ∧
        (l.transform (l.round n'.hub ops) v old).fault = some fault) ∧
    (∀ h' l', l.advance h = .running h' l' →
      (l'.round n'.hub (ops ++ l.requests h) = l.round n'.hub ops ∧ l'.rank < l.rank) ∨
      (l'.round n'.hub (ops ++ l.requests h) = l.round n'.hub ops + 1 ∧
        ∀ reason, ¬ l.Due n'.hub ops reason)) ∧
    ∀ reason, l.Due n'.hub ops reason → reason ≠ .noListeners →
      ∀ k more l₁ h₁, Woven l h k more l₁ h₁ → l₁.rank + k ≤ l.rank ∧ l₁.advance h₁ ≠ .blocked ∧
        (∀ h' fault, l₁.advance h₁ ≠ .faulted h' fault) ∧
        ∀ h' other, l₁.advance h₁ = .stopped h' other → other = reason := by
  obtain ⟨made, first⟩ := InRound.built reached once handed built found loop
  have after : h = n'.hub.applyAll ([] ++ ops) ∧ l.InRound n'.hub ([] ++ ops) :=
    run.inRound rfl first
  rw [List.nil_append] at after
  obtain ⟨hub, r⟩ := after
  refine ⟨?_, r.engaged.derived, r.begins, ?_, ?_, ?_, ?_, ?_, fun reason due lasting k more l₁ h₁ more_run => ?_⟩
  · obtain ⟨calls, phase, rfl⟩ := run.keeps
    obtain rfl := made
    exact ⟨rfl, rfl, rfl⟩
  all_goals subst hub
  · exact fun cells h' phase waited step => r.taken phase waited step
  · intro h' reason step other
    have due := r.due step
    exact ⟨fun also => also.unique due, fun same => same ▸ due⟩
  · exact r.blocked
  · exact fun h' fault step => (r.faulted step).2
  · exact fun h' l' step => r.progress step
  · obtain ⟨due', -, less⟩ := more_run.ends rfl r due lasting
    obtain ⟨rfl, r'⟩ := more_run.inRound rfl r
    refine ⟨less, fun blocks => lasting ((r'.blocked blocks).1 reason due'), fun h' fault faults =>
      lasting ((r'.faulted faults).1 reason due'), fun h' other stops => ?_⟩
    exact (r'.due stops).unique due'

def doorway : Network :=
  ⟨({} : Hub).applyAll [.newPool "frames" 1 Payload.Shape.signal.factory,
    .newPublisher "camera" 0, .newPool "signals" 1 Payload.Shape.signal.factory,
    .newPublisher "door" 1, .subscribe 0 false, .subscribe 1 false, .acquire 0, .publish 0 ⟨0, 0⟩,
    .acquire 1, .write ⟨1, 0⟩ (.signal ⟨true⟩), .publish 1 ⟨1, 0⟩], {}⟩

/-- With a listener, a round that hands the frame on takes seven steps. -/
theorem zips_gated_open : ∃ n' l ops h pub,
    doorway.Builds 0 [1] (fun _ v _ => ⟨v, none⟩) 0 n' ∧
    Woven (doorway.nextLoop 0 [1] fun _ v _ => ⟨v, none⟩) n'.hub 7 ops l h ∧
    (n'.hub.publishedBy l.publisher ops)[0]? = some pub ∧ l.Derived n'.hub ops 0 pub.payload := by
  have built : doorway.Builds 0 [1] (fun _ v _ => ⟨v, none⟩) 0 _ :=
    .aggregator (show doorway.newAggregator "guard" 1 Payload.Shape.signal.factory 0 [1] _ =
      (.ok 0, (doorway.newAggregator "guard" 1 Payload.Shape.signal.factory 0 [1] _).2) from rfl)
  have listens : (doorway.nextLoop 0 [1] fun _ v _ => ⟨v, none⟩).Spares
      (doorway.newAggregator "guard" 1 Payload.Shape.signal.factory 0 [1]
        fun _ v _ => ⟨v, none⟩).2.hub (.subscribe 2 false) :=
    ⟨⟨⟨fun _ _ => id, fun _ => nofun, fun _ _ => ⟨nofun, nofun⟩⟩, nofun, fun _ => nofun⟩,
      fun _ => nofun, fun _ => nofun⟩
  have run := Woven.own (.own (.own (.own (.own (.own (.own (.other .start (.subscribe 2 false)
    listens) rfl) rfl) rfl) rfl) rfl) rfl) rfl
  have handed : ∀ s ∈ [0, 1], ∃ sub, doorway.hub.subscriptions.get? s = some sub ∧
      sub.armed = none := by
    intro s hs
    rcases List.mem_pair.1 hs with rfl | rfl <;> exact ⟨_, rfl, rfl⟩
  obtain ⟨-, derived, -⟩ := zips_gated ⟨_, rfl⟩ (by decide) handed built rfl rfl run
  exact ⟨_, _, _, _, _, built, run, rfl, derived 0 _ rfl⟩

end AggregatorLoop

end BufferFlow
