import BufferFlow.Proofs.Hub.Roots

set_option autoImplicit false

/-! # Cascades

A slot that is recycled gives up what it holds. If that was the last copy, the slot of the copy is
recycled first, and so on: nothing in this bounds how far it goes. It ends because what a slot holds
was published before the slot's own buffer, so no way from holder to held ever comes back. The slots
of a cascade go back on their stacks from the oldest buffer on, each of them once. -/

namespace BufferFlow.Hub

variable {h g g' : Hub} {r q b : SlotRef} {c d : Copy} {order : List SlotRef} {s id : Nat}

/-! ## No slot holds itself -/

theorem Holds.older (descends : h.Descends) (holds : h.Holds r q) :
    ∃ c e, h.chainedAt r = some c ∧ e ∈ h.copies ∧ e.ref = q ∧ e.serial ≤ c.serial := by
  induction holds with
  | single chains =>
    obtain ⟨c, hc, ref⟩ := chains
    exact ⟨c, c, hc, List.mem_append_right _ (mem_chained.2 ⟨r, hc⟩), ref, Nat.le_refl _⟩
  | tail _ chains ih =>
    obtain ⟨c, e, hc, alive, ref, le⟩ := ih
    obtain ⟨f, hf, ref'⟩ := chains
    have lt := descends _ f hf e alive ref
    exact ⟨c, f, hc, List.mem_append_right _ (mem_chained.2 ⟨_, hf⟩), ref', by omega⟩

theorem Descends.acyclic (descends : h.Descends) (r : SlotRef) : ¬ h.Holds r r := by
  intro holds
  obtain ⟨c, e, hc, alive, ref, le⟩ := holds.older descends
  have lt := descends r c hc e alive ref
  omega

theorem Fades.holds (fades : Fades h g) (holds : g.Holds r q) : h.Holds r q := by
  have chains : ∀ {x y}, g.Chains x y → h.Chains x y := by
    rintro x y ⟨c, hc, ref⟩
    exact ⟨c, fades.chained x c hc, ref⟩
  induction holds with
  | single last => exact .single (chains last)
  | tail _ last ih => exact ih.tail (chains last)

/-! ## Recycling without a bound -/

/-- To recycle the slot in the first hub puts the slots back in that order and leaves the last hub. -/
inductive Cascade : Hub → SlotRef → List SlotRef → Hub → Prop
  | bare {h : Hub} {r : SlotRef} (holds : h.chainedAt r = none) : Cascade h r [r] (h.putBack r)
  | shared {h : Hub} {r : SlotRef} {c : Copy} (holds : h.chainedAt r = some c)
      (others : (h.unchain r).copiesAt c.ref ≠ 1) :
      Cascade h r [r] (((h.unchain r).discount c.ref).putBack r)
  | last {h h' : Hub} {r : SlotRef} {c : Copy} {order : List SlotRef}
      (holds : h.chainedAt r = some c) (one : (h.unchain r).copiesAt c.ref = 1)
      (inner : Cascade ((h.unchain r).discount c.ref) c.ref order h') :
      Cascade h r (order ++ [r]) (h'.putBack r)

namespace Cascade

theorem recycleWith {blanks : List SlotRef} {loose : List Copy} {fuel : Nat}
    (enough : h.countedSlots < fuel) (hk : h.Kept (r :: blanks) loose) :
    ∃ order, h.Cascade r order (recycleWith fuel h r) ∧ order.length ≤ h.countedSlots + 1 := by
  induction fuel generalizing h r blanks loose with
  | zero => omega
  | succ fuel ih =>
    unfold Hub.recycleWith
    cases hc : h.chainedAt r with
    | none => exact ⟨[r], .bare hc, by simp⟩
    | some c =>
      have free := hk.unchain List.mem_cons_self hc
      obtain ⟨s, hs, -⟩ := free.copy_slot List.mem_cons_self
      dsimp only
      split
      · rename_i one
        have counted : s.copies = 1 := by rw [← copiesAt_eq hs, one]
        obtain ⟨t, ht, -⟩ := exists_slot_of_chainedAt hc
        have fewer := countedSlots_discount_last hs counted
        have same : (h.unchain r).countedSlots = h.countedSlots := countedSlots_modifySlot ht rfl
        obtain ⟨order, inner, short⟩ := ih (by omega) (free.discount_last one)
        refine ⟨order ++ [r], .last hc one inner, ?_⟩
        rw [List.length_append, List.length_singleton]
        omega
      · rename_i others
        exact ⟨[r], .shared hc others, by simp⟩

theorem recycle {blanks : List SlotRef} {loose : List Copy} (hk : h.Kept (r :: blanks) loose) :
    ∃ order, h.Cascade r order (h.recycle r) ∧ order.length ≤ h.slotCount := by
  obtain ⟨s, hs, zero⟩ := Balanced.blank_slot hk List.mem_cons_self
  have lt := countedSlots_lt hs zero
  obtain ⟨order, cascade, short⟩ := recycleWith lt hk
  exact ⟨order, cascade, by omega⟩

theorem unique {order' : List SlotRef} (x : h.Cascade r order g) (y : h.Cascade r order' g') :
    order = order' ∧ g = g' := by
  induction x generalizing order' g' with
  | bare holds =>
    cases y with
    | bare => exact ⟨rfl, rfl⟩
    | shared holds' | last holds' => exact nomatch holds.symm.trans holds'
  | shared holds others =>
    cases y with
    | bare holds' => exact nomatch holds.symm.trans holds'
    | shared holds' =>
      obtain rfl := Option.some.inj (holds.symm.trans holds')
      exact ⟨rfl, rfl⟩
    | last holds' one =>
      obtain rfl := Option.some.inj (holds.symm.trans holds')
      exact absurd one others
  | last holds one inner ih =>
    cases y with
    | bare holds' => exact nomatch holds.symm.trans holds'
    | shared holds' others =>
      obtain rfl := Option.some.inj (holds.symm.trans holds')
      exact absurd one others
    | last holds' _ inner' =>
      obtain rfl := Option.some.inj (holds.symm.trans holds')
      obtain ⟨rfl, rfl⟩ := ih inner'
      exact ⟨rfl, rfl⟩

/-! ## The order -/

theorem upstream (cascade : h.Cascade r order g) :
    (∀ q ∈ order, q = r ∨ h.Holds r q) ∧ order.Pairwise fun q s => h.Holds s q := by
  induction cascade with
  | bare | shared => simp
  | last holds one inner ih =>
    rename_i h h' r c order
    have fades := (Fades.unchain h r).trans (Fades.discount (h.unchain r) c.ref)
    have first : h.Chains r c.ref := ⟨c, holds, rfl⟩
    have below : ∀ q ∈ order, h.Holds r q := fun q hq =>
      (ih.1 q hq).elim (fun same => same ▸ .single first) fun far => .head first (fades.holds far)
    refine ⟨fun q hq => ?_, List.pairwise_append.2 ⟨ih.2.imp fades.holds, by simp, ?_⟩⟩
    · rcases List.mem_append.1 hq with hq | hq
      · exact .inr (below q hq)
      · exact .inl (List.mem_singleton.1 hq)
    · intro q hq s hs
      obtain rfl := List.mem_singleton.1 hs
      exact below q hq

end Cascade

def stack? (h : Hub) (id : Nat) : Option (List Nat) := (h.pools.get? id).map (·.free)

/-- The slots of one pool as they lie on its stack after they went back in that order. -/
def stackedFrom (order : List SlotRef) (id : Nat) : List Nat :=
  ((order.filter (·.pool = id)).map (·.slot)).reverse

theorem stack?_modifyPool (h : Hub) (pool : Nat) {f : Pool → Pool} (same : ∀ p, (f p).free = p.free)
    (id : Nat) : (h.modifyPool pool f).stack? id = h.stack? id := by
  rw [stack?, stack?, modifyPool, Table.get?_modify]
  split
  · cases h.pools.get? id <;> simp [same]
  · rfl

theorem stack?_unchain (h : Hub) (r : SlotRef) (id : Nat) : (h.unchain r).stack? id = h.stack? id :=
  stack?_modifyPool h r.pool (f := (·.modifySlot r.slot ({ · with chained := none }))) (fun _ => rfl) id

theorem stack?_discount (h : Hub) (r : SlotRef) (id : Nat) :
    (h.discount r).stack? id = h.stack? id := by
  refine stack?_modifyPool h r.pool (fun p => ?_) id
  rw [Pool.discount, Pool.modifySlot, Pool.expect]
  split <;> rfl

theorem stack?_putBack (h : Hub) (r : SlotRef) (id : Nat) :
    (h.putBack r).stack? id = (h.stack? id).map (stackedFrom [r] id ++ ·) := by
  change ((h.pools.modify r.pool (·.put r.slot)).get? id).map _ = ((h.pools.get? id).map _).map _
  rw [Table.get?_modify]
  by_cases here : id = r.pool
  · subst here
    cases h.pools.get? r.pool <;> simp [stackedFrom, Pool.put]
  · have other : ¬ r.pool = id := fun same => here same.symm
    cases h.pools.get? id <;> simp [stackedFrom, here, other]

theorem stackedFrom_append (a b : List SlotRef) (id : Nat) :
    stackedFrom (a ++ b) id = stackedFrom b id ++ stackedFrom a id := by
  simp [stackedFrom]

theorem Cascade.stacked (cascade : h.Cascade r order g) (id : Nat) :
    g.stack? id = (h.stack? id).map (stackedFrom order id ++ ·) := by
  induction cascade with
  | bare => exact stack?_putBack _ _ id
  | shared => rw [stack?_putBack, stack?_discount, stack?_unchain]
  | last holds one inner ih =>
    rw [stack?_putBack, ih, stack?_discount, stack?_unchain, Option.map_map]
    refine congrArg (Option.map · _) (funext fun below => ?_)
    rw [Function.comp_apply, stackedFrom_append, List.append_assoc]

/-! ## What an operation recycles -/

/-- What is recycled with the slot `r` of the hub `g`, in the order in which it goes back. There is no
other way to recycle the slot. Each slot goes back once, after all that it held in the hub `h`, and
lies on its stack where the order puts it. -/
structure Unwound (h g : Hub) (r : SlotRef) (order : List SlotRef) (g' : Hub) : Prop where
  cascade : g.Cascade r order g'
  only : ∀ order' g'', g.Cascade r order' g'' → order' = order ∧ g'' = g'
  few : order.length ≤ g.slotCount
  once : order.Nodup
  held : order.Pairwise fun q s => h.Holds s q
  before : ∀ q ∈ order, ∀ s ∈ order, h.Holds s q → order.idxOf q < order.idxOf s
  stacked : ∀ id, g'.stack? id = (g.stack? id).map (stackedFrom order id ++ ·)

/-- In the hub `g` a copy is given up: it is the last one and its slot is recycled, or it is only
counted. -/
def Releases (h g : Hub) (c : Copy) (g' : Hub) : Prop :=
  if g.copiesAt c.ref = 1 then ∃ order, h.Unwound (g.discount c.ref) c.ref order g'
  else g' = g.discount c.ref

theorem idxOf_lt_of_holds (acyclic : ∀ r, ¬ h.Holds r r)
    (held : order.Pairwise fun q s => h.Holds s q) {q s : SlotRef} (hq : q ∈ order) (hs : s ∈ order)
    (holds : h.Holds s q) : order.idxOf q < order.idxOf s := by
  have atq := List.idxOf_lt_length_of_mem hq
  have ats := List.idxOf_lt_length_of_mem hs
  rcases Nat.lt_trichotomy (order.idxOf q) (order.idxOf s) with lt | eq | gt
  · exact lt
  · have same : order[order.idxOf q] = order[order.idxOf s] := by simp only [eq]
    rw [List.getElem_idxOf, List.getElem_idxOf] at same
    exact absurd (same ▸ holds) (acyclic q)
  · have back := List.pairwise_iff_getElem.1 held _ _ ats atq gt
    rw [List.getElem_idxOf, List.getElem_idxOf] at back
    exact absurd (holds.trans back) (acyclic s)

theorem Kept.unwound {blanks : List SlotRef} {loose : List Copy} (descends : h.Descends)
    (hk : g.Kept (r :: blanks) loose)
    (mono : ∀ q s, s = r ∨ g.Holds r s → g.Holds s q → h.Holds s q) :
    ∃ order, h.Unwound g r order (g.recycle r) := by
  obtain ⟨order, cascade, few⟩ := Cascade.recycle hk
  obtain ⟨below, upstream⟩ := cascade.upstream
  have held : order.Pairwise fun q s => h.Holds s q :=
    upstream.imp_of_mem fun _ hs => mono _ _ (below _ hs)
  have once : order.Nodup := by
    refine held.imp ?_
    rintro q _ holds rfl
    exact descends.acyclic q holds
  exact ⟨order, cascade, fun _ _ other => other.unique cascade, few, once, held,
    fun _ hq _ hs => idxOf_lt_of_holds descends.acyclic held hq hs, cascade.stacked⟩

theorem Kept.releases {blanks : List SlotRef} {loose : List Copy} (descends : h.Descends)
    (hk : g.Kept blanks (c :: loose))
    (mono : ∀ q s, s = c.ref ∨ g.Holds c.ref s → g.Holds s q → h.Holds s q) :
    h.Releases g c (g.giveUp c) := by
  have fades := Fades.discount g c.ref
  unfold Releases Hub.giveUp
  split
  · rename_i one
    exact Kept.unwound descends (hk.discount_last one) fun q s above holds =>
      mono q s (above.imp_right fades.holds) (fades.holds holds)
  · rfl

theorem Holds.of_chain (ha : h.Accounted) (owned : b ∈ h.blanks) (inHand : c ∈ h.held)
    (apart : r ≠ b) (holds : (h.prepared (.chain b c)).Holds r q) : h.Holds r q ∧ q ≠ b := by
  have step : ∀ {x y}, x ≠ b → (h.prepared (.chain b c)).Chains x y → h.Chains x y ∧ y ≠ b := by
    rintro x y other ⟨e, he, ref⟩
    simp only [prepared, settling, if_pos (And.intro owned inHand)] at he
    rw [chainedAt, slot?_modifySlot, if_neg other] at he
    have chains : h.Chains x y := ⟨e, he, ref⟩
    obtain ⟨d, alive, rfl⟩ := chains.live
    refine ⟨chains, ?_⟩
    rintro rfl
    exact copy_unblank ha alive owned
  induction holds with
  | single chains => exact (step apart chains).imp_left .single
  | tail _ chains ih => exact (step ih.2 chains).imp_left ih.1.tail

section

variable (ha : h.Accounted) (descends : h.Descends)

include ha descends

theorem unwound_dropBlank (owned : b ∈ h.blanks) :
    ∃ order, h.Unwound (h.takeBlank b) b order (h.apply (.dropBlank b)) := by
  have kept : (h.takeBlank b).Kept (b :: h.blanks.erase b) h.loose :=
    (Kept.perm ha (List.perm_cons_erase owned) (.refl _)).congr rfl
  rw [apply, dropBlank, if_pos owned]
  exact kept.unwound descends fun _ _ _ => (Fades.ofPools rfl).holds

theorem unwound_publish (p : Nat) (owned : b ∈ h.blanks) (nobody : h.receivers p = []) :
    ∃ order h', h.Unwound (h.spend b) b order h' ∧
      h.apply (.publish p b) = h'.count (.published 0) := by
  obtain ⟨order, unwound⟩ := (ha.spend owned).unwound descends fun _ _ _ =>
    (Fades.ofPools rfl).holds
  refine ⟨order, _, unwound, ?_⟩
  rcases publish_cases h p b with ⟨unowned, -⟩ | ⟨-, -, ⟨-, same⟩ | ⟨somebody, -⟩⟩
  · exact absurd owned unowned
  · exact same
  · exact absurd nobody somebody

theorem releases_release (inHand : c ∈ h.held) :
    h.Releases (h.letGo c) c (h.apply (.release c)) := by
  have kept : (h.letGo c).Kept h.blanks (c :: (h.letGo c).loose) :=
    (Kept.perm ha (.refl _) (loose_letGo inHand)).congr rfl
  rw [apply, release, if_pos inHand]
  exact kept.releases descends fun _ _ _ => (Fades.ofPools rfl).holds

theorem releases_chain (owned : b ∈ h.blanks) (inHand : c ∈ h.held) (chained : h.chainedAt b = some d) :
    h.Releases (h.prepared (.chain b c)) d (h.apply (.chain b c)) := by
  have both : b ∈ h.blanks ∧ c ∈ h.held := ⟨owned, inHand⟩
  have kept := ha.rechain owned inHand
  have foreign : d.ref ≠ b := fun same =>
    copy_unblank ha (List.mem_append_right _ (mem_chained.2 ⟨b, chained⟩)) (same ▸ owned)
  have mono : ∀ q s, s = d.ref ∨ (h.prepared (.chain b c)).Holds d.ref s →
      (h.prepared (.chain b c)).Holds s q → h.Holds s q := by
    intro q s above holds
    have apart : s ≠ b := above.elim (fun same => same ▸ foreign) fun far =>
      (far.of_chain ha owned inHand foreign).2
    exact (holds.of_chain ha owned inHand apart).1
  simp only [prepared, settling, if_pos both] at mono ⊢
  rw [chained] at kept
  rw [apply, chain, if_pos both, chained]
  exact kept.releases descends mono

theorem releases_dropCell {cell : Nat} (inside : h.contents? cell = some c) :
    h.Releases { h with cells := h.cells.erase cell } c (h.apply (.dropCell cell)) := by
  have kept : { h with cells := h.cells.erase cell }.Kept h.blanks
      (c :: { h with cells := h.cells.erase cell }.loose) :=
    (Kept.perm ha (.refl _) (loose_erase_cell (contents?_eq_some.1 inside))).congr rfl
  have found : (h.cells.get? cell).bind id = some c := inside
  rw [apply, dropCell, found]
  exact kept.releases descends fun _ _ _ => (Fades.ofPools rfl).holds

theorem releases_dropSubscription {first rest : List Copy} (queue : h.queueOf s = first ++ c :: rest) :
    h.Releases ((h.prepared (.dropSubscription s)).giveUpAll first) c
      ((h.prepared (.dropSubscription s)).giveUpAll (first ++ [c])) := by
  obtain ⟨sub, hs, own⟩ : ∃ sub, h.subscriptions.get? s = some sub ∧ sub.queue = first ++ c :: rest := by
    rw [queueOf] at queue
    cases hs : h.subscriptions.get? s with
    | none => simp [hs] at queue
    | some sub => exact ⟨sub, rfl, by simpa [hs] using queue⟩
  have pools : (h.prepared (.dropSubscription s)).pools = h.pools := (SameStock.detach h s).pools
  have kept : (h.prepared (.dropSubscription s)).Kept h.blanks
      (first ++ c :: (rest ++ (h.detach s).loose)) := by
    have detached := (Kept.perm ha (.refl _) (loose_detach hs)).congr pools
    rwa [own, List.append_assoc] at detached
  have fades := (Fades.ofPools pools).trans (Fades.giveUpAll (h.prepared (.dropSubscription s)) first)
  have next : (h.prepared (.dropSubscription s)).giveUpAll (first ++ [c]) =
      ((h.prepared (.dropSubscription s)).giveUpAll first).giveUp c := List.foldl_append
  rw [next]
  exact kept.giveUpAll.releases descends fun _ _ _ => fades.holds

end

/-- In every reachable hub no slot holds itself through chained copies, so every cascade ends: of a
dropped blank, of a copy released from a hand, a cell or a queue, of a replaced chained copy, and of
a publication without receivers. -/
theorem cascades_end {h : Hub} (reached : h.Reachable) :
    (∀ r, ¬ h.Holds r r) ∧
    (∀ b ∈ h.blanks, ∃ order, h.Unwound (h.takeBlank b) b order (h.apply (.dropBlank b))) ∧
    (∀ p, ∀ b ∈ h.blanks, h.receivers p = [] → ∃ order h', h.Unwound (h.spend b) b order h' ∧
      h.apply (.publish p b) = h'.count (.published 0)) ∧
    (∀ c ∈ h.held, h.Releases (h.letGo c) c (h.apply (.release c))) ∧
    (∀ b ∈ h.blanks, ∀ c ∈ h.held, ∀ d, h.chainedAt b = some d →
      h.Releases (h.prepared (.chain b c)) d (h.apply (.chain b c))) ∧
    (∀ cell c, h.contents? cell = some c →
      h.Releases { h with cells := h.cells.erase cell } c (h.apply (.dropCell cell))) ∧
    ∀ s, (h.apply (.dropSubscription s)).pools =
        ((h.prepared (.dropSubscription s)).giveUpAll (h.queueOf s)).pools ∧
      ∀ first c rest, h.queueOf s = first ++ c :: rest →
        h.Releases ((h.prepared (.dropSubscription s)).giveUpAll first) c
          ((h.prepared (.dropSubscription s)).giveUpAll (first ++ [c])) := by
  have ha := reached.sound.accounted
  have descends := reached.descends
  exact ⟨descends.acyclic, fun _ owned => unwound_dropBlank ha descends owned,
    fun p _ owned nobody => unwound_publish ha descends p owned nobody,
    fun _ inHand => releases_release ha descends inHand,
    fun _ owned _ inHand _ chained => releases_chain ha descends owned inHand chained,
    fun _ _ inside => releases_dropCell ha descends inside,
    fun s => ⟨(pools_apply h _).trans (congrArg pools (giveUpAll_eq _ _).symm),
      fun _ _ _ queue => releases_dropSubscription ha descends queue⟩⟩

/-- A mark is chained to a frame that is chained to an older frame of the same pool. Dropping the
mark recycles the older frame first, then the younger one, then the mark. -/
theorem cascades_end_derived : ∃ h : Hub,
    h = ({} : Hub).applyAll [.newPool "frames" 2 Payload.Shape.signal.factory,
      .newPublisher "camera" 0, .newPool "marks" 1 Payload.Shape.signal.factory, .subscribe 0 false,
      .acquire 0, .publish 0 ⟨0, 0⟩, .pull 0, .acquire 0, .chain ⟨0, 1⟩ ⟨⟨0, 0⟩, 0, false⟩,
      .publish 0 ⟨0, 1⟩, .pull 0, .acquire 1, .chain ⟨1, 0⟩ ⟨⟨0, 1⟩, 1, false⟩] ∧
    (⟨1, 0⟩ : SlotRef) ∈ h.blanks ∧ h.Holds ⟨1, 0⟩ ⟨0, 0⟩ ∧ ¬ h.Holds ⟨1, 0⟩ ⟨1, 0⟩ ∧
    (∃ order, h.Unwound (h.takeBlank ⟨1, 0⟩) ⟨1, 0⟩ order (h.apply (.dropBlank ⟨1, 0⟩))) ∧
    (h.apply (.dropBlank ⟨1, 0⟩)).stack? 0 = some [1, 0] ∧
    (h.apply (.dropBlank ⟨1, 0⟩)).stack? 1 = some [0] := by
  refine ⟨_, rfl, by decide +kernel, ?_, ?_⟩
  · have upper : ∀ h : Hub, h.chainedAt ⟨1, 0⟩ = some ⟨⟨0, 1⟩, 1, true⟩ → h.Chains ⟨1, 0⟩ ⟨0, 1⟩ :=
      fun _ holds => ⟨_, holds, rfl⟩
    have lower : ∀ h : Hub, h.chainedAt ⟨0, 1⟩ = some ⟨⟨0, 0⟩, 0, true⟩ → h.Chains ⟨0, 1⟩ ⟨0, 0⟩ :=
      fun _ holds => ⟨_, holds, rfl⟩
    exact .head (upper _ (by decide +kernel)) (.single (lower _ (by decide +kernel)))
  · obtain ⟨acyclic, dropped, -⟩ := cascades_end ⟨_, rfl⟩
    exact ⟨acyclic _, dropped _ (by decide +kernel), by decide +kernel, by decide +kernel⟩

end BufferFlow.Hub
