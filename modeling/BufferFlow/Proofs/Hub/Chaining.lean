import BufferFlow.Payload.Shape
import BufferFlow.Proofs.Hub.Moves
import Mathlib.Logic.Relation

set_option autoImplicit false

namespace BufferFlow.Hub

variable {h h' : Hub} {b q r : SlotRef} {c : Copy} {op : Operation} {ops : List Operation}

/-! ## What an operation gives up -/

/-- The hub in which the operation has only to give up what it gives up, and the moves of that. -/
def settling (h : Hub) : Operation → Hub × List Move
  | .chain blank upstream =>
    if blank ∈ h.blanks ∧ upstream ∈ h.held then
      let g := (h.letGo upstream).modifySlot blank
        ({ · with chained := some { upstream with erased := true } })
      (g, g.giveUpAllMoves (h.chainedAt blank).toList)
    else (h, [])
  | .publish publisher blank =>
    if blank ∈ h.blanks ∧ h.receivers publisher = [] then
      (h.spend blank, (h.spend blank).recycleMoves blank)
    else ((h.publish publisher blank).2, [])
  | .dropBlank blank =>
    if blank ∈ h.blanks then (h.takeBlank blank, (h.takeBlank blank).recycleMoves blank)
    else (h, [])
  | .release copy =>
    if copy ∈ h.held then (h.letGo copy, (h.letGo copy).giveUpAllMoves [copy]) else (h, [])
  | .dropCell cell =>
    let g := { h with cells := h.cells.erase cell }
    (g, g.giveUpAllMoves (h.contents? cell).toList)
  | .dropSubscription s =>
    let g := (h.detach s).note .trace "Subscription dropped"
      [("released", toString (h.queueOf s).length)]
    (g, g.giveUpAllMoves (h.queueOf s))
  | op => (h.apply op, [])

def prepared (h : Hub) (op : Operation) : Hub := (h.settling op).1

def moves (h : Hub) (op : Operation) : List Move := (h.settling op).2

def trace (h : Hub) : List Operation → List Move
  | [] => []
  | op :: ops => h.moves op ++ (h.apply op).trace ops

theorem pools_apply (h : Hub) (op : Operation) :
    (h.apply op).pools = ((h.prepared op).performAll (h.moves op)).pools := by
  cases op with
  | chain blank upstream =>
    simp only [apply, chain, prepared, moves, settling]
    split
    · cases h.chainedAt blank with
      | none => rfl
      | some d => exact congrArg pools (giveUpAll_eq _ [d])
    · rfl
  | publish p blank =>
    simp only [apply, prepared, moves, settling]
    rcases publish_cases h p blank with ⟨unowned, same⟩ | ⟨owned, -, ⟨nobody, same⟩ | ⟨somebody, same⟩⟩ <;>
      rw [same]
    · rw [if_neg fun both => unowned both.1]
      rfl
    · rw [if_pos ⟨owned, nobody⟩, ← recycle_eq]
      rfl
    · rw [if_neg fun both => somebody both.2]
      rfl
  | dropBlank blank =>
    simp only [apply, dropBlank, prepared, moves, settling]
    split
    · rw [recycle_eq]
    · rfl
  | release c =>
    simp only [apply, release, prepared, moves, settling]
    split
    · exact congrArg pools (giveUpAll_eq _ [c])
    · rfl
  | dropCell cell =>
    simp only [apply, prepared, moves, settling, contents?]
    rw [dropCell]
    cases (h.cells.get? cell).bind id with
    | none => rfl
    | some c => exact congrArg pools (giveUpAll_eq _ [c])
  | dropSubscription s =>
    simp only [apply, prepared, moves, settling, queueOf]
    rw [dropSubscription]
    cases hs : h.subscriptions.get? s with
    | none => exact (SameStock.detach h s).pools.symm
    | some sub =>
      rw [← giveUpAll_eq]
      rfl
  | _ => rfl

/-! ## Slots of others -/

/-- The slot holds what it held and is not put on the stack. -/
structure Steady (q : SlotRef) (h h' : Hub) : Prop where
  present : (h'.slot? q).isSome
  chained : h'.chainedAt q = h.chainedAt q
  stacked : h'.stackedAt q ≤ h.stackedAt q

theorem Steady.ofPools (present : (h.slot? q).isSome) (same : h'.pools = h.pools) :
    Steady q h h' := by
  have slot : h'.slot? q = h.slot? q := by rw [slot?, same, slot?]
  have stacked : h'.stackedAt q = h.stackedAt q := by rw [stackedAt, same, stackedAt]
  exact ⟨slot ▸ present, by rw [chainedAt, slot, chainedAt], Nat.le_of_eq stacked⟩

theorem Steady.modifySlot (present : (h.slot? q).isSome) {f : BufferSlot → BufferSlot}
    (kept : q = r → ∀ s, (f s).chained = s.chained) : Steady q h (h.modifySlot r f) := by
  obtain ⟨s, hs⟩ := Option.isSome_iff_exists.1 present
  refine ⟨?_, ?_, Nat.le_of_eq (stackedAt_modifySlot h r f q)⟩
  · rw [slot?_modifySlot, hs]
    split <;> rfl
  · rw [chainedAt, slot?_modifySlot, chainedAt, hs]
    split
    · rename_i here
      exact kept here s
    · rfl

theorem Steady.trans {h₁ h₂ h₃ : Hub} (x : Steady q h₁ h₂) (y : Steady q h₂ h₃) :
    Steady q h₁ h₃ :=
  ⟨y.present, y.chained.trans x.chained, Nat.le_trans y.stacked x.stacked⟩

theorem steady_prepared (present : (h.slot? q).isSome)
    (unchained : ∀ u, op = .chain q u → q ∉ h.blanks) : Steady q h (h.prepared op) := by
  have still : ∀ {g : Hub}, g.pools = h.pools → Steady q h g := Steady.ofPools present
  cases op with
  | newPool name capacity factory =>
    simp only [prepared, settling, apply, newPool, bind, Except.bind]
    cases Pool.new name capacity factory with
    | error failure => exact still rfl
    | ok p =>
      have other : q.pool ≠ h.pools.next := by
        intro here
        obtain ⟨s, hs⟩ := Option.isSome_iff_exists.1 present
        obtain ⟨p', hp', -⟩ := slot?_eq_some.1 hs
        rw [here, Table.get?_of_le (Nat.le_refl _)] at hp'
        simp at hp'
      have slot : { h with pools := (h.pools.insert p).2 }.slot? q = h.slot? q := by
        simp only [slot?, Table.get?_insert, if_neg other]
      refine ⟨slot ▸ present, congrArg (Option.bind · _) slot, Nat.le_of_eq ?_⟩
      change ((((h.pools.insert p).2).get? q.pool).map _).getD 0 = _
      rw [Table.get?_insert, if_neg other]
      rfl
  | acquire pool =>
    simp only [prepared, settling, apply]
    split
    · exact still rfl
    · rename_i blank h' taken
      have slot := slot?_acquire taken q
      refine ⟨slot ▸ present, congrArg (Option.bind · _) slot, ?_⟩
      obtain ⟨p, free, hp, hfree, rfl, rfl⟩ := acquire?_eq_some taken
      have popped := stackedAt_pop (q := { p with free, acquires := p.acquires + 1 }) hp hfree q
      change (h.modifyPool blank.pool fun _ => _).stackedAt q ≤ _
      omega
  | write blank payload =>
    simp only [prepared, settling, apply, write]
    split
    · exact .modifySlot present fun _ _ => rfl
    · exact still rfl
  | chain blank upstream =>
    simp only [prepared, settling]
    split
    · rename_i both
      have taken : Steady q h (h.letGo upstream) := still rfl
      have chains : Steady q (h.letGo upstream) ((h.letGo upstream).modifySlot blank
          ({ · with chained := some { upstream with erased := true } })) := by
        refine .modifySlot taken.present ?_
        rintro rfl
        exact absurd both.1 (unchained upstream rfl)
      exact taken.trans chains
    · exact still rfl
  | publish p blank =>
    simp only [prepared, settling]
    rcases publish_cases h p blank with ⟨unowned, same⟩ | ⟨owned, -, ⟨nobody, same⟩ | ⟨somebody, same⟩⟩
    · rw [if_neg fun both => unowned both.1, same]
      exact still rfl
    · rw [if_pos ⟨owned, nobody⟩]
      exact still rfl
    · rw [if_neg fun both => somebody both.2, same]
      have spent : Steady q h (h.spend blank) := still rfl
      have counted : Steady q (h.spend blank)
          ((h.spend blank).addCopies blank (h.receivers p).length) :=
        .modifySlot spent.present fun _ _ => rfl
      exact (spent.trans counted).trans
        (.ofPools counted.present (SameStock.pushAll _ blank h.serial (h.receivers p)).pools)
  | dropBlank blank =>
    simp only [prepared, settling]
    split <;> exact still rfl
  | release c =>
    simp only [prepared, settling]
    split <;> exact still rfl
  | erase c =>
    simp only [prepared, settling, apply, erase]
    split <;> exact still rfl
  | arm s mailbox =>
    simp only [prepared, settling, apply]
    split
    · exact still (SameStock.arm h s mailbox).pools
    · exact still rfl
  | wait mailbox =>
    obtain ⟨counters, same⟩ := wait_cases h mailbox
    have pools : (h.apply (.wait mailbox)).pools = h.pools := by rw [same]
    exact still pools
  | pull s => exact still (SameStock.pull h s).pools
  | cancel s => exact still (SameStock.cancel h s).pools
  | takeCell cell => exact still (SameStock.takeCell h cell).pools
  | subscribe p erased => exact still (SameStock.subscribe h p erased).pools
  | dropSubscription s => exact still (SameStock.detach h s).pools
  | dropPublisher p => exact still (SameStock.dropPublisher h p).pools
  | newPublisher | newMailbox | subscribeDetached | dropCell | tally => exact still rfl

/-! ## One operation -/

theorem moves_once (ha : h.Accounted) (op : Operation) (present : (h.slot? q).isSome) :
    Silent q (h.moves op) ∨ RecycledOnce q ((h.prepared op).chainedAt q) (h.moves op) := by
  have idle : Silent q ([] : List Move) := silent_nil q
  cases op with
  | chain blank upstream =>
    simp only [moves, prepared, settling]
    split
    · rename_i both
      refine giveUpAllMoves_once (ha.rechain both.1 both.2) ?_
      rw [slot?_modifySlot]
      change (if q = blank then (h.slot? q).map _ else h.slot? q).isSome
      split <;> simp [present]
    · exact .inl idle
  | publish p blank =>
    simp only [moves, prepared, settling]
    split
    · rename_i both
      obtain ⟨s, hs, zero⟩ := Balanced.blank_slot ha both.1
      exact recycleMovesWith_once _ fun _ => (copiesAt_eq (h := h.spend blank) hs).trans zero
    · exact .inl idle
  | dropBlank blank =>
    simp only [moves, prepared, settling]
    split
    · rename_i owned
      obtain ⟨s, hs, zero⟩ := Balanced.blank_slot ha owned
      exact recycleMovesWith_once _ fun _ => (copiesAt_eq (h := h.takeBlank blank) hs).trans zero
    · exact .inl idle
  | release c =>
    simp only [moves, prepared, settling]
    split
    · rename_i inHand
      exact giveUpAllMoves_once
        ((Kept.perm ha (List.Perm.refl _) (loose_letGo inHand)).congr rfl) present
    · exact .inl idle
  | dropCell cell =>
    simp only [moves, prepared, settling]
    cases hc : h.contents? cell with
    | none => exact .inl idle
    | some c =>
      exact giveUpAllMoves_once ((Kept.perm ha (List.Perm.refl _)
        (loose_erase_cell (contents?_eq_some.1 hc))).congr rfl) present
  | dropSubscription s =>
    simp only [moves, prepared, settling]
    have stock := SameStock.detach h s
    have there : ((h.detach s).slot? q).isSome := by
      rw [slot?, stock.pools]
      exact present
    cases hs : h.subscriptions.get? s with
    | none =>
      have empty : h.queueOf s = [] := by rw [queueOf, hs]; rfl
      rw [empty]
      exact .inl idle
    | some sub =>
      have queue : h.queueOf s = sub.queue := by rw [queueOf, hs]; rfl
      rw [queue]
      exact giveUpAllMoves_once ((Kept.perm ha (List.Perm.refl _) (loose_detach hs)).congr
        stock.pools) there
  | _ => exact .inl idle

theorem stackedAt_apply (op : Operation) (present : (h.slot? q).isSome)
    (unstacked : h.stackedAt q = 0) :
    (h.apply op).stackedAt q = (h.moves op).count (.returned q) := by
  have prepared : ((h.prepared op).slot? q).isSome ∧ (h.prepared op).stackedAt q = 0 := by
    by_cases chains : ∃ blank upstream, op = .chain blank upstream
    · obtain ⟨blank, upstream, rfl⟩ := chains
      simp only [Hub.prepared, settling]
      split
      · rw [slot?_modifySlot, stackedAt_modifySlot]
        change (if q = blank then (h.slot? q).map _ else h.slot? q).isSome ∧ h.stackedAt q = 0
        refine ⟨?_, unstacked⟩
        split <;> simp [present]
      · exact ⟨present, unstacked⟩
    · have steady : Steady q h (h.prepared op) :=
        steady_prepared present fun u same => absurd ⟨q, u, same⟩ chains
      exact ⟨steady.present, Nat.eq_zero_of_le_zero (unstacked ▸ steady.stacked)⟩
  have played := stackedAt_performAll prepared.1 (h.moves op)
  rw [prepared.2, Nat.zero_add] at played
  rw [← played, stackedAt, pools_apply, ← stackedAt]

theorem stackedAt_eq_one_iff (ha : h.Accounted) (present : (h.slot? q).isSome) :
    h.stackedAt q = 1 ↔ q ∉ h.blanks ∧ h.liveAt q = 0 := by
  obtain ⟨state, inState⟩ := ha.inState present
  rw [← List.count_eq_zero]
  cases state <;> simp only [InState] at inState <;> omega

theorem returned_iff (sound : h.Sound) (op : Operation) (present : (h.slot? q).isSome)
    (unstacked : h.stackedAt q = 0) :
    .returned q ∈ h.moves op ↔ q ∉ (h.apply op).blanks ∧ (h.apply op).liveAt q = 0 := by
  have after := stackedAt_apply op present unstacked
  have accounted := (sound.apply op).accounted
  have there : ((h.apply op).slot? q).isSome := by
    obtain ⟨slot, hs⟩ := Option.isSome_iff_exists.1 present
    obtain ⟨old, hold⟩ : ∃ v, h.payload? q = some v := ⟨slot.payload, by rw [payload?, hs]; rfl⟩
    obtain ⟨v, shown⟩ : ∃ v, (h.apply op).payload? q = some v := by
      by_cases written : ∃ payload, op = .write q payload ∧ q ∈ h.blanks
      · obtain ⟨payload, rfl, owned⟩ := written
        exact ⟨payload, payload?_write sound.accounted owned⟩
      · exact ⟨old, hold ▸ payload?_apply present fun payload same owned =>
          written ⟨payload, same, owned⟩⟩
    obtain ⟨slot', hs', -⟩ := Option.map_eq_some_iff.1 shown
    exact hs' ▸ rfl
  have le : (h.apply op).stackedAt q ≤ 1 := (Balanced.standing accounted q).stacked_le_one
  -- no slot is stacked twice, so it went back exactly if it is free afterwards
  rw [← stackedAt_eq_one_iff accounted there, after, ← List.count_pos_iff]
  omega

theorem chainedAt_apply (ha : h.Accounted) (present : (h.slot? q).isSome)
    (unchained : ∀ u, op = .chain q u → q ∉ h.blanks) (unreturned : .returned q ∉ h.moves op) :
    (h.apply op).chainedAt q = h.chainedAt q ∧ ∀ c, .unchained q c ∉ h.moves op := by
  have silent := (moves_once ha op present).resolve_right fun once => unreturned once.returned
  refine ⟨?_, fun c hc => silent _ hc rfl⟩
  have played := chainedAt_performAll (h := h.prepared op) silent
  rw [chainedAt, slot?, pools_apply, ← slot?, ← chainedAt, played,
    (steady_prepared present unchained).chained]

/-! ## What is held through a chain -/

/-- The one slot holds a copy of the other's buffer. -/
def Chains (h : Hub) (r q : SlotRef) : Prop := ∃ c, h.chainedAt r = some c ∧ c.ref = q

/-- The one slot holds the other's buffer, perhaps through buffers in between. -/
def Holds (h : Hub) : SlotRef → SlotRef → Prop := Relation.TransGen h.Chains

theorem Chains.live (chains : h.Chains r q) : ∃ c ∈ h.copies, c.ref = q := by
  obtain ⟨c, hc, rfl⟩ := chains
  exact ⟨c, List.mem_append_right _ (mem_chained.2 ⟨r, hc⟩), rfl⟩

theorem Holds.live (holds : h.Holds r q) : ∃ c ∈ h.copies, c.ref = q := by
  obtain ⟨x, -, chains⟩ := Relation.TransGen.tail'_iff.1 holds
  exact chains.live

theorem published_of_live (ha : h.Accounted) (live : ∃ c ∈ h.copies, c.ref = q) :
    h.InState q .published := by
  obtain ⟨c, hc, rfl⟩ := live
  obtain ⟨state, inState⟩ := ha.inState (copy_present ha hc)
  have pos : 0 < h.liveAt c.ref := List.countP_pos_iff.2 ⟨c, hc, by simp⟩
  cases state with
  | free => simp only [InState] at inState; omega
  | owned => simp only [InState] at inState; omega
  | published => exact inState

theorem Holds.apply (sound : h.Sound) (kept : (h.apply op).chainedAt b = h.chainedAt b)
    (holds : h.Holds b q) :
    (h.apply op).Holds b q ∧ (h.apply op).payload? q = h.payload? q := by
  have shown : ∀ {x}, (∃ c ∈ h.copies, c.ref = x) → (h.apply op).payload? x = h.payload? x := by
    rintro x ⟨c, hc, rfl⟩
    exact payload?_apply (copy_present sound.accounted hc) fun _ _ =>
      copy_unblank sound.accounted hc
  induction holds with
  | single chains =>
    refine ⟨.single ?_, shown chains.live⟩
    obtain ⟨c, hc, ref⟩ := chains
    exact ⟨c, kept.trans hc, ref⟩
  | tail before chains ih =>
    rename_i x q
    refine ⟨ih.1.tail ?_, shown chains.live⟩
    -- The slot in between has copies before and after, so it neither changed nor went back.
    have old : ∃ c ∈ h.copies, c.ref = x := Holds.live before
    have now := published_of_live (sound.apply op).accounted ih.1.live
    have past := published_of_live sound.accounted old
    obtain ⟨d, hd, rfl⟩ := old
    have present := copy_present sound.accounted hd
    have unreturned : .returned d.ref ∉ h.moves op := by
      rw [returned_iff sound op present past.1]
      rintro ⟨-, none⟩
      have some := now.2.2.2
      omega
    obtain ⟨c, hc, ref⟩ := chains
    have same := (chainedAt_apply sound.accounted present
      (fun _ _ => copy_unblank sound.accounted hd) unreturned).1
    exact ⟨c, same.trans hc, ref⟩

/-! ## Chaining -/

theorem moves_chain (ha : h.Accounted) (owned : b ∈ h.blanks) (inHand : c ∈ h.held) :
    ∃ rest, h.moves (.chain b c) = (h.chainedAt b).toList.map .released ++ rest ∧
      Silent b rest ∧ ∀ d, .released d ∉ rest := by
  have both : b ∈ h.blanks ∧ c ∈ h.held := ⟨owned, inHand⟩
  have kept := ha.rechain owned inHand
  obtain ⟨s, hs, zero⟩ := Balanced.blank_slot ha owned
  have uncounted : ((h.letGo c).modifySlot b
      ({ · with chained := some { c with erased := true } })).copiesAt b = 0 := by
    rw [copiesAt, slot?_modifySlot, if_pos rfl]
    change (((h.slot? b).map _).map _).getD 0 = 0
    rw [hs]
    exact zero
  simp only [moves, settling, if_pos both]
  have silent := silent_giveUpAllMoves kept uncounted
  cases hd : h.chainedAt b with
  | none => exact ⟨[], rfl, silent_nil b, fun d => by simp⟩
  | some d =>
    rw [hd] at silent
    -- what follows from the release of the old copy unchains and returns, but releases nothing
    refine ⟨_, rfl, fun m hm => silent m (List.mem_cons_of_mem _ hm), fun e he => ?_⟩
    rcases List.mem_append.1 he with recycling | nothing
    · split at recycling
      · exact unreleased_recycleMovesWith _ _ _ e recycling
      · simp at recycling
    · simp [giveUpAllMoves] at nothing

theorem chainedAt_chain (ha : h.Accounted) (owned : b ∈ h.blanks) (inHand : c ∈ h.held) :
    (h.apply (.chain b c)).chainedAt b = some { c with erased := true } := by
  obtain ⟨rest, same, silent, -⟩ := moves_chain ha owned inHand
  obtain ⟨s, hs, -⟩ := Balanced.blank_slot ha owned
  have untouched : Silent b (h.moves (.chain b c)) := by
    rw [same]
    refine Silent.append (fun m hm => ?_) silent
    obtain ⟨d, -, rfl⟩ := List.mem_map.1 hm
    exact id
  have played := chainedAt_performAll (h := h.prepared (.chain b c)) untouched
  rw [chainedAt, slot?, pools_apply, ← slot?, ← chainedAt, played]
  simp only [prepared, settling, if_pos (And.intro owned inHand)]
  rw [chainedAt, slot?_modifySlot, if_pos rfl]
  change ((h.slot? b).map _).bind _ = _
  rw [hs]
  rfl

/-! ## Runs -/

theorem chainedAt_applyAll_cases
    (old : ∀ op ∈ ops, ∀ name capacity factory, op ≠ .newPool name capacity factory)
    (holds : (h.applyAll ops).chainedAt q = some c) : h.chainedAt q = some c ∨
      ∃ d first, .chain q d ∈ ops ∧ first <+: ops ∧ d ∈ (h.applyAll first).held ∧
        c = { d with erased := true } := by
  induction ops generalizing h with
  | nil => exact .inl holds
  | cons op ops ih =>
    rcases ih (fun op hop => old op (List.mem_cons_of_mem _ hop)) holds with
      held | ⟨d, first, hop, early, inHand, same⟩
    · rcases chainedAt_apply_cases (old op List.mem_cons_self) held with
        before | ⟨d, inHand, rfl, same⟩
      · exact .inl before
      · exact .inr ⟨d, [], List.mem_cons_self, List.nil_prefix, inHand, same⟩
    · exact .inr ⟨d, op :: first, List.mem_cons_of_mem _ hop,
        List.cons_prefix_cons.2 ⟨rfl, early⟩, inHand, same⟩

theorem chained_applyAll (sound : h.Sound) (chained : h.chainedAt b = some c)
    (unstacked : h.stackedAt b = 0) (last : ∀ d, .chain b d ∉ ops)
    (unreturned : .returned b ∉ h.trace ops) :
    (h.applyAll ops).chainedAt b = some c ∧ (h.applyAll ops).stackedAt b = 0 ∧
      (∀ d, .unchained b d ∉ h.trace ops) ∧
      ∀ q, h.Holds b q → (h.applyAll ops).Holds b q ∧ (h.applyAll ops).payload? q = h.payload? q := by
  induction ops generalizing h with
  | nil => exact ⟨chained, unstacked, fun _ hd => by simp [trace] at hd, fun _ holds => ⟨holds, rfl⟩⟩
  | cons op ops ih =>
    rw [trace, List.mem_append, not_or] at unreturned
    obtain ⟨slot, hs, -⟩ := exists_slot_of_chainedAt chained
    have present : (h.slot? b).isSome := hs ▸ rfl
    have other : ∀ u, op = .chain b u → b ∉ h.blanks := fun u same =>
      absurd (same ▸ List.mem_cons_self) (last u)
    obtain ⟨kept, silent⟩ := chainedAt_apply sound.accounted present other unreturned.1
    have stays : (h.apply op).stackedAt b = 0 := by
      rw [stackedAt_apply op present unstacked]
      exact List.count_eq_zero.2 unreturned.1
    obtain ⟨finally_, down, quiet, below⟩ := ih (sound.apply op) (kept.trans chained) stays
      (fun d hd => last d (List.mem_cons_of_mem _ hd)) unreturned.2
    refine ⟨finally_, down, fun d hd => ?_, fun q holds => ?_⟩
    · rcases List.mem_append.1 hd with now | later
      · exact silent d now
      · exact quiet d later
    · obtain ⟨now, shown⟩ := holds.apply sound kept
      obtain ⟨later, shown'⟩ := below q now
      exact ⟨later, shown'.trans shown⟩

/-- A copy is chained to a blank of a reachable hub. The copy that the blank held before is released
there, once. In every run in which the slot is not recycled and nothing else is chained to it, the
slot keeps the copy, and all that it holds through the copy stays published with its payload. The
operation after which no blank owns the slot and no copies of it are left recycles it, once, and
releases the chained copy, once, before that. An acquired blank holds nothing. -/
theorem chained_until_recycled {h₀ h₁ h : Hub} {b : SlotRef} {c : Copy} (ops : List Operation)
    (reached : h₀.Reachable) (owned : b ∈ h₀.blanks) (inHand : c ∈ h₀.held)
    (chained : h₁ = h₀.apply (.chain b c)) (run : h = h₁.applyAll ops)
    (last : ∀ d, .chain b d ∉ ops) (unreturned : .returned b ∉ h₁.trace ops) :
    (∃ rest, h₀.moves (.chain b c) = (h₀.chainedAt b).toList.map .released ++ rest ∧
      Silent b rest ∧ ∀ d, .released d ∉ rest) ∧
    (h.chainedAt b = some { c with erased := true } ∧ ∀ d, .unchained b d ∉ h₁.trace ops) ∧
    (∀ q, h₁.Holds b q →
      h.Holds b q ∧ h.InState q .published ∧ h.payload? q = h₁.payload? q) ∧
    (∀ op, .returned b ∈ h.moves op ↔
      b ∉ (h.apply op).blanks ∧ (h.apply op).liveAt b = 0) ∧
    (∀ op, .returned b ∈ h.moves op → ∃ x y z,
      h.moves op = x ++ [.unchained b { c with erased := true }] ++ y ++ .returned b :: z ∧
        Silent b x ∧ Silent b y ∧ Silent b z) ∧
    (∀ pool r h', h.acquire? pool = some (r, h') → h'.chainedAt r = none) ∧
    ∀ op, (h.apply op).pools = ((h.prepared op).performAll (h.moves op)).pools := by
  have sound₀ := reached.sound
  have sound₁ : h₁.Sound := chained ▸ sound₀.apply _
  have sound : h.Sound := run ▸ sound₁.applyAll ops
  have replaced := moves_chain sound₀.accounted owned inHand
  have first : h₁.chainedAt b = some { c with erased := true } :=
    chained ▸ chainedAt_chain sound₀.accounted owned inHand
  have unstacked₁ : h₁.stackedAt b = 0 := by
    obtain ⟨s, hs, -⟩ := Balanced.blank_slot sound₀.accounted owned
    have standing := Balanced.standing sound₀.accounted b
    obtain ⟨down, -⟩ := standing.of_blank (List.count_pos_iff.2 owned)
    obtain ⟨rest, same, silent, -⟩ := replaced
    rw [chained, stackedAt_apply _ (hs ▸ rfl) down, same, List.count_eq_zero]
    intro hm
    rcases List.mem_append.1 hm with hm | hm
    · simp at hm
    · exact silent.unreturned hm
  obtain ⟨now, unstacked, quiet, below⟩ := chained_applyAll sound₁ first unstacked₁ last unreturned
  rw [← run] at now unstacked below
  obtain ⟨slot, hs, -⟩ := exists_slot_of_chainedAt now
  have present : (h.slot? b).isSome := hs ▸ rfl
  refine ⟨replaced, ⟨now, quiet⟩, fun q holds => ?_,
    fun op => returned_iff sound op present unstacked, fun op returned => ?_,
    fun pool r h' taken => (Balanced.acquire sound.accounted taken).2, pools_apply h⟩
  · obtain ⟨still, shown⟩ := below q holds
    exact ⟨still, published_of_live sound.accounted still.live, shown⟩
  · have once := (moves_once sound.accounted op present).resolve_left fun silent =>
      silent.unreturned returned
    -- chaining to the blank again would not have put its slot back
    have unchained : ∀ u, op = .chain b u → b ∉ h.blanks := by
      rintro u rfl again
      by_cases inHand' : u ∈ h.held
      · obtain ⟨rest, same, silent, -⟩ := moves_chain sound.accounted again inHand'
        rw [same] at returned
        rcases List.mem_append.1 returned with hm | hm
        · simp at hm
        · exact silent.unreturned hm
      · simp [moves, settling, inHand'] at returned
    rw [(steady_prepared present unchained).chained, now] at once
    exact once

/-- A mark is chained to a frame, and the camera is torn down. The frame stays published until the
mark is released, which releases the frame first. -/
theorem chained_until_recycled_derived : ∃ h₀ h₁ h : Hub,
    h₀ = ({} : Hub).applyAll [.newPool "frames" 1 Payload.Shape.signal.factory,
      .newPublisher "camera" 0, .newPool "marks" 1 Payload.Shape.signal.factory,
      .newPublisher "marker" 1, .subscribe 0 false, .subscribe 1 false, .acquire 0,
      .publish 0 ⟨0, 0⟩, .pull 0, .acquire 1] ∧
    (⟨1, 0⟩ : SlotRef) ∈ h₀.blanks ∧ (⟨⟨0, 0⟩, 0, false⟩ : Copy) ∈ h₀.held ∧
    h₁ = h₀.apply (.chain ⟨1, 0⟩ ⟨⟨0, 0⟩, 0, false⟩) ∧
    h = h₁.applyAll [.publish 1 ⟨1, 0⟩, .pull 1, .dropPublisher 0] ∧
    h.InState ⟨0, 0⟩ .published ∧
    ∃ x y z, h.moves (.release ⟨⟨1, 0⟩, 1, false⟩) =
      x ++ [.unchained ⟨1, 0⟩ ⟨⟨0, 0⟩, 0, true⟩] ++ y ++ .returned ⟨1, 0⟩ :: z := by
  obtain ⟨-, -, below, -, once, -⟩ := chained_until_recycled (b := ⟨1, 0⟩)
    (c := ⟨⟨0, 0⟩, 0, false⟩) [.publish 1 ⟨1, 0⟩, .pull 1, .dropPublisher 0]
    ⟨[.newPool "frames" 1 Payload.Shape.signal.factory, .newPublisher "camera" 0,
      .newPool "marks" 1 Payload.Shape.signal.factory, .newPublisher "marker" 1,
      .subscribe 0 false, .subscribe 1 false, .acquire 0, .publish 0 ⟨0, 0⟩, .pull 0, .acquire 1],
      rfl⟩
    (by decide +kernel) (by decide +kernel) rfl rfl (fun d => by simp) (by decide +kernel)
  obtain ⟨x, y, z, same, -⟩ := once (.release ⟨⟨1, 0⟩, 1, false⟩) (by decide +kernel)
  refine ⟨_, _, _, rfl, by decide +kernel, by decide +kernel, rfl, rfl, ?_, x, y, z, same⟩
  exact (below ⟨0, 0⟩ (.single ⟨⟨⟨0, 0⟩, 0, true⟩, by decide +kernel, rfl⟩)).2.1

end BufferFlow.Hub
