import BufferFlow.Proofs.Hub.Copies
import BufferFlow.Proofs.Pool

set_option autoImplicit false

namespace BufferFlow.Hub

variable {h h' : Hub} {s : Nat} {c : Copy} {r : SlotRef}

/-- The pools account for the blanks and the copies that there are. -/
def Accounted (h : Hub) : Prop := h.Kept h.blanks h.loose

theorem Kept.congr {blanks : List SlotRef} {loose : List Copy} (hk : h.Kept blanks loose)
    (pools : h'.pools = h.pools) : h'.Kept blanks loose := by
  have chained : h'.chained = h.chained := by simp only [chained, allSlots, pools]
  rw [Kept, chained]
  exact Balanced.congr hk pools

theorem Kept.retype {blanks : List SlotRef} {loose loose' : List Copy} (hk : h.Kept blanks loose)
    (pl : (loose.map (·.ref)).Perm (loose'.map (·.ref))) : h.Kept blanks loose' := by
  refine Balanced.retype hk ?_
  rw [List.map_append, List.map_append]
  exact pl.append_right _

theorem Kept.addCopies {blanks : List SlotRef} {loose : List Copy} (hk : h.Kept (r :: blanks) loose)
    (cs : List Copy) (somebody : cs ≠ []) (href : ∀ c ∈ cs, c.ref = r) :
    (h.addCopies r cs.length).Kept blanks (cs ++ loose) := by
  obtain ⟨s, hs, -⟩ := Balanced.blank_slot hk List.mem_cons_self
  have balanced := Balanced.addCopies hk cs somebody href
  rw [Kept, List.append_assoc]
  exact balanced.perm (List.Perm.refl _) (List.Perm.append_left _
    (List.Perm.append_left _ (chained_modifySlot hs rfl).symm))

theorem Kept.push {blanks : List SlotRef} {loose : List Copy} {sub : Subscription}
    (hk : h.Kept blanks (c :: loose ++ h.loose)) (hs : h.subscriptions.get? s = some sub)
    (serial : Nat) :
    (h.push c.ref serial s).Kept blanks (loose ++ (h.push c.ref serial s).loose) := by
  refine (hk.retype ?_).congr (SameStock.push h c.ref serial s).pools
  have pushed := ((loose_push hs c.ref serial).map (·.ref)).symm
  rw [List.cons_append, List.map_cons, List.map_append, List.map_append]
  exact (List.perm_middle.symm).trans (pushed.append_left _)

theorem chained_newPool {capacity : Nat} {factory : Payload.Factory} {p : Pool}
    (new : p.Untouched capacity factory) :
    { h with pools := (h.pools.insert p).2 }.chained = h.chained := by
  have none_chained : p.slots.toList.filterMap (·.chained) = [] :=
    List.filterMap_eq_nil_iff.2 fun s hs => (new.fresh s (Array.mem_toList_iff.1 hs)).unchained
  simp only [chained, allSlots, Table.values_insert, List.flatMap_cons, List.filterMap_append,
    none_chained, List.nil_append]

theorem slot?_acquire {pool : Nat} {blank : SlotRef} (taken : h.acquire? pool = some (blank, h'))
    (q : SlotRef) : h'.slot? q = h.slot? q := by
  obtain ⟨p, free, hp, hfree, rfl, rfl⟩ := acquire?_eq_some taken
  refine slot?_modifyPool (fun p' hp' => ?_) q
  obtain rfl : p = p' := by simpa [hp] using hp'
  rfl

namespace Accounted

theorem moved (ha : h.Accounted) (same : SameStock h h') (loose : h'.loose.Perm h.loose) :
    h'.Accounted := by
  rw [Accounted, same.blanks]
  exact (Kept.perm ha (List.Perm.refl _) loose.symm).congr same.pools

theorem giveUp (hk : h.Kept h.blanks (c :: h.loose)) : (h.giveUp c).Accounted := by
  have same := SamePeers.giveUp h c
  rw [Accounted, same.blanks, same.loose]
  exact hk.giveUp

theorem giveUpAll {cs : List Copy} (hk : h.Kept h.blanks (cs ++ h.loose)) :
    (h.giveUpAll cs).Accounted := by
  have same := SamePeers.giveUpAll h cs
  rw [Accounted, same.blanks, same.loose]
  exact hk.giveUpAll

theorem recycle (hk : h.Kept (r :: h.blanks) h.loose) : (h.recycle r).Accounted := by
  have same := SamePeers.recycle h r
  rw [Accounted, same.blanks, same.loose]
  exact hk.recycle

theorem empty : ({} : Hub).Accounted :=
  ⟨fun _ => .absent, fun _ _ hp => by simp at hp⟩

theorem newPool (ha : h.Accounted) {capacity : Nat} {factory : Payload.Factory} {p : Pool}
    (new : p.Untouched capacity factory) :
    { h with pools := (h.pools.insert p).2 }.Accounted := by
  rw [Accounted, Kept, chained_newPool new]
  refine ⟨fun q => ?_, fun id q hq => ?_⟩
  · change Standing _ _ (h.blanks.count q) ((h.loose ++ h.chained).countP fun c => c.ref = q)
    have before := Balanced.standing ha q
    by_cases hq : q.pool = h.pools.next
    · have absent : h.slot? q = none := by
        rw [slot?, hq, Table.get?_of_le (Nat.le_refl _)]
        rfl
      rw [absent] at before
      obtain ⟨unowned, uncopied⟩ : h.blanks.count q = 0 ∧
          ((h.loose ++ h.chained).countP fun c => c.ref = q) = 0 := before.of_absent
      rw [unowned, uncopied]
      simp only [stackedAt, slot?, hq, Table.get?_insert, ↓reduceIte, Option.map_some,
        Option.getD_some, new.free, Option.bind_eq_bind, Option.bind_some]
      by_cases inside : q.slot < p.slots.size
      · have fresh := new.fresh _ (Array.getElem_mem inside)
        rw [Array.getElem?_eq_getElem inside,
          List.count_eq_one_of_mem List.nodup_range (by simpa [← new.size] using inside)]
        exact .free fresh.uncounted fresh.unchained
      · rw [Array.getElem?_eq_none (Nat.le_of_not_lt inside),
          List.count_eq_zero.2 (by simpa [← new.size] using inside)]
        exact .absent
    · have stacked : { h with pools := (h.pools.insert p).2 }.stackedAt q = h.stackedAt q := by
        simp only [stackedAt, Table.get?_insert, if_neg hq]
      have slot : { h with pools := (h.pools.insert p).2 }.slot? q = h.slot? q := by
        simp only [slot?, Table.get?_insert, if_neg hq]
      rw [stacked, slot]
      exact before
  · rw [Table.get?_insert] at hq
    split at hq
    · obtain rfl := Option.some.inj hq
      refine ⟨new.unmisused, new.size ▸ new.bounded, ?_⟩
      simp [new.acquires, new.recycles, new.free, new.size]
    · exact Balanced.sound ha id q hq

theorem acquire {pool : Nat} {blank : SlotRef} (ha : h.Accounted)
    (taken : h.acquire? pool = some (blank, h')) : h'.Accounted := by
  have balanced := (Balanced.acquire ha taken).1
  obtain ⟨p, free, hp, hfree, rfl, rfl⟩ := acquire?_eq_some taken
  let popped : Pool := { p with free, acquires := p.acquires + 1 }
  have slots : (h.modifyPool blank.pool fun _ => popped).allSlots.Perm h.allSlots := by
    refine allSlots_modifyPool fun q hq => ?_
    obtain rfl : p = q := by simpa [hp] using hq
    rfl
  exact balanced.perm (List.Perm.refl _) (List.Perm.append_left _ (slots.filterMap _).symm)

theorem write (ha : h.Accounted) (blank : SlotRef) (payload : Payload) :
    (h.write blank payload).Accounted := by
  rw [Hub.write]
  split
  · rename_i owned
    obtain ⟨s, hs, -⟩ := Balanced.blank_slot ha owned
    have balanced : (h.modifySlot blank ({ · with payload })).Balanced h.blanks
        (h.loose ++ h.chained) := Balanced.modifyBlank ha owned fun _ => rfl
    refine balanced.perm (List.Perm.refl _) (List.Perm.append_left _ ?_)
    exact (chained_modifySlot (f := ({ · with payload })) hs rfl).symm
  · exact ha

theorem rechain {blank : SlotRef} (ha : h.Accounted) (owned : blank ∈ h.blanks)
    (inHand : c ∈ h.held) :
    ((h.letGo c).modifySlot blank ({ · with chained := some { c with erased := true } })).Kept
      h.blanks ((h.chainedAt blank).toList ++ (h.letGo c).loose) := by
  obtain ⟨s, hs, -⟩ := Balanced.blank_slot ha owned
  have without := loose_letGo inHand
  obtain ⟨rest, before, after⟩ := allSlots_perm (h := h.letGo c) (r := blank) hs
  have old : h.chained.Perm ((h.chainedAt blank).toList ++ rest.filterMap (·.chained)) := by
    have here : h.chainedAt blank = s.chained := chainedAt_eq hs
    refine (before.filterMap (·.chained)).trans ?_
    cases hc : s.chained with
    | none =>
      rw [here, hc, List.filterMap_cons_none hc]
      exact List.Perm.refl _
    | some d =>
      rw [here, hc, List.filterMap_cons_some hc]
      exact List.Perm.refl _
  have new := (after ({ · with chained := some { c with erased := true } })).filterMap (·.chained)
  have balanced : ((h.letGo c).modifySlot blank
      ({ · with chained := some { c with erased := true } })).Balanced h.blanks (h.loose ++ h.chained) :=
    Balanced.modifyBlank (h := h.letGo c) (Balanced.congr ha rfl) owned fun _ => rfl
  refine Balanced.retype balanced (List.perm_iff_count.2 fun q => ?_)
  have counted := ((without.append old).map (·.ref)).count_eq q
  have recounted := (new.map (·.ref)).count_eq q
  simp only [chained, List.map_append, List.map_cons, List.count_append, List.count_cons,
    List.filterMap_cons] at counted recounted ⊢
  omega

theorem chain (ha : h.Accounted) (blank : SlotRef) (upstream : Copy) :
    (h.chain blank upstream).Accounted := by
  simp only [Hub.chain]
  split
  · rename_i both
    have kept := ha.rechain both.1 both.2
    cases hc : h.chainedAt blank with
    | none =>
      rw [hc] at kept
      exact kept
    | some c =>
      rw [hc] at kept
      exact giveUp kept
  · exact ha

theorem spend {blank : SlotRef} (ha : h.Accounted) (owned : blank ∈ h.blanks) :
    (h.spend blank).Kept (blank :: (h.spend blank).blanks) (h.spend blank).loose :=
  (Kept.perm ha (List.perm_cons_erase owned) (List.Perm.refl _)).congr rfl

theorem dropBlank (ha : h.Accounted) (blank : SlotRef) : (h.dropBlank blank).Accounted := by
  rw [Hub.dropBlank]
  split
  · rename_i owned
    have kept : (h.takeBlank blank).Kept (blank :: (h.takeBlank blank).blanks)
        (h.takeBlank blank).loose :=
      (Kept.perm ha (List.perm_cons_erase owned) (List.Perm.refl _)).congr rfl
    exact recycle kept
  · exact ha

theorem pushAll {c : Copy} (serial : Nat) {l : List Nat}
    (present : ∀ s ∈ l, ∃ sub, h.subscriptions.get? s = some sub)
    (hk : h.Kept h.blanks (List.replicate l.length c ++ h.loose)) :
    (h.pushAll c.ref serial l).Accounted := by
  induction l generalizing h with
  | nil => exact hk
  | cons s l ih =>
    obtain ⟨sub, hs⟩ := present s List.mem_cons_self
    have moved := Local.push h c.ref serial s
    have stock := SameStock.push h c.ref serial s
    refine ih (h := h.push c.ref serial s) (fun t ht => ?_) ?_
    · obtain ⟨subt, hsubt⟩ := present t (List.mem_cons_of_mem s ht)
      by_cases heq : t = s
      · have kept := moved.kept
        rw [← heq, hsubt] at kept
        obtain ⟨sub', hsub', -⟩ := Option.map_eq_some_iff.1 kept
        exact ⟨sub', heq ▸ hsub'⟩
      · exact ⟨subt, by rw [moved.others t heq, hsubt]⟩
    · rw [stock.blanks]
      exact hk.push hs serial

theorem publish (ha : h.Accounted) (he : h.Enrolled) (p : Nat) (blank : SlotRef) :
    (h.publish p blank).2.Accounted := by
  rcases publish_cases h p blank with ⟨-, same⟩ | ⟨owned, -, ⟨-, same⟩ | ⟨somebody, same⟩⟩ <;> rw [same]
  · exact ha
  · exact (recycle (ha.spend owned)).moved ⟨rfl, rfl, rfl⟩ (List.Perm.refl _)
  · have present : ∀ s ∈ h.receivers p, ∃ sub, h.subscriptions.get? s = some sub := by
      intro s hs
      obtain ⟨P, hP, hm⟩ : ∃ P, h.publishers.get? p = some P ∧ s ∈ P.receivers := by
        cases hP : h.publishers.get? p with
        | none => simp [receivers, hP] at hs
        | some P => exact ⟨P, rfl, by simpa [receivers, hP] using hs⟩
      obtain ⟨sub, hsub, -⟩ := publisherOf?_eq_some.1 ((he.paired p P hP s).1 hm)
      exact ⟨sub, hsub⟩
    let c : Copy := ⟨blank, h.serial, false⟩
    have counted := (ha.spend owned).addCopies
      (List.replicate (h.receivers p).length c) (by simpa using somebody)
      fun d hd => by rw [List.eq_of_mem_replicate hd]
    rw [List.length_replicate] at counted
    have pushed := pushAll h.serial (l := h.receivers p)
      (h := (h.spend blank).addCopies blank (h.receivers p).length) present counted
    exact pushed.moved ⟨rfl, rfl, rfl⟩ (List.Perm.refl _)

theorem release (ha : h.Accounted) (c : Copy) : (h.release c).Accounted := by
  rw [Hub.release]
  split
  · rename_i inHand
    exact giveUp ((Kept.perm ha (List.Perm.refl _) (loose_letGo inHand)).congr rfl)
  · exact ha

theorem erase (ha : h.Accounted) (c : Copy) : (h.erase c).2.Accounted := by
  simp only [Hub.erase]
  split
  · rename_i inHand
    have retyped : h.Kept h.blanks ({ c with erased := true } :: (h.letGo c).loose) :=
      Kept.retype ha ((loose_letGo inHand).map (·.ref))
    exact retyped.congr rfl
  · exact ha

theorem dropCell (ha : h.Accounted) (cell : Nat) : (h.dropCell cell).Accounted := by
  rcases dropCell_cases h cell with ⟨empty, same⟩ | ⟨c, hc, same⟩ <;> rw [same]
  · exact ha.moved ⟨rfl, rfl, rfl⟩ (loose_erase_empty empty)
  · exact giveUp ((Kept.perm ha (List.Perm.refl _) (loose_erase_cell hc)).congr rfl)

theorem dropSubscription (ha : h.Accounted) (s : Nat) : (h.dropSubscription s).Accounted := by
  rcases dropSubscription_cases h s with ⟨-, same⟩ | ⟨sub, log, hs, same⟩ <;> rw [same]
  · exact ha
  · have stock := SameStock.detach h s
    have kept : { h.detach s with log }.Kept (h.detach s).blanks
        (sub.queue ++ { h.detach s with log }.loose) := by
      rw [stock.blanks]
      exact (Kept.perm ha (List.Perm.refl _) (loose_detach hs)).congr stock.pools
    exact (giveUpAll kept).moved ⟨rfl, rfl, rfl⟩ (List.Perm.refl _)

theorem subscribeDetached (ha : h.Accounted) (erased : Bool) :
    (h.subscribeDetached erased).2.Accounted :=
  ha.moved ⟨rfl, rfl, rfl⟩ (List.Perm.refl _)

theorem subscribe (ha : h.Accounted) (p : Nat) (erased : Bool) :
    (h.subscribe p erased).2.Accounted :=
  ha.moved (.subscribe h p erased) (loose_subscribe h p erased)

theorem wait (ha : h.Accounted) (mailbox : Nat) : (h.apply (.wait mailbox)).Accounted := by
  obtain ⟨counters, same⟩ := wait_cases h mailbox
  rw [same]
  exact ha.moved ⟨rfl, rfl, rfl⟩ (List.Perm.refl _)

theorem apply_quiet (ha : h.Accounted) {op : Operation} (quiet : ∀ p blank, op ≠ .publish p blank) :
    (h.apply op).Accounted := by
  cases op with
  | newPool name capacity factory =>
    simp only [Hub.apply, Hub.newPool, bind, Except.bind]
    cases made : Pool.new name capacity factory with
    | error failure => exact ha
    | ok p => exact (ha.newPool (Pool.new_untouched made)).moved ⟨rfl, rfl, rfl⟩ (List.Perm.refl _)
  | newPublisher | newMailbox => exact ha.moved ⟨rfl, rfl, rfl⟩ (List.Perm.refl _)
  | subscribe publisher erased => exact ha.subscribe publisher erased
  | subscribeDetached erased => exact ha.subscribeDetached erased
  | acquire pool =>
    simp only [Hub.apply]
    split
    · exact ha
    · rename_i taken
      exact ha.acquire taken
  | write blank payload => exact ha.write blank payload
  | chain blank upstream => exact ha.chain blank upstream
  | publish publisher blank => exact absurd rfl (quiet publisher blank)
  | dropBlank blank => exact ha.dropBlank blank
  | pull subscription => exact ha.moved (.pull h subscription) (loose_pull h subscription)
  | arm subscription mailbox =>
    rw [Hub.apply]
    split
    · exact ha.moved (.arm h subscription mailbox) (loose_arm h subscription mailbox)
    · exact ha
  | cancel subscription => exact ha.moved (.cancel h subscription) (loose_cancel h subscription)
  | wait mailbox => exact ha.wait mailbox
  | takeCell cell => exact ha.moved (.takeCell h cell) (loose_takeCell h cell)
  | dropCell cell => exact ha.dropCell cell
  | erase copy => exact ha.erase copy
  | release copy => exact ha.release copy
  | dropSubscription subscription => exact ha.dropSubscription subscription
  | dropPublisher publisher =>
    exact ha.moved (.dropPublisher h publisher) (loose_dropPublisher h publisher)
  | tally counters log => exact ha.moved ⟨rfl, rfl, rfl⟩ (List.Perm.refl _)

theorem apply (ha : h.Accounted) (he : h.Enrolled) (op : Operation) : (h.apply op).Accounted := by
  by_cases publishes : ∃ p blank, op = .publish p blank
  · obtain ⟨p, blank, rfl⟩ := publishes
    exact ha.publish he p blank
  · exact ha.apply_quiet fun p blank same => publishes ⟨p, blank, same⟩

end Accounted

end BufferFlow.Hub
