import BufferFlow.Registry
import Mathlib.Algebra.GroupWithZero.Nat
import Mathlib.Data.List.Sort
import Mathlib.Data.String.Basic

set_option autoImplicit false

namespace BufferFlow.Registry

/-! ## Lists that keep the first value of a key -/

section Keeping

variable {κ β : Type} [BEq κ] [LawfulBEq κ] {entries added : List (κ × β)} {k : κ} {b : β}

/-- The list with one entry more, if there is none under its key. -/
def keep (entries : List (κ × β)) (e : κ × β) : List (κ × β) :=
  if (entries.lookup e.1).isSome then entries else entries ++ [e]

theorem lookup_keep (entries : List (κ × β)) (e : κ × β) (k : κ) :
    (keep entries e).lookup k = (entries.lookup k).or ([e].lookup k) := by
  rw [keep]
  split
  · rename_i taken
    by_cases same : k = e.1
    · obtain ⟨b, found⟩ := Option.isSome_iff_exists.1 taken
      rw [same, found, Option.some_or]
    · have other : [e].lookup k = none := by
        rw [List.lookup_cons, beq_false_of_ne same, List.lookup_nil]
      rw [other, Option.or_none]
  · exact List.lookup_append

theorem lookup_keepAll (entries added : List (κ × β)) (k : κ) :
    (added.foldl keep entries).lookup k = (entries.lookup k).or (added.lookup k) := by
  induction added generalizing entries with
  | nil => exact Option.or_none.symm
  | cons e added ih =>
    have first : ([e] ++ added).lookup k = ([e].lookup k).or (added.lookup k) := List.lookup_append
    rw [List.singleton_append] at first
    rw [List.foldl_cons, ih, lookup_keep, first, Option.or_assoc]

theorem mem_keys : k ∈ entries.map Prod.fst ↔ (entries.lookup k).isSome := by
  rw [List.lookup_isSome_iff, List.mem_map]
  simp only [beq_iff_eq, eq_comm (a := k)]

theorem nodup_keepAll (once : (entries.map Prod.fst).Nodup) :
    ((added.foldl keep entries).map Prod.fst).Nodup := by
  induction added generalizing entries with
  | nil => exact once
  | cons e added ih =>
    refine ih ?_
    rw [keep]
    split
    · exact once
    · rename_i absent
      rw [List.map_append]
      refine once.append (List.nodup_singleton _) (List.disjoint_singleton.2 fun present => ?_)
      exact absent (mem_keys.1 present)

theorem lookup_eq_some_of_nodup (once : (entries.map Prod.fst).Nodup) :
    entries.lookup k = some b ↔ (k, b) ∈ entries := by
  rw [List.lookup_eq_some_iff]
  constructor
  · rintro ⟨before, later, rfl, -⟩
    simp
  · intro present
    obtain ⟨before, later, rfl⟩ := List.append_of_mem present
    refine ⟨before, later, rfl, fun e earlier => bne_iff_ne.2 ?_⟩
    rw [List.map_append] at once
    exact fun same => List.disjoint_of_nodup_append once (List.mem_map_of_mem earlier)
      (same ▸ List.mem_cons_self)

theorem lookup_filterMap_eq_some {γ : Type} {binding? : γ → Option (κ × β)} {call : β → γ}
    (enters : ∀ c b, binding? c = some (k, b) ↔ c = call b) {cs : List γ} :
    (cs.filterMap binding?).lookup k = some b ↔
      ∃ before later, cs = before ++ call b :: later ∧ ∀ b', call b' ∉ before := by
  rw [List.lookup_eq_some_iff]
  constructor
  · rintro ⟨entered, rest, all, others⟩
    obtain ⟨old, new, rfl, rfl, found⟩ := List.filterMap_eq_append_iff.1 all
    obtain ⟨idle, c, later, rfl, silent, entry, rfl⟩ := List.filterMap_eq_cons_iff.1 found
    obtain rfl := (enters c b).1 entry
    refine ⟨old ++ idle, later, (List.append_assoc old idle _).symm, fun b' earlier => ?_⟩
    have entry' := (enters _ b').2 rfl
    rcases List.mem_append.1 earlier with earlier | earlier
    · simpa using others (k, b') (List.mem_filterMap.2 ⟨_, earlier, entry'⟩)
    · cases (silent _ earlier).symm.trans entry'
  · rintro ⟨before, later, rfl, none⟩
    refine ⟨before.filterMap binding?, later.filterMap binding?, ?_,
      fun e earlier => bne_iff_ne.2 ?_⟩
    · rw [List.filterMap_append, List.filterMap_cons_some ((enters _ b).2 rfl)]
    · obtain ⟨c, mem, entry⟩ := List.mem_filterMap.1 earlier
      rintro rfl
      exact none e.2 ((enters c e.2).1 entry ▸ mem)

theorem lookup_filterMap_eq_none {γ : Type} {binding? : γ → Option (κ × β)} {call : β → γ}
    (enters : ∀ c b, binding? c = some (k, b) ↔ c = call b) {cs : List γ} :
    (cs.filterMap binding?).lookup k = none ↔ ∀ b, call b ∉ cs := by
  rw [List.lookup_eq_none_iff]
  constructor
  · intro others b mem
    simpa using others (k, b) (List.mem_filterMap.2 ⟨_, mem, (enters _ b).2 rfl⟩)
  · intro none e entered
    obtain ⟨c, mem, entry⟩ := List.mem_filterMap.1 entered
    refine bne_iff_ne.2 ?_
    rintro rfl
    exact none e.2 ((enters c e.2).1 entry ▸ mem)

theorem lookup_perm {others : List (κ × β)} (once : (entries.map Prod.fst).Nodup)
    (same : others.Perm entries) (k : κ) : others.lookup k = entries.lookup k := by
  have once' : (others.map Prod.fst).Nodup := (same.map Prod.fst).nodup_iff.2 once
  refine Option.ext fun b => ?_
  rw [lookup_eq_some_of_nodup once, lookup_eq_some_of_nodup once', same.mem_iff]

end Keeping

/-! ## Histories -/

inductive Call (π ι : Type)
  | register (typeName : String) (device : Device) (producer : π)
  | registerInstantiator (typeName : String) (instantiator : ι)
  | producer (typeName : String) (device : Device)
  | require (typeName : String) (device : Device)
  | instantiator (typeName : String)
  | types (device : Device)
  | size

inductive Answer (π ι : Type)
  | registered (outcome : Except Error Unit)
  | producer (found : Option π)
  | required (found : Except Error π)
  | instantiator (found : Option ι)
  | types (names : List String)
  | size (count : Nat)

namespace Call

variable {π ι : Type}

def ofInstantiators : Call π ι → Bool
  | .registerInstantiator _ _ | .instantiator _ => true
  | _ => false

def producer? : Call π ι → Option ((String × Device) × π)
  | .register typeName device p => some ((typeName, device), p)
  | _ => none

def instantiator? : Call π ι → Option (String × ι)
  | .registerInstantiator typeName i => some (typeName, i)
  | _ => none

/-- What the call registers something under; instantiators have no device. -/
def key? : Call π ι → Option (String × Option Device)
  | .register typeName device _ => some (typeName, some device)
  | .registerInstantiator typeName _ => some (typeName, none)
  | _ => none

theorem producer?_eq_some {c : Call π ι} {typeName : String} {device : Device} {p : π} :
    c.producer? = some ((typeName, device), p) ↔ c = .register typeName device p := by
  cases c <;> simp [producer?, and_assoc]

theorem instantiator?_eq_some {c : Call π ι} {typeName : String} {i : ι} :
    c.instantiator? = some (typeName, i) ↔ c = .registerInstantiator typeName i := by
  cases c <;> simp [instantiator?]

end Call

variable {π ι : Type} {r r' : Registry π ι} {c : Call π ι} {calls calls' : List (Call π ι)}
  {product typeName : String} {device : Device}

def answer (r : Registry π ι) : Call π ι → Answer π ι
  | .register typeName device p => .registered ((r.register typeName device p).map fun _ => ())
  | .registerInstantiator typeName i =>
    .registered ((r.registerInstantiator typeName i).map fun _ => ())
  | .producer typeName device => .producer (r.producer? typeName device)
  | .require typeName device => .required (r.require typeName device)
  | .instantiator typeName => .instantiator (r.instantiator? typeName)
  | .types device => .types (r.types device)
  | .size => .size r.size

def perform (r : Registry π ι) : Call π ι → Registry π ι
  | .register typeName device p =>
    match r.register typeName device p with
    | .ok r' => r'
    | .error _ => r
  | .registerInstantiator typeName i =>
    match r.registerInstantiator typeName i with
    | .ok r' => r'
    | .error _ => r
  | _ => r

def after (product : String) (calls : List (Call π ι)) : Registry π ι :=
  calls.foldl perform { product }

theorem perform_eq (r : Registry π ι) (c : Call π ι) : r.perform c =
    { r with
      producers := c.producer?.toList.foldl keep r.producers
      instantiators := c.instantiator?.toList.foldl keep r.instantiators } := by
  cases c with
  | register typeName device p =>
    cases taken : (r.producers.lookup (typeName, device)).isSome <;>
      simp [perform, register, Registry.producer?, Call.producer?, Call.instantiator?, keep, taken]
  | registerInstantiator typeName i =>
    cases taken : (r.instantiators.lookup typeName).isSome <;>
      simp [perform, registerInstantiator, Registry.instantiator?, Call.producer?,
        Call.instantiator?, keep, taken]
  | _ => rfl

theorem after_eq (product : String) (calls : List (Call π ι)) : after product calls =
    { product
      producers := (calls.filterMap Call.producer?).foldl keep []
      instantiators := (calls.filterMap Call.instantiator?).foldl keep [] } := by
  have along : ∀ r : Registry π ι, calls.foldl perform r =
      { r with
        producers := (calls.filterMap Call.producer?).foldl keep r.producers
        instantiators := (calls.filterMap Call.instantiator?).foldl keep r.instantiators } := by
    induction calls with
    | nil => exact fun r => rfl
    | cons c calls ih =>
      intro r
      rw [List.foldl_cons, ih, perform_eq]
      cases c <;> rfl
  exact along { product }

theorem after_producer? (product : String) (calls : List (Call π ι)) (typeName : String)
    (device : Device) : (after product calls).producer? typeName device =
      (calls.filterMap Call.producer?).lookup (typeName, device) := by
  rw [after_eq]
  exact lookup_keepAll [] _ _

theorem after_instantiator? (product : String) (calls : List (Call π ι)) (typeName : String) :
    (after product calls).instantiator? typeName =
      (calls.filterMap Call.instantiator?).lookup typeName := by
  rw [after_eq]
  exact lookup_keepAll [] _ _

theorem after_product (product : String) (calls : List (Call π ι)) :
    (after product calls).product = product := by
  rw [after_eq]

theorem after_producers_once (product : String) (calls : List (Call π ι)) :
    ((after product calls).producers.map Prod.fst).Nodup := by
  rw [after_eq]
  exact nodup_keepAll List.nodup_nil

/-! ## One key -/

section Key

variable {β : Type} {call : β → Call π ι} {duplicate : Error} {look : Registry π ι → Option β}
  {register : Registry π ι → β → Except Error (Registry π ι)}

/-- One of the calls for the key was accepted when it was made. -/
def Accepted (product : String) (calls : List (Call π ι)) (call : β → Call π ι)
    (register : Registry π ι → β → Except Error (Registry π ι)) : Prop :=
  ∃ before b later r, calls = before ++ call b :: later ∧ register (after product before) b = .ok r

/-- What is registered under a key, and found there, after the calls. -/
structure FirstWins (product : String) (calls : List (Call π ι)) (call : β → Call π ι)
    (register : Registry π ι → β → Except Error (Registry π ι)) (duplicate : Error)
    (look : Registry π ι → Option β) : Prop where
  accepts : ∀ b, (∃ r, register (after product calls) b = .ok r) ↔
    ¬ Accepted product calls call register
  refuses : Accepted product calls call register → ∀ b,
    register (after product calls) b = .error duplicate ∧
      (after product calls).perform (call b) = after product calls
  finds : ∀ b, look (after product calls) = some b ↔
    ∃ before later, calls = before ++ call b :: later ∧ ∀ b', call b' ∉ before
  misses : look (after product calls) = none ↔ ∀ b, call b ∉ calls

theorem FirstWins.of_lookup {κ : Type} [BEq κ] [LawfulBEq κ]
    {binding? : Call π ι → Option (κ × β)} {k : κ}
    (enters : ∀ c b, binding? c = some (k, b) ↔ c = call b)
    (finds : ∀ calls, look (after product calls) = (calls.filterMap binding?).lookup k)
    (accepts : ∀ calls b, look (after product calls) = none →
      ∃ r, register (after product calls) b = .ok r)
    (refuses : ∀ calls b, (look (after product calls)).isSome →
      register (after product calls) b = .error duplicate ∧
        (after product calls).perform (call b) = after product calls)
    (calls : List (Call π ι)) : FirstWins product calls call register duplicate look := by
  have missing : ∀ calls, look (after product calls) = none ↔ ∀ b, call b ∉ calls := by
    intro calls
    rw [finds, lookup_filterMap_eq_none enters]
  have found : ∀ b, look (after product calls) = some b ↔
      ∃ before later, calls = before ++ call b :: later ∧ ∀ b', call b' ∉ before := fun b => by
    rw [finds, lookup_filterMap_eq_some enters]
  have taken : Accepted product calls call register ↔ (look (after product calls)).isSome := by
    constructor
    · rintro ⟨before, b, later, r, rfl, -⟩
      refine Option.isSome_iff_ne_none.2 fun none => ?_
      exact (missing _).1 none b (List.mem_append_right _ List.mem_cons_self)
    · intro some
      obtain ⟨b, some⟩ := Option.isSome_iff_exists.1 some
      obtain ⟨before, later, same, first⟩ := (found b).1 some
      obtain ⟨r, accepted⟩ := accepts before b ((missing before).2 first)
      exact ⟨before, b, later, r, same, accepted⟩
  refine ⟨fun b => ⟨?_, fun free => ?_⟩, fun used b => refuses calls b (taken.1 used), found,
    missing calls⟩
  · rintro ⟨r, accepted⟩ used
    cases (refuses calls b (taken.1 used)).1.symm.trans accepted
  · refine accepts calls b (Option.not_isSome_iff_eq_none.1 fun some => free (taken.2 some))

end Key

theorem producers_first_win (product : String) (calls : List (Call π ι)) (typeName : String)
    (device : Device) : FirstWins product calls (.register typeName device)
      (fun r p => r.register typeName device p) (.duplicateProducer product typeName device)
      (fun r => r.producer? typeName device) := by
  refine .of_lookup (fun c p => Call.producer?_eq_some)
    (fun calls => after_producer? product calls typeName device) (fun calls p free => ?_)
    (fun calls p taken => ?_) calls
  · rw [register, free]
    exact ⟨_, rfl⟩
  · have refused : (after product calls).register typeName device p =
        .error (.duplicateProducer product typeName device) := by
      rw [register, if_pos taken, after_product]
    exact ⟨refused, by rw [perform, refused]⟩

theorem instantiators_first_win (product : String) (calls : List (Call π ι)) (typeName : String) :
    FirstWins product calls (.registerInstantiator typeName)
      (fun r i => r.registerInstantiator typeName i) (.duplicateInstantiator product typeName)
      (fun r => r.instantiator? typeName) := by
  refine .of_lookup (fun c i => Call.instantiator?_eq_some)
    (fun calls => after_instantiator? product calls typeName) (fun calls i free => ?_)
    (fun calls i taken => ?_) calls
  · rw [registerInstantiator, free]
    exact ⟨_, rfl⟩
  · have refused : (after product calls).registerInstantiator typeName i =
        .error (.duplicateInstantiator product typeName) := by
      rw [registerInstantiator, if_pos taken, after_product]
    exact ⟨refused, by rw [perform, refused]⟩

theorem require_eq_ok {p : π} :
    r.require typeName device = .ok p ↔ r.producer? typeName device = some p := by
  rw [require]
  cases r.producer? typeName device <;> simp

theorem require_eq_error {error : Error} : r.require typeName device = .error error ↔
    r.producer? typeName device = none ∧ error = .missingProducer r.product typeName device := by
  rw [require]
  cases r.producer? typeName device <;> simp [eq_comm]

/-! ## The names of a device -/

theorem mem_types : typeName ∈ r.types device ↔ (r.producer? typeName device).isSome := by
  rw [types, List.mem_mergeSort, Registry.producer?, ← mem_keys, List.mem_map, List.mem_map]
  constructor
  · rintro ⟨e, mem, rfl⟩
    obtain ⟨mem, here⟩ := List.mem_filter.1 mem
    exact ⟨e, mem, Prod.ext rfl (beq_iff_eq.1 here)⟩
  · rintro ⟨e, mem, same⟩
    obtain ⟨rfl, rfl⟩ := Prod.mk.inj same
    exact ⟨e, List.mem_filter.2 ⟨mem, beq_self_eq_true _⟩, rfl⟩

theorem types_increasing (once : (r.producers.map Prod.fst).Nodup) (device : Device) :
    (r.types device).Pairwise (· < ·) := by
  have names : ((r.producers.filter (·.1.2 == device)).map (·.1.1)).Nodup := by
    refine List.pairwise_map.2 (((List.pairwise_map.1 once).filter _).imp_of_mem ?_)
    intro e e' mem mem' apart same
    have device := beq_iff_eq.1 (List.mem_filter.1 mem).2
    have device' := beq_iff_eq.1 (List.mem_filter.1 mem').2
    exact apart (Prod.ext same (device.trans device'.symm))
  have total : ∀ a b : String, (decide (a ≤ b) || decide (b ≤ a)) = true := fun a b => by
    simpa using le_total a b
  have chained : ∀ a b c : String, decide (a ≤ b) = true → decide (b ≤ c) = true →
      decide (a ≤ c) = true := fun a b c ab bc =>
    decide_eq_true (le_trans (of_decide_eq_true ab) (of_decide_eq_true bc))
  have sorted : (r.types device).Pairwise (· ≤ ·) :=
    (List.pairwise_mergeSort chained total _).imp of_decide_eq_true
  have apart : (r.types device).Nodup := (List.mergeSort_perm _ _).nodup_iff.2 names
  exact (sorted.and apart).imp fun both => lt_of_le_of_ne both.1 both.2

theorem size_eq (r : Registry π ι) :
    r.size = (Device.all.map fun device => (r.types device).length).sum := by
  have counted : ∀ entries : List ((String × Device) × π), entries.length =
      (Device.all.map fun device => (entries.filter (·.1.2 == device)).length).sum := by
    intro entries
    induction entries with
    | nil => rfl
    | cons e entries ih =>
      obtain ⟨⟨name, device⟩, p⟩ := e
      cases device <;> simp [Device.all] at ih ⊢ <;> omega
  simp only [types, List.length_mergeSort, List.length_map]
  exact counted r.producers

/-! ## Registries that answer alike -/

theorem answer_congr_producers (product : r.product = r'.product)
    (same : ∀ typeName device, r.producer? typeName device = r'.producer? typeName device)
    (once : (r.producers.map Prod.fst).Nodup) (once' : (r'.producers.map Prod.fst).Nodup)
    (half : c.ofInstantiators = false) : r.answer c = r'.answer c := by
  have names : ∀ device, r.types device = r'.types device := fun device => by
    refine (types_increasing once device).eq_of_mem_iff (types_increasing once' device) fun name => ?_
    rw [mem_types, mem_types, same]
  cases c with
  | register typeName device p =>
    simp only [answer, register, same, product]
    split <;> rfl
  | producer typeName device => simp only [answer, same]
  | require typeName device => simp only [answer, require, same, product]
  | types device => simp only [answer, names]
  | size => simp only [answer, size_eq, names]
  | registerInstantiator | instantiator => cases half

theorem answer_congr_instantiators (product : r.product = r'.product)
    (same : ∀ typeName, r.instantiator? typeName = r'.instantiator? typeName)
    (half : c.ofInstantiators = true) : r.answer c = r'.answer c := by
  cases c with
  | registerInstantiator typeName i =>
    simp only [answer, registerInstantiator, same, product]
    split <;> rfl
  | instantiator typeName => simp only [answer, same]
  | register | producer | require | types | size => cases half

theorem answer_congr (product : String)
    (producers : c.ofInstantiators = false → ∀ k,
      (calls.filterMap Call.producer?).lookup k = (calls'.filterMap Call.producer?).lookup k)
    (instantiators : c.ofInstantiators = true → ∀ k,
      (calls.filterMap Call.instantiator?).lookup k = (calls'.filterMap Call.instantiator?).lookup k) :
    (after product calls).answer c = (after product calls').answer c := by
  have product : (after product calls).product = (after product calls').product := by
    rw [after_product, after_product]
  cases half : c.ofInstantiators with
  | false =>
    refine answer_congr_producers product (fun typeName device => ?_) (after_producers_once _ _)
      (after_producers_once _ _) half
    rw [after_producer?, after_producer?, producers half]
  | true =>
    refine answer_congr_instantiators product (fun typeName => ?_) half
    rw [after_instantiator?, after_instantiator?, instantiators half]

theorem answer_apart (product : String) (calls : List (Call π ι)) (c : Call π ι) :
    (after product calls).answer c =
      (after product (calls.filter fun c' => c'.ofInstantiators == c.ofInstantiators)).answer c := by
  refine answer_congr product (fun half k => ?_) fun half k => ?_ <;>
    rw [half, List.filterMap_filter] <;>
    refine congrArg (List.lookup k ·) (List.filterMap_congr fun c' _ => ?_) <;>
    cases c' <;> rfl

theorem halfKeys_nodup {κ β : Type} {binding? : Call π ι → Option (κ × β)}
    {f : κ → String × Option Device} (keyed : ∀ c k b, binding? c = some (k, b) → c.key? = some (f k))
    (once : (calls.filterMap Call.key?).Nodup) :
    ((calls.filterMap binding?).map Prod.fst).Nodup := by
  refine List.pairwise_map.2 (List.pairwise_filterMap.2 ((List.pairwise_filterMap.1 once).imp ?_))
  rintro c c' apart ⟨k, b⟩ entry ⟨k', b'⟩ entry' same
  exact apart _ (keyed c k b entry) _ (keyed c' k' b' entry') (congrArg f same)

theorem producerKeys_nodup (once : (calls.filterMap Call.key?).Nodup) :
    ((calls.filterMap Call.producer?).map Prod.fst).Nodup := by
  refine halfKeys_nodup (f := fun k => (k.1, some k.2)) (fun c k p entry => ?_) once
  obtain rfl := Call.producer?_eq_some.1 entry
  rfl

theorem instantiatorKeys_nodup (once : (calls.filterMap Call.key?).Nodup) :
    ((calls.filterMap Call.instantiator?).map Prod.fst).Nodup := by
  refine halfKeys_nodup (f := fun typeName => (typeName, none)) (fun c typeName i entry => ?_) once
  obtain rfl := Call.instantiator?_eq_some.1 entry
  rfl

theorem answer_perm (once : (calls.filterMap Call.key?).Nodup) (same : calls'.Perm calls)
    (product : String) (c : Call π ι) :
    (after product calls').answer c = (after product calls).answer c :=
  answer_congr product (fun _ => lookup_perm (producerKeys_nodup once) (same.filterMap _))
    fun _ => lookup_perm (instantiatorKeys_nodup once) (same.filterMap _)

/-! ## Two maps -/

/-- For any calls: under each key the first registration is accepted and found, and every later one
is refused by name and changes nothing. The types of a device are those registered for it, sorted
and each once, and the size counts all devices. Producers and instantiators are independent, and so
are registrations under different keys of their order. -/
theorem first_registration_stays (product : String) (calls : List (Call π ι)) :
    (∀ typeName device, FirstWins product calls (.register typeName device)
      (fun r p => r.register typeName device p) (.duplicateProducer product typeName device)
      (fun r => r.producer? typeName device)) ∧
    (∀ typeName, FirstWins product calls (.registerInstantiator typeName)
      (fun r i => r.registerInstantiator typeName i) (.duplicateInstantiator product typeName)
      (fun r => r.instantiator? typeName)) ∧
    (∀ typeName device,
      (∀ p, (after product calls).require typeName device = .ok p ↔
        (after product calls).producer? typeName device = some p) ∧
      ∀ error, (after product calls).require typeName device = .error error ↔
        (after product calls).producer? typeName device = none ∧
          error = .missingProducer product typeName device) ∧
    (∀ device, ((after product calls).types device).Pairwise (· < ·) ∧
      ∀ typeName, typeName ∈ (after product calls).types device ↔
        ∃ p, .register typeName device p ∈ calls) ∧
    (after product calls).size =
      (Device.all.map fun device => ((after product calls).types device).length).sum ∧
    (∀ c, (after product calls).answer c =
      (after product (calls.filter fun c' => c'.ofInstantiators == c.ofInstantiators)).answer c) ∧
    ∀ calls' : List (Call π ι), calls'.Perm calls → (calls.filterMap Call.key?).Nodup →
      ∀ c, (after product calls').answer c = (after product calls).answer c := by
  refine ⟨producers_first_win product calls, instantiators_first_win product calls,
    fun typeName device => ⟨fun p => require_eq_ok, fun error => ?_⟩,
    fun device => ⟨types_increasing (after_producers_once product calls) device, fun typeName => ?_⟩,
    size_eq _, answer_apart product calls, fun calls' same once => answer_perm once same product⟩
  · rw [require_eq_error, after_product]
  · rw [mem_types, Option.isSome_iff_ne_none, ne_eq,
      (producers_first_win product calls typeName device).misses]
    simp

def repeated : List (Call Nat Nat) :=
  [.register "izh" .cpu 1, .register "izh" .cpu 2, .registerInstantiator "izh" 3,
    .register "izh" .cuda 4]

theorem first_registration_stays_repeated :
    (after "neuron" repeated).producer? "izh" .cpu = some 1 ∧
    (after "neuron" repeated).register "izh" .cpu 5 =
      .error (.duplicateProducer "neuron" "izh" .cpu) ∧
    "izh" ∈ (after "neuron" repeated).types .cuda ∧
    (after "neuron" repeated).require "izh" .cl =
      .error (.missingProducer "neuron" "izh" .cl) ∧
    (after "neuron" repeated.tail.reverse).answer (.types .cuda) =
      (after "neuron" repeated.tail).answer (.types .cuda) := by
  obtain ⟨producers, -, required, names, -⟩ := first_registration_stays "neuron" repeated
  obtain ⟨-, -, -, -, -, -, ordered⟩ := first_registration_stays "neuron" repeated.tail
  have first : Accepted "neuron" repeated (.register "izh" .cpu) fun r p => r.register "izh" .cpu p :=
    ⟨[], 1, repeated.tail, _, rfl, rfl⟩
  refine ⟨((producers "izh" .cpu).finds 1).2 ⟨[], repeated.tail, rfl, fun _ => List.not_mem_nil⟩,
    ((producers "izh" .cpu).refuses first 5).1, ((names .cuda).2 "izh").2 ⟨4, ?_⟩,
    ((required "izh" .cl).2 _).2 ⟨(producers "izh" .cl).misses.2 fun p mem => ?_, rfl⟩,
    ordered _ (List.reverse_perm _) (by decide) _⟩
  · simp [repeated]
  · simp [repeated] at mem

end BufferFlow.Registry
