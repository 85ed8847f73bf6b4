import BufferFlow.Payload.Shape
import BufferFlow.Proofs.Hub.Streams

set_option autoImplicit false

namespace BufferFlow.Hub

variable {h : Hub} {r : SlotRef} {v : Payload}

/-- What the operation writes to the slot. Nobody writes without the blank that owns it. -/
def write? (h : Hub) (r : SlotRef) : Operation → Option Payload
  | .write blank payload => if blank = r ∧ blank ∈ h.blanks then some payload else none
  | _ => none

def written (h : Hub) (r : SlotRef) : List Operation → List Payload
  | [] => []
  | op :: ops => (h.write? r op).toList ++ (h.apply op).written r ops

theorem write?_eq_some {op : Operation} :
    h.write? r op = some v ↔ op = .write r v ∧ r ∈ h.blanks := by
  cases op with
  | write blank payload =>
    simp only [write?, Option.ite_none_right_eq_some, Option.some.injEq, Operation.write.injEq]
    constructor
    · rintro ⟨⟨rfl, owned⟩, rfl⟩
      exact ⟨⟨rfl, rfl⟩, owned⟩
    · rintro ⟨⟨rfl, rfl⟩, owned⟩
      exact ⟨⟨rfl, owned⟩, rfl⟩
  | _ => simp [write?]

theorem payload?_apply_write? {op : Operation} (ha : h.Accounted) (shown : h.payload? r = some v) :
    (h.apply op).payload? r = some ((h.write? r op).getD v) := by
  cases hw : h.write? r op with
  | some payload =>
    obtain ⟨rfl, owned⟩ := write?_eq_some.1 hw
    exact payload?_write ha owned
  | none =>
    have present : (h.slot? r).isSome := by
      obtain ⟨slot, hslot, -⟩ := Option.map_eq_some_iff.1 shown
      simp [hslot]
    rw [payload?_apply present, shown]
    · rfl
    · rintro payload rfl owned
      simp [write?, owned] at hw

theorem payload?_written (ops : List Operation) (sound : h.Sound) (shown : h.payload? r = some v) :
    (h.applyAll ops).payload? r = some ((h.written r ops).getLastD v) := by
  induction ops generalizing h v with
  | nil => exact shown
  | cons op ops ih =>
    have next := ih (sound.apply op) (payload?_apply_write? sound.accounted shown)
    rw [applyAll, List.foldl_cons, ← applyAll, next, written]
    cases h.write? r op with
    | none => rfl
    | some payload => exact congrArg some (List.getLastD_cons ..).symm

theorem payload?_acquire {pool : Nat} {blank : SlotRef} {h' : Hub}
    (taken : h.acquire? pool = some (blank, h')) (q : SlotRef) : h'.payload? q = h.payload? q := by
  rw [payload?, slot?_acquire taken, payload?]

/-- After a publication, in every run: each copy of it that is left is of the blank's slot, and
every reading through a copy gives the published payload. A slot that a blank owns has no copies,
and an acquired blank shows what was last written to its slot. -/
theorem published_immutable {h₀ h : Hub} {p : Nat} {blank : SlotRef} {v : Payload}
    (earlier ops : List Operation) (start : h₀ = ({} : Hub).applyAll earlier)
    (alive : h₀.publishers.contains p) (owned : blank ∈ h₀.blanks)
    (shown : h₀.payload? blank = some v) (run : h = h₀.applyAll (.publish p blank :: ops)) :
    (∀ c ∈ h.copies, c.serial = h₀.serial → c.ref = blank ∧ h.payload? c.ref = some v) ∧
    (∀ c ∈ h.held, c.serial = h₀.serial → h.read? c = some v) ∧
    (∀ b ∈ h.blanks, ∀ c ∈ h.copies, c.ref ≠ b) ∧
    ∀ pool b h', h.acquire? pool = some (b, h') →
      ∀ before after w, before ++ after = earlier ++ .publish p blank :: ops →
        (({} : Hub).applyAll before).payload? b = some w →
        h'.payload? b = some (((({} : Hub).applyAll before).written b after).getLastD w) := by
  have sound₀ : h₀.Sound := start ▸ Sound.empty.applyAll earlier
  have published : h₀.publication? (.publish p blank) = some ⟨p, blank, h₀.serial, v⟩ :=
    publication?_eq_some.2 ⟨rfl, owned, alive, rfl, shown⟩
  have faithful := faithful_publication sound₀.numbered sound₀.accounted published
  have lasting := faithful.applyAll (sound₀.apply _) ops
  have sound : h.Sound := run ▸ sound₀.applyAll _
  have same : (h₀.apply (.publish p blank)).applyAll ops = h := run.symm
  rw [same] at lasting
  refine ⟨lasting.shown, fun c hc number => ?_, fun b hb c hc ref => ?_,
    fun pool b h' taken before after w whole there => ?_⟩
  · have held : c ∈ h.copies :=
      List.mem_append_left _ (List.mem_append_left _ (List.mem_append_left _ hc))
    rw [read?, if_pos hc]
    exact (lasting.shown c held number).2
  · exact copy_unblank sound.accounted hc (ref ▸ hb)
  · have reached : h = (({} : Hub).applyAll before).applyAll after := by
      rw [run, start, applyAll, applyAll, applyAll, applyAll, ← List.foldl_append,
        ← List.foldl_append, whole]
    rw [payload?_acquire taken, reached]
    exact payload?_written after (Sound.empty.applyAll before) there

/-- A closed signal is published to two subscriptions, and one copy is erased and released. A signal
in the other slot is opened, and the publisher is torn down. The copy that is left reads as closed,
and the opened slot has no copies. -/
theorem published_immutable_erased : ∃ h₀ h : Hub,
    h₀ = ({} : Hub).applyAll [.newPool "frames" 2 Payload.Shape.signal.factory,
      .newPublisher "camera" 0, .subscribe 0 false, .subscribe 0 false, .acquire 0] ∧
    h₀.publishers.contains 0 ∧ (⟨0, 0⟩ : SlotRef) ∈ h₀.blanks ∧
    h₀.payload? ⟨0, 0⟩ = some (.signal ⟨false⟩) ∧
    h = h₀.applyAll (.publish 0 ⟨0, 0⟩ :: [.pull 0, .pull 1, .erase ⟨⟨0, 0⟩, 0, false⟩,
      .acquire 0, .write ⟨0, 1⟩ (.signal ⟨true⟩), .write ⟨0, 0⟩ (.signal ⟨true⟩),
      .release ⟨⟨0, 0⟩, 0, true⟩, .dropPublisher 0]) ∧
    h.read? ⟨⟨0, 0⟩, 0, false⟩ = some (.signal ⟨false⟩) ∧
    (∀ c ∈ h.copies, c.ref ≠ ⟨0, 1⟩) := by
  obtain ⟨-, reads, apart, -⟩ := published_immutable (v := .signal ⟨false⟩) (p := 0)
    [.newPool "frames" 2 Payload.Shape.signal.factory, .newPublisher "camera" 0,
      .subscribe 0 false, .subscribe 0 false, .acquire 0]
    [.pull 0, .pull 1, .erase ⟨⟨0, 0⟩, 0, false⟩, .acquire 0,
      .write ⟨0, 1⟩ (.signal ⟨true⟩), .write ⟨0, 0⟩ (.signal ⟨true⟩),
      .release ⟨⟨0, 0⟩, 0, true⟩, .dropPublisher 0]
    rfl (by decide +kernel) (by decide +kernel : (⟨0, 0⟩ : SlotRef) ∈ _) (by decide +kernel) rfl
  refine ⟨_, _, rfl, by decide +kernel, by decide +kernel, by decide +kernel, rfl, ?_, ?_⟩
  · exact reads _ (by decide +kernel) (by decide +kernel)
  · exact apart _ (by decide +kernel)

end BufferFlow.Hub
