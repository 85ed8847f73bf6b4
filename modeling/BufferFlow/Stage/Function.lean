import BufferFlow.Stage.Loop

set_option autoImplicit false

namespace BufferFlow

/-- The same function, except that it faults with that text where `stops` holds. -/
def Written.orFault (stops : Bool) (text : String) (old : Payload) (w : Written) : Written :=
  if stops then ⟨old, some (.raised text)⟩ else w

namespace Filler

def idle : Filler := fun _ old => ⟨old, none⟩

def onSignal (status : Nat → Bool) : Filler := fun step old =>
  match old with
  | .signal _ => ⟨.signal ⟨status step⟩, none⟩
  | other => ⟨other, none⟩

def onExchange (f : Nat → ExchangeVector → ExchangeVector × Option Fault) : Filler :=
  fun step old =>
    match old with
    | .exchange v => ⟨.exchange (f step v).1, (f step v).2⟩
    | other => ⟨other, none⟩

/-- Signals that are open for so many steps; zero means for ever. -/
def openFor (steps : Nat) : Filler := onSignal fun step => steps == 0 || step < steps

def cycle (list : List Bool) : Filler := onSignal fun step => list.getD (step % list.length) false

def every (period : Nat) : Filler := onExchange fun step v => v.setEvery period step

def walk : Filler := onExchange fun step v => ((v.clear.set (step % v.bits)).2, none)

/-- Vectors that keep what is set and get one index more. -/
def grow : Filler := onExchange fun step v => ((v.set step).2, none)

def faultAt (f : Filler) (step? : Option Nat) : Filler := fun step old =>
  (f step old).orFault (step? == some step) s!"filler panicked at step {step}" old

end Filler

namespace Transform

def faultAtCall (f : Transform) (call? : Option Nat) : Transform := fun calls source old =>
  (f calls source old).orFault (call? == some calls) s!"transform panicked at step {calls}" old

def faultAtStep (f : Transform) (step? : Option Nat) : Transform := fun calls source old =>
  match source with
  | .fire v =>
    (f calls source old).orFault (step? == some v.step.toNat)
      s!"collect panicked at step {v.step.toNat}" old
  | _ => f calls source old

end Transform

end BufferFlow
