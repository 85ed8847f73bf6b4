import BufferFlow.Stage.Loop

set_option autoImplicit false

namespace BufferFlow

inductive StageState
  | idle
  | running
  | terminated (reason : Termination)
  deriving DecidableEq

namespace StageState

def describe : StageState → String
  | .idle => "Idle"
  | .running => "Running"
  | .terminated reason => s!"Terminated({reason.name})"

def isTerminated : StageState → Bool
  | .terminated _ => true
  | _ => false

end StageState

inductive Loop
  | relay (loop : RelayLoop)
  | aggregator (loop : AggregatorLoop)

namespace Loop

def advance : Loop → Hub → Progress Loop
  | .relay l, h =>
    match l.advance h with
    | .blocked => .blocked
    | .running h l => .running h (.relay l)
    | .stopped h reason => .stopped h reason
    | .faulted h fault => .faulted h fault
  | .aggregator l, h =>
    match l.advance h with
    | .blocked => .blocked
    | .running h l => .running h (.aggregator l)
    | .stopped h reason => .stopped h reason
    | .faulted h fault => .faulted h fault

def close : Loop → Hub → Hub
  | .relay l, h => l.close h
  | .aggregator l, h => l.close h

end Loop

/-- The thread of a stage, as far as joining it goes. -/
inductive Thread
  | unstarted
  | running
  | ended (reason : Termination)
  | faulted (fault : Fault)
  | gone

structure Stage where
  name : String
  /-- The stage's publisher, alive until the loop ends. -/
  outlet : Nat
  loop : Loop
  state : StageState := .idle
  thread : Thread := .unstarted

/-- A thread bears the name of its stage, in which no byte may be zero. -/
def Stage.nameFault? (s : Stage) : Option Fault :=
  let bytes := s.name.toUTF8.toList
  if bytes.contains 0 then some (.nulInName bytes) else none

end BufferFlow
