set_option autoImplicit false

namespace BufferFlow

structure Counters where
  buffersAcquired : UInt64 := 0
  buffersRecycled : UInt64 := 0
  publishes : UInt64 := 0
  deliveries : UInt64 := 0
  emptyPublishes : UInt64 := 0
  subscriptionsOpened : UInt64 := 0
  subscriptionsActive : UInt64 := 0
  joinsCompleted : UInt64 := 0
  joinsFailed : UInt64 := 0
  stagesStarted : UInt64 := 0
  stagesRunning : UInt64 := 0
  stagesTerminated : UInt64 := 0
  deriving DecidableEq

inductive Event
  | bufferAcquired
  | bufferRecycled
  | published (fanOut : UInt64)
  | subscriptionOpened
  | subscriptionClosed
  | joinCompleted
  | joinFailed
  | stageStarted
  | stageSpawnFailed
  | stageTerminated
  deriving DecidableEq

def Event.named : List (String × Event) :=
  [("buffer_acquired", .bufferAcquired), ("buffer_recycled", .bufferRecycled),
    ("subscription_opened", .subscriptionOpened), ("subscription_closed", .subscriptionClosed),
    ("join_completed", .joinCompleted), ("join_failed", .joinFailed),
    ("stage_started", .stageStarted), ("stage_spawn_failed", .stageSpawnFailed),
    ("stage_terminated", .stageTerminated)]

namespace Counters

def record (c : Counters) : Event → Counters
  | .bufferAcquired => { c with buffersAcquired := c.buffersAcquired + 1 }
  | .bufferRecycled => { c with buffersRecycled := c.buffersRecycled + 1 }
  | .published fanOut =>
    if fanOut = 0 then
      { c with publishes := c.publishes + 1, emptyPublishes := c.emptyPublishes + 1 }
    else { c with publishes := c.publishes + 1, deliveries := c.deliveries + fanOut }
  | .subscriptionOpened =>
    { c with
      subscriptionsOpened := c.subscriptionsOpened + 1
      subscriptionsActive := c.subscriptionsActive + 1 }
  | .subscriptionClosed => { c with subscriptionsActive := c.subscriptionsActive - 1 }
  | .joinCompleted => { c with joinsCompleted := c.joinsCompleted + 1 }
  | .joinFailed => { c with joinsFailed := c.joinsFailed + 1 }
  | .stageStarted =>
    { c with stagesStarted := c.stagesStarted + 1, stagesRunning := c.stagesRunning + 1 }
  | .stageSpawnFailed =>
    { c with stagesStarted := c.stagesStarted - 1, stagesRunning := c.stagesRunning - 1 }
  | .stageTerminated =>
    { c with stagesRunning := c.stagesRunning - 1, stagesTerminated := c.stagesTerminated + 1 }

def toFields (c : Counters) : List (String × UInt64) :=
  [("buffers_acquired", c.buffersAcquired), ("buffers_recycled", c.buffersRecycled),
    ("publishes", c.publishes), ("deliveries", c.deliveries),
    ("empty_publishes", c.emptyPublishes), ("subscriptions_opened", c.subscriptionsOpened),
    ("subscriptions_active", c.subscriptionsActive), ("joins_completed", c.joinsCompleted),
    ("joins_failed", c.joinsFailed), ("stages_started", c.stagesStarted),
    ("stages_running", c.stagesRunning), ("stages_terminated", c.stagesTerminated)]

/-- Buffers acquired and not yet recycled, never below zero. -/
def inFlight (c : Counters) : UInt64 :=
  if c.buffersRecycled ≤ c.buffersAcquired then c.buffersAcquired - c.buffersRecycled else 0

end Counters

end BufferFlow
