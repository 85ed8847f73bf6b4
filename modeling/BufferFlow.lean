import BufferFlow.Config.Json
import BufferFlow.Description.Json
import BufferFlow.Generator
import BufferFlow.Hub.Describe
import BufferFlow.Hub.Json
import BufferFlow.Json.Access
import BufferFlow.Main
import BufferFlow.Payload.Json
import BufferFlow.Payload.Shape
import BufferFlow.Proofs.Concurrent.Departure
import BufferFlow.Proofs.Concurrent.Sleepers
import BufferFlow.Proofs.Concurrent.Uninterrupted
import BufferFlow.Proofs.Concurrent.Wakeups
import BufferFlow.Proofs.Hub.Cascades
import BufferFlow.Proofs.Hub.Immutability
import BufferFlow.Proofs.Hub.Joins
import BufferFlow.Proofs.Hub.Pending
import BufferFlow.Proofs.Hub.Roster
import BufferFlow.Proofs.Network.Lifecycle
import BufferFlow.Proofs.Network.Refusals
import BufferFlow.Proofs.Network.Totals
import BufferFlow.Proofs.Stage.Relaying
import BufferFlow.Proofs.Pipeline.Counting
import BufferFlow.Proofs.Pipeline.Deadlock
import BufferFlow.Proofs.Pipeline.Reports
import BufferFlow.Proofs.Pipeline.Validation
import BufferFlow.Proofs.Registry
import BufferFlow.Network.Action
import BufferFlow.Proofs.Hub.Events
import BufferFlow.Proofs.Stage.Gauge
import BufferFlow.Proofs.Stage.Unwinding
import BufferFlow.Proofs.Description.Json
import BufferFlow.Proofs.Stats
