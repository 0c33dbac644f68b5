import FederatedTime.Coordinator.State
import FederatedTime.Simulation.Network
import FederatedTime.Simulation.Queue
import FederatedTime.Simulation.Script
import FederatedTime.Simulation.Violation

/-!
# The state of a simulation

A coordinator and scripted federates, with everything that is under way between them. The federate
of number `i` has the connection of number `i`. The rest of the state is what the checks of a run
have to remember.
-/

namespace FederatedTime

namespace Simulation

/-- Something that is due at some time. -/
inductive Delivery where
  /-- A federate starts. -/
  | start (federate : FederateId)
  | toCoordinator (event : Event)
  | toFederate (federate : FederateId) (message : Message)
deriving DecidableEq, Inhabited

/-- The connection of a federate. -/
def connectionOf (f : FederateId) : ConnectionId := ⟨f.number.toUInt64⟩

/-- The federate that has a connection. -/
def federateOn (c : ConnectionId) : FederateId := ⟨c.number.toUInt16⟩

/-- Where the connection of a federate comes from. -/
def peerOf (f : FederateId) : SocketAddress := .v4 .localhost (40000 + f.number)

/-- The latest time at which a federate starts, in microseconds, plus one. -/
def startSpan : Nat := 1000

end Simulation

open Simulation

/-- A coordinator, scripted federates, and what is under way between them. -/
structure Simulation where
  coordinator : Coordinator
  federates : Roster ScriptedFederate
  queue : Queue Delivery
  network : Network
  now : Duration := 0
  /-- The last grant sent to each federate. -/
  granted : Roster Tag
  /-- The times proposed for a stop, in the order in which they were sent. -/
  proposals : List (FederateId × Tag) := []
  /-- The number of deliveries that have been made. -/
  delivered : Nat := 0
  /-- The number of grants that have been sent. -/
  grants : Nat := 0
  /-- The number of messages that the coordinator has received. -/
  received : Nat := 0

namespace Simulation

/-- Schedule the start of each of the `ids` at a random time. -/
def scheduleStarts (drawing : Drawing) (queue : Queue Delivery) (random : RandomStream) :
    (ids : List FederateId) → Queue Delivery × RandomStream
  | [] => (queue, random)
  | f :: rest =>
    let (offset, random) := drawing random startSpan
    scheduleStarts drawing (queue.push (.ofMicros offset) (.start f)) random rest

/-- The simulation of a federation before its start, with one script for each federate. The
network draws from `link`, of which it is given the seed, and `drawing` is how numbers are drawn. -/
def ofScripts (t : Topology) (scripts : List Script) (latency : Latency) (drawing : Drawing)
    (random : RandomStream) (link : UInt64 → RandomStream) : Simulation :=
  let federates : Roster ScriptedFederate :=
    ⟨(scripts.mapIdx fun i s => .ofScript (.ofNat i) s).toArray⟩
  let (queue, random) := scheduleStarts drawing {} random federates.ids
  let (seed, _) := random.double
  { coordinator := .ofTopology t { clockSync := .disabled }
    federates := federates
    queue := queue
    network := ⟨latency, drawing, link seed, []⟩
    granted := .replicate t.size .never }

/-- The federation id under which the federates join. -/
def federationId (s : Simulation) : String := s.coordinator.registry.topology.federationId

/-- What a run has to show for itself. -/
structure Statistics where
  delivered : Nat
  grants : Nat
  received : Nat
  stopTag : Option Tag
  startTime : Option Int64
  finished : Bool
  endTime : Duration
deriving DecidableEq

/-- The statistics up to now. -/
def statistics (s : Simulation) : Statistics where
  delivered := s.delivered
  grants := s.grants
  received := s.received
  stopTag := s.coordinator.stopTag
  startTime := s.coordinator.startTime
  finished := s.coordinator.finished
  endTime := s.now

/-- The federates that have not left. -/
def waiting (s : Simulation) : List FederateId :=
  (s.federates.toList.filter (!·.done)).map (·.id)

end Simulation

end FederatedTime
