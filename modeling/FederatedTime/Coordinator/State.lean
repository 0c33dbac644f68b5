import FederatedTime.Coordinator.Advance
import FederatedTime.Coordinator.ClockSchedule
import FederatedTime.Coordinator.Directory
import FederatedTime.Coordinator.Sessions
import FederatedTime.Coordinator.StartNegotiation
import FederatedTime.Coordinator.StopNegotiation
import FederatedTime.Text.Quoted

/-!
# The state of the coordinator

Everything that the coordinator remembers of a federation between two events, and what can be asked
of it.
-/

namespace FederatedTime

/-- The state of the coordinator. -/
structure Coordinator where
  settings : CoordinatorSettings
  registry : Registry
  sessions : Sessions
  stop : StopNegotiation
  start : StartNegotiation
  directory : Directory
  clock : ClockSchedule
  /-- Whether every federate has once been gone. -/
  finished : Bool
  /-- The time since the coordinator was started. -/
  now : Duration
deriving DecidableEq

namespace Coordinator

/-- The coordinator of a federation that nobody has joined. -/
def ofTopology (t : Topology) (settings : CoordinatorSettings) : Coordinator where
  settings := settings
  registry := .ofTopology t
  sessions := .empty
  stop := .idle
  start := .start t.size
  directory := .empty t.size
  clock := .start settings.clockSync t.size
  finished := false
  now := 0

/-- The agreed stop tag, once there is one. -/
def stopTag (s : Coordinator) : Option Tag := s.stop.stopTag

/-- The start time, once it is fixed. -/
def startTime (s : Coordinator) : Option Int64 := s.start.startTime

/-- The federate that is joined on a connection. -/
def federateOf (s : Coordinator) (c : ConnectionId) : Option FederateId :=
  match s.sessions.get? c with
  | some (.joined f) => some f
  | _ => none

/-- The state with the time set. -/
def setTime (s : Coordinator) (now : Duration) : Coordinator := { s with now := now }

/-- A summary of the state. -/
def summary (s : Coordinator) : String :=
  "CoordinatorState \x7b federation_id: " ++ Text.quoted s.registry.topology.federationId ++
    ", num_federates: " ++ toString s.registry.size ++
    ", sessions: " ++ toString s.sessions.size ++
    ", stop_tag: " ++ Tag.optionText s.stopTag ++
    ", finished: " ++ toString s.finished ++ " \x7d"

end Coordinator

end FederatedTime
