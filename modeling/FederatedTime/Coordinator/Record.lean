import FederatedTime.Federate
import FederatedTime.Net.Address
import FederatedTime.Time.Tag

/-!
# Records

What the coordinator knows of one federate. A record lives as long as the federation; the part of
it that belongs to a session starts over with each join.
-/

namespace FederatedTime

/-- What the coordinator knows of one federate. -/
structure FederateRecord where
  id : FederateId
  state : FederateState := .notConnected
  /-- The greatest tag that the federate has completed. -/
  completed : Tag := .never
  /-- The earliest tag at which it has something to do, as it last said. -/
  nextEvent : Tag := .never
  /-- The last tag granted to it. -/
  lastGranted : Tag := .never
  mode : ExecutionMode := .fast
  connection : Option ConnectionId := none
  /-- Where its connection comes from. -/
  host : Option IpAddress := none
  /-- Where its clock is synchronised. -/
  udpAddress : Option SocketAddress := none
  /-- Whether its request to stop, or its answer to one, has been counted. -/
  stopCounted : Bool := false
deriving DecidableEq, Inhabited

namespace FederateRecord

def isConnected (r : FederateRecord) : Bool := r.state.isConnected

/-- What the federates downstream take to be completed. One that has left blocks nobody, as if it
had completed everything. -/
def effectiveCompleted (r : FederateRecord) : Tag :=
  if r.state = .resigned then .forever else r.completed

/-- Start a session on a connection from `host`. -/
def join (r : FederateRecord) (connection : ConnectionId) (host : IpAddress) : FederateRecord :=
  { id := r.id, state := .pending, connection := some connection, host := some host }

/-- End the session. -/
def leave (r : FederateRecord) : FederateRecord :=
  { r with state := .resigned, connection := none, udpAddress := none }

/-- Whether the federate may go on to its next event. -/
def isAllowed (r : FederateRecord) : Bool :=
  !r.nextEvent.isNever && decide (r.nextEvent ≤ r.lastGranted)

/-- Bring the state of a connected federate up to date with its tags. -/
def refresh (r : FederateRecord) : FederateRecord :=
  if r.isConnected then { r with state := if r.isAllowed then .granted else .pending } else r

@[simp] theorem lastGranted_refresh (record : FederateRecord) :
    record.refresh.lastGranted = record.lastGranted := by
  unfold refresh
  split <;> rfl

end FederateRecord

end FederatedTime
