import FederatedTime.Simulation.State

/-!
# Checks

What must hold of every message that the coordinator sends, of its records after every event, and
of the federates after every message. A check gives the violation that it finds.
-/

namespace FederatedTime.Simulation

/-- What is wrong with a grant to `f`: it must not go back, nor beyond what the records allow now,
nor past an agreed stop. -/
def grantFault? (s : Simulation) (f : FederateId) (granted : Tag) : Option Violation :=
  let previous := s.granted.getD f .never
  let bound := s.coordinator.registry.admissibleBound f
  if granted < previous then some (.grantRegressed f previous granted)
  else if !(bound.any (granted ≤ ·)) then some (.grantExceedsBound f granted bound)
  else match s.coordinator.stopTag with
    | some stop => if stop < granted then some (.grantPastStop f granted stop) else none
    | none => none

/-- What is wrong with an agreed stop: it must not be below anything proposed before. -/
def stopFault? (s : Simulation) (stop : Tag) : Option Violation :=
  (s.proposals.find? (stop < ·.2)).map fun (f, proposal) => .stopBelowProposal f proposal stop

/-- What is wrong with a message that the coordinator sends to `f`. -/
def messageFault? (s : Simulation) (f : FederateId) : Message → Option Violation
  | .timeAdvanceGrant granted => s.grantFault? f granted
  | .stopGranted time => s.stopFault? (.ofTime time)
  | _ => none

/-- What is wrong with a record: a connected federate must not have completed more than its next
event. -/
def recordFault? (record : FederateRecord) : Option Violation :=
  if record.isConnected && !record.completed.isNever && !record.nextEvent.isNever &&
      decide (record.nextEvent < record.completed) then
    some (.completedPastNextEvent record.id record.completed record.nextEvent)
  else none

/-- What is wrong with the records of the coordinator. -/
def recordsFault? (s : Simulation) : Option Violation :=
  s.coordinator.registry.records.toList.findSome? recordFault?

/-- What is wrong with the start times that the federates were told: they must all be the same. -/
def startFault? (s : Simulation) : Option Violation :=
  match s.federates.toList.filterMap (·.startTime) with
  | [] => none
  | first :: others => (others.find? (· ≠ first)).map (.startTimeMismatch first)

end FederatedTime.Simulation
