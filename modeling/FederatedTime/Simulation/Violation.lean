import FederatedTime.Federate
import FederatedTime.Time.Duration
import FederatedTime.Time.Tag

/-!
# Violations

What a run of a simulated federation is checked for. All but the last violation are about safety
and end the run where they occur; a run that has come to its end may still have `stalled`.
-/

namespace FederatedTime.Simulation

/-- Why a run has failed. -/
inductive Violation where
  | grantRegressed (federate : FederateId) (previous granted : Tag)
  /-- A grant goes beyond what the federates upstream allow, or nothing is known of them. -/
  | grantExceedsBound (federate : FederateId) (granted : Tag) (bound : Option Tag)
  | grantPastStop (federate : FederateId) (granted stop : Tag)
  | completedPastNextEvent (federate : FederateId) (completed nextEvent : Tag)
  | stopBelowProposal (federate : FederateId) (proposal stop : Tag)
  | startTimeMismatch (first second : Int64)
  /-- Nothing is under way any more, and some federates have not left. -/
  | stalled (time : Duration) (federates : List FederateId)
deriving DecidableEq

def Violation.message : Violation → String
  | grantRegressed f previous granted =>
    "Grant to " ++ f.text ++ " went backwards: " ++ previous.text ++ " -> " ++ granted.text
  | grantExceedsBound f granted bound =>
    "Grant " ++ granted.text ++ " to " ++ f.text ++ " exceeds admissible bound " ++
      Tag.optionText bound
  | grantPastStop f granted stop =>
    "Grant " ++ granted.text ++ " to " ++ f.text ++ " is past the stop tag " ++ stop.text
  | completedPastNextEvent f completed nextEvent =>
    "Federate " ++ f.text ++ " completed " ++ completed.text ++ " past its next event " ++
      nextEvent.text
  | stopBelowProposal f proposal stop =>
    "Stop tag " ++ stop.text ++ " is below " ++ proposal.text ++ " proposed by " ++ f.text
  | startTimeMismatch first second =>
    "Federates were told different start times: " ++ Nanoseconds.text first ++ " and " ++
      Nanoseconds.text second
  | stalled time federates =>
    "Federation stalled at " ++ time.text ++ " with " ++ FederateId.listText federates ++
      " still waiting"

end FederatedTime.Simulation
