import FederatedTime.FederateSet
import FederatedTime.Time.Tag

/-!
# Negotiating a stop

The first request to stop opens a round. It goes to every other joined federate, and each answer
raises the candidate to the greatest tag seen; a federate that leaves answers with what it has
completed. When nobody is left to answer, the candidate is the agreed stop tag. There is one round
in the life of a federation.
-/

namespace FederatedTime

/-- How far the negotiation of a stop has come. -/
inductive StopNegotiation where
  | idle
  | negotiating (candidate : Tag) (pending : FederateSet)
  | granted (tag : Tag)
deriving DecidableEq

/-- What is to be done after a contribution to the negotiation. -/
inductive StopOutcome where
  /-- The contribution does not count. -/
  | ignored
  /-- A round has opened: pass the proposal on. -/
  | forward (federates : List FederateId) (proposal : Tag)
  /-- It counts, and others are still to answer. -/
  | waiting
  /-- All have answered: announce the tag. -/
  | agreed (tag : Tag)
deriving DecidableEq

namespace StopNegotiation

/-- The agreed tag, once the round is over. -/
def stopTag : StopNegotiation → Option Tag
  | granted tag => some tag
  | _ => none

def isNegotiating : StopNegotiation → Bool
  | negotiating _ _ => true
  | _ => false

/-- The federates that are still to answer. -/
def pending : StopNegotiation → List FederateId
  | negotiating _ pending => pending.toList
  | _ => []

/-- Count an answer of a federate that is still to answer. -/
def fold (s : StopNegotiation) (f : FederateId) (tag : Tag) : StopNegotiation × StopOutcome :=
  match s with
  | negotiating candidate pending =>
    if f ∈ pending then
      let candidate := max candidate tag
      let pending := pending.erase f
      if pending.isEmpty then (granted candidate, .agreed candidate)
      else (negotiating candidate pending, .waiting)
    else (s, .ignored)
  | _ => (s, .ignored)

/-- A request of `f` to stop, while the given federates are joined. -/
def request (s : StopNegotiation) (f : FederateId) (proposal : Tag)
    (connected : List FederateId) : StopNegotiation × StopOutcome :=
  match s with
  | idle =>
    let pending := FederateSet.ofList (connected.filter (· ≠ f))
    if pending.isEmpty then (granted proposal, .agreed proposal)
    else (negotiating proposal pending, .forward pending.toList proposal)
  | _ => s.fold f proposal

/-- An answer of `f`. -/
def reply (s : StopNegotiation) (f : FederateId) (tag : Tag) : StopNegotiation × StopOutcome :=
  s.fold f tag

/-- The end of the session of `f`, which has completed the given tag. -/
def departure (s : StopNegotiation) (f : FederateId) (completed : Tag) :
    StopNegotiation × StopOutcome :=
  s.fold f completed

end StopNegotiation

end FederatedTime
