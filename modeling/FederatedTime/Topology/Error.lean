import FederatedTime.Federate
import FederatedTime.Time.Interval

/-!
# Topology errors

What can be wrong with the plan of a federation.
-/

namespace FederatedTime

/-- Why no topology can be built from a plan. -/
inductive TopologyError where
  | noFederates
  | tooManyFederates (n : Nat)
  | federationIdTooLong (bytes : Nat)
  /-- A connection names a federate outside of the federation. -/
  | outOfRange (federate : FederateId) (n : Nat)
  | negativeDelay (upstream downstream : FederateId) (delay : Interval)
  /-- Federates that depend on each other without delay can never advance. -/
  | zeroDelayCycle (cycle : List FederateId)
deriving DecidableEq

namespace TopologyError

def message : TopologyError → String
  | noFederates => "federation has no federates"
  | tooManyFederates n =>
    "federation has " ++ toString n ++ " federates, at most 65536 are supported"
  | federationIdTooLong bytes =>
    "federation id is " ++ toString bytes ++ " bytes long, at most 255 are supported"
  | outOfRange f n => f.text ++ " is out of range for a federation of " ++ toString n
  | negativeDelay u d delay => "negative delay " ++ delay.text ++ " on " ++ u.text ++ " -> " ++ d.text
  | zeroDelayCycle cycle => "zero-delay cycle through " ++ FederateId.listText cycle

end TopologyError

end FederatedTime
