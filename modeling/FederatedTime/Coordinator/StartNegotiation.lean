import FederatedTime.Coordinator.Registry
import FederatedTime.Defaults

/-!
# Negotiating the start

Each federate proposes a start time. Once every configured federate has proposed or left, and there
is a proposal at all, the start time is the greatest proposal and a second more. Whoever proposes
later is told the time that has been fixed.
-/

namespace FederatedTime

/-- How far the negotiation of the start has come. -/
structure StartNegotiation where
  /-- Who has proposed. -/
  proposed : Roster Bool
  greatest : Option Int64 := none
  startTime : Option Int64 := none
deriving DecidableEq

/-- What is to be done after a proposal or a departure. -/
inductive StartOutcome where
  | waiting
  /-- The start time has just been fixed: tell everybody. -/
  | fixed (time : Int64)
  /-- It had been fixed: tell the proposer. -/
  | late (time : Int64)
deriving DecidableEq

namespace StartNegotiation

/-- The negotiation among `n` federates before anybody has proposed. -/
def start (n : Nat) : StartNegotiation := { proposed := .replicate n false }

/-- The start time that follows from the greatest proposal. -/
def startAfter (greatest : Int64) : Int64 :=
  Nanoseconds.saturate (greatest.toInt + Defaults.startDelay.nanos.toInt)

/-- Whether every configured federate has proposed or left. -/
def isComplete (s : StartNegotiation) (r : Registry) : Bool :=
  r.records.toList.all fun record =>
    s.proposed.getD record.id false || record.state = .resigned

/-- Fix the start time if nobody is left to propose. -/
def tryFix (s : StartNegotiation) (r : Registry) : StartNegotiation × StartOutcome :=
  match s.isComplete r, s.greatest with
  | true, some greatest =>
    let time := startAfter greatest
    ({ s with startTime := some time }, .fixed time)
  | _, _ => (s, .waiting)

/-- The negotiation with one more proposal in it. -/
def note (s : StartNegotiation) (f : FederateId) (proposal : Int64) : StartNegotiation :=
  { s with
    proposed := s.proposed.set f true
    greatest := some (match s.greatest with
      | some g => if g ≤ proposal then proposal else g
      | none => proposal) }

/-- A proposal of `f`. -/
def propose (s : StartNegotiation) (f : FederateId) (proposal : Int64) (r : Registry) :
    StartNegotiation × StartOutcome :=
  match s.startTime with
  | some time => (s, .late time)
  | none => (s.note f proposal).tryFix r

/-- The end of a session. -/
def departure (s : StartNegotiation) (r : Registry) : StartNegotiation × StartOutcome :=
  match s.startTime with
  | some _ => (s, .waiting)
  | none => s.tryFix r

end StartNegotiation

end FederatedTime
