import FederatedTime.Coordinator.Event
import FederatedTime.Coordinator.Settings
import FederatedTime.Roster

/-!
# The schedule of clock synchronisation

A cycle with a federate is a number of exchanges, in each of which the coordinator sends its time,
the federate asks back, and the coordinator sends its time twice more. The timer opens a cycle with
every federate that is not in one; each question of a federate is answered and, within a cycle,
opens the next exchange. A cycle is given up when an answer takes too long.
-/

namespace FederatedTime

/-- A cycle in progress. -/
structure ClockCycle where
  /-- The number of exchanges after the present one. -/
  remaining : UInt32
  /-- When the present exchange was opened. -/
  sentAt : Duration
deriving DecidableEq, Inhabited

/-- The cycles in progress. -/
structure ClockSchedule where
  settings : ClockSyncSettings
  cycles : Roster (Option ClockCycle)
deriving DecidableEq

namespace ClockSchedule

/-- The schedule for `n` federates, with no cycle in progress. -/
def start (settings : ClockSyncSettings) (n : Nat) : ClockSchedule :=
  ⟨settings, .replicate n none⟩

def isEnabled (s : ClockSchedule) : Bool := s.settings.enabled

/-- The cycle in progress with `f`, if there is one. -/
def cycle? (s : ClockSchedule) (f : FederateId) : Option ClockCycle := s.cycles.getD f none

/-- Whether a cycle with `f` is in progress. -/
def inCycle (s : ClockSchedule) (f : FederateId) : Bool := (s.cycle? f).isSome

/-- Whether the answer in a cycle has taken too long. -/
def isOverdue (s : ClockSchedule) (now : Duration) (cycle : ClockCycle) : Bool :=
  s.settings.udpTimeout < now - cycle.sentAt

/-- The schedule with the cycle of `f` replaced. -/
def setCycle (s : ClockSchedule) (f : FederateId) (cycle : Option ClockCycle) : ClockSchedule :=
  { s with cycles := s.cycles.set f cycle }

/-- Open a cycle with `f`, unless one is in progress that is not overdue. -/
def openCycle (s : ClockSchedule) (now : Duration) (f : FederateId) (address : SocketAddress) :
    ClockSchedule × List Action :=
  let isFree := match s.cycles.get? f with
    | some none => true
    | some (some cycle) => s.isOverdue now cycle
    | none => false
  if isFree then
    (s.setCycle f (some ⟨s.settings.trials - 1, now⟩), [.sendClockSync f address .t1])
  else (s, [])

/-- Open a cycle with each of the targets in turn. -/
def openCycles (s : ClockSchedule) (now : Duration) :
    List (FederateId × SocketAddress) → ClockSchedule × List Action
  | [] => (s, [])
  | (f, address) :: targets =>
    let (s, actions) := s.openCycle now f address
    let (s, more) := s.openCycles now targets
    (s, actions ++ more)

/-- It is time for a cycle with each of the targets. -/
def timer (s : ClockSchedule) (now : Duration) (targets : List (FederateId × SocketAddress)) :
    ClockSchedule × List Action :=
  if s.isEnabled ∧ s.settings.trials ≠ 0 then s.openCycles now targets else (s, [])

/-- The federate `f` asks for the time. -/
def probe (s : ClockSchedule) (now : Duration) (f : FederateId) (address : SocketAddress) :
    ClockSchedule × List Action :=
  if s.isEnabled then
    let answer := Action.sendClockSync f address .t4WithProbe
    match s.cycle? f with
    | none => (s, [answer])
    | some cycle =>
      if s.isOverdue now cycle ∨ cycle.remaining = 0 then (s.setCycle f none, [answer])
      else
        (s.setCycle f (some ⟨cycle.remaining - 1, now⟩), [answer, .sendClockSync f address .t1])
  else (s, [])

/-- Give up any cycle with `f`. -/
def forget (s : ClockSchedule) (f : FederateId) : ClockSchedule := s.setCycle f none

end ClockSchedule

end FederatedTime
