import FederatedTime.Defaults

/-!
# Settings of the coordinator
-/

namespace FederatedTime

/-- Settings of clock synchronisation. -/
structure ClockSyncSettings where
  /-- Whether clocks are synchronised at all. -/
  enabled : Bool := true
  /-- The pause between two cycles. -/
  period : Duration := Defaults.clockSyncPeriod
  /-- The number of exchanges in a cycle. -/
  trials : UInt32 := Defaults.clockSyncTrials
  /-- A cycle is given up when an answer takes longer than this. -/
  udpTimeout : Duration := Defaults.udpTimeout
deriving DecidableEq, Inhabited

namespace ClockSyncSettings

/-- Settings without clock synchronisation. -/
def disabled : ClockSyncSettings := { enabled := false }

end ClockSyncSettings

/-- Settings of the coordinator. -/
structure CoordinatorSettings where
  /-- The port for clock synchronisation, once there is one. -/
  udpPort : Option UInt16 := none
  clockSync : ClockSyncSettings := {}
deriving DecidableEq, Inhabited

namespace CoordinatorSettings

/-- The port to announce to a federate that joins. -/
def advertisedUdpPort (s : CoordinatorSettings) : Option UInt16 :=
  if s.clockSync.enabled then s.udpPort else none

end CoordinatorSettings

end FederatedTime
