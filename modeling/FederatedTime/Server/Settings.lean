import FederatedTime.Coordinator.Settings

/-!
# Settings of the server

Where the coordinator listens, and how long it waits.
-/

namespace FederatedTime.Server

/-- How the server chooses its port. -/
inductive PortSelection where
  /-- The first free port of the default range. -/
  | scan
  /-- This port and no other. -/
  | fixed (port : UInt16)
deriving DecidableEq, Inhabited

/-- The choice that a port number in a configuration stands for; zero asks for a scan. -/
def PortSelection.ofNumber (port : UInt16) : PortSelection :=
  if port = 0 then scan else fixed port

/-- Settings of the server. -/
structure Settings where
  host : String := "0.0.0.0"
  port : PortSelection := .scan
  /-- How long a new connection may take to join. -/
  tcpTimeout : Duration := Defaults.tcpTimeout
  clockSync : ClockSyncSettings := {}
deriving DecidableEq, Inhabited

end FederatedTime.Server
