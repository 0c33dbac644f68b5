import FederatedTime.Defaults
import FederatedTime.Federate

/-!
# Settings of a federate's connection

How a federate finds the coordinator of its federation, and how long it tries.
-/

namespace FederatedTime

/-- How often something is tried. -/
structure Retries where
  attempts : UInt32
  /-- The time from one attempt to the next. -/
  pause : Duration
deriving DecidableEq

/-- Settings of a federate's connection to the coordinator. -/
structure ClientSettings where
  federate : FederateId
  federationId : String
  host : String := "localhost"
  /-- The coordinator's port; without one, the ports of the default range are tried. -/
  port : Option UInt16 := none
  /-- The rounds of attempts to connect. -/
  connecting : Retries := ⟨Defaults.connectRetries, Defaults.connectRetryInterval⟩
  /-- The pause between two ports that are tried. -/
  portKnockingInterval : Duration := Defaults.portKnockingRetryInterval
  tcpTimeout : Duration := Defaults.tcpTimeout
  /-- The queries for one address. -/
  addressQuerying : Retries := ⟨Defaults.connectRetries, Defaults.addressQueryRetryInterval⟩
deriving DecidableEq

namespace ClientSettings

/-- The ports of the default range, as far as there are such ports. -/
def defaultPorts : List UInt16 :=
  (List.range Defaults.portRangeLimit.toNat).filterMap fun offset =>
    let port := Defaults.startingPort.toNat + offset
    if port < 65536 then some (UInt16.ofNat port) else none

/-- The ports to try in each round, in order. -/
def candidatePorts (s : ClientSettings) : List UInt16 :=
  match s.port with
  | some port => [port]
  | none => defaultPorts

end ClientSettings

end FederatedTime
