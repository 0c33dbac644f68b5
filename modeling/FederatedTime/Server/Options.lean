import FederatedTime.Config.Federation
import FederatedTime.Net.Number

/-!
# Options

What can be said on the command line beside the configuration: another federation id, another
port, and that clocks are not to be synchronised. `Options.serve` gives what is to be served.
-/

namespace FederatedTime.Server

/-- What a command line asks for. -/
structure Options where
  /-- The federation id to use in place of that of the configuration. -/
  federationId : Option String := none
  /-- The port to use in place of that of the configuration; zero asks for a scan. -/
  port : Option UInt16 := none
  withoutClockSync : Bool := false
deriving DecidableEq

namespace Options

/-- The port that a text spells. -/
def portOfText? (s : String) : Option UInt16 :=
  (Text.whole (Net.decimal 65535) s.toList).map UInt16.ofNat

/-- Add the options of a command line to others, if they are understood. -/
def extend? (o : Options) : List String → Option Options
  | [] => some o
  | "--no-clock-sync" :: rest => extend? { o with withoutClockSync := true } rest
  | "--federation-id" :: id :: rest => extend? { o with federationId := some id } rest
  | "--port" :: port :: rest | "-p" :: port :: rest =>
    (portOfText? port).bind fun port => extend? { o with port := some port } rest
  | _ :: _ => none

/-- The options of a command line, if they are understood. -/
def ofArguments? (arguments : List String) : Option Options := extend? {} arguments

/-- The configuration under another federation id, if one is asked for. -/
def rename (o : Options) (c : Config.Federation) : Config.Federation :=
  { c with federationId := o.federationId.getD c.federationId }

/-- The settings of the server with what is asked for in place. -/
def override (o : Options) (s : Settings) : Settings :=
  { s with
    port := (o.port.map PortSelection.ofNumber).getD s.port
    clockSync := { s.clockSync with enabled := s.clockSync.enabled && !o.withoutClockSync } }

/-- The topology and the settings with which a configuration is to be served. -/
def serve (o : Options) (c : Config.Federation) : Except Config.TopologyFault (Topology × Settings) :=
  (o.rename c).topology.map fun t => (t, o.override c.serverSettings)

end Options

end FederatedTime.Server
