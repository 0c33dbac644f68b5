import FederatedTime.Server.Options
import FederatedTime.Text.Quoted

/-!
# Reports

What a server is going to do, in words: the federation with its connections, the port, and how
clocks are synchronised.
-/

namespace FederatedTime.Server

/-- The choice of a port in words. -/
def PortSelection.text : PortSelection → String
  | scan => "the first free port from " ++ toString Defaults.startingPort.toNat ++ " on"
  | fixed port => "port " ++ toString port.toNat

/-- How clocks are synchronised, in words. -/
def clockText (s : ClockSyncSettings) : String :=
  if s.enabled then
    "clocks are synchronised every " ++ s.period.text ++ " in " ++ toString s.trials.toNat ++
      " exchanges"
  else "clocks are not synchronised"

/-- The connections to a federate, a line for each. -/
def dependencyLines (t : Topology) (f : FederateId) : List String :=
  (t.upstream f).map fun d => d.federate.text ++ " -> " ++ f.text ++ ": " ++ d.delay.text

/-- What is going to be served, line by line. -/
def reportLines (t : Topology) (s : Settings) : List String :=
  [Text.quoted t.federationId ++ " with " ++ toString t.size ++ " federates",
    s.port.text ++ " of " ++ s.host, clockText s.clockSync] ++
  t.ids.flatMap (dependencyLines t)

/-- The report on the configuration in a file, or what is wrong with it. -/
def report (o : Options) (path : String) (contents : Wire.Bytes) : Except String String := do
  let c ← (Config.Federation.ofFile path (some contents)).mapError Config.LoadError.message
  let (t, s) ← (o.serve c).mapError Config.TopologyFault.message
  pure (String.intercalate "\n" (reportLines t s))

end FederatedTime.Server
