import FederatedTime.Config.Schema
import FederatedTime.Server.Settings
import FederatedTime.Toml.Document
import FederatedTime.Topology.Plan
import FederatedTime.Wire.Bytes

/-!
# Configuration of a federation

A configuration file names the federation, lists its federates with what they depend on, and may
say where the coordinator listens and how it synchronises clocks. A topology follows from it if
the federates are numbered from zero on, in any order and each once, and if their connections are
sound.
-/

namespace FederatedTime

namespace Config

/-- Where the coordinator listens. Port zero asks it to look for a free one. -/
structure Network where
  host : String := "0.0.0.0"
  port : UInt16 := 0
  tcpTimeoutMillis : Nat := Defaults.tcpTimeout.millis
deriving DecidableEq, Inhabited

/-- How clocks are synchronised. -/
structure ClockSync where
  enabled : Bool := true
  periodMillis : Nat := Defaults.clockSyncPeriod.millis
  trials : UInt32 := Defaults.clockSyncTrials
  udpTimeoutMillis : Nat := Defaults.udpTimeout.millis
deriving DecidableEq, Inhabited

/-- A federate that another one depends on. -/
structure Upstream where
  id : UInt16
  delayNanos : Int64 := 0
deriving DecidableEq, Inhabited

/-- A federate and what it depends on. -/
structure Federate where
  id : UInt16
  upstream : List Upstream := []
deriving DecidableEq, Inhabited

/-- A configuration. -/
structure Federation where
  federationId : String
  network : Network := {}
  clockSync : ClockSync := {}
  /-- The federates, in the order of the file. -/
  federates : List Federate := []
deriving DecidableEq, Inhabited

/-! ## Reading -/

def Network.field : Field Network := fun v => do
  let get ← fields? ["host", "port", "tcp_timeout_ms"] v
  let base : Network := {}
  let host ← withDefault base.host text (get "host")
  let port ← withDefault base.port uint16 (get "port")
  let timeout ← withDefault base.tcpTimeoutMillis (natural UInt64.size) (get "tcp_timeout_ms")
  pure ⟨host, port, timeout⟩

def ClockSync.field : Field ClockSync := fun v => do
  let get ← fields? ["enabled", "period_ms", "trials", "udp_timeout_ms"] v
  let base : ClockSync := {}
  let enabled ← withDefault base.enabled flag (get "enabled")
  let period ← withDefault base.periodMillis (natural UInt64.size) (get "period_ms")
  let trials ← withDefault base.trials uint32 (get "trials")
  let timeout ← withDefault base.udpTimeoutMillis (natural UInt64.size) (get "udp_timeout_ms")
  pure ⟨enabled, period, trials, timeout⟩

def Upstream.field : Field Upstream := fun v => do
  let get ← fields? ["id", "delay_ns"] v
  let id ← required uint16 (get "id")
  let delay ← withDefault 0 int64 (get "delay_ns")
  pure ⟨id, delay⟩

def Federate.field : Field Federate := fun v => do
  let get ← fields? ["id", "upstream"] v
  let id ← required uint16 (get "id")
  let upstream ← withDefault [] (listOf Upstream.field) (get "upstream")
  pure ⟨id, upstream⟩

/-- Why there is no configuration. -/
inductive LoadError where
  /-- The file cannot be read as text. -/
  | unreadable (path : String)
  /-- The text is no configuration. -/
  | malformed
deriving DecidableEq

def LoadError.message : LoadError → String
  | unreadable path => "failed to read " ++ path
  | malformed => "malformed configuration"

namespace Federation

def field : Field Federation := fun v => do
  let get ← fields? ["federation_id", "network", "clock_sync", "federates"] v
  let id ← required text (get "federation_id")
  let network ← withDefault {} Network.field (get "network")
  let clockSync ← withDefault {} ClockSync.field (get "clock_sync")
  let federates ← withDefault [] (listOf Federate.field) (get "federates")
  pure ⟨id, network, clockSync, federates⟩

/-- The configuration that a text spells. -/
def ofText (s : String) : Except LoadError Federation :=
  match (Toml.Document.ofText? s).bind field with
  | some c => .ok c
  | none => .error .malformed

/-- The configuration in the file at `path`, which has the given contents, if it exists. -/
def ofFile (path : String) (contents : Option Wire.Bytes) : Except LoadError Federation :=
  match contents.bind fun bytes => String.fromUTF8? ⟨bytes.toArray⟩ with
  | some s => ofText s
  | none => .error (.unreadable path)

end Federation

/-! ## What follows from a configuration -/

/-- Why no topology follows from a configuration. -/
inductive TopologyFault where
  | idOutOfRange (id : UInt16) (n : Nat)
  | listedTwice (id : UInt16)
  | invalid (cause : TopologyError)
deriving DecidableEq

namespace TopologyFault

/-- What is wrong, in short. -/
def summary : TopologyFault → String
  | idOutOfRange id n =>
    "federate id " ++ toString id.toNat ++ " out of range: ids must be 0.." ++ toString n ++
      " for " ++ toString n ++ " federates"
  | listedTwice id => "federate " ++ toString id.toNat ++ " listed twice"
  | invalid _ => "invalid federation topology"

/-- What is wrong, with its cause. -/
def message : TopologyFault → String
  | invalid cause => summary (invalid cause) ++ ": " ++ cause.message
  | fault => fault.summary

end TopologyFault

namespace Federation

/-- Refuse ids that are not below `n`, and those that have been `seen`. -/
def checkIds (n : Nat) : (seen : List UInt16) → List Federate → Except TopologyFault Unit
  | _, [] => pure ()
  | seen, f :: rest =>
    if n ≤ f.id.toNat then throw (.idOutOfRange f.id n)
    else if f.id ∈ seen then throw (.listedTwice f.id)
    else checkIds n (f.id :: seen) rest

/-- The connections of a configuration, in the order of the file. -/
def connections (c : Federation) : List Topology.Connection :=
  c.federates.flatMap fun f => f.upstream.map fun u => ⟨⟨u.id⟩, ⟨f.id⟩, ⟨u.delayNanos⟩⟩

/-- The plan of the federation. -/
def plan (c : Federation) : Topology.Plan := ⟨c.federationId, c.federates.length, c.connections⟩

/-- The topology of the federation. -/
def topology (c : Federation) : Except TopologyFault Topology := do
  checkIds c.federates.length [] c.federates
  match c.plan.build with
  | .ok t => pure t
  | .error e => throw (.invalid e)

/-- The settings of clock synchronisation. -/
def clockSettings (c : ClockSync) : ClockSyncSettings where
  enabled := c.enabled
  period := .ofMillis c.periodMillis
  trials := c.trials
  udpTimeout := .ofMillis c.udpTimeoutMillis

/-- The settings of the server. -/
def serverSettings (c : Federation) : Server.Settings where
  host := c.network.host
  port := .ofNumber c.network.port
  tcpTimeout := .ofMillis c.network.tcpTimeoutMillis
  clockSync := clockSettings c.clockSync

end Federation

end Config

end FederatedTime
