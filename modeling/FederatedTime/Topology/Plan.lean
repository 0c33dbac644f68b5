import FederatedTime.Graph.Cycle
import FederatedTime.Topology.Basic
import FederatedTime.Topology.Error

/-!
# Plans of a federation

A plan lists the connections of a federation as they were declared. `Plan.build` checks it and
turns it into a topology, in which several connections between the same two federates have become
one with the least of their delays.
-/

namespace FederatedTime.Topology

/-- The largest number of federates that two-byte identifiers tell apart. -/
def maxFederates : Nat := 65536

/-- The longest federation id, in bytes, whose length fits one byte. -/
def maxFederationIdBytes : Nat := 255

/-- A declared connection. -/
structure Connection where
  upstream : FederateId
  downstream : FederateId
  delay : Interval
deriving DecidableEq, Inhabited

/-- What is declared of a federation. -/
structure Plan where
  federationId : String
  size : Nat
  connections : List Connection := []
deriving DecidableEq

namespace Plan

/-- The dependencies of a federate with `u` among them, at the given delay or a smaller one. -/
def addDependency (u : FederateId) (delay : Interval) : List Dependency → List Dependency
  | [] => [⟨u, delay⟩]
  | v :: rest =>
    if v.federate = u then ⟨u, v.delay.min delay⟩ :: rest
    else v :: addDependency u delay rest

/-- The topology with one more connection. -/
def connect (t : Topology) (c : Connection) : Topology :=
  { t with
    dependencies := t.dependencies.modify c.downstream (addDependency c.upstream c.delay)
    dependents := t.dependents.modify c.upstream (·.insert c.downstream) }

/-- Refuse a connection that leaves a federation of `n`, or whose delay is negative. -/
def checkConnection (n : Nat) (c : Connection) : Except TopologyError Unit :=
  if n ≤ c.upstream.index then throw (.outOfRange c.upstream n)
  else if n ≤ c.downstream.index then throw (.outOfRange c.downstream n)
  else if c.delay.isNegative then throw (.negativeDelay c.upstream c.downstream c.delay)
  else pure ()

/-- Refuse a plan whose size or federation id is unsupported. -/
def checkLimits (p : Plan) : Except TopologyError Unit :=
  if p.size = 0 then throw .noFederates
  else if maxFederates < p.size then throw (.tooManyFederates p.size)
  else if maxFederationIdBytes < p.federationId.utf8ByteSize then
    throw (.federationIdTooLong p.federationId.utf8ByteSize)
  else pure ()

/-- The topology of a plan, without any check. -/
def graph (p : Plan) : Topology :=
  p.connections.foldl connect
    ⟨p.federationId, .replicate p.size [], .replicate p.size .empty⟩

/-- The topology of a plan, if the plan is sound. -/
def build (p : Plan) : Except TopologyError Topology := do
  p.checkLimits
  p.connections.forM (checkConnection p.size)
  let t := p.graph
  match Graph.findCycle t.size t.instantDownstream with
  | some cycle => throw (.zeroDelayCycle cycle)
  | none => pure t

end Plan

end FederatedTime.Topology
