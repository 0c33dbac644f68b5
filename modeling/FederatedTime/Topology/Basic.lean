import FederatedTime.FederateSet
import FederatedTime.Roster
import FederatedTime.Time.Interval

/-!
# Topologies

The dependency graph of a federation. Each federate has upstream federates, each with the least
delay at which something sent there can arrive, and downstream federates, which are those that have
it upstream. Topologies are built from a `Topology.Plan`.
-/

namespace FederatedTime

/-- A federate that another depends on, and the delay between the two. -/
structure Dependency where
  federate : FederateId
  delay : Interval
deriving DecidableEq, Inhabited

/-- The dependency graph of a federation. -/
structure Topology where
  federationId : String
  dependencies : Roster (List Dependency)
  dependents : Roster FederateSet
deriving DecidableEq

namespace Topology

/-- The number of configured federates. -/
def size (t : Topology) : Nat := t.dependencies.size

def contains (t : Topology) (f : FederateId) : Bool := f.index < t.size

/-- All configured federates in order. -/
def ids (t : Topology) : List FederateId := FederateId.firstIds t.size

/-- The federates that `f` depends on, in the order in which they were first connected. -/
def upstream (t : Topology) (f : FederateId) : List Dependency := t.dependencies.getD f []

/-- The federates that depend on `f`, in order. -/
def downstream (t : Topology) (f : FederateId) : List FederateId :=
  (t.dependents.getD f .empty).toList

/-- The least delay from `u` to `d`, if they are connected. -/
def delay? (t : Topology) (u d : FederateId) : Option Interval :=
  ((t.upstream d).find? (·.federate = u)).map (·.delay)

/-- The federates that something sent by `f` can reach without delay. -/
def instantDownstream (t : Topology) (f : FederateId) : List FederateId :=
  (t.downstream f).filter fun d => t.delay? f d = some .zero

end Topology

end FederatedTime
