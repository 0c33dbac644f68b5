import FederatedTime.Topology.Plan

/-!
# Common shapes of federations

Small federations for trying things out, all under one federation id.
-/

namespace FederatedTime.Topology.Shapes

/-- The federation id of every shape. -/
def federationId : String := "test-federation"

/-- A federation with the given connections. -/
def connected (n : Nat) (connections : List Connection) : Except TopologyError Topology :=
  Plan.build ⟨federationId, n, connections⟩

/-- Each of `n` federates is upstream of the next one, at the same delay. -/
def chain (n : Nat) (delay : Interval) : Except TopologyError Topology :=
  connected n <| (List.range (n - 1)).map fun i => ⟨.ofNat i, .ofNat (i + 1), delay⟩

/-- Federate 0 is upstream of 1 and 2, and these of 3, without delay. -/
def diamond : Except TopologyError Topology :=
  connected 4 <| [(0, 1), (0, 2), (1, 3), (2, 3)].map fun (u, d) => ⟨⟨u⟩, ⟨d⟩, .zero⟩

end FederatedTime.Topology.Shapes
