import FederatedTime.Coordinator.Record
import FederatedTime.Topology.Basic

/-!
# The registry

The records of all federates, beside the topology that ties them together.
-/

namespace FederatedTime

/-- The records of all federates and the topology of the federation. -/
structure Registry where
  topology : Topology
  records : Roster FederateRecord
deriving DecidableEq

namespace Registry

/-- The registry of a federation that nobody has joined. -/
def ofTopology (t : Topology) : Registry := ⟨t, .tabulate t.size fun f => { id := f }⟩

def size (r : Registry) : Nat := r.records.size

/-- The record of `f`, if `f` is one of the federation. -/
def get? (r : Registry) (f : FederateId) : Option FederateRecord := r.records.get? f

/-- The registry with the record of `f` changed. -/
def modify (r : Registry) (f : FederateId) (change : FederateRecord → FederateRecord) :
    Registry :=
  { r with records := r.records.modify f change }

/-- The connection of `f`, while it is joined. -/
def connection? (r : Registry) (f : FederateId) : Option ConnectionId :=
  (r.get? f).bind (·.connection)

/-- Whether `f` is joined. -/
def isConnected (r : Registry) (f : FederateId) : Bool :=
  ((r.get? f).map (·.isConnected)).getD false

theorem isConnected_of_get? {r : Registry} {f : FederateId} {record : FederateRecord}
    (h : r.get? f = some record) : r.isConnected f = record.isConnected := by
  unfold isConnected
  rw [h]
  rfl

theorem exists_of_isConnected {r : Registry} {f : FederateId} (h : r.isConnected f) :
    ∃ record, r.get? f = some record ∧ record.isConnected := by
  cases hf : r.get? f with
  | none =>
    unfold isConnected at h
    rw [hf] at h
    cases h
  | some record => exact ⟨record, rfl, isConnected_of_get? hf ▸ h⟩

/-- All joined federates, in order. -/
def connected (r : Registry) : List FederateId :=
  (r.records.toList.filter (·.isConnected)).map (·.id)

/-- The connections of all joined federates, in the order of the federates. -/
def connections (r : Registry) : List ConnectionId := r.records.toList.filterMap (·.connection)

/-- Whether every federate has left. -/
def allResigned (r : Registry) : Bool := r.records.toList.all (·.state = .resigned)

end Registry

end FederatedTime
