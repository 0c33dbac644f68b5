import FederatedTime.Coordinator.Registry
import FederatedTime.Graph.Search

/-!
# Time advance

A federate may advance to its next event, but no further than anything that may still reach it from
upstream. `admissibleBound` is that tag, `raise?` the grant to be made if it exceeds the last one,
and `sweep` makes all grants that follow from a change to some federates: the search goes on
downstream of every federate that is granted something.

No grant of a sweep changes the bound of another federate, so a sweep settles each federate that it
meets once, and the order in which it meets them is only the order of the grants.
-/

namespace FederatedTime

/-- The permission for a federate to advance up to a tag. -/
structure Grant where
  federate : FederateId
  tag : Tag
deriving DecidableEq

namespace Registry

/-- The earliest tag at which anything may still arrive from a dependency, if it has completed
anything. -/
def arrival? (r : Registry) (d : Dependency) : Option Tag := do
  let record ← r.get? d.federate
  let completed := record.effectiveCompleted
  if completed.isNever then none else pure (completed.delayed d.delay)

/-- The greatest tag that can be granted to `f`, once its next event and the arrivals from upstream
are known. -/
def admissibleBound (r : Registry) (f : FederateId) : Option Tag := do
  let record ← r.get? f
  if record.nextEvent.isNever then none
  else
    let arrivals ← (r.topology.upstream f).mapM r.arrival?
    pure (arrivals.foldl min record.nextEvent)

/-- The tag to be granted to `f`, if there is one above its last grant. -/
def raise? (r : Registry) (stop : Option Tag) (f : FederateId) : Option Tag := do
  let record ← r.get? f
  if record.isConnected then
    let bound ← r.admissibleBound f
    let tag := bound.clamp stop
    if record.lastGranted < tag then pure tag else none
  else none

/-- The federates that a change to the `seeds` concerns. -/
def concerned (r : Registry) (stop : Option Tag) (seeds : List FederateId) : List FederateId :=
  Graph.reach r.size
    (fun f => if (r.raise? stop f).isSome then r.topology.downstream f else []) seeds

/-- The record of a federate after it has been granted a tag, or nothing. -/
def settle (granted : Option Tag) (record : FederateRecord) : FederateRecord :=
  { record with lastGranted := granted.getD record.lastGranted }.refresh

@[simp] theorem lastGranted_settle (granted : Option Tag) (record : FederateRecord) :
    (settle granted record).lastGranted = granted.getD record.lastGranted :=
  FederateRecord.lastGranted_refresh _

/-- Make all grants that follow from a change to the `seeds`, none of them past `stop`. -/
def sweep (r : Registry) (stop : Option Tag) (seeds : List FederateId) : Registry × List Grant :=
  let raises := (r.concerned stop seeds).map fun f => (f, r.raise? stop f)
  (raises.foldl (fun r (f, granted) => r.modify f (settle granted)) r,
    raises.filterMap fun (f, granted) => granted.map fun tag => ⟨f, tag⟩)

end Registry

end FederatedTime
