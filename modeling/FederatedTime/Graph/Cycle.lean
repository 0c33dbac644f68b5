import FederatedTime.Roster

/-!
# Cycles in a graph

`findCycle n next` looks for a cycle of the graph that `next` spans over the first `n` federates.
It walks depth first from each federate in turn. A federate is entered while the walk is below it
and closed once everything below it has been walked; an edge into an entered federate closes a
cycle, which consists of the entered federates from that one on.
-/

namespace FederatedTime.Graph

/-- How far the walk has come with a federate. -/
inductive Mark where
  | unseen
  | entered
  | closed
deriving DecidableEq

/-- The entered federates, the deepest first, each with the successors that are still to be walked. -/
abbrev Trail := List (FederateId × List FederateId)

namespace Trail

/-- How much of the trail is still to be walked. -/
def remaining : Trail → Nat
  | [] => 0
  | (_, rest) :: trail => rest.length + 1 + remaining trail

/-- The entered federates from `f` on, the outermost first. -/
def cycleFrom (trail : Trail) (f : FederateId) : List FederateId :=
  let inner := (trail.map Prod.fst).takeWhile (· ≠ f)
  f :: inner.reverse

end Trail

/-- What a walk ends with: the marks it has left, or the cycle it has met. -/
inductive Walked where
  | marks (marks : Roster Mark)
  | cycle (fs : List FederateId)

/-- Walk on from an open trail. -/
def walk (next : FederateId → List FederateId) (marks : Roster Mark) : Trail → Walked
  | [] => .marks marks
  | (f, []) :: trail => walk next (marks.set f .closed) trail
  | (f, g :: rest) :: trail =>
    match _h : marks.get? g with
    | some .unseen => walk next (marks.set g .entered) ((g, next g) :: (f, rest) :: trail)
    | some .entered => .cycle (Trail.cycleFrom ((f, rest) :: trail) g)
    | some .closed | none => walk next marks ((f, rest) :: trail)
termination_by trail => (marks.count .unseen, trail.remaining)
decreasing_by
  · have hle := Roster.count_set_le (r := marks) (f := f) (b := Mark.unseen) (c := .closed)
      (by decide)
    rcases Nat.lt_or_eq_of_le hle with h | h
    · exact Prod.Lex.left _ _ h
    · rw [h]
      refine Prod.Lex.right _ ?_
      simp [Trail.remaining]
  · have := Roster.count_set_of_ne _h (show Mark.unseen ≠ .entered by decide)
    exact Prod.Lex.left _ _ (by omega)
  · exact Prod.Lex.right _ (by simp [Trail.remaining])
  · exact Prod.Lex.right _ (by simp [Trail.remaining])

/-- Walk from each of the given federates that no earlier walk has met. -/
def findCycleFrom (next : FederateId → List FederateId) (marks : Roster Mark) :
    List FederateId → Option (List FederateId)
  | [] => none
  | root :: roots =>
    if marks.get? root = some .unseen then
      match walk next (marks.set root .entered) [(root, next root)] with
      | .cycle fs => some fs
      | .marks marks => findCycleFrom next marks roots
    else findCycleFrom next marks roots

/-- A cycle of the graph that `next` spans over the first `n` federates, if there is one. -/
def findCycle (n : Nat) (next : FederateId → List FederateId) : Option (List FederateId) :=
  findCycleFrom next (.replicate n .unseen) (FederateId.firstIds n)

end FederatedTime.Graph
