import FederatedTime.Roster

/-!
# Search along a graph

`reach n next seeds` lists the federates that can be reached from `seeds` along `next`, each once,
in the order in which a breadth-first search meets them. Federates that are not among the first
`n` are passed over.

The list of the federates met so far doubles as the queue: the search expands it from the front
while it grows at the back, and ends because every federate is met at most once.
-/

namespace FederatedTime.Graph

/-- What a search has met: a flag for each federate, and the federates in the order of meeting. -/
structure Search where
  met : Roster Bool
  order : Array FederateId

namespace Search

/-- A search among `n` federates that has met none. -/
def start (n : Nat) : Search := ⟨.replicate n false, #[]⟩

/-- Meet `f`, unless it has been met or is out of range. -/
def meet (s : Search) (f : FederateId) : Search :=
  if s.met.get? f = some false then ⟨s.met.set f true, s.order.push f⟩ else s

/-- The number of federates met and still to be met. -/
def total (s : Search) : Nat := s.met.count false + s.order.size

@[simp] theorem total_meet (s : Search) (f : FederateId) : (s.meet f).total = s.total := by
  unfold meet
  split
  · rename_i h
    have := Roster.count_set_of_ne h (show false ≠ true by decide)
    simp only [total, Array.size_push]
    omega
  · rfl

@[simp] theorem total_foldl_meet (s : Search) (fs : List FederateId) :
    (fs.foldl meet s).total = s.total := by
  induction fs generalizing s with
  | nil => rfl
  | cons f fs ih => rw [List.foldl_cons, ih, total_meet]

/-- Meet what `next` gives for each federate met, from position `i` of the order on. -/
def expand (next : FederateId → List FederateId) (s : Search) (i : Nat) : Search :=
  if h : i < s.order.size then expand next ((next s.order[i]).foldl meet s) (i + 1) else s
termination_by s.total - i
decreasing_by
  rw [total_foldl_meet]
  simp only [total]
  omega

end Search

/-- The federates among the first `n` that can be reached from `seeds` along `next`, each once, in
breadth-first order. -/
def reach (n : Nat) (next : FederateId → List FederateId) (seeds : List FederateId) :
    List FederateId :=
  ((seeds.foldl Search.meet (.start n)).expand next 0).order.toList

end FederatedTime.Graph
