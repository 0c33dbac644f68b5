import FederatedTime.Time.Duration

/-!
# Event queues

A queue of events in the order of their times; events of one time are in the order in which they
were scheduled.
-/

namespace FederatedTime.Simulation

/-- An event with its time, and its number among all events ever scheduled. -/
structure Scheduled (α : Type) where
  time : Duration
  sequence : Nat
  event : α
deriving DecidableEq

/-- A queue of events. -/
structure Queue (α : Type) where
  entries : List (Scheduled α) := []
  /-- The number of events ever scheduled. -/
  scheduled : Nat := 0
deriving DecidableEq

namespace Queue

variable {α : Type}

/-- The entries with one more behind all that are not later. -/
def insert (e : Scheduled α) : List (Scheduled α) → List (Scheduled α)
  | [] => [e]
  | d :: rest => if d.time ≤ e.time then d :: insert e rest else e :: d :: rest

/-- The queue with one more event. -/
def push (q : Queue α) (time : Duration) (event : α) : Queue α :=
  ⟨insert ⟨time, q.scheduled, event⟩ q.entries, q.scheduled + 1⟩

/-- The earliest event and the queue without it, if there is one. -/
def pop? (q : Queue α) : Option (Scheduled α × Queue α) :=
  match q.entries with
  | [] => none
  | e :: rest => some (e, { q with entries := rest })

def size (q : Queue α) : Nat := q.entries.length

def isEmpty (q : Queue α) : Bool := q.entries.isEmpty

end Queue

end FederatedTime.Simulation
