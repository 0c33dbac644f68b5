import FederatedTime.Federate
import FederatedTime.Net.Address

/-!
# Sessions

Where each open connection is in its life: it waits for its join, or it is joined as a federate.
The table has at most one entry for a connection; `get?_put` and `get?_remove` describe it.
-/

namespace FederatedTime

/-- Where a connection is in its life. -/
inductive Session where
  /-- The first message is still to come. -/
  | handshaking (peer : SocketAddress)
  /-- The connection is joined as this federate. -/
  | joined (federate : FederateId)
deriving DecidableEq, Inhabited

/-- The sessions of all open connections. -/
structure Sessions where
  entries : List (ConnectionId × Session)
deriving DecidableEq

namespace Sessions

def empty : Sessions := ⟨[]⟩

/-- The session of a connection, if it has one. -/
def get? (s : Sessions) (c : ConnectionId) : Option Session :=
  (s.entries.find? (·.1 = c)).map (·.2)

/-- The table without a connection. -/
def remove (s : Sessions) (c : ConnectionId) : Sessions := ⟨s.entries.filter (·.1 ≠ c)⟩

/-- The table with the session of a connection replaced. -/
def put (s : Sessions) (c : ConnectionId) (session : Session) : Sessions :=
  ⟨(c, session) :: (s.remove c).entries⟩

/-- The number of open connections. -/
def size (s : Sessions) : Nat := s.entries.length

@[simp] theorem get?_empty (c : ConnectionId) : empty.get? c = none := rfl

theorem get?_remove (s : Sessions) (c d : ConnectionId) :
    (s.remove c).get? d = if d = c then none else s.get? d := by
  unfold get? remove
  dsimp only
  rw [List.find?_filter]
  split
  · rename_i h
    rw [List.find?_eq_none.2 (by simp [h]), Option.map_none]
  · rename_i h
    congr 2
    funext entry
    by_cases he : entry.1 = d <;> simp [he, h]

@[simp] theorem remove_remove (s : Sessions) (c : ConnectionId) :
    (s.remove c).remove c = s.remove c := by
  simp [remove]

theorem get?_put (s : Sessions) (c d : ConnectionId) (session : Session) :
    (s.put c session).get? d = if d = c then some session else s.get? d := by
  by_cases h : d = c
  · simp [put, get?, h]
  · have hne : ¬ c = d := fun h' => h h'.symm
    have := get?_remove s c d
    simp only [h, if_false] at this ⊢
    rw [← this]
    simp [put, get?, hne]

@[simp] theorem get?_remove_self (s : Sessions) (c : ConnectionId) :
    (s.remove c).get? c = none := by
  rw [get?_remove, if_pos rfl]

theorem get?_remove_of_ne (s : Sessions) {c d : ConnectionId} (h : d ≠ c) :
    (s.remove c).get? d = s.get? d := by
  rw [get?_remove, if_neg h]

@[simp] theorem get?_put_self (s : Sessions) (c : ConnectionId) (session : Session) :
    (s.put c session).get? c = some session := by
  rw [get?_put, if_pos rfl]

theorem get?_put_of_ne (s : Sessions) {c d : ConnectionId} (session : Session) (h : d ≠ c) :
    (s.put c session).get? d = s.get? d := by
  rw [get?_put, if_neg h]

end Sessions

end FederatedTime
