import FederatedTime.Federate
import FederatedTime.Wire.Message

/-!
# The outbox

What is still to be written to each open connection, in order. Nothing can be queued for a
connection that is not open, or not any more.
-/

namespace FederatedTime.Server

/-- The messages queued for each open connection, the first to leave in front. -/
structure Outbox where
  queues : List (ConnectionId × List Message)
deriving DecidableEq

namespace Outbox

def empty : Outbox := ⟨[]⟩

/-- Whether a connection is open. -/
def isOpen (o : Outbox) (c : ConnectionId) : Bool := o.queues.any (·.1 = c)

/-- The outbox without a connection. -/
def close (o : Outbox) (c : ConnectionId) : Outbox := ⟨o.queues.filter (·.1 ≠ c)⟩

/-- The outbox with a connection opened afresh. -/
def openConnection (o : Outbox) (c : ConnectionId) : Outbox := ⟨(c, []) :: (o.close c).queues⟩

/-- Queue a message, and tell whether there was a connection to queue it for. -/
def send (o : Outbox) (c : ConnectionId) (message : Message) : Bool × Outbox :=
  (o.isOpen c,
    ⟨o.queues.map fun (d, queue) => (d, if d = c then queue ++ [message] else queue)⟩)

/-- The outbox without any connection. -/
def closeAll (_ : Outbox) : Outbox := empty

/-- The number of open connections. -/
def size (o : Outbox) : Nat := o.queues.length

def isEmpty (o : Outbox) : Bool := o.queues.isEmpty

end Outbox

end FederatedTime.Server
