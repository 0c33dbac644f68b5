import FederatedTime.Net.Address
import FederatedTime.Wire.Message

/-!
# Events and actions

What happens to the coordinator, and what it wants done. The coordinator touches no socket and
reads no clock: whoever runs it turns the one into the other.
-/

namespace FederatedTime

/-- Something that happens to the coordinator. -/
inductive Event where
  | connectionOpened (connection : ConnectionId) (peer : SocketAddress)
  | messageReceived (connection : ConnectionId) (message : Message)
  /-- Bytes on a connection make no message; the reason is the one to reject it with. -/
  | malformedMessage (connection : ConnectionId) (reason : RejectReason)
  | connectionLost (connection : ConnectionId)
  /-- A connection has had all the time there is for its join. -/
  | handshakeTimedOut (connection : ConnectionId)
  /-- A datagram of a federate asks for the coordinator's clock. -/
  | clockSyncProbe (federate : FederateId) (address : SocketAddress)
  /-- It is time for a cycle of clock synchronisation. -/
  | clockSyncTimer
deriving DecidableEq, Inhabited

namespace Event

/-- The name of an event. -/
def typeName : Event → String
  | connectionOpened _ _ => "ConnectionOpened"
  | messageReceived _ _ => "MessageReceived"
  | malformedMessage _ _ => "MalformedMessage"
  | connectionLost _ => "ConnectionLost"
  | handshakeTimedOut _ => "HandshakeTimedOut"
  | clockSyncProbe _ _ => "ClockSyncProbe"
  | clockSyncTimer => "ClockSyncTimer"

/-- The connection that an event concerns. -/
def connection? : Event → Option ConnectionId
  | connectionOpened c _ | messageReceived c _ | malformedMessage c _ | connectionLost c
  | handshakeTimedOut c => some c
  | clockSyncProbe _ _ | clockSyncTimer => none

end Event

/-- The datagrams of clock synchronisation, whose times are filled in when they leave. -/
inductive ClockSyncKind where
  /-- Opens an exchange. -/
  | t1
  /-- Answers a federate, with the coded probe right behind. -/
  | t4WithProbe
deriving DecidableEq, Inhabited

/-- Something that the coordinator wants done. -/
inductive Action where
  | send (connection : ConnectionId) (message : Message)
  /-- Close a connection once everything sent on it has left. -/
  | closeConnection (connection : ConnectionId)
  | sendClockSync (federate : FederateId) (address : SocketAddress) (kind : ClockSyncKind)
  /-- Every federate has left. -/
  | federationFinished
deriving DecidableEq, Inhabited

namespace Action

/-- The message that an action sends to a connection. -/
def messageTo? (c : ConnectionId) : Action → Option Message
  | send d message => if d = c then some message else none
  | _ => none

end Action

end FederatedTime
