import FederatedTime.Federate
import FederatedTime.Net.Ipv4
import FederatedTime.Time.Tag
import FederatedTime.Wire.Bytes
import FederatedTime.Wire.MessageKind
import FederatedTime.Wire.RejectReason

/-!
# Messages

Everything that the coordinator and the federates say to each other.
-/

namespace FederatedTime

open Wire (Bytes)

/-- An application payload that is forwarded without a tag. -/
structure UntimedMessage where
  port : PortId
  federate : FederateId
  payload : Bytes
deriving DecidableEq, Inhabited

/-- An application payload with the tag at which its sender produced it. -/
structure TimedMessage where
  port : PortId
  federate : FederateId
  tag : Tag
  payload : Bytes
deriving DecidableEq, Inhabited

/-- A message of the protocol. -/
inductive Message where
  /-- The message before was refused. -/
  | reject (reason : RejectReason)
  /-- A join is accepted; the port is the one for clock synchronisation, if there is one. -/
  | ack (udpPort : Option UInt16)
  /-- The first message of a federate to the coordinator. -/
  | join (federate : FederateId) (federationId : String)
  /-- A start time: proposed by a federate, fixed by the coordinator. -/
  | timestamp (time : Int64)
  /-- The federate leaves. -/
  | resign
  /-- A payload routed through the coordinator. -/
  | untimed (message : UntimedMessage)
  /-- A tagged payload routed through the coordinator. -/
  | timed (message : TimedMessage)
  /-- The earliest tag at which the sender has something to do. -/
  | nextEventTag (tag : Tag)
  /-- The federate may process everything up to this tag. -/
  | timeAdvanceGrant (tag : Tag)
  /-- The sender has processed this tag. -/
  | logicalTagComplete (tag : Tag)
  /-- A proposal to stop at a time. -/
  | stopRequest (time : Int64)
  /-- The answer to a stop request, with a time of the sender's own. -/
  | stopRequestReply (time : Int64)
  /-- The agreed time to stop. -/
  | stopGranted (time : Int64)
  /-- The question where a federate accepts peers. -/
  | addressQuery (federate : FederateId)
  /-- The answer to it; no port means that the address is unknown. -/
  | addressQueryReply (port : Option UInt16) (ip : Ipv4)
  /-- The sender accepts peers on this port. -/
  | addressAd (port : UInt16)
  /-- The first message on a direct connection between federates. -/
  | peerHello (federate : FederateId) (federationId : String)
  /-- A payload on a direct connection. -/
  | peerUntimed (message : UntimedMessage)
  /-- A tagged payload on a direct connection. -/
  | peerTimed (message : TimedMessage)
  /-- The coordinator's clock when it sends this. -/
  | clockSyncT1 (time : Int64)
  /-- The answer to it, which asks for the two messages below. -/
  | clockSyncT3 (federate : FederateId)
  /-- The coordinator's clock when it sends the answer. -/
  | clockSyncT4 (time : Int64)
  /-- The coordinator's clock right after that. -/
  | clockSyncCodedProbe (time : Int64)
deriving DecidableEq, Inhabited

namespace Message

/-- The kind of a message. -/
def kind : Message → MessageKind
  | reject _ => .reject
  | ack _ => .ack
  | join _ _ => .join
  | timestamp _ => .timestamp
  | resign => .resign
  | untimed _ => .untimed
  | timed _ => .timed
  | nextEventTag _ => .nextEventTag
  | timeAdvanceGrant _ => .timeAdvanceGrant
  | logicalTagComplete _ => .logicalTagComplete
  | stopRequest _ => .stopRequest
  | stopRequestReply _ => .stopRequestReply
  | stopGranted _ => .stopGranted
  | addressQuery _ | addressQueryReply _ _ => .address
  | addressAd _ => .addressAd
  | peerHello _ _ => .peerHello
  | peerUntimed _ => .peerUntimed
  | peerTimed _ => .peerTimed
  | clockSyncT1 _ => .clockSyncT1
  | clockSyncT3 _ => .clockSyncT3
  | clockSyncT4 _ => .clockSyncT4
  | clockSyncCodedProbe _ => .clockSyncCodedProbe

/-- The byte that opens a message on the wire. -/
def typeByte (m : Message) : UInt8 := m.kind.byte

/-- The name of a message. -/
def typeName : Message → String
  | reject _ => "Reject"
  | ack _ => "Ack"
  | join _ _ => "Join"
  | timestamp _ => "Timestamp"
  | resign => "Resign"
  | untimed _ => "Message"
  | timed _ => "TimedMessage"
  | nextEventTag _ => "NextEventTag"
  | timeAdvanceGrant _ => "TimeAdvanceGrant"
  | logicalTagComplete _ => "LogicalTagComplete"
  | stopRequest _ => "StopRequest"
  | stopRequestReply _ => "StopRequestReply"
  | stopGranted _ => "StopGranted"
  | addressQuery _ => "AddressQuery"
  | addressQueryReply _ _ => "AddressQueryReply"
  | addressAd _ => "AddressAd"
  | peerHello _ _ => "P2pSendingFedId"
  | peerUntimed _ => "P2pMessage"
  | peerTimed _ => "P2pTimedMessage"
  | clockSyncT1 _ => "ClockSyncT1"
  | clockSyncT3 _ => "ClockSyncT3"
  | clockSyncT4 _ => "ClockSyncT4"
  | clockSyncCodedProbe _ => "ClockSyncCodedProbe"

/-- Whether a message travels on direct connections only. -/
def isPeer : Message → Bool
  | peerHello _ _ | peerUntimed _ | peerTimed _ => true
  | _ => false

/-- Whether a message belongs to clock synchronisation. -/
def isClockSync : Message → Bool
  | clockSyncT1 _ | clockSyncT3 _ | clockSyncT4 _ | clockSyncCodedProbe _ => true
  | _ => false

end Message

end FederatedTime
