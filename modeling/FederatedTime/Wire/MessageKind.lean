/-!
# Kinds of messages

Each message opens with a byte that tells its kind. A query for an address and the reply to it are
of one kind: the direction of travel tells them apart.
-/

namespace FederatedTime

/-- What the first byte of a message tells. -/
inductive MessageKind where
  | reject
  | join
  | timestamp
  | untimed
  | resign
  | timed
  | nextEventTag
  | timeAdvanceGrant
  | logicalTagComplete
  | stopRequest
  | stopRequestReply
  | stopGranted
  | address
  | addressAd
  | peerHello
  | peerUntimed
  | peerTimed
  | clockSyncT1
  | clockSyncT3
  | clockSyncT4
  | clockSyncCodedProbe
  | ack
deriving DecidableEq, Inhabited

namespace MessageKind

def all : List MessageKind :=
  [reject, join, timestamp, untimed, resign, timed, nextEventTag, timeAdvanceGrant,
    logicalTagComplete, stopRequest, stopRequestReply, stopGranted, address, addressAd, peerHello,
    peerUntimed, peerTimed, clockSyncT1, clockSyncT3, clockSyncT4, clockSyncCodedProbe, ack]

/-- The byte of a kind. -/
def byte : MessageKind → UInt8
  | reject => 0
  | join => 1
  | timestamp => 2
  | untimed => 3
  | resign => 4
  | timed => 5
  | nextEventTag => 6
  | timeAdvanceGrant => 7
  | logicalTagComplete => 8
  | stopRequest => 9
  | stopRequestReply => 10
  | stopGranted => 11
  | address => 12
  | addressAd => 13
  | peerHello => 14
  | peerUntimed => 15
  | peerTimed => 16
  | clockSyncT1 => 17
  | clockSyncT3 => 18
  | clockSyncT4 => 19
  | clockSyncCodedProbe => 20
  | ack => 255

/-- The kind of a byte. -/
def ofByte? (b : UInt8) : Option MessageKind := all.find? (·.byte = b)

theorem mem_all (k : MessageKind) : k ∈ all := by cases k <;> decide

theorem ofByte?_byte (k : MessageKind) : ofByte? k.byte = some k := by cases k <;> decide

theorem byte_of_ofByte? {b : UInt8} {k : MessageKind} (h : ofByte? b = some k) : k.byte = b := by
  simpa using List.find?_some h

end MessageKind

end FederatedTime
