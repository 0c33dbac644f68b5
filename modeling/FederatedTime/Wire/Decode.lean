import FederatedTime.Wire.Frame
import FederatedTime.Wire.Message

/-!
# Reading messages

`decode` reads one message from the front of a buffer. Nothing is taken from the buffer before a
whole frame is there. What is wrong with the first bytes of a frame is found out at once and leaves
the buffer alone; what is wrong with the rest of it is found out once the frame is there, and the
frame is taken.
-/

namespace FederatedTime.Wire

/-- What the fields of a message were read as: a message, or the fault of one of them. -/
abbrev Reading (α : Type) := Except Error α

/-- A port or a federate from a wider number. -/
def portOfNumber (n : Int32) : Reading UInt16 :=
  if 0 ≤ n.toInt ∧ n.toInt < 65536 then pure (UInt16.ofNat n.toInt.toNat)
  else throw (.invalidPort n)

/-- A port, or none for minus one. -/
def portOrNone (n : Int32) : Reading (Option UInt16) :=
  if n = -1 then pure none else some <$> portOfNumber n

/-- The address that the bytes before the first zero byte spell. -/
def addressOfText (text : Bytes) : Reading Ipv4 :=
  match Ipv4.ofChars? ((text.takeWhile (· ≠ 0)).map fun b => Char.ofNat b.toNat) with
  | some ip => pure ip
  | none => throw .invalidAddress

/-- The federation id that bytes spell. -/
def federationIdOfBytes (bytes : Bytes) : Reading String :=
  match String.fromUTF8? ⟨bytes.toArray⟩ with
  | some id => pure id
  | none => throw .invalidFederationId

def reasonOfCode (code : UInt8) : Reading RejectReason :=
  match RejectReason.ofCode? code with
  | some reason => pure reason
  | none => throw (.unknownRejectReason code)

/-! ## Bodies -/

def getTag : Getter Tag := fun s => do
  let (time, s) ← getInt64 s
  let (microstep, s) ← getUInt32 s
  pure (⟨time, microstep⟩, s)

/-- Read a number that makes up a whole body. -/
def getTime (message : Int64 → Message) : Getter (Reading Message) := fun s =>
  (getInt64 s).map fun (time, rest) => (pure (message time), rest)

/-- Read a tag that makes up a whole body. -/
def getTagged (message : Tag → Message) : Getter (Reading Message) := fun s =>
  (getTag s).map fun (t, rest) => (pure (message t), rest)

/-- Read a federate with its federation id. -/
def getName (message : FederateId → String → Message) : Getter (Reading Message) := fun s => do
  let (f, s) ← getUInt16 s
  let (n, s) ← getUInt8 s
  let (id, s) ← take n.toNat s
  pure (message ⟨f⟩ <$> federationIdOfBytes id, s)

/-- Read a payload with its destination. -/
def getUntimed (message : UntimedMessage → Message) : Getter (Reading Message) := fun s => do
  let (port, s) ← getUInt16 s
  let (f, s) ← getUInt16 s
  let (n, s) ← getUInt32 s
  let (payload, s) ← take n.toNat s
  pure (pure (message ⟨⟨port⟩, ⟨f⟩, payload⟩), s)

/-- Read a tagged payload with its destination. -/
def getTimed (message : TimedMessage → Message) : Getter (Reading Message) := fun s => do
  let (port, s) ← getUInt16 s
  let (f, s) ← getUInt16 s
  let (n, s) ← getUInt32 s
  let (t, s) ← getTag s
  let (payload, s) ← take n.toNat s
  pure (pure (message ⟨⟨port⟩, ⟨f⟩, t, payload⟩), s)

/-- Read the reply to a query for an address. -/
def getAddressReply : Getter (Reading Message) := fun s => do
  let (port, s) ← getInt32 s
  let (text, s) ← take addressTextWidth s
  let reading : Reading Message := do
    let port ← portOrNone port
    let ip ← addressOfText text
    pure (.addressQueryReply port ip)
  pure (reading, s)

/-- Read the body of a message of the given kind. -/
def getBody (direction : Direction) : MessageKind → Getter (Reading Message)
  | .reject => fun s =>
    (getUInt8 s).map fun (code, rest) => (Message.reject <$> reasonOfCode code, rest)
  | .ack => fun s => (getInt32 s).map fun (n, rest) => (Message.ack <$> portOrNone n, rest)
  | .join => getName .join
  | .peerHello => getName .peerHello
  | .timestamp => getTime .timestamp
  | .resign => fun s => some (pure .resign, s)
  | .untimed => getUntimed .untimed
  | .peerUntimed => getUntimed .peerUntimed
  | .timed => getTimed .timed
  | .peerTimed => getTimed .peerTimed
  | .nextEventTag => getTagged .nextEventTag
  | .timeAdvanceGrant => getTagged .timeAdvanceGrant
  | .logicalTagComplete => getTagged .logicalTagComplete
  | .stopRequest => getTime .stopRequest
  | .stopRequestReply => getTime .stopRequestReply
  | .stopGranted => getTime .stopGranted
  | .address =>
    match direction with
    | .toCoordinator => fun s =>
      (getUInt16 s).map fun (f, rest) => (pure (.addressQuery ⟨f⟩), rest)
    | .fromCoordinator => getAddressReply
  | .addressAd => fun s =>
    (getInt32 s).map fun (n, rest) => (Message.addressAd <$> portOfNumber n, rest)
  | .clockSyncT1 => getTime .clockSyncT1
  | .clockSyncT3 => fun s =>
    (getInt32 s).map fun (n, rest) => ((Message.clockSyncT3 ⟨·⟩) <$> portOfNumber n, rest)
  | .clockSyncT4 => getTime .clockSyncT4
  | .clockSyncCodedProbe => getTime .clockSyncCodedProbe

/-- Read a frame. -/
def getMessage (direction : Direction) : Getter (Reading Message)
  | [] => none
  | b :: body =>
    match MessageKind.ofByte? b with
    | some kind => getBody direction kind body
    | none => some (throw (.unknownMessageType b), body)

/-! ## Buffers -/

/-- What came of reading from a buffer, and what is left in it. No message means that the frame is
incomplete. -/
structure Decoded where
  result : Except Error (Option Message)
  rest : Bytes

/-- Read one message from the front of a buffer. -/
def decode (direction : Direction) (s : Bytes) : Decoded :=
  match frameLength? direction s with
  | .error e => ⟨.error e, s⟩
  | .ok none => ⟨.ok none, s⟩
  | .ok (some n) =>
    if s.length < n then ⟨.ok none, s⟩
    else
      match getMessage direction (s.take n) with
      | some (reading, _) => ⟨some <$> reading, s.drop n⟩
      | none => ⟨.ok none, s⟩

/-- A message that has been read leaves fewer bytes behind. -/
theorem length_rest_decode {direction : Direction} {s : Bytes} {m : Message}
    (h : (decode direction s).result = .ok (some m)) :
    (decode direction s).rest.length < s.length := by
  unfold decode at h ⊢
  split at h
  · cases h
  · cases h
  · rename_i n hn
    have hpos := frameLength?_pos hn
    split at h
    · cases h
    · rename_i hlen
      split at h
      · simp only [hlen, if_false, List.length_drop]
        omega
      · cases h

end FederatedTime.Wire
