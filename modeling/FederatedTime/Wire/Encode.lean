import FederatedTime.Wire.Frame
import FederatedTime.Wire.Message

/-!
# Writing messages

`encode` appends the frame of a message to a buffer. Two things can be too long for their length
field, a federation id and a payload; the byte of the message's kind has been written by then and
stays behind.
-/

namespace FederatedTime.Wire

/-- A port, or minus one for none. -/
def putPort : Option UInt16 → Bytes
  | none => putInt32 (-1)
  | some port => putInt32 (Int32.ofNat port.toNat)

def putTag (t : Tag) : Bytes := putInt64 t.time ++ putUInt32 t.microstep

/-- The characters of an address, filled up with zero bytes. -/
def putAddress (ip : Ipv4) : Bytes :=
  let text := ip.chars.map fun c => UInt8.ofNat c.toNat
  text ++ List.replicate (addressTextWidth - text.length) 0

/-- The bytes of a federation id. -/
def utf8 (s : String) : Bytes := s.toByteArray.data.toList

/-- A federate with its federation id. -/
def putName (f : FederateId) (federationId : String) : Except Error Bytes :=
  let id := utf8 federationId
  if id.length < 256 then
    pure (putUInt16 f.number ++ UInt8.ofNat id.length :: id)
  else throw (.federationIdTooLong id.length)

/-- A payload with its destination, and with `extra` bytes before the payload itself. -/
def putPayload (port : PortId) (f : FederateId) (extra payload : Bytes) : Except Error Bytes :=
  let n := payload.length
  if maxPayload < n then throw (.payloadTooLarge n)
  else
    pure (putUInt16 port.number ++ putUInt16 f.number ++ putUInt32 (UInt32.ofNat n) ++ extra ++
      payload)

/-- What follows the byte of its kind in the frame of a message. -/
def putBody : Message → Except Error Bytes
  | .reject reason => pure [reason.code]
  | .ack udpPort => pure (putPort udpPort)
  | .join f federationId | .peerHello f federationId => putName f federationId
  | .timestamp time | .stopRequest time | .stopRequestReply time | .stopGranted time
  | .clockSyncT1 time | .clockSyncT4 time | .clockSyncCodedProbe time => pure (putInt64 time)
  | .resign => pure []
  | .untimed m | .peerUntimed m => putPayload m.port m.federate [] m.payload
  | .timed m | .peerTimed m => putPayload m.port m.federate (putTag m.tag) m.payload
  | .nextEventTag t | .timeAdvanceGrant t | .logicalTagComplete t => pure (putTag t)
  | .addressQuery f => pure (putUInt16 f.number)
  | .addressQueryReply port ip => pure (putPort port ++ putAddress ip)
  | .addressAd port => pure (putPort (some port))
  | .clockSyncT3 f => pure (putPort (some f.number))

/-- Append the frame of a message to a buffer. -/
def encode (m : Message) (buffer : Bytes) : Except Error Unit × Bytes :=
  match putBody m with
  | .ok body => (.ok (), buffer ++ m.typeByte :: body)
  | .error e => (.error e, buffer ++ [m.typeByte])

end FederatedTime.Wire
