import FederatedTime.Wire.Bytes
import FederatedTime.Wire.Error
import FederatedTime.Wire.MessageKind

/-!
# Frames

A message travels as a frame: the byte of its kind, and a body. The length of a frame is known from
the first few of its bytes, so that a reader can wait until all of them have arrived. Payloads
above `maxPayload` are refused as soon as their length is known.
-/

namespace FederatedTime.Wire

/-- Which way a stream of bytes travels. Connections between federates count as going to the
coordinator. -/
inductive Direction where
  | toCoordinator
  | fromCoordinator
deriving DecidableEq, Inhabited

/-- The largest payload of a message, in bytes. -/
def maxPayload : Nat := 16777216

/-- The width of the text of an address in a reply. -/
def addressTextWidth : Nat := 16

/-- The length of a timestamp and a microstep. -/
def tagLength : Nat := 12

/-- The length of the destination and of the length field of a payload. -/
def payloadHeaderLength : Nat := 8

/-- The length of a body whose federation id has its length in the third byte. -/
def namedBodyLength? (body : Bytes) : Option Nat := body[2]?.map fun n => 3 + n.toNat

/-- The length of a body with a payload, and with `extra` bytes beside it. -/
def payloadBodyLength? (extra : Nat) (body : Bytes) : Except Error (Option Nat) :=
  let field := (body.drop 4).take 4
  if field.length < 4 then pure none
  else
    let n := ofBigEndian field
    if maxPayload < n then throw (.payloadTooLarge n)
    else pure (some (payloadHeaderLength + extra + n))

/-- The length of the body of a message of the given kind, as soon as the bytes of it that have
arrived tell. -/
def bodyLength? (direction : Direction) (body : Bytes) :
    MessageKind → Except Error (Option Nat)
  | .resign => pure (some 0)
  | .reject => pure (some 1)
  | .ack | .addressAd | .clockSyncT3 => pure (some 4)
  | .timestamp | .stopRequest | .stopRequestReply | .stopGranted | .clockSyncT1 | .clockSyncT4
  | .clockSyncCodedProbe => pure (some 8)
  | .nextEventTag | .timeAdvanceGrant | .logicalTagComplete => pure (some tagLength)
  | .address =>
    match direction with
    | .toCoordinator => pure (some 2)
    | .fromCoordinator => pure (some (4 + addressTextWidth))
  | .join | .peerHello => pure (namedBodyLength? body)
  | .untimed | .peerUntimed => payloadBodyLength? 0 body
  | .timed | .peerTimed => payloadBodyLength? tagLength body

/-- The length of the frame that opens a byte string, as soon as the bytes that have arrived
tell. -/
def frameLength? (direction : Direction) : Bytes → Except Error (Option Nat)
  | [] => pure none
  | b :: body =>
    match MessageKind.ofByte? b with
    | none => throw (.unknownMessageType b)
    | some kind =>
      match bodyLength? direction body kind with
      | .error e => throw e
      | .ok none => pure none
      | .ok (some n) => pure (some (n + 1))

theorem frameLength?_pos {direction : Direction} {s : Bytes} {n : Nat}
    (h : frameLength? direction s = .ok (some n)) : 0 < n := by
  unfold frameLength? at h
  split at h
  · cases h
  · split at h
    · cases h
    · split at h <;> cases h
      exact Nat.succ_pos _

end FederatedTime.Wire
