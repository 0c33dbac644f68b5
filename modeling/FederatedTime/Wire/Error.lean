import FederatedTime.Wire.RejectReason

/-!
# Wire errors

What can be wrong with a message that is to be encoded, or with bytes that are to be decoded.
-/

namespace FederatedTime.Wire

/-- Why a message cannot be encoded, or bytes cannot be decoded. -/
inductive Error where
  /-- The stream ended inside of a frame. -/
  | bytesRemaining
  | unknownMessageType (typeByte : UInt8)
  | unknownRejectReason (code : UInt8)
  | payloadTooLarge (bytes : Nat)
  | federationIdTooLong (bytes : Nat)
  /-- A federation id is no UTF-8 text. -/
  | invalidFederationId
  /-- A number is no port, or no federate. -/
  | invalidPort (number : Int32)
  | invalidAddress
deriving DecidableEq

namespace Error

def message : Error → String
  | bytesRemaining => "I/O error: bytes remaining on stream"
  | unknownMessageType b => "Unknown message type: " ++ toString b.toNat
  | unknownRejectReason c => "Unknown reject reason: " ++ toString c.toNat
  | payloadTooLarge n => "Payload of " ++ toString n ++ " bytes exceeds the frame limit"
  | federationIdTooLong n =>
    "Federation id of " ++ toString n ++ " bytes does not fit its length prefix"
  | invalidFederationId => "Federation id is not valid UTF-8"
  | invalidPort n => "Invalid port: " ++ toString n.toInt
  | invalidAddress => "Invalid IPv4 address text"

/-- Whether the bytes themselves are at fault, rather than their transport. -/
def isMalformed : Error → Bool
  | bytesRemaining => false
  | _ => true

/-- The reason to give a peer whose bytes could not be decoded. -/
def rejectReason : Error → RejectReason
  | invalidFederationId | federationIdTooLong _ => .federationIdDoesNotMatch
  | _ => .unexpectedMessage

end Error

end FederatedTime.Wire
