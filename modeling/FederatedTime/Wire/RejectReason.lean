/-!
# Reasons for a rejection

Why the coordinator, or a peer federate, refused a connection, with the code that each reason has
on the wire.
-/

namespace FederatedTime

/-- Why a connection was refused. -/
inductive RejectReason where
  /-- The federation id does not match. -/
  | federationIdDoesNotMatch
  /-- A federate of this id is connected already. -/
  | federateIdInUse
  /-- The federate is not one of the federation. -/
  | federateIdOutOfRange
  /-- The message was not expected at this point. -/
  | unexpectedMessage
  /-- The connection was meant for another server. -/
  | wrongServer
deriving DecidableEq, Inhabited

namespace RejectReason

def all : List RejectReason :=
  [federationIdDoesNotMatch, federateIdInUse, federateIdOutOfRange, unexpectedMessage, wrongServer]

def code : RejectReason → UInt8
  | federationIdDoesNotMatch => 1
  | federateIdInUse => 2
  | federateIdOutOfRange => 3
  | unexpectedMessage => 4
  | wrongServer => 5

def text : RejectReason → String
  | federationIdDoesNotMatch => "FEDERATION_ID_DOES_NOT_MATCH"
  | federateIdInUse => "FEDERATE_ID_IN_USE"
  | federateIdOutOfRange => "FEDERATE_ID_OUT_OF_RANGE"
  | unexpectedMessage => "UNEXPECTED_MESSAGE"
  | wrongServer => "WRONG_SERVER"

/-- The reason of a code. -/
def ofCode? (code : UInt8) : Option RejectReason := all.find? (·.code = code)

theorem mem_all (r : RejectReason) : r ∈ all := by cases r <;> decide

theorem ofCode?_code (r : RejectReason) : ofCode? r.code = some r := by cases r <;> decide

end RejectReason

end FederatedTime
