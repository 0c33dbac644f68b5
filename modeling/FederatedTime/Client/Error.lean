import FederatedTime.Wire.Error
import FederatedTime.Wire.Message

/-!
# Errors of a federate

What can go wrong between a federate and the coordinator, or between two federates.
-/

namespace FederatedTime.Client

/-- Why a federate could not do something. -/
inductive Error where
  | codec (cause : Wire.Error)
  | rejected (reason : RejectReason)
  /-- No coordinator of the federation answered. -/
  | notFound (host federationId : String) (attempts : Nat)
  | connectionClosed
  | unexpectedMessage (message : Message)
  | timeout
  /-- A federate has never advertised where it accepts peers. -/
  | addressUnknown (federate : FederateId)
deriving DecidableEq

def Error.message : Error → String
  | codec cause => "Codec error: " ++ cause.message
  | rejected reason => "Rejected: " ++ reason.text
  | notFound host federationId attempts =>
    "No RTI for federation " ++ federationId ++ " found on " ++ host ++ " after " ++
      toString attempts ++ " attempts"
  | connectionClosed => "Connection closed"
  | unexpectedMessage m => "Unexpected message: " ++ m.typeName
  | timeout => "Operation timed out"
  | addressUnknown f =>
    "Address of federate " ++ toString f.index ++ " still unknown after retries"

end FederatedTime.Client
