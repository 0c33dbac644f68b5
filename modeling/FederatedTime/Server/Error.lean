import FederatedTime.Wire.Error

/-!
# Errors of the server

What can go wrong where the coordinator meets the network.
-/

namespace FederatedTime.Server

/-- Why the server could not do something. -/
inductive Error where
  /-- Every port that was tried is taken. -/
  | noFreePort (host : String) (first last : UInt16)
  /-- An address could not be bound, for the given reason. -/
  | bind (address reason : String)
  | codec (cause : Wire.Error)
  /-- Part of the server ended before its time. -/
  | taskFailed (reason : String)
deriving DecidableEq

def Error.message : Error → String
  | noFreePort host first last =>
    "No free port on " ++ host ++ " in " ++ toString first.toNat ++ "..=" ++ toString last.toNat
  | bind address reason => "Failed to bind " ++ address ++ ": " ++ reason
  | codec cause => "Codec error: " ++ cause.message
  | taskFailed reason => "Task failed: " ++ reason

end FederatedTime.Server
