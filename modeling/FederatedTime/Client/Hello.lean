import FederatedTime.Wire.Message

/-!
# Greeting a peer

The first message on a direct connection between two federates names the sender and its federation.
-/

namespace FederatedTime.Client

/-- The federate that greets a member of `federationId`, or the reason to refuse it. -/
def greeter (federationId : String) : Message → Except RejectReason FederateId
  | .peerHello f theirs =>
    if theirs = federationId then .ok f else .error .federationIdDoesNotMatch
  | _ => .error .wrongServer

end FederatedTime.Client
