import FederatedTime.Net.Address
import FederatedTime.Roster
import FederatedTime.Wire.Message

/-!
# The address directory

Where federates accept direct connections from their peers. A federate advertises a port; its
address is the one that its connection to the coordinator comes from. Queries for an address that
is not known are answered all the same, without a port.
-/

namespace FederatedTime

/-- Where a federate accepts peers. -/
structure PeerAddress where
  ip : Ipv4
  port : UInt16
deriving DecidableEq, Inhabited

/-- The advertised address of each federate. -/
structure Directory where
  entries : Roster (Option PeerAddress)
deriving DecidableEq

namespace Directory

/-- The directory of `n` federates that have advertised nothing. -/
def empty (n : Nat) : Directory := ⟨.replicate n none⟩

/-- Note that `f`, which is at `host`, accepts peers on a port. -/
def advertise (d : Directory) (f : FederateId) (host : IpAddress) (port : UInt16) : Directory :=
  ⟨d.entries.set f (some ⟨host.toIpv4, port⟩)⟩

/-- Withdraw what `f` has advertised. -/
def forget (d : Directory) (f : FederateId) : Directory := ⟨d.entries.set f none⟩

/-- Where `f` accepts peers, if that is known. -/
def lookup (d : Directory) (f : FederateId) : Option PeerAddress := d.entries.getD f none

/-- The reply to a query for `f`. -/
def reply (d : Directory) (f : FederateId) : Message :=
  match d.lookup f with
  | some address => .addressQueryReply (some address.port) address.ip
  | none => .addressQueryReply none .unspecified

end Directory

end FederatedTime
