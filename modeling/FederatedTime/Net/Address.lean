import FederatedTime.Net.Ipv6

/-!
# Addresses

Addresses of hosts and of sockets, of either version of the protocol.
-/

namespace FederatedTime

/-- The address of a host. -/
inductive IpAddress where
  | v4 (ip : Ipv4)
  | v6 (ip : Ipv6)
deriving DecidableEq, Inhabited

namespace IpAddress

def text : IpAddress → String
  | v4 ip => ip.text
  | v6 ip => ip.text

/-- The IPv4 form of an address; what has none is unspecified. -/
def toIpv4 : IpAddress → Ipv4
  | v4 ip => ip
  | v6 ip => if ip = .loopback then .localhost else ip.mapped?.getD .unspecified

/-- The address that a whole text spells. -/
def ofText? (s : String) : Option IpAddress :=
  (Ipv4.ofChars? s.toList).map v4 <|> (Ipv6.ofChars? s.toList).map v6

end IpAddress

/-- The address of a socket; one of version 6 has a scope, which is zero in most. -/
inductive SocketAddress where
  | v4 (ip : Ipv4) (port : UInt16)
  | v6 (ip : Ipv6) (scope : UInt32) (port : UInt16)
deriving DecidableEq, Inhabited

namespace SocketAddress

/-- The host of a socket. -/
def ip : SocketAddress → IpAddress
  | v4 ip _ => .v4 ip
  | v6 ip _ _ => .v6 ip

def text : SocketAddress → String
  | v4 ip port => ip.text ++ ":" ++ toString port.toNat
  | v6 ip scope port =>
    let scopeText := if scope = 0 then "" else "%" ++ toString scope.toNat
    "[" ++ ip.text ++ scopeText ++ "]:" ++ toString port.toNat

/-- Read a port behind a colon. -/
def readPort : Text.Reader UInt16 := fun cs => do
  let (_, cs) ← Text.mark ':' cs
  let (port, cs) ← Net.decimal 65535 cs
  pure (UInt16.ofNat port, cs)

def readV4 : Text.Reader SocketAddress := fun cs => do
  let (ip, cs) ← Ipv4.read cs
  let (port, cs) ← readPort cs
  pure (v4 ip port, cs)

/-- Read a scope behind a percent sign; without one the scope is zero. -/
def readScope : Text.Reader UInt32 := fun cs =>
  match Text.mark '%' cs with
  | some (_, rest) => (Net.decimal 4294967295 rest).map fun (n, rest) => (UInt32.ofNat n, rest)
  | none => some (0, cs)

def readV6 : Text.Reader SocketAddress := fun cs => do
  let (_, cs) ← Text.mark '[' cs
  let (ip, cs) ← Ipv6.read cs
  let (scope, cs) ← readScope cs
  let (_, cs) ← Text.mark ']' cs
  let (port, cs) ← readPort cs
  pure (v6 ip scope port, cs)

/-- The socket address that a whole text spells. -/
def ofText? (s : String) : Option SocketAddress :=
  Text.whole readV4 s.toList <|> Text.whole readV6 s.toList

end SocketAddress

end FederatedTime
