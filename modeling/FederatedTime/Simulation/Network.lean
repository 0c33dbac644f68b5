import FederatedTime.Federate
import FederatedTime.Random.Stream
import FederatedTime.Time.Duration

/-!
# The simulated network

A message travels for the latency of the network and a random part of its jitter, however that is
drawn. Each direction of each connection is a link, and on a link no message overtakes another one.
-/

namespace FederatedTime.Simulation

/-- One direction of the connection of a federate. -/
inductive Link where
  | toCoordinator (federate : FederateId)
  | toFederate (federate : FederateId)
deriving DecidableEq, Inhabited

/-- How long messages travel. -/
structure Latency where
  /-- The least time. -/
  base : Duration := .ofMillis 1
  /-- The greatest time beyond that; all of it that does not fit in 64 bits is left out. -/
  jitter : Duration := .ofMillis 2
deriving DecidableEq, Inhabited

/-- A network with what has been sent on it. -/
structure Network where
  latency : Latency
  /-- How the network draws numbers. -/
  drawing : Drawing
  random : RandomStream
  /-- When the last message on each link that has been used arrives. -/
  lastArrivals : List (Link × Duration) := []

namespace Network

/-- When the last message on a link arrives; zero if there was none. -/
def lastArrival (n : Network) (l : Link) : Duration :=
  ((n.lastArrivals.find? (·.1 = l)).map (·.2)).getD 0

/-- The network after a message that arrives at `time` has been sent on a link. -/
def noteArrival (n : Network) (l : Link) (time : Duration) : Network :=
  { n with lastArrivals := (l, time) :: n.lastArrivals.filter (·.1 ≠ l) }

/-- Draw the jitter of a message. -/
def drawJitter (n : Network) : Duration × Network :=
  let greatest := n.latency.jitter % UInt64.size
  if greatest = 0 then (0, n)
  else
    let (jitter, random) := n.drawing n.random (greatest + 1)
    (jitter, { n with random := random })

/-- When a message that is sent on a link at `now` arrives. -/
def send (n : Network) (now : Duration) (l : Link) : Duration × Network :=
  let (jitter, n) := n.drawJitter
  let time := max (now + n.latency.base + jitter) (n.lastArrival l)
  (time, n.noteArrival l time)

end Network

end FederatedTime.Simulation
