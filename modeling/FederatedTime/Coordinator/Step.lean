import FederatedTime.Coordinator.State

/-!
# Steps of the coordinator

`Coordinator.handle` answers an event with the next state and the actions to perform, in order. The
parts of a step are steps themselves, put one behind the other with `andThen`.
-/

namespace FederatedTime

namespace Coordinator

/-- The state after a step, and the actions that the step asks for. -/
abbrev Step := Coordinator × List Action

/-- A step that changes nothing and asks for nothing. -/
def idle (s : Coordinator) : Step := (s, [])

/-- Two steps in a row. -/
def Step.andThen (first : Step) (next : Coordinator → Step) : Step :=
  let (s, actions) := first
  let (s, more) := next s
  (s, actions ++ more)

/-! ## Sending -/

/-- The messages that tell `message` to `f`, which is one if `f` is joined and none otherwise. -/
def sendTo (s : Coordinator) (f : FederateId) (message : Message) : List Action :=
  ((s.registry.connection? f).map fun c => Action.send c message).toList

/-- The messages that tell `message` to every joined federate. -/
def broadcast (s : Coordinator) (message : Message) : List Action :=
  s.registry.connections.map fun c => .send c message

/-! ## Time advance -/

/-- Make all grants that follow from a change to the `seeds`. -/
def advance (s : Coordinator) (seeds : List FederateId) : Step :=
  let (registry, grants) := s.registry.sweep s.stopTag seeds
  let s := { s with registry := registry }
  (s, grants.flatMap fun g => s.sendTo g.federate (.timeAdvanceGrant g.tag))

/-- The next event of `f` is at `tag`. A tag below what `f` has completed is passed over. -/
def onNextEvent (s : Coordinator) (f : FederateId) (tag : Tag) : Step :=
  match s.registry.get? f with
  | none => s.idle
  | some record =>
    if tag < record.completed then s.idle
    else
      { s with registry := s.registry.modify f ({ · with nextEvent := tag }) }.advance [f]

/-- The record of a federate that has completed `tag`, which is then no later than its next
event. -/
def completing (tag : Tag) (record : FederateRecord) : FederateRecord :=
  { record with completed := tag, nextEvent := max record.nextEvent tag }

/-- The federate `f` has completed `tag`. A tag that it had completed before is passed over. -/
def onCompleted (s : Coordinator) (f : FederateId) (tag : Tag) : Step :=
  match s.registry.get? f with
  | none => s.idle
  | some record =>
    if tag ≤ record.completed then s.idle
    else
      { s with registry := s.registry.modify f (completing tag) }.advance
        (s.registry.topology.downstream f)

/-! ## Stop and start -/

/-- Do what the negotiation of the stop asks for. -/
def settleStop (s : Coordinator) (result : StopNegotiation × StopOutcome) : Step :=
  let (stop, outcome) := result
  let s := { s with stop := stop }
  match outcome with
  | .ignored | .waiting => s.idle
  | .forward federates proposal =>
    (s, federates.flatMap fun f => s.sendTo f (.stopRequest proposal.time))
  | .agreed tag => (s, s.broadcast (.stopGranted tag.time))

/-- Note that a contribution of `f` has been counted, unless it was not. -/
def markCounted (s : Coordinator) (f : FederateId) (outcome : StopOutcome) : Coordinator :=
  if outcome = .ignored then s
  else { s with registry := s.registry.modify f ({ · with stopCounted := true }) }

/-- Whether a contribution of `f` has been counted. -/
def isCounted (s : Coordinator) (f : FederateId) : Bool :=
  ((s.registry.get? f).map (·.stopCounted)).getD false

/-- The federate `f` contributes to the negotiation of the stop; it may do so once. -/
def contribute (s : Coordinator) (f : FederateId)
    (result : StopNegotiation × StopOutcome) : Step :=
  if s.isCounted f then s.idle else (s.markCounted f result.2).settleStop result

def onStopRequest (s : Coordinator) (f : FederateId) (proposal : Tag) : Step :=
  s.contribute f (s.stop.request f proposal s.registry.connected)

def onStopReply (s : Coordinator) (f : FederateId) (tag : Tag) : Step :=
  s.contribute f (s.stop.reply f tag)

/-- Do what the negotiation of the start asks for; `f` is the federate whose proposal it was. -/
def settleStart (s : Coordinator) (f : FederateId) (result : StartNegotiation × StartOutcome) :
    Step :=
  let (start, outcome) := result
  let s := { s with start := start }
  match outcome with
  | .waiting => s.idle
  | .fixed time => (s, s.broadcast (.timestamp time))
  | .late time => (s, s.sendTo f (.timestamp time))

def onTimestamp (s : Coordinator) (f : FederateId) (proposal : Int64) : Step :=
  s.settleStart f (s.start.propose f proposal s.registry)

/-! ## Departure -/

/-- The state without the session of `f`. -/
def forget (s : Coordinator) (f : FederateId) (c : ConnectionId) : Coordinator :=
  { s with
    sessions := s.sessions.remove c
    registry := s.registry.modify f (·.leave)
    clock := s.clock.forget f
    directory := s.directory.forget f }

/-- Announce the end of the federation, the first time that every federate is gone. -/
def finishIfDone (s : Coordinator) : Step :=
  if !s.finished && s.registry.allResigned then
    ({ s with finished := true }, [.federationFinished])
  else s.idle

/-- End the session of `f` on `c`. From here on `f` blocks nobody downstream. -/
def depart (s : Coordinator) (f : FederateId) (c : ConnectionId) : Step :=
  match s.registry.get? f with
  | none => ({ s with sessions := s.sessions.remove c }, [.closeConnection c])
  | some record =>
    Step.andThen (s.forget f c, [.closeConnection c]) fun s =>
    (s.settleStop (s.stop.departure f record.completed)).andThen fun s =>
    (s.settleStart f (s.start.departure s.registry)).andThen fun s =>
    (s.advance (s.registry.topology.downstream f)).andThen finishIfDone

/-- Refuse what `f` has sent on `c`, and end its session. -/
def expel (s : Coordinator) (f : FederateId) (c : ConnectionId) : Step :=
  Step.andThen (s, [.send c (.reject .unexpectedMessage)]) (·.depart f c)

/-! ## Joining -/

/-- Refuse a connection that has not joined. -/
def refuse (s : Coordinator) (c : ConnectionId) (reason : RejectReason) : Step :=
  ({ s with sessions := s.sessions.remove c }, [.send c (.reject reason), .closeConnection c])

/-- Why a join is refused, if it is. -/
def joinFault? (s : Coordinator) (f : FederateId) (federationId : String) :
    Option RejectReason :=
  if federationId ≠ s.registry.topology.federationId then some .federationIdDoesNotMatch
  else if !s.registry.topology.contains f then some .federateIdOutOfRange
  else if s.registry.isConnected f then some .federateIdInUse
  else none

/-- The state in which `f` has joined on `c`. -/
def admitted (s : Coordinator) (c : ConnectionId) (peer : SocketAddress) (f : FederateId) :
    Coordinator :=
  { s with
    registry := s.registry.modify f (·.join c peer.ip)
    sessions := s.sessions.put c (.joined f) }

/-- The first message on a connection. -/
def onHandshake (s : Coordinator) (c : ConnectionId) (peer : SocketAddress) :
    Message → Step
  | .join f federationId =>
    match s.joinFault? f federationId with
    | some reason => s.refuse c reason
    | none => (s.admitted c peer f, [.send c (.ack s.settings.advertisedUdpPort)])
  | _ => s.refuse c .unexpectedMessage

/-! ## Messages of joined federates -/

/-- The address that `f` advertises. -/
def onAddressAd (s : Coordinator) (f : FederateId) (port : UInt16) : Coordinator :=
  match (s.registry.get? f).bind (·.host) with
  | some host => { s with directory := s.directory.advertise f host port }
  | none => s

/-- A message of the joined federate `f`. -/
def onMessage (s : Coordinator) (f : FederateId) (message : Message) : Step :=
  match message with
  | .timestamp proposal => s.onTimestamp f proposal
  | .nextEventTag tag => s.onNextEvent f tag
  | .logicalTagComplete tag => s.onCompleted f tag
  | .untimed m => (s, s.sendTo m.federate message)
  | .timed m => (s, s.sendTo m.federate message)
  | .stopRequest time => s.onStopRequest f (.ofTime time)
  | .stopRequestReply time => s.onStopReply f (.ofTime time)
  | .addressQuery target => (s, s.sendTo f (s.directory.reply target))
  | .addressAd port => (s.onAddressAd f port).idle
  | .resign =>
    match s.registry.connection? f with
    | some c => s.depart f c
    | none => s.idle
  | _ =>
    match s.registry.connection? f with
    | some c => s.expel f c
    | none => s.idle

/-! ## Connections -/

def onMessageReceived (s : Coordinator) (c : ConnectionId) (message : Message) : Step :=
  match s.sessions.get? c with
  | some (.handshaking peer) => s.onHandshake c peer message
  | some (.joined f) => s.onMessage f message
  | none => s.idle

def onMalformed (s : Coordinator) (c : ConnectionId) (reason : RejectReason) : Step :=
  match s.sessions.get? c with
  | some (.handshaking _) => s.refuse c reason
  | some (.joined f) => s.expel f c
  | none => (s, [.closeConnection c])

/-- The session goes before the departure, which removes it once more. -/
def onConnectionLost (s : Coordinator) (c : ConnectionId) : Step :=
  let lost := { s with sessions := s.sessions.remove c }
  match s.sessions.get? c with
  | some (.joined f) => lost.depart f c
  | some (.handshaking _) => (lost, [.closeConnection c])
  | none => s.idle

def onHandshakeTimedOut (s : Coordinator) (c : ConnectionId) : Step :=
  match s.sessions.get? c with
  | some (.handshaking _) =>
    ({ s with sessions := s.sessions.remove c }, [.closeConnection c])
  | _ => s.idle

/-! ## Clock synchronisation -/

/-- The record of a federate whose clock is synchronised at an address. -/
def registerClock (address : SocketAddress) (record : FederateRecord) : FederateRecord :=
  if record.udpAddress = some address then record
  else { record with udpAddress := some address, mode := .realtime }

/-- A datagram from `address` asks for the time in the name of `f`. -/
def onClockSyncProbe (s : Coordinator) (f : FederateId) (address : SocketAddress) : Step :=
  if s.clock.isEnabled && s.registry.isConnected f then
    let s := { s with registry := s.registry.modify f (registerClock address) }
    let (clock, actions) := s.clock.probe s.now f address
    ({ s with clock := clock }, actions)
  else s.idle

/-- The joined federates whose clocks are synchronised, with their addresses. -/
def clockTargets (s : Coordinator) : List (FederateId × SocketAddress) :=
  s.registry.records.toList.filterMap fun record =>
    if record.isConnected && record.mode == .realtime then
      record.udpAddress.map fun address => (record.id, address)
    else none

def onClockSyncTimer (s : Coordinator) : Step :=
  let (clock, actions) := s.clock.timer s.now s.clockTargets
  ({ s with clock := clock }, actions)

/-! ## The step -/

/-- Answer an event. -/
def handle (s : Coordinator) : Event → Step
  | .connectionOpened c peer => ({ s with sessions := s.sessions.put c (.handshaking peer) }, [])
  | .messageReceived c message => s.onMessageReceived c message
  | .malformedMessage c reason => s.onMalformed c reason
  | .connectionLost c => s.onConnectionLost c
  | .handshakeTimedOut c => s.onHandshakeTimedOut c
  | .clockSyncProbe f address => s.onClockSyncProbe f address
  | .clockSyncTimer => s.onClockSyncTimer

/-- Answer events one after the other: the last state, and the actions of each. -/
def handleAll (s : Coordinator) : List Event → Coordinator × List (List Action)
  | [] => (s, [])
  | e :: events =>
    let (s, actions) := s.handle e
    let (s, more) := s.handleAll events
    (s, actions :: more)

end Coordinator

end FederatedTime
