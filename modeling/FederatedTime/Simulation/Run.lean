import FederatedTime.Coordinator.Step
import FederatedTime.Simulation.Check

/-!
# Runs

A run makes one delivery after the other until nothing is under way, or until a check finds a
violation. `potential` bounds the number of deliveries to come: every delivery has a weight, which
is more than the weights of all that can follow from it, and every federate has the weight of what
its script still holds.
-/

namespace FederatedTime

namespace Simulation

/-- A simulation after some activity, and the violation that ended it, if one did. -/
abbrev Checked := Simulation × Option Violation

/-- Go on unless there is a violation. -/
def Checked.andThen (first : Checked) (next : Simulation → Checked) : Checked :=
  match first with
  | (s, none) => next s
  | (s, some violation) => (s, some violation)

/-! ## Sending -/

/-- Schedule a delivery that travels over a link. -/
def transmit (s : Simulation) (l : Link) (d : Delivery) : Simulation :=
  let (time, network) := s.network.send s.now l
  { s with network := network, queue := s.queue.push time d }

/-- Let an event of `f` travel to the coordinator. -/
def sendToCoordinator (s : Simulation) (f : FederateId) (e : Event) : Simulation :=
  s.transmit (.toCoordinator f) (.toCoordinator e)

/-- Let a message travel to `f`. -/
def sendToFederate (s : Simulation) (f : FederateId) (message : Message) : Simulation :=
  s.transmit (.toFederate f) (.toFederate f message)

/-! ## The coordinator -/

/-- Remember a message that the coordinator sends to `f`, if it is a grant. -/
def noteMessage (s : Simulation) (f : FederateId) : Message → Simulation
  | .timeAdvanceGrant tag => { s with granted := s.granted.set f tag, grants := s.grants + 1 }
  | _ => s

/-- Do what the coordinator wants done. -/
def perform (s : Simulation) : Action → Checked
  | .send c message =>
    let f := federateOn c
    match s.messageFault? f message with
    | some violation => (s, some violation)
    | none => ((s.noteMessage f message).sendToFederate f message, none)
  | .closeConnection _ | .sendClockSync _ _ _ | .federationFinished => (s, none)

/-- Do all that the coordinator wants done, in order. -/
def performAll (s : Simulation) : List Action → Checked
  | [] => (s, none)
  | action :: actions => (s.perform action).andThen (·.performAll actions)

/-- The simulation with an event counted, if it is a message. -/
def countReceived (s : Simulation) : Event → Simulation
  | .messageReceived _ _ => { s with received := s.received + 1 }
  | _ => s

/-- An event reaches the coordinator. -/
def deliverToCoordinator (s : Simulation) (e : Event) : Checked :=
  let s := s.countReceived e
  let (coordinator, actions) := (s.coordinator.setTime s.now).handle e
  (performAll { s with coordinator := coordinator } actions).andThen fun s => (s, s.recordsFault?)

/-! ## The federates -/

/-- A federate starts: it opens its connection and joins. -/
def startFederate (s : Simulation) (f : FederateId) : Simulation :=
  let c := connectionOf f
  (s.sendToCoordinator f (.connectionOpened c (peerOf f))).sendToCoordinator f
    (.messageReceived c (.join f s.federationId))

/-- Remember a message that `f` sends, if it proposes a stop. -/
def noteProposal (s : Simulation) (f : FederateId) : Message → Simulation
  | .stopRequest time | .stopRequestReply time =>
    { s with proposals := s.proposals ++ [(f, .ofTime time)] }
  | _ => s

/-- Do what `f` wants done. -/
def emit (s : Simulation) (f : FederateId) : Output → Simulation
  | .send message =>
    (s.noteProposal f message).sendToCoordinator f (.messageReceived (connectionOf f) message)
  | .disconnect => s.sendToCoordinator f (.connectionLost (connectionOf f))

/-- The reading of the federates' clocks. -/
def clockReading (s : Simulation) : Int64 := .ofNat s.now

/-- A message reaches `f`. -/
def deliverToFederate (s : Simulation) (f : FederateId) (message : Message) : Checked :=
  match s.federates.get? f with
  | none => (s, none)
  | some federate =>
    let (federate, outputs) := federate.onMessage message s.clockReading
    let s := { s with federates := s.federates.set f federate }
    let s := outputs.foldl (·.emit f ·) s
    (s, s.startFault?)

/-! ## Steps -/

/-- Make a delivery. -/
def deliver (s : Simulation) : Delivery → Checked
  | .start f => (s.startFederate f, none)
  | .toCoordinator e => s.deliverToCoordinator e
  | .toFederate f message => s.deliverToFederate f message

/-- Make the next delivery, if anything is under way. -/
def step? (s : Simulation) : Option Checked := do
  let (next, queue) ← s.queue.pop?
  pure (deliver
    { s with queue := queue, now := next.time, delivered := s.delivered + 1 } next.event)

/-! ## Weights -/

section Weight

/- The number of federates of the federation. -/
variable (n : Nat)

/-- The weight of an event that makes the coordinator tell each federate at most three things, and
one of them a fourth. -/
def plainWeight : Nat := 3 * n + 2

/-- The weight of a message to a federate, without what the federate takes from its script. -/
def messageWeight : Message → Nat
  | .ack _ => 1 + 2 * plainWeight n
  | .stopRequest _ => 1 + plainWeight n
  | _ => 1

/-- The weight of a message to the coordinator. -/
def requestWeight : Message → Nat
  | .join _ _ => plainWeight n + messageWeight n (.ack none)
  | .stopRequest time => plainWeight n + n * messageWeight n (.stopRequest time)
  | _ => plainWeight n

/-- The weight of a delivery. -/
def Delivery.weight : Delivery → Nat
  | .start f => 2 + plainWeight n + requestWeight n (.join f "")
  | .toCoordinator (.messageReceived _ message) => requestWeight n message
  | .toCoordinator _ => plainWeight n
  | .toFederate _ message => messageWeight n message

/-- The weight of what a federate may still say on its own: for each of its tags that it has
completed it, that it asks for a stop, and which tag is next; and in the end its farewell. -/
def ScriptedFederate.weight (f : ScriptedFederate) : Nat :=
  if f.done then 0
  else f.pending.length * (2 * plainWeight n + requestWeight n (.stopRequest 0)) +
    2 * plainWeight n

end Weight

/-- The weight of several things. -/
def totalWeight {α : Type} (weight : α → Nat) (items : List α) : Nat :=
  items.foldr (fun a total => weight a + total) 0

/-- A bound on the number of deliveries to come. -/
def potential (s : Simulation) : Nat :=
  let n := s.coordinator.registry.size
  totalWeight (·.event.weight n) s.queue.entries + totalWeight (·.weight n) s.federates.toList

/-! ## Runs -/

/-- Make deliveries until nothing is under way, or a check fails, or `fuel` of them are made. -/
def runWithin : (fuel : Nat) → Simulation → Checked
  | 0, s => (s, none)
  | fuel + 1, s =>
    match s.step? with
    | none => (s, none)
    | some checked => checked.andThen (runWithin fuel)

/-- What is wrong with a simulation in which nothing is under way: every federate must have left,
and the federation must have ended. -/
def stallFault? (s : Simulation) : Option Violation :=
  if s.waiting.isEmpty && s.coordinator.finished then none
  else some (.stalled s.now s.waiting)

/-- Run a simulation to its end. -/
def run (s : Simulation) : Checked :=
  (s.runWithin s.potential).andThen fun s => (s, s.stallFault?)

end Simulation

end FederatedTime
