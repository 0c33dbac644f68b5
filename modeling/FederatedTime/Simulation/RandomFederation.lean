import FederatedTime.Random.ChaCha
import FederatedTime.Simulation.State
import FederatedTime.Topology.Plan

/-!
# Random federations

A random federation without cycles: every federate may depend on each one of a smaller number. All
draws come from the stream of one seed, so equal parameters give equal federations.
-/

namespace FederatedTime.Simulation

/-- Parameters of a random federation. -/
structure RandomFederation where
  seed : UInt64 := 0
  size : Nat := 4
  /-- The probability that a federate depends on one of a smaller number. -/
  edgeProbability : Float := 0.5
  /-- The greatest delay of a connection. -/
  maxDelay : Interval := ⟨5⟩
  tagsPerFederate : Nat := 20
  /-- The probability that a federate leaves without resigning. -/
  disconnectProbability : Float := 0
  /-- After how many tags the first federate asks for a stop. -/
  stopAfter : Option Nat := none
  latency : Latency := {}

/-- Why there is no random federation of given parameters. -/
inductive SetupError where
  /-- Something was to happen with a probability that is not one. -/
  | invalidProbability
  /-- A delay was to be drawn, and the greatest one is negative. -/
  | negativeMaxDelay
  | invalidTopology (cause : TopologyError)
deriving DecidableEq

def SetupError.message : SetupError → String
  | invalidProbability => "Probability outside of [0, 1]"
  | negativeMaxDelay => "Negative maximal delay"
  | invalidTopology cause => "Invalid topology: " ++ cause.message

/-- Something that takes its chances from a random stream, and may find the parameters invalid. -/
abbrev Draw (α : Type) := StateT RandomStream (Except SetupError) α

/-- Draw a number below `bound`. -/
def drawBelow (width : RandomStream.Width) (bound : Nat) : Draw Nat :=
  modifyGet (·.below width bound)

/-- Draw whether something of probability `p` happens. -/
def drawChance (p : Float) : Draw Bool :=
  match Probability.ofFloat? p with
  | some p => modifyGet (·.chance p)
  | none => throw .invalidProbability

namespace RandomFederation

def federationId (p : RandomFederation) : String := "sim-" ++ toString p.seed.toNat

/-- All pairs of a federate and one of a greater number, in order. -/
def pairs (p : RandomFederation) : List (FederateId × FederateId) :=
  (List.range p.size).flatMap fun u =>
    (List.range' (u + 1) (p.size - (u + 1))).map fun d => (.ofNat u, .ofNat d)

/-- Draw the delay of a connection. -/
def drawDelay (p : RandomFederation) : Draw Interval :=
  if p.maxDelay.isNegative then throw .negativeMaxDelay
  else do
    let delay ← drawBelow .double (p.maxDelay.nanos.toInt.toNat + 1)
    pure ⟨.ofNat delay⟩

/-- Draw whether a federate depends on one of a smaller number, and at what delay. -/
def drawConnection (p : RandomFederation) (u d : FederateId) :
    Draw (Option Topology.Connection) := do
  if ← drawChance p.edgeProbability then
    let delay ← p.drawDelay
    pure (some ⟨u, d, delay⟩)
  else pure none

/-- Draw `count` tags, each of them between one and a hundred nanoseconds after the one before. -/
def drawTags : (count : Nat) → (time : Nat) → Draw (List Tag)
  | 0, _ => pure []
  | count + 1, time => do
    let step ← drawBelow .double 100
    let microstep ← drawBelow .single 2
    let time := time + step + 1
    let rest ← drawTags count time
    pure (⟨.ofNat time, .ofNat microstep⟩ :: rest)

/-- Draw the script of a federate. -/
def drawScript (p : RandomFederation) (f : FederateId) : Draw Script := do
  let tags ← drawTags p.tagsPerFederate 0
  let disconnects ← drawChance p.disconnectProbability
  pure ⟨tags, if disconnects then .disconnect else .resign,
    if f.index = 0 then p.stopAfter else none⟩

/-- Draw the connections of a federation, and build its topology. -/
def drawTopology (p : RandomFederation) : Draw Topology := do
  let connections ← p.pairs.mapM fun (u, d) => p.drawConnection u d
  match Topology.Plan.build ⟨p.federationId, p.size, connections.filterMap id⟩ with
  | .ok t => pure t
  | .error cause => throw (.invalidTopology cause)

/-- Draw a federation. -/
def draw (p : RandomFederation) : Draw (Topology × List Script) := do
  let t ← p.drawTopology
  let scripts ← t.ids.mapM p.drawScript
  pure (t, scripts)

/-- The simulation of the random federation of given parameters. -/
def simulation (p : RandomFederation) : Except SetupError Simulation := do
  let ((t, scripts), random) ← p.draw.run (ChaCha.stream p.seed)
  pure (ofScripts t scripts p.latency (RandomStream.below .double) random ChaCha.stream)

end RandomFederation

end FederatedTime.Simulation
