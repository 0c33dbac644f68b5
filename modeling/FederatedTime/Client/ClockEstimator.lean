import FederatedTime.Defaults

/-!
# Estimating the coordinator's clock

A federate estimates what to add to its clock to approximate the coordinator's. One exchange gives
six readings, three of each clock:

* `t1`, sent by the coordinator and received at `t2`;
* `t3`, when the federate sends its answer;
* `t4`, sent by the coordinator and received at `r4`;
* the coded probe, sent right behind `t4`.

An exchange counts only if the probe and `t4` arrive about as far apart as they were sent. The mean
clock error of a round of samples, attenuated, moves the offset. A corrected reading saturates; what
happens to any other result that does not fit in 64 bits is the parameter `o` of a calculation.
-/

namespace FederatedTime

open Nanoseconds (Overflow)

/-- The readings of an exchange up to its coded probe; those of the own clock are corrected. -/
structure ClockExchange where
  t1 : Option Int64 := none
  t2 : Int64 := 0
  t3 : Option Int64 := none
  t4 : Option Int64 := none
  r4 : Int64 := 0
deriving DecidableEq, Inhabited

/-- A complete exchange. -/
structure ClockSample where
  t1 : Int64
  t2 : Int64
  t3 : Int64
  t4 : Int64
  r4 : Int64
  /-- The coordinator's clock when it sent the probe. -/
  probe : Int64
  /-- The own clock when the probe arrived. -/
  probeReceived : Int64
deriving DecidableEq, Inhabited

namespace ClockSample

/-- By how much `t4` and the probe arrived further apart than they were sent. -/
def gapError (o : Overflow) (s : ClockSample) : Option Int64 := do
  let receiveGap ← o.sub s.probeReceived s.r4
  let sendGap ← o.sub s.probe s.t4
  o.sub receiveGap sendGap

/-- Whether nothing came between `t4` and the probe. -/
def isPure (o : Overflow) (s : ClockSample) (guardBand : Interval) : Option Bool := do
  let gapError ← s.gapError o
  return (← o.abs gapError) ≤ guardBand.nanos

/-- The time that the messages of the exchange spent travelling. -/
def roundTrip (o : Overflow) (s : ClockSample) : Option Int64 := do
  let away ← o.sub s.t4 s.t1
  let held ← o.sub s.t3 s.t2
  o.sub away held

/-- How far the coordinator's clock is ahead of the corrected own one. -/
def clockError (o : Overflow) (s : ClockSample) (roundTrip : Int64) : Option Int64 := do
  let delay ← o.div roundTrip 2
  let arrival ← o.add s.t1 delay
  o.sub arrival s.t2

end ClockSample

/-- What became of an exchange. -/
inductive SampleOutcome where
  /-- Some of its readings are missing. -/
  | incomplete
  /-- Something came between its messages. -/
  | discarded
  /-- It counts towards the present round. -/
  | accepted (clockError : Int64)
  /-- It completed a round, and the offset has moved. -/
  | offsetAdjusted (adjustment : Int64)
deriving DecidableEq

/-- An estimate of the coordinator's clock. -/
structure ClockEstimator where
  guardBand : Interval
  /-- The number of samples in a round. -/
  trials : Nat
  attenuation : Int
  /-- What to add to the own clock. -/
  offset : Int64 := 0
  exchange : ClockExchange := {}
  /-- The sum of the clock errors of the present round. -/
  errorSum : Int64 := 0
  /-- The number of samples in the present round. -/
  samples : Nat := 0
  /-- The round trip of the last sample that counted. -/
  roundTrip : Option Int64 := none
deriving DecidableEq

namespace ClockEstimator

/-- An estimator that has seen nothing. Rounds have at least one sample, and an attenuation below
one counts as one. -/
def start (guardBand : Interval) (trials : UInt32) (attenuation : Int64) : ClockEstimator where
  guardBand := guardBand
  trials := max trials.toNat 1
  attenuation := max attenuation.toInt 1

/-- An estimator with the default settings. -/
def standard : ClockEstimator :=
  start Defaults.guardBand Defaults.clockSyncTrials Defaults.clockSyncAttenuation

/-- A reading of the own clock, corrected by the offset. -/
def corrected (e : ClockEstimator) (reading : Int64) : Int64 :=
  Nanoseconds.saturate (reading.toInt + e.offset.toInt)

/-- `t1` has arrived; an exchange begins. -/
def onT1 (e : ClockEstimator) (t1 receivedAt : Int64) : ClockEstimator :=
  { e with exchange := { t1 := some t1, t2 := e.corrected receivedAt } }

/-- The answer has left. -/
def onT3Sent (e : ClockEstimator) (sentAt : Int64) : ClockEstimator :=
  { e with exchange := { e.exchange with t3 := some (e.corrected sentAt) } }

/-- `t4` has arrived. -/
def onT4 (e : ClockEstimator) (t4 receivedAt : Int64) : ClockEstimator :=
  { e with exchange := { e.exchange with t4 := some t4, r4 := e.corrected receivedAt } }

/-- The exchange in progress, completed by a probe. -/
def sample? (e : ClockEstimator) (probe receivedAt : Int64) : Option ClockSample :=
  match e.exchange.t1, e.exchange.t3, e.exchange.t4 with
  | some t1, some t3, some t4 =>
    some ⟨t1, e.exchange.t2, t3, t4, e.exchange.r4, probe, e.corrected receivedAt⟩
  | _, _, _ => none

/-- What a complete round adds to the offset. -/
def adjustment (o : Overflow) (e : ClockEstimator) : Option Int64 := do
  let meanError ← o.div e.errorSum e.samples
  o.div meanError e.attenuation

/-- The estimator with one more sample in its round. -/
def count (o : Overflow) (e : ClockEstimator) (roundTrip clockError : Int64) :
    Option ClockEstimator := do
  let errorSum ← o.add e.errorSum clockError
  return { e with roundTrip := some roundTrip, errorSum, samples := e.samples + 1 }

/-- The round is complete, and its mean error moves the offset. -/
def closeRound (o : Overflow) (e : ClockEstimator) : Option (ClockEstimator × SampleOutcome) := do
  let adjustment ← e.adjustment o
  let offset ← o.add e.offset adjustment
  return ({ e with offset, errorSum := 0, samples := 0 }, .offsetAdjusted adjustment)

/-- The coded probe has arrived; the exchange ends. -/
def onProbe (o : Overflow) (e : ClockEstimator) (probe receivedAt : Int64) :
    Option (ClockEstimator × SampleOutcome) :=
  let ended := { e with exchange := {} }
  match e.sample? probe receivedAt with
  | none => some (ended, .incomplete)
  | some s => do
    if ← s.isPure o e.guardBand then
      let roundTrip ← s.roundTrip o
      let clockError ← s.clockError o roundTrip
      let counted ← ended.count o roundTrip clockError
      if counted.samples < counted.trials then return (counted, .accepted clockError)
      else counted.closeRound o
    else return (ended, .discarded)

end ClockEstimator

end FederatedTime
