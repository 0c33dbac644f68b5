import FederatedTime.Client.ClockEstimator
import FederatedTime.Proofs.Time.Overflow

/-!
# What an estimator calculates

`Probed` says in exact integers what a coded probe brings about, as far as all results fit
(`probed_of_onProbe`). An `Estimation` is the work of an estimator over any calls in any order: its
history has one moment for each call. Where a program that stops at an overflow comes through,
every other program does the same (`Estimation.of_stops`).
-/

namespace FederatedTime

open Nanoseconds (Fits Overflow)
open Nanoseconds.Overflow (Steady steady_fit steady_some)

/-! ## A sample -/

namespace ClockSample

variable {s : ClockSample} {guardBand : Interval} {n roundTrip : Int64} {pure : Bool}

/-- By how much `t4` and the probe arrived further apart than they were sent. -/
def spread (s : ClockSample) : Int :=
  (s.probeReceived.toInt - s.r4.toInt) - (s.probe.toInt - s.t4.toInt)

/-- The time spent travelling. -/
def travel (s : ClockSample) : Int :=
  (s.t4.toInt - s.t1.toInt) - (s.t3.toInt - s.t2.toInt)

/-- How far the coordinator's clock is ahead. -/
def lead (s : ClockSample) : Int := s.t1.toInt + s.travel.tdiv 2 - s.t2.toInt

theorem toInt_gapError (h : s.gapError .stops = some n) : n.toInt = s.spread := by
  obtain ⟨receiveGap, hreceive, h⟩ := Option.bind_eq_some_iff.1 h
  obtain ⟨sendGap, hsend, h⟩ := Option.bind_eq_some_iff.1 h
  rw [Overflow.sub, Overflow.stops_fit_eq_some_iff] at hreceive hsend h
  rw [h, hreceive, hsend, spread]

theorem isPure_iff (h : s.isPure .stops guardBand = some pure) :
    pure = true ↔ s.spread.natAbs ≤ guardBand.nanos.toInt := by
  obtain ⟨gapError, hgap, h⟩ := Option.bind_eq_some_iff.1 h
  obtain ⟨size, hsize, h⟩ := Option.bind_eq_some_iff.1 h
  rw [Overflow.abs, Overflow.stops_fit_eq_some_iff, toInt_gapError hgap] at hsize
  rw [← Option.some.inj h, decide_eq_true_eq, Int64.le_iff_toInt_le, hsize]

theorem toInt_roundTrip (h : s.roundTrip .stops = some n) : n.toInt = s.travel := by
  obtain ⟨away, haway, h⟩ := Option.bind_eq_some_iff.1 h
  obtain ⟨held, hheld, h⟩ := Option.bind_eq_some_iff.1 h
  rw [Overflow.sub, Overflow.stops_fit_eq_some_iff] at haway hheld h
  rw [h, haway, hheld, travel]

theorem toInt_clockError (hroundTrip : roundTrip.toInt = s.travel)
    (h : s.clockError .stops roundTrip = some n) : n.toInt = s.lead := by
  obtain ⟨delay, hdelay, h⟩ := Option.bind_eq_some_iff.1 h
  obtain ⟨arrival, harrival, h⟩ := Option.bind_eq_some_iff.1 h
  rw [Overflow.div, Overflow.stops_fit_eq_some_iff] at hdelay
  rw [Overflow.add, Overflow.stops_fit_eq_some_iff] at harrival
  rw [Overflow.sub, Overflow.stops_fit_eq_some_iff] at h
  rw [h, harrival, hdelay, hroundTrip, lead]

theorem steady_isPure (s : ClockSample) (guardBand : Interval) :
    Steady fun o => s.isPure o guardBand := by
  have hgap : Steady fun o => s.gapError o :=
    (steady_fit _).bind fun _ => (steady_fit _).bind fun _ => steady_fit _
  exact hgap.bind fun _ => (steady_fit _).bind fun _ => steady_some _

theorem steady_roundTrip (s : ClockSample) : Steady fun o => s.roundTrip o :=
  (steady_fit _).bind fun _ => (steady_fit _).bind fun _ => steady_fit _

theorem steady_clockError (s : ClockSample) (roundTrip : Int64) :
    Steady fun o => s.clockError o roundTrip :=
  (steady_fit _).bind fun _ => (steady_fit _).bind fun _ => steady_fit _

end ClockSample

/-! ## A probe -/

namespace ClockEstimator

variable {e e' : ClockEstimator} {probe receivedAt roundTrip clockError : Int64}
variable {outcome : SampleOutcome}

/-- What a complete exchange brings about, as long as all results fit. -/
inductive Sampled (e : ClockEstimator) (s : ClockSample) : ClockEstimator → SampleOutcome → Prop
  | discarded (himpure : e.guardBand.nanos.toInt < s.spread.natAbs) :
      Sampled e s { e with exchange := {} } .discarded
  | accepted {roundTrip clockError errorSum : Int64}
      (hpure : s.spread.natAbs ≤ e.guardBand.nanos.toInt)
      (hroundTrip : roundTrip.toInt = s.travel) (hclockError : clockError.toInt = s.lead)
      (herrorSum : errorSum.toInt = e.errorSum.toInt + s.lead)
      (hmore : e.samples + 1 < e.trials) :
      Sampled e s
        { e with
          exchange := {}
          roundTrip := some roundTrip
          errorSum
          samples := e.samples + 1 }
        (.accepted clockError)
  | adjusted {roundTrip adjustment offset : Int64}
      (hpure : s.spread.natAbs ≤ e.guardBand.nanos.toInt)
      (hroundTrip : roundTrip.toInt = s.travel)
      (herrorSum : Fits (e.errorSum.toInt + s.lead)) (hlast : e.trials ≤ e.samples + 1)
      (hadjustment : adjustment.toInt =
        ((e.errorSum.toInt + s.lead).tdiv ((e.samples + 1 : Nat) : Int)).tdiv e.attenuation)
      (hoffset : offset.toInt = e.offset.toInt + adjustment.toInt) :
      Sampled e s
        { e with exchange := {}, roundTrip := some roundTrip, offset, errorSum := 0, samples := 0 }
        (.offsetAdjusted adjustment)

/-- What a probe brings about, as long as all results fit. -/
inductive Probed (e : ClockEstimator) (probe receivedAt : Int64) :
    ClockEstimator → SampleOutcome → Prop
  | incomplete (hsample : e.sample? probe receivedAt = none) :
      Probed e probe receivedAt { e with exchange := {} } .incomplete
  | sampled {s : ClockSample} {e' : ClockEstimator} {outcome : SampleOutcome}
      (hsample : e.sample? probe receivedAt = some s) (h : e.Sampled s e' outcome) :
      Probed e probe receivedAt e' outcome

theorem Probed.sampled_of (h : e.Probed probe receivedAt e' outcome) {s : ClockSample}
    (hsample : e.sample? probe receivedAt = some s) : e.Sampled s e' outcome := by
  cases h with
  | incomplete hnone => cases hnone.symm.trans hsample
  | sampled hsample' h => exact Option.some.inj (hsample'.symm.trans hsample) ▸ h

theorem Probed.exchange_eq (h : e.Probed probe receivedAt e' outcome) : e'.exchange = {} := by
  cases h with
  | incomplete => rfl
  | sampled _ h => cases h <;> rfl

theorem of_count {counted : ClockEstimator}
    (h : e.count .stops roundTrip clockError = some counted) :
    ∃ errorSum : Int64, errorSum.toInt = e.errorSum.toInt + clockError.toInt ∧
      counted = { e with roundTrip := some roundTrip, errorSum, samples := e.samples + 1 } := by
  obtain ⟨errorSum, hsum, h⟩ := Option.bind_eq_some_iff.1 h
  rw [Overflow.add, Overflow.stops_fit_eq_some_iff] at hsum
  exact ⟨errorSum, hsum, (Option.some.inj h).symm⟩

theorem of_closeRound (h : e.closeRound .stops = some (e', outcome)) :
    ∃ adjustment offset : Int64,
      adjustment.toInt = (e.errorSum.toInt.tdiv e.samples).tdiv e.attenuation ∧
      offset.toInt = e.offset.toInt + adjustment.toInt ∧
      e' = { e with offset, errorSum := 0, samples := 0 } ∧
      outcome = .offsetAdjusted adjustment := by
  obtain ⟨adjustment, hadjustment, h⟩ := Option.bind_eq_some_iff.1 h
  obtain ⟨meanError, hmean, hquotient⟩ := Option.bind_eq_some_iff.1 hadjustment
  obtain ⟨offset, hoffset, h⟩ := Option.bind_eq_some_iff.1 h
  rw [Overflow.div, Overflow.stops_fit_eq_some_iff] at hmean hquotient
  rw [Overflow.add, Overflow.stops_fit_eq_some_iff] at hoffset
  obtain ⟨rfl, rfl⟩ := Prod.mk.inj (Option.some.inj h)
  exact ⟨adjustment, offset, hmean ▸ hquotient, hoffset, rfl, rfl⟩

theorem probed_of_onProbe (h : e.onProbe .stops probe receivedAt = some (e', outcome)) :
    e.Probed probe receivedAt e' outcome := by
  unfold onProbe at h
  dsimp only at h
  split at h
  · rename_i hsample
    obtain ⟨rfl, rfl⟩ := Prod.mk.inj (Option.some.inj h)
    exact .incomplete hsample
  · rename_i s hsample
    obtain ⟨pure, hpure, h⟩ := Option.bind_eq_some_iff.1 h
    have hpure := ClockSample.isPure_iff hpure
    split at h
    · rename_i htrue
      have hpure := hpure.1 htrue
      obtain ⟨roundTrip, hroundTrip, h⟩ := Option.bind_eq_some_iff.1 h
      obtain ⟨clockError, hclockError, h⟩ := Option.bind_eq_some_iff.1 h
      obtain ⟨counted, hcounted, h⟩ := Option.bind_eq_some_iff.1 h
      have hroundTrip := ClockSample.toInt_roundTrip hroundTrip
      have hclockError := ClockSample.toInt_clockError hroundTrip hclockError
      obtain ⟨errorSum, hsum, rfl⟩ := of_count hcounted
      rw [hclockError] at hsum
      split at h
      · rename_i hmore
        obtain ⟨rfl, rfl⟩ := Prod.mk.inj (Option.some.inj h)
        exact .sampled hsample (.accepted hpure hroundTrip hclockError hsum hmore)
      · rename_i hlast
        obtain ⟨adjustment, offset, hadjustment, hoffset, rfl, rfl⟩ := of_closeRound h
        dsimp only at hadjustment
        rw [hsum] at hadjustment
        exact .sampled hsample (.adjusted hpure hroundTrip (hsum ▸ Nanoseconds.fits_toInt errorSum)
          (Nat.le_of_not_lt hlast) hadjustment hoffset)
    · rename_i hfalse
      obtain ⟨rfl, rfl⟩ := Prod.mk.inj (Option.some.inj h)
      exact .sampled hsample (.discarded (Int.lt_of_not_ge (mt hpure.2 hfalse)))

theorem steady_closeRound (e : ClockEstimator) : Steady fun o => e.closeRound o := by
  have hadjustment : Steady fun o => e.adjustment o :=
    (steady_fit _).bind fun _ => steady_fit _
  exact hadjustment.bind fun _ => (steady_fit _).bind fun _ => steady_some _

theorem steady_onProbe (e : ClockEstimator) (probe receivedAt : Int64) :
    Steady fun o => e.onProbe o probe receivedAt := by
  unfold onProbe
  dsimp only
  cases e.sample? probe receivedAt with
  | none => exact steady_some _
  | some s =>
    refine (s.steady_isPure e.guardBand).bind fun pure => .ite ?_ (steady_some _)
    refine s.steady_roundTrip.bind fun roundTrip => ?_
    refine (s.steady_clockError roundTrip).bind fun clockError => ?_
    have hcount : Steady fun o =>
        ({ e with exchange := {} } : ClockEstimator).count o roundTrip clockError :=
      (steady_fit _).bind fun _ => steady_some _
    exact hcount.bind fun counted => .ite (steady_some _) counted.steady_closeRound

end ClockEstimator

/-! ## Any calls -/

/-- Something that an estimator is told, in its own words. -/
inductive EstimatorCall where
  | t1 (t1 receivedAt : Int64)
  | t3Sent (sentAt : Int64)
  | t4 (t4 receivedAt : Int64)
  | probe (probe receivedAt : Int64)
deriving DecidableEq

/-- What a call reads off the own clock. -/
def EstimatorCall.ownReading : EstimatorCall → Int64
  | t1 _ receivedAt | t3Sent receivedAt | t4 _ receivedAt | probe _ receivedAt => receivedAt

/-- A call of an estimator, and what came of it. -/
structure EstimatorMoment where
  before : ClockEstimator
  call : EstimatorCall
  /-- What became of the exchange, if the call has ended it. -/
  outcome : Option SampleOutcome
  after : ClockEstimator
deriving DecidableEq

namespace ClockEstimator

/-- The estimator after a call. -/
def hear (o : Overflow) (e : ClockEstimator) :
    EstimatorCall → Option (ClockEstimator × Option SampleOutcome)
  | .t1 t1 receivedAt => some (e.onT1 t1 receivedAt, none)
  | .t3Sent sentAt => some (e.onT3Sent sentAt, none)
  | .t4 t4 receivedAt => some (e.onT4 t4 receivedAt, none)
  | .probe probe receivedAt => (e.onProbe o probe receivedAt).map fun (e', outcome) =>
      (e', some outcome)

/-- The history of calls one after the other, and the estimator after them. -/
def hearAll (o : Overflow) (e : ClockEstimator) :
    List EstimatorCall → Option (List EstimatorMoment × ClockEstimator)
  | [] => some ([], e)
  | call :: calls => do
    let (e', outcome) ← e.hear o call
    let (history, last) ← e'.hearAll o calls
    return (⟨e, call, outcome, e'⟩ :: history, last)

theorem hearAll_append_singleton {o : Overflow} {e last next : ClockEstimator}
    {calls : List EstimatorCall} {history : List EstimatorMoment} {call : EstimatorCall}
    {outcome : Option SampleOutcome} (h : e.hearAll o calls = some (history, last))
    (hcall : last.hear o call = some (next, outcome)) :
    e.hearAll o (calls ++ [call]) = some (history ++ [⟨last, call, outcome, next⟩], next) := by
  induction calls generalizing e history with
  | nil =>
    obtain ⟨rfl, rfl⟩ := Prod.mk.inj (Option.some.inj h)
    exact Option.bind_eq_some_iff.2 ⟨_, hcall, rfl⟩
  | cons first calls ih =>
    obtain ⟨⟨e', outcome'⟩, hfirst, h⟩ := Option.bind_eq_some_iff.1 h
    obtain ⟨⟨later, last'⟩, hlater, h⟩ := Option.bind_eq_some_iff.1 h
    obtain ⟨rfl, rfl⟩ := Prod.mk.inj (Option.some.inj h)
    exact Option.bind_eq_some_iff.2
      ⟨_, hfirst, Option.bind_eq_some_iff.2 ⟨_, ih hlater, rfl⟩⟩

/-- What a call brings about, as long as all results fit. -/
inductive Heard (e : ClockEstimator) :
    EstimatorCall → ClockEstimator → Option SampleOutcome → Prop
  | t1 (t1 receivedAt : Int64) : Heard e (.t1 t1 receivedAt) (e.onT1 t1 receivedAt) none
  | t3Sent (sentAt : Int64) : Heard e (.t3Sent sentAt) (e.onT3Sent sentAt) none
  | t4 (t4 receivedAt : Int64) : Heard e (.t4 t4 receivedAt) (e.onT4 t4 receivedAt) none
  | probe {probe receivedAt : Int64} {e' : ClockEstimator} {outcome : SampleOutcome}
      (h : e.Probed probe receivedAt e' outcome) :
      Heard e (.probe probe receivedAt) e' (some outcome)

variable {e e' : ClockEstimator} {call : EstimatorCall} {outcome : Option SampleOutcome}

theorem heard_of_hear (h : e.hear .stops call = some (e', outcome)) : e.Heard call e' outcome := by
  cases call with
  | t1 t1 receivedAt =>
    obtain ⟨rfl, rfl⟩ := Prod.mk.inj (Option.some.inj h)
    exact .t1 t1 receivedAt
  | t3Sent sentAt =>
    obtain ⟨rfl, rfl⟩ := Prod.mk.inj (Option.some.inj h)
    exact .t3Sent sentAt
  | t4 t4 receivedAt =>
    obtain ⟨rfl, rfl⟩ := Prod.mk.inj (Option.some.inj h)
    exact .t4 t4 receivedAt
  | probe probe receivedAt =>
    obtain ⟨⟨e'', outcome'⟩, hprobe, heq⟩ := Option.map_eq_some_iff.1 h
    obtain ⟨rfl, rfl⟩ := Prod.mk.inj heq
    exact .probe (probed_of_onProbe hprobe)

theorem steady_hear (e : ClockEstimator) (call : EstimatorCall) :
    Steady fun o => e.hear o call := by
  cases call with
  | probe probe receivedAt =>
    intro r h o
    obtain ⟨result, hresult, rfl⟩ := Option.map_eq_some_iff.1 h
    exact Option.map_eq_some_iff.2 ⟨result, e.steady_onProbe probe receivedAt _ hresult o, rfl⟩
  | _ => exact steady_some _

/-- No call changes the settings. -/
theorem Heard.settings_eq (h : e.Heard call e' outcome) :
    e'.guardBand = e.guardBand ∧ e'.trials = e.trials ∧ e'.attenuation = e.attenuation := by
  cases h with
  | probe h =>
    cases h with
    | incomplete => exact ⟨rfl, rfl, rfl⟩
    | sampled _ h => cases h <;> exact ⟨rfl, rfl, rfl⟩
  | _ => exact ⟨rfl, rfl, rfl⟩

end ClockEstimator

/-- The estimator `start` comes to `e` by the calls of the history. -/
inductive Estimation (o : Overflow) (start : ClockEstimator) :
    List EstimatorMoment → ClockEstimator → Prop
  | start : Estimation o start [] start
  | call {history : List EstimatorMoment} {e e' : ClockEstimator} {outcome : Option SampleOutcome}
      (earlier : Estimation o start history e) (call : EstimatorCall)
      (h : e.hear o call = some (e', outcome)) :
      Estimation o start (history ++ [⟨e, call, outcome, e'⟩]) e'

namespace Estimation

variable {o : Overflow} {start e e' : ClockEstimator} {history : List EstimatorMoment}

theorem of_stops (run : Estimation .stops start history e) (o : Overflow) :
    Estimation o start history e := by
  induction run with
  | start => exact .start
  | call earlier call h ih => exact ih.call call (ClockEstimator.steady_hear _ call _ h o)

theorem settings_eq (run : Estimation .stops start history e) :
    e.guardBand = start.guardBand ∧ e.trials = start.trials ∧
      e.attenuation = start.attenuation := by
  induction run with
  | start => exact ⟨rfl, rfl, rfl⟩
  | call earlier call h ih =>
    obtain ⟨hguard, htrials, hattenuation⟩ := (ClockEstimator.heard_of_hear h).settings_eq
    exact ⟨hguard.trans ih.1, htrials.trans ih.2.1, hattenuation.trans ih.2.2⟩

theorem start_settings_eq {guardBand : Interval} {trials : UInt32} {attenuation : Int64}
    (run : Estimation .stops (.start guardBand trials attenuation) history e) :
    e.guardBand = guardBand ∧ e.trials = max trials.toNat 1 ∧
      e.attenuation = max attenuation.toInt 1 :=
  run.settings_eq

theorem trials_pos {guardBand : Interval} {trials : UInt32} {attenuation : Int64}
    (run : Estimation .stops (.start guardBand trials attenuation) history e) : 0 < e.trials := by
  rw [run.start_settings_eq.2.1]
  exact Nat.lt_of_lt_of_le Nat.one_pos (Nat.le_max_right _ _)

theorem attenuation_pos {guardBand : Interval} {trials : UInt32} {attenuation : Int64}
    (run : Estimation .stops (.start guardBand trials attenuation) history e) :
    1 ≤ e.attenuation :=
  run.start_settings_eq.2.2 ▸ Int.le_max_right _ _

theorem append_hearAll (run : Estimation o start history e) {calls : List EstimatorCall}
    {more : List EstimatorMoment} (h : e.hearAll o calls = some (more, e')) :
    Estimation o start (history ++ more) e' ∧ more.map (·.call) = calls := by
  induction calls generalizing history e more with
  | nil =>
    obtain ⟨rfl, rfl⟩ := Prod.mk.inj (Option.some.inj h)
    exact ⟨by rwa [List.append_nil], rfl⟩
  | cons call calls ih =>
    obtain ⟨⟨next, outcome⟩, hcall, h⟩ := Option.bind_eq_some_iff.1 h
    obtain ⟨⟨later, last⟩, hlater, h⟩ := Option.bind_eq_some_iff.1 h
    obtain ⟨rfl, rfl⟩ := Prod.mk.inj (Option.some.inj h)
    obtain ⟨hrun, hcalls⟩ := ih (run.call call hcall) hlater
    rw [List.append_assoc] at hrun
    exact ⟨hrun, congrArg _ hcalls⟩

theorem eq_start (run : Estimation o start history e) (h : history = []) : e = start := by
  cases run with
  | start => rfl
  | call => exact absurd h (List.append_ne_nil_of_right_ne_nil _ (List.cons_ne_nil _ _))

/-- The last call of a history, taken back. -/
theorem of_calls_eq_append_singleton (run : Estimation o start history e)
    {calls : List EstimatorCall} {call : EstimatorCall}
    (h : history.map (·.call) = calls ++ [call]) :
    ∃ earlier before outcome, history = earlier ++ [⟨before, call, outcome, e⟩] ∧
      Estimation o start earlier before ∧ earlier.map (·.call) = calls ∧
      before.hear o call = some (e, outcome) := by
  cases run with
  | start => exact absurd h.symm (List.append_ne_nil_of_right_ne_nil _ (List.cons_ne_nil _ _))
  | call earlier call' hcall =>
    rw [List.map_append] at h
    obtain ⟨hcalls, hlast⟩ := List.append_inj' h rfl
    obtain rfl := List.singleton_inj.1 hlast
    exact ⟨_, _, _, rfl, earlier, hcalls, hcall⟩

/-- Calls that can all be answered make a history. -/
theorem of_hearAll {calls : List EstimatorCall} (h : start.hearAll o calls = some (history, e)) :
    Estimation o start history e ∧ history.map (·.call) = calls :=
  Estimation.start.append_hearAll h

theorem hearAll_eq (run : Estimation o start history e) :
    start.hearAll o (history.map (·.call)) = some (history, e) := by
  induction run with
  | start => rfl
  | call earlier call h ih =>
    rw [List.map_append, List.map_singleton]
    exact ClockEstimator.hearAll_append_singleton ih h

end Estimation

end FederatedTime
