import FederatedTime.Proofs.Client.Convergence

/-!
# What an estimator can count

Of all that an estimator calculates from readings of real clocks, only the sum of a round can leave
the range (`Estimation.onProbe_eq_none_iff`): each clock error may be as large as the distance of the
clocks, and there are as many of them as trials. The standard estimator is safe as long as the
clocks are less than about fourteen years and seven months apart (`ClockEstimator.standard_fits`).
With a clock that has not been set it is not (`ClockEstimator.standard_overflows`).
-/

namespace FederatedTime

open Nanoseconds (Fits Overflow fits_iff toInt_saturate)
open Nanoseconds.Overflow (exists_stops_fit)

/-! ## Calculations that fit -/

/-- All that is calculated of a sample fits. -/
structure ClockSample.Fitting (s : ClockSample) : Prop where
  receiveGap : Fits (s.probeReceived.toInt - s.r4.toInt)
  sendGap : Fits (s.probe.toInt - s.t4.toInt)
  spread : Fits s.spread
  size : Fits s.spread.natAbs
  away : Fits (s.t4.toInt - s.t1.toInt)
  held : Fits (s.t3.toInt - s.t2.toInt)
  travel : Fits s.travel
  delay : Fits (s.travel.tdiv 2)
  arrival : Fits (s.t1.toInt + s.travel.tdiv 2)
  lead : Fits s.lead

namespace ClockSample.Fitting

variable {s : ClockSample}

theorem exists_isPure (h : s.Fitting) (guardBand : Interval) :
    ∃ pure, s.isPure .stops guardBand = some pure := by
  obtain ⟨receiveGap, hreceive, hreceiveGap⟩ := exists_stops_fit h.receiveGap
  obtain ⟨sendGap, hsend, hsendGap⟩ := exists_stops_fit h.sendGap
  have hspread : receiveGap.toInt - sendGap.toInt = s.spread := by
    rw [hreceiveGap, hsendGap, ClockSample.spread]
  obtain ⟨gap, hgap, hgapError⟩ := exists_stops_fit (hspread ▸ h.spread)
  obtain ⟨size, hsize, -⟩ := exists_stops_fit (i := gap.toInt.natAbs)
    (by rw [hgapError, hspread]; exact h.size)
  have hcalculated : s.gapError .stops = some gap :=
    Option.bind_eq_some_iff.2 ⟨receiveGap, hreceive,
      Option.bind_eq_some_iff.2 ⟨sendGap, hsend, hgap⟩⟩
  exact ⟨_, Option.bind_eq_some_iff.2
    ⟨gap, hcalculated, Option.bind_eq_some_iff.2 ⟨size, hsize, rfl⟩⟩⟩

theorem exists_roundTrip (h : s.Fitting) :
    ∃ n, s.roundTrip .stops = some n ∧ n.toInt = s.travel := by
  obtain ⟨away, haway, hn⟩ := exists_stops_fit h.away
  obtain ⟨held, hheld, hm⟩ := exists_stops_fit h.held
  have htravel : away.toInt - held.toInt = s.travel := by rw [hn, hm, ClockSample.travel]
  obtain ⟨n, hresult, hn⟩ := exists_stops_fit (htravel ▸ h.travel)
  have hcalculated : s.roundTrip .stops = some n :=
    Option.bind_eq_some_iff.2 ⟨away, haway, Option.bind_eq_some_iff.2 ⟨held, hheld, hresult⟩⟩
  exact ⟨n, hcalculated, hn.trans htravel⟩

theorem exists_clockError (h : s.Fitting) {roundTrip : Int64}
    (hroundTrip : roundTrip.toInt = s.travel) :
    ∃ n, s.clockError .stops roundTrip = some n ∧ n.toInt = s.lead := by
  obtain ⟨delay, hdelay, hn⟩ := exists_stops_fit h.delay
  rw [← hroundTrip] at hdelay
  obtain ⟨arrival, harrival, hm⟩ := exists_stops_fit h.arrival
  rw [← hn] at harrival
  have hlead : arrival.toInt - s.t2.toInt = s.lead := by rw [hm, ClockSample.lead]
  obtain ⟨n, hresult, hn⟩ := exists_stops_fit (hlead ▸ h.lead)
  have hcalculated : s.clockError .stops roundTrip = some n :=
    Option.bind_eq_some_iff.2 ⟨delay, hdelay,
      Option.bind_eq_some_iff.2 ⟨arrival, harrival, hresult⟩⟩
  exact ⟨n, hcalculated, hn.trans hlead⟩

end ClockSample.Fitting

namespace ClockEstimator

variable {e e' : ClockEstimator} {probe receivedAt : Int64} {s : ClockSample}

/-- All that is calculated at the end of a round fits. -/
structure RoundFitting (e : ClockEstimator) : Prop where
  mean : Fits (e.errorSum.toInt.tdiv e.samples)
  adjustment : Fits ((e.errorSum.toInt.tdiv e.samples).tdiv e.attenuation)
  offset : Fits (e.offset.toInt + (e.errorSum.toInt.tdiv e.samples).tdiv e.attenuation)

theorem RoundFitting.exists_closeRound (h : e.RoundFitting) :
    ∃ result, e.closeRound .stops = some result := by
  obtain ⟨mean, hmean, hn⟩ := exists_stops_fit h.mean
  obtain ⟨adjustment, hadjustment, hm⟩ := exists_stops_fit h.adjustment
  obtain ⟨offset, hoffset, -⟩ := exists_stops_fit h.offset
  rw [← hm] at hoffset
  rw [← hn] at hadjustment
  have hcalculated : e.adjustment .stops = some adjustment :=
    Option.bind_eq_some_iff.2 ⟨mean, hmean, hadjustment⟩
  exact ⟨_, Option.bind_eq_some_iff.2
    ⟨adjustment, hcalculated, Option.bind_eq_some_iff.2 ⟨offset, hoffset, rfl⟩⟩⟩

/-- The estimator with a sample that makes the sum of the round `errorSum`. -/
def counting (e : ClockEstimator) (errorSum : Int64) : ClockEstimator :=
  { e with errorSum, samples := e.samples + 1 }

theorem exists_onProbe (hsample : e.sample? probe receivedAt = some s) (hfitting : s.Fitting)
    (hsum : s.spread.natAbs ≤ e.guardBand.nanos.toInt → Fits (e.errorSum.toInt + s.lead))
    (hround : ∀ errorSum : Int64, errorSum.toInt = e.errorSum.toInt + s.lead →
      (e.counting errorSum).RoundFitting) :
    ∃ result, e.onProbe .stops probe receivedAt = some result := by
  obtain ⟨pure, hpure⟩ := hfitting.exists_isPure e.guardBand
  obtain ⟨roundTrip, hroundTrip, htravel⟩ := hfitting.exists_roundTrip
  obtain ⟨clockError, hclockError, hlead⟩ := hfitting.exists_clockError htravel
  simp only [onProbe, hsample, hpure, hroundTrip, hclockError, Option.bind_eq_bind,
    Option.bind_some]
  split
  · rename_i htrue
    have hsum := hsum ((ClockSample.isPure_iff hpure).1 htrue)
    rw [← hlead] at hsum
    obtain ⟨errorSum, herrorSum, hn⟩ := exists_stops_fit hsum
    have hcount : ({ e with exchange := {} } : ClockEstimator).count .stops roundTrip clockError =
        some { e with
          exchange := {}, roundTrip := some roundTrip, errorSum, samples := e.samples + 1 } := by
      simp [count, Overflow.add, herrorSum]
    rw [hcount, Option.bind_some]
    split
    · exact ⟨_, rfl⟩
    · have hclose := hround errorSum (hlead ▸ hn)
      exact RoundFitting.exists_closeRound ⟨hclose.mean, hclose.adjustment, hclose.offset⟩
  · exact ⟨_, rfl⟩

/-- Where all else fits, a probe is a problem only if the sum of the round is. -/
theorem onProbe_eq_none_iff
    (hfitting : ∀ s, e.sample? probe receivedAt = some s → s.Fitting ∧
      ∀ errorSum : Int64, errorSum.toInt = e.errorSum.toInt + s.lead →
        (e.counting errorSum).RoundFitting) :
    e.onProbe .stops probe receivedAt = none ↔ ∃ s, e.sample? probe receivedAt = some s ∧
      s.spread.natAbs ≤ e.guardBand.nanos.toInt ∧ ¬ Fits (e.errorSum.toInt + s.lead) := by
  constructor
  · intro h
    cases hsample : e.sample? probe receivedAt with
    | none => simp [onProbe, hsample] at h
    | some s =>
      obtain ⟨hs, hround⟩ := hfitting s hsample
      by_contra hnone
      simp only [Option.some.injEq, exists_eq_left', not_and, not_not] at hnone
      obtain ⟨result, hresult⟩ := exists_onProbe hsample hs hnone hround
      cases h.symm.trans hresult
  · rintro ⟨s, hsample, hpure, hsum⟩
    by_contra hsome
    obtain ⟨⟨e', outcome⟩, hresult⟩ := Option.ne_none_iff_exists'.1 hsome
    cases (probed_of_onProbe hresult).sampled_of hsample with
    | discarded himpure => exact absurd hpure (Int.not_le.2 himpure)
    | accepted _ _ _ herrorSum => exact hsum (herrorSum ▸ Nanoseconds.fits_toInt _)
    | adjusted _ _ herrorSum => exact hsum herrorSum

end ClockEstimator

/-! ## Readings of real clocks -/

/-- Two to the power of 61: the nanoseconds of some seventy-three years. -/
def clockHorizon : Nat := 2305843009213693952

/-- A time between the epoch of a clock and its horizon. -/
def InClockRange (n : Int64) : Prop := 0 ≤ n.toInt ∧ n.toInt ≤ clockHorizon

instance (n : Int64) : Decidable (InClockRange n) :=
  inferInstanceAs (Decidable (0 ≤ n.toInt ∧ n.toInt ≤ clockHorizon))

/-- What the call says of both clocks. -/
def EstimatorCall.readings : EstimatorCall → List Int64
  | t1 stamp receivedAt => [stamp, receivedAt]
  | t3Sent sentAt => [sentAt]
  | t4 stamp receivedAt => [stamp, receivedAt]
  | probe stamp receivedAt => [stamp, receivedAt]

def EstimatorCall.InRange (call : EstimatorCall) : Prop := ∀ n ∈ call.readings, InClockRange n

-- by the readings, not by all counts there are
instance (call : EstimatorCall) : Decidable call.InRange :=
  List.decidableBAll InClockRange call.readings

namespace ClockReadings

variable {r : ClockReadings} {calls : List EstimatorCall} {e : ClockEstimator} {d : Nat}
variable {probe receivedAt n : Int64}

/-- All readings of the exchange are in range. -/
def InRange (r : ClockReadings) : Prop := ∀ n ∈ [r.t1, r.t2, r.t3, r.t4, r.r4], InClockRange n

/-- In the exchange the clocks are seen at most `d` apart. -/
def Near (d : Nat) (r : ClockReadings) : Prop :=
  (r.t1.toInt - r.t2.toInt).natAbs ≤ d ∧ (r.t4.toInt - r.t3.toInt).natAbs ≤ d

theorem Closes.inRange (h : r.Closes calls) (hcalls : ∀ call ∈ calls, call.InRange) :
    r.InRange := by
  obtain ⟨before, after, rfl, -, ht3, ht4⟩ := h
  have hafter (call : EstimatorCall) (hcall : call ∈ after) : call.InRange :=
    hcalls call (List.mem_append_right _ (List.mem_cons_of_mem _ hcall))
  have ht1 : (EstimatorCall.t1 r.t1 r.t2).InRange :=
    hcalls _ (List.mem_append_right _ List.mem_cons_self)
  have ht3 : (EstimatorCall.t3Sent r.t3).InRange := by
    obtain ⟨call, hcall, heq⟩ := List.mem_filterMap.1 (List.mem_of_getLast? ht3)
    cases call with
    | t3Sent sentAt =>
      obtain rfl := Option.some.inj heq
      exact hafter _ hcall
    | t1 | t4 | probe => cases heq
  have ht4 : (EstimatorCall.t4 r.t4 r.r4).InRange := by
    obtain ⟨call, hcall, heq⟩ := List.mem_filterMap.1 (List.mem_of_getLast? ht4)
    cases call with
    | t4 stamp receivedAt =>
      obtain ⟨rfl, rfl⟩ := Prod.mk.inj (Option.some.inj heq)
      exact hafter _ hcall
    | t1 | t3Sent | probe => cases heq
  simp only [EstimatorCall.InRange, EstimatorCall.readings, List.forall_mem_cons] at ht1 ht3 ht4
  simp only [InRange, List.forall_mem_cons]
  exact ⟨ht1.1, ht1.2.1, ht3.1, ht4.1, ht4.2.1, nofun⟩

theorem InRange.near (h : r.InRange) : r.Near clockHorizon := by
  simp only [InRange, InClockRange, List.forall_mem_cons] at h
  obtain ⟨ht1, ht2, ht3, ht4, -, -⟩ := h
  constructor <;> omega

theorem toInt_corrected (hoffset : e.offset.toInt.natAbs ≤ clockHorizon) (hn : InClockRange n) :
    (e.corrected n).toInt = n.toInt + e.offset.toInt := by
  obtain ⟨hleast, hgreatest⟩ := hn
  unfold clockHorizon at hoffset hgreatest
  exact toInt_saturate (fits_iff.2 (by omega))

/-- The clock error lies between what the two messages of the coordinator make the clocks differ. -/
theorem approaches_lead (hoffset : e.offset.toInt.natAbs ≤ clockHorizon) (h : r.InRange)
    (probe receivedAt : Int64) :
    let s := r.sample e probe receivedAt
    Approaches (r.t4.toInt - r.t3.toInt) 2 (r.t1.toInt - r.t2.toInt)
      (s.lead + e.offset.toInt) := by
  intro s
  simp only [InRange, List.forall_mem_cons] at h
  obtain ⟨-, hr2, hr3, -⟩ := h
  have ht2 : s.t2.toInt = r.t2.toInt + e.offset.toInt := toInt_corrected hoffset hr2
  have ht3 : s.t3.toInt = r.t3.toInt + e.offset.toInt := toInt_corrected hoffset hr3
  have htravel : s.travel = (r.t4.toInt - r.t3.toInt) - (r.t1.toInt - r.t2.toInt) := by
    rw [ClockSample.travel, ht2, ht3]
    change (r.t4.toInt - r.t1.toInt) - _ = _
    omega
  refine .of_tdiv (by decide) ?_
  rw [ClockSample.lead, htravel, ht2]
  change r.t1.toInt + _ - _ + _ = _
  omega

theorem natAbs_lead_add_le (hoffset : e.offset.toInt.natAbs ≤ clockHorizon) (h : r.InRange)
    (hnear : r.Near d) (probe receivedAt : Int64) :
    ((r.sample e probe receivedAt).lead + e.offset.toInt).natAbs ≤ d := by
  obtain ⟨hrises, hfalls, -, -⟩ := approaches_lead hoffset h probe receivedAt
  obtain ⟨houtward, hinward⟩ := hnear
  omega

theorem fitting_sample (hoffset : e.offset.toInt.natAbs ≤ clockHorizon) (h : r.InRange)
    (hprobe : (EstimatorCall.probe probe receivedAt).InRange) :
    (r.sample e probe receivedAt).Fitting := by
  have hlead := natAbs_lead_add_le hoffset h h.near probe receivedAt
  simp only [InRange, EstimatorCall.InRange, EstimatorCall.readings, List.forall_mem_cons]
    at h hprobe
  obtain ⟨h1, h2, h3, h4, h5, -⟩ := h
  obtain ⟨h6, h7, -⟩ := hprobe
  have ht2 := toInt_corrected hoffset h2
  have ht3 := toInt_corrected hoffset h3
  have hr4 := toInt_corrected hoffset h5
  have hreceived := toInt_corrected hoffset h7
  simp only [InClockRange, clockHorizon] at hoffset h1 h2 h3 h4 h5 h6 h7
  simp only [ClockSample.lead, ClockSample.travel, sample, clockHorizon] at hlead
  constructor <;>
    simp only [ClockSample.lead, ClockSample.spread, ClockSample.travel, sample, fits_iff] <;>
    omega

end ClockReadings

/-! ## The offset and the sum of a round -/

/-- A mean is not beyond its samples. -/
theorem tdiv_mem {least greatest sum : Int} {n : Nat} (hn : 0 < n) (hleast : least ≤ 0)
    (hgreatest : 0 ≤ greatest) (hlo : n * least ≤ sum) (hhi : sum ≤ n * greatest) :
    least ≤ sum.tdiv n ∧ sum.tdiv n ≤ greatest := by
  have hn : 0 < (n : Int) := Int.natCast_pos.2 hn
  rcases Int.le_total 0 sum with hsum | hsum
  · have hup := Int.ediv_le_of_le_mul hn (Int.mul_comm _ _ ▸ hhi)
    have hdown := Int.ediv_nonneg hsum hn.le
    rw [Int.tdiv_eq_ediv_of_nonneg hsum]
    omega
  · obtain ⟨size, rfl⟩ : ∃ size, sum = -size := ⟨-sum, (Int.neg_neg sum).symm⟩
    have hsize : 0 ≤ size := by omega
    have hup : size / n ≤ -least :=
      Int.ediv_le_of_le_mul hn (by rw [Int.neg_mul, Int.mul_comm]; omega)
    have hdown := Int.ediv_nonneg hsize hn.le
    rw [Int.neg_tdiv, Int.tdiv_eq_ediv_of_nonneg hsize]
    omega

/-- Corrected by the offset, the clock has been seen at most `d` from the coordinator's. -/
structure Ranged (d : Nat) (e : ClockEstimator) : Prop where
  offset_le : e.offset.toInt.natAbs ≤ d
  errorSum_le : (e.errorSum.toInt + e.samples * e.offset.toInt).natAbs ≤ e.samples * d

namespace Ranged

variable {d : Nat} {e : ClockEstimator} {lead : Int}

theorem start (guardBand : Interval) (trials : UInt32) (attenuation : Int64) :
    Ranged d (.start guardBand trials attenuation) where
  offset_le := Nat.zero_le d
  errorSum_le := Nat.zero_le _

/-- The sum of the round with one more sample. -/
theorem errorSum_add_le (h : Ranged d e) (hlead : (lead + e.offset.toInt).natAbs ≤ d) :
    (e.errorSum.toInt + lead + ((e.samples + 1 : Nat) : Int) * e.offset.toInt).natAbs ≤
      (e.samples + 1) * d := by
  have hsum : e.errorSum.toInt + lead + ((e.samples + 1 : Nat) : Int) * e.offset.toInt =
      (e.errorSum.toInt + e.samples * e.offset.toInt) + (lead + e.offset.toInt) := by
    rw [Int.natCast_succ, Int.add_mul, Int.one_mul]
    omega
  rw [hsum, Nat.add_mul, Nat.one_mul]
  exact (Int.natAbs_add_le _ _).trans (Nat.add_le_add h.errorSum_le hlead)

/-- The mean clock error of a round, and the offset that part of it leads to. -/
theorem close (h : Ranged d e) (hlead : (lead + e.offset.toInt).natAbs ≤ d)
    (hattenuation : 1 ≤ e.attenuation) :
    let mean := (e.errorSum.toInt + lead).tdiv ((e.samples + 1 : Nat) : Int)
    (mean + e.offset.toInt).natAbs ≤ d ∧
      (e.offset.toInt + mean.tdiv e.attenuation).natAbs ≤ d := by
  intro mean
  have hsum := h.errorSum_add_le hlead
  have hoffset := h.offset_le
  have hmean : -d - e.offset.toInt ≤ mean ∧ mean ≤ d - e.offset.toInt := by
    rw [← Int.ofNat_le, Int.natCast_mul] at hsum
    refine tdiv_mem (Nat.succ_pos _) (by omega) (by omega) ?_ ?_
    · rw [Int.mul_sub, Int.mul_neg]
      omega
    · rw [Int.mul_sub]
      omega
  have hway : e.offset.toInt + mean - e.offset.toInt = mean := by omega
  obtain ⟨hrises, hfalls, -, -⟩ : Approaches (e.offset.toInt + mean) e.attenuation e.offset.toInt
      (e.offset.toInt + mean.tdiv e.attenuation) := .of_tdiv hattenuation (by rw [hway])
  omega

/-- At the end of a round everything fits. -/
theorem roundFitting (h : Ranged d e) (hd : d ≤ clockHorizon)
    (hlead : (lead + e.offset.toInt).natAbs ≤ d) (hattenuation : 1 ≤ e.attenuation)
    {errorSum : Int64} (hsum : errorSum.toInt = e.errorSum.toInt + lead) :
    (e.counting errorSum).RoundFitting := by
  obtain ⟨hmean, hoffset⟩ := h.close hlead hattenuation
  have hbefore := h.offset_le
  rw [← hsum] at hmean hoffset
  unfold clockHorizon at hd
  constructor <;> simp only [ClockEstimator.counting, fits_iff] <;> omega

theorem natAbs_errorSum_add_le (h : Ranged d e) (hlead : (lead + e.offset.toInt).natAbs ≤ d) :
    (e.errorSum.toInt + lead).natAbs ≤ 2 * ((e.samples + 1) * d) := by
  have hsum := h.errorSum_add_le hlead
  have hoffset : (((e.samples + 1 : Nat) : Int) * e.offset.toInt).natAbs ≤ (e.samples + 1) * d := by
    rw [Int.natAbs_mul, Int.natAbs_natCast]
    exact Nat.mul_le_mul_left _ h.offset_le
  omega

theorem hear (h : Ranged d e) (hattenuation : 1 ≤ e.attenuation) {e' : ClockEstimator}
    {call : EstimatorCall} {outcome : Option SampleOutcome} (hcall : e.Heard call e' outcome)
    (hlead : ∀ probe receivedAt s, call = .probe probe receivedAt →
      e.sample? probe receivedAt = some s → (s.lead + e.offset.toInt).natAbs ≤ d) :
    Ranged d e' := by
  cases hcall with
  | t1 | t3Sent | t4 => exact ⟨h.offset_le, h.errorSum_le⟩
  | probe hprobed =>
    cases hprobed with
    | incomplete => exact ⟨h.offset_le, h.errorSum_le⟩
    | sampled hsample hsampled =>
      have hlead := hlead _ _ _ rfl hsample
      cases hsampled with
      | discarded => exact ⟨h.offset_le, h.errorSum_le⟩
      | accepted _ _ _ herrorSum => exact ⟨h.offset_le, herrorSum ▸ h.errorSum_add_le hlead⟩
      | adjusted _ _ _ _ hadjustment hoffset =>
        rw [hadjustment] at hoffset
        exact ⟨hoffset ▸ (h.close hlead hattenuation).2, Nat.le_of_eq (by simp)⟩

end Ranged

/-! ## Any calls -/

/-- In all exchanges that a probe ends the clocks are seen at most `d` apart. -/
def StayNear (d : Nat) (calls : List EstimatorCall) : Prop :=
  ∀ before probe receivedAt, before ++ [.probe probe receivedAt] <+: calls →
    ∀ r : ClockReadings, r.Closes before → r.Near d

theorem StayNear.earlier {d : Nat} {earlier calls : List EstimatorCall} (h : StayNear d calls)
    (hstart : earlier <+: calls) : StayNear d earlier :=
  fun before probe receivedAt hbefore => h before probe receivedAt (hbefore.trans hstart)

theorem stayNear_of_inRange {calls : List EstimatorCall} (h : ∀ call ∈ calls, call.InRange) :
    StayNear clockHorizon calls := by
  intro before probe receivedAt hbefore r hr
  have hmem (call : EstimatorCall) (hcall : call ∈ before) : call.InRange :=
    h call (hbefore.subset (List.mem_append_left _ hcall))
  exact (hr.inRange hmem).near

namespace Estimation

variable {guardBand : Interval} {trials : UInt32} {attenuation : Int64} {d : Nat}
variable {history : List EstimatorMoment} {e : ClockEstimator} {calls : List EstimatorCall}
variable {probe receivedAt : Int64} {s : ClockSample}

/-- A sample of readings in range. -/
theorem exists_of_sample (run : Estimation .stops (.start guardBand trials attenuation) history e)
    (hrange : ∀ call ∈ history.map (·.call), call.InRange)
    (hsample : e.sample? probe receivedAt = some s) :
    ∃ r : ClockReadings, r.Closes (history.map (·.call)) ∧ r.InRange ∧
      r.sample e probe receivedAt = s := by
  obtain ⟨r, hr, rfl⟩ := (run.sample?_eq_some_iff rfl).1 hsample
  exact ⟨r, hr, hr.inRange hrange, rfl⟩

theorem ranged (run : Estimation .stops (.start guardBand trials attenuation) history e)
    (hd : d ≤ clockHorizon) (hrange : ∀ call ∈ history.map (·.call), call.InRange)
    (hnear : StayNear d (history.map (·.call))) : Ranged d e := by
  induction run with
  | start => exact .start guardBand trials attenuation
  | @call history e e' outcome earlier call h ih =>
    rw [List.map_append] at hrange hnear
    have hbefore := fun call hcall => hrange call (List.mem_append_left _ hcall)
    have ih := ih hbefore (hnear.earlier (List.prefix_append _ _))
    -- the offset so far is small, so the readings of the next sample are corrected exactly
    refine ih.hear earlier.attenuation_pos (ClockEstimator.heard_of_hear h) ?_
    rintro probe receivedAt s rfl hsample
    obtain ⟨r, hr, hreadings, rfl⟩ := earlier.exists_of_sample hbefore hsample
    exact ClockReadings.natAbs_lead_add_le (ih.offset_le.trans hd) hreadings
      (hnear _ _ _ List.prefix_rfl r hr) probe receivedAt

/-- As long as clocks are in range, only the sum of a round may not fit. -/
theorem onProbe_eq_none_iff
    (run : Estimation .stops (.start guardBand trials attenuation) history e)
    (hrange : ∀ call ∈ history.map (·.call), call.InRange)
    (hprobe : (EstimatorCall.probe probe receivedAt).InRange) :
    e.onProbe .stops probe receivedAt = none ↔ ∃ s, e.sample? probe receivedAt = some s ∧
      s.spread.natAbs ≤ guardBand.nanos.toInt ∧ ¬ Fits (e.errorSum.toInt + s.lead) := by
  have hranged := run.ranged Nat.le.refl hrange (stayNear_of_inRange hrange)
  rw [← run.start_settings_eq.1]
  refine ClockEstimator.onProbe_eq_none_iff fun s hsample => ?_
  obtain ⟨r, -, hr, rfl⟩ := run.exists_of_sample hrange hsample
  have hlead := ClockReadings.natAbs_lead_add_le hranged.offset_le hr hr.near probe receivedAt
  exact ⟨ClockReadings.fitting_sample hranged.offset_le hr hprobe, fun errorSum hsum =>
    hranged.roundFitting Nat.le.refl hlead run.attenuation_pos hsum⟩

theorem exists_onProbe (run : Estimation .stops (.start guardBand trials attenuation) history e)
    (hd : d ≤ clockHorizon) (hspace : Fits (2 * (max trials.toNat 1 * d) : Nat))
    (hrange : ∀ call ∈ history.map (·.call), call.InRange)
    (hprobe : (EstimatorCall.probe probe receivedAt).InRange)
    (hnear : StayNear d (history.map (·.call) ++ [.probe probe receivedAt])) :
    ∃ result, e.onProbe .stops probe receivedAt = some result := by
  rw [← Option.ne_none_iff_exists']
  intro hnone
  obtain ⟨s, hsample, -, hsum⟩ := (run.onProbe_eq_none_iff hrange hprobe).1 hnone
  obtain ⟨r, hr, hreadings, rfl⟩ := run.exists_of_sample hrange hsample
  have hranged := run.ranged hd hrange (hnear.earlier (List.prefix_append _ _))
  have hle := hranged.natAbs_errorSum_add_le (ClockReadings.natAbs_lead_add_le
    (hranged.offset_le.trans hd) hreadings (hnear _ _ _ List.prefix_rfl r hr) probe receivedAt)
  have hround : (e.samples + 1) * d ≤ max trials.toNat 1 * d :=
    Nat.mul_le_mul_right d (run.start_settings_eq.2.1 ▸ run.samples_lt)
  rw [fits_iff] at hspace
  exact hsum (fits_iff.2 (by omega))

/-- Clocks that are near enough for twice a round to fit are never a problem. -/
theorem exists_of_stayNear (hd : d ≤ clockHorizon) (hspace : Fits (2 * (max trials.toNat 1 * d) : Nat))
    (hrange : ∀ call ∈ calls, call.InRange) (hnear : StayNear d calls) :
    ∃ history e, Estimation .stops (.start guardBand trials attenuation) history e ∧
      history.map (·.call) = calls := by
  induction calls using List.reverseRecOn with
  | nil => exact ⟨[], _, .start, rfl⟩
  | append_singleton calls call ih =>
    have hbefore := fun call hcall => hrange call (List.mem_append_left _ hcall)
    have hlast := hrange call (List.mem_append_right _ (List.mem_singleton_self call))
    obtain ⟨history, e, run, rfl⟩ := ih hbefore (hnear.earlier (List.prefix_append _ _))
    have hranged := run.ranged hd hbefore (hnear.earlier (List.prefix_append _ _))
    obtain ⟨⟨e', outcome⟩, hcall⟩ : ∃ result, e.hear .stops call = some result := by
      cases call with
      | probe probe receivedAt =>
        obtain ⟨result, hresult⟩ := run.exists_onProbe hd hspace hbefore hlast hnear
        exact ⟨_, congrArg (Option.map _) hresult⟩
      | _ => exact ⟨_, rfl⟩
    exact ⟨_, e', run.call call hcall, by rw [List.map_append]; rfl⟩

end Estimation

/-- The greatest distance of clocks, some fourteen years and seven months, of which twice the ten
trials of the standard estimator fit. -/
def ClockEstimator.standardReach : Nat := 461168601842738790

/-- With readings of real clocks, all that the standard estimator calculates fits, the offset
included, but for the sum of a round; and that fits too as long as the clocks are within reach of
each other. -/
theorem ClockEstimator.standard_fits {calls : List EstimatorCall}
    (hrange : ∀ call ∈ calls, call.InRange) :
    (∀ history e, standard.hearAll .stops calls = some (history, e) →
      e.offset.toInt.natAbs ≤ clockHorizon ∧
      ∀ probe receivedAt, (EstimatorCall.probe probe receivedAt).InRange →
        (e.onProbe .stops probe receivedAt = none ↔
          ∃ s, e.sample? probe receivedAt = some s ∧
            s.spread.natAbs ≤ Defaults.guardBand.nanos.toInt ∧
            ¬ Fits (e.errorSum.toInt + s.lead))) ∧
    (StayNear standardReach calls → ∃ history e,
      standard.hearAll .stops calls = some (history, e)) := by
  refine ⟨fun history e h => ?_, fun hnear => ?_⟩
  · obtain ⟨run, rfl⟩ := Estimation.of_hearAll h
    exact ⟨(run.ranged Nat.le.refl hrange (stayNear_of_inRange hrange)).offset_le,
      fun probe receivedAt hprobe => run.onProbe_eq_none_iff hrange hprobe⟩
  · have hspace : Fits (2 * (max Defaults.clockSyncTrials.toNat 1 * standardReach) : Nat) := by
      decide
    obtain ⟨history, e, run, rfl⟩ := Estimation.exists_of_stayNear (by decide) hspace hrange hnear
    exact ⟨history, e, run.hearAll_eq⟩

/-- Exchanges, one each second, of a federate whose clock has not been set and shows the time since
its start. -/
def unsetClockCalls (exchanges : Nat) : List EstimatorCall :=
  (List.range exchanges).flatMap fun i =>
    let own := 1000000000 * Int64.ofNat i
    let now := 1700000000000000000 + own
    [.t1 now (own + 100), .t3Sent (own + 110), .t4 (now + 210) (own + 310),
      .probe (now + 1210) (own + 1310)]

/-- The sixth clock error is too much for the sum, and clocks that agree to the second are not. -/
theorem ClockEstimator.standard_fits_unset :
    (∃ history e, standard.hearAll .stops ((unsetClockCalls 6).take 23) = some (history, e) ∧
      e.offset.toInt.natAbs ≤ clockHorizon ∧
      e.onProbe .stops 1700000005000001210 5000001310 = none) ∧
    ∃ history e, standard.hearAll .stops
      [.t1 1000000000 100, .t3Sent 110, .t4 1000000210 310, .probe 1000001210 1310] =
        some (history, e) := by
  have hcomputed : (standard.hearAll .stops ((unsetClockCalls 6).take 23)).any fun x =>
      ((x.2.sample? 1700000005000001210 5000001310).any fun s =>
        s.spread.natAbs ≤ Defaults.guardBand.nanos.toInt ∧
          ¬ Fits (x.2.errorSum.toInt + s.lead)) := by decide +kernel
  obtain ⟨⟨history, e⟩, hhear, h⟩ := (Option.any_eq_true _ _).1 hcomputed
  obtain ⟨s, hsample, h⟩ := (Option.any_eq_true _ _).1 h
  obtain ⟨hoffset, hprobe⟩ := (standard_fits (by decide +kernel)).1 history e hhear
  have hnone := (hprobe _ _ (by decide)).2 ⟨s, hsample, of_decide_eq_true h⟩
  refine ⟨⟨history, e, hhear, hoffset, hnone⟩,
    (standard_fits (by decide)).2 fun before probe receivedAt hbefore r hr => ?_⟩
  -- the only probe is the last call
  obtain rfl : before = [.t1 1000000000 100, .t3Sent 110, .t4 1000000210 310] := by
    rcases before with _ | ⟨_, _ | ⟨_, _ | ⟨_, _ | ⟨_, _⟩⟩⟩⟩ <;> simp_all
  obtain rfl := Option.some.inj (ClockReadings.closes_iff.1 hr)
  exact ⟨by decide, by decide⟩

/-- The ten samples of an unset clock, each of 1.7e18 nanoseconds, do not fit, and where their sum
wraps around, it takes the offset further away. -/
theorem ClockEstimator.standard_overflows :
    (∀ call ∈ unsetClockCalls 10, call.InRange) ∧
    standard.hearAll .stops (unsetClockCalls 10) = none ∧
    (standard.hearAll .wraps (unsetClockCalls 10)).map (fun x => x.2.offset.toInt) =
      some (-14467440737095516) := by
  decide +kernel

end FederatedTime
