import FederatedTime.Proofs.Client.Sampling

/-!
# Convergence of the offset

Over a link with constant delays, and clocks that keep their distance, every sample has the same
clock error, counted from the offset (`ClockLink.target`). Each round takes the offset a part of the
way to that target and never beyond it (`Approaches.of_tdiv`), until it is nearer than the
attenuation, where it stays (`Estimation.converges`).
-/

namespace FederatedTime

open Nanoseconds (Fits Overflow toInt_saturate)

/-! ## A part of the way -/

/-- From `before`, the offset comes to `after` on its way to `target`: never past it, and nearer to
it unless it is within the attenuation already, where it stays. -/
structure Approaches (target attenuation before after : Int) : Prop where
  rises : before ≤ target → before ≤ after ∧ after ≤ target
  falls : target ≤ before → target ≤ after ∧ after ≤ before
  nears : attenuation ≤ (target - before).natAbs →
    (target - after).natAbs < (target - before).natAbs
  rests : (target - before).natAbs < attenuation → after = before

theorem Approaches.of_tdiv {target attenuation before after : Int} (hattenuation : 1 ≤ attenuation)
    (h : after = before + (target - before).tdiv attenuation) :
    Approaches target attenuation before after := by
  have hsize : ((target - before).tdiv attenuation).natAbs =
      (target - before).natAbs / attenuation.natAbs := Int.natAbs_tdiv _ _
  have hle := Nat.div_le_self (target - before).natAbs attenuation.natAbs
  have hrises (hle : 0 ≤ target - before) : 0 ≤ (target - before).tdiv attenuation :=
    Int.tdiv_nonneg hle (by omega)
  have hfalls (hle : 0 ≤ -(target - before)) : (target - before).tdiv attenuation ≤ 0 := by
    have := Int.tdiv_nonneg hle (Int.le_trans Int.one_nonneg hattenuation)
    rw [Int.neg_tdiv] at this
    omega
  constructor
  · omega
  · omega
  · intro hfar
    have hmoves : 0 < (target - before).natAbs / attenuation.natAbs :=
      Nat.div_pos (by omega) (by omega)
    omega
  · intro hnear
    rw [Nat.div_eq_of_lt (by omega)] at hsize
    omega

/-- After each round the offset is near, or nearer by one at least than after the round before. -/
theorem Approaches.near {target attenuation before after : Int} {rounds bound : Nat}
    (h : Approaches target attenuation before after)
    (hnear : (target - before).natAbs < attenuation ∨ (target - before).natAbs + rounds ≤ bound) :
    (target - after).natAbs < attenuation ∨ (target - after).natAbs + (rounds + 1) ≤ bound := by
  by_cases hin : (target - before).natAbs < attenuation
  · exact .inl (h.rests hin ▸ hin)
  · have hcloser := h.nears (Int.not_lt.1 hin)
    have hbound := hnear.resolve_left hin
    exact .inr (by omega)

/-! ## The link -/

/-- A link between the coordinator and a federate. -/
structure ClockLink where
  /-- How far the coordinator's clock is ahead of the federate's. -/
  ahead : Int
  /-- The delay of messages to the federate. -/
  toFederate : Nat
  /-- The delay of messages to the coordinator. -/
  toCoordinator : Nat

/-- What the link makes of the distance between the clocks: the time of travel is taken to be the
same in both directions. -/
def ClockLink.target (l : ClockLink) : Int :=
  l.ahead + ((l.toFederate + l.toCoordinator) / 2 : Nat) - l.toFederate

/-- Half of what the delays differ by, rounded up, is the distance between target and truth. -/
theorem ClockLink.natAbs_target_sub_le (l : ClockLink) :
    (l.target - l.ahead).natAbs ≤
      (((l.toFederate : Int) - l.toCoordinator).natAbs + 1) / 2 := by
  unfold target
  omega

theorem ClockLink.target_eq (l : ClockLink) (h : l.toFederate = l.toCoordinator) :
    l.target = l.ahead := by
  unfold target
  omega

/-- An exchange over the link that passes the guard band, at any time and with any time between
question and answer. -/
structure LinkExchange (l : ClockLink) (guardBand : Interval) where
  t1 : Int64
  t2 : Int64
  t3 : Int64
  t4 : Int64
  r4 : Int64
  probe : Int64
  probeReceived : Int64
  arrives : t2.toInt + l.ahead = t1.toInt + l.toFederate
  returns : t4.toInt = t3.toInt + l.ahead + l.toCoordinator
  pure : ((probeReceived.toInt - r4.toInt) - (probe.toInt - t4.toInt)).natAbs ≤
    guardBand.nanos.toInt

namespace LinkExchange

/-- What the federate hears of it. -/
def calls {l : ClockLink} {guardBand : Interval} (x : LinkExchange l guardBand) :
    List EstimatorCall :=
  [.t1 x.t1 x.t2, .t3Sent x.t3, .t4 x.t4 x.r4, .probe x.probe x.probeReceived]

/-- What an estimator that corrects nothing beyond the least and the greatest count makes of it. -/
theorem sample_eq {l : ClockLink} {guardBand : Interval} (x : LinkExchange l guardBand)
    {e : ClockEstimator}
    (hfits : ∀ reading ∈ [x.t2, x.t3, x.r4, x.probeReceived],
      Fits (reading.toInt + e.offset.toInt)) :
    let s : ClockSample := ⟨x.t1, e.corrected x.t2, e.corrected x.t3, x.t4, e.corrected x.r4,
      x.probe, e.corrected x.probeReceived⟩
    s.spread.natAbs ≤ guardBand.nanos.toInt ∧
      s.travel = (l.toFederate + l.toCoordinator : Nat) ∧
      s.lead = l.target - e.offset.toInt := by
  have hcorrected (reading : Int64) (h : reading ∈ [x.t2, x.t3, x.r4, x.probeReceived]) :
      (e.corrected reading).toInt = reading.toInt + e.offset.toInt :=
    toInt_saturate (hfits reading h)
  have ht2 := hcorrected x.t2 (by simp)
  have ht3 := hcorrected x.t3 (by simp)
  have hr4 := hcorrected x.r4 (by simp)
  have hprobe := hcorrected x.probeReceived (by simp)
  have harrives := x.arrives
  have hreturns := x.returns
  have hpure := x.pure
  intro s
  have htravel : s.travel = (l.toFederate + l.toCoordinator : Nat) := by
    simp only [s, ClockSample.travel, ht2, ht3]
    omega
  refine ⟨?_, htravel, ?_⟩
  · simp only [s, ClockSample.spread, hr4, hprobe]
    omega
  · rw [ClockSample.lead, htravel, Int.tdiv_eq_ediv_of_nonneg (Int.natCast_nonneg _)]
    simp only [s, ht2, ClockLink.target]
    omega

/-- An estimator that has heard all but the probe. -/
def heard {l : ClockLink} {guardBand : Interval} (x : LinkExchange l guardBand)
    (e : ClockEstimator) : ClockEstimator :=
  ((e.onT1 x.t1 x.t2).onT3Sent x.t3).onT4 x.t4 x.r4

/-- The moments of the exchange, which ends with `outcome`. -/
def moments {l : ClockLink} {guardBand : Interval} (x : LinkExchange l guardBand)
    (e : ClockEstimator) (outcome : SampleOutcome) (e' : ClockEstimator) : List EstimatorMoment :=
  [⟨e, .t1 x.t1 x.t2, none, e.onT1 x.t1 x.t2⟩,
    ⟨e.onT1 x.t1 x.t2, .t3Sent x.t3, none, (e.onT1 x.t1 x.t2).onT3Sent x.t3⟩,
    ⟨(e.onT1 x.t1 x.t2).onT3Sent x.t3, .t4 x.t4 x.r4, none, x.heard e⟩,
    ⟨x.heard e, .probe x.probe x.probeReceived, some outcome, e'⟩]

/-- What came of the exchange, where it ends a history. -/
theorem of_run {l : ClockLink} {guardBand : Interval} (x : LinkExchange l guardBand)
    {start e : ClockEstimator} {history : List EstimatorMoment} {calls : List EstimatorCall}
    (run : Estimation .stops start history e) (h : history.map (·.call) = calls ++ x.calls) :
    ∃ earlier before outcome, Estimation .stops start earlier before ∧
      earlier.map (·.call) = calls ∧
      (x.heard before).Probed x.probe x.probeReceived e outcome ∧
      history = earlier ++ x.moments before outcome e := by
  have h : history.map (·.call) = calls ++ [.t1 x.t1 x.t2] ++ [.t3Sent x.t3] ++ [.t4 x.t4 x.r4] ++
      [.probe x.probe x.probeReceived] := by simp [h, LinkExchange.calls]
  obtain ⟨_, _, _, rfl, run₃, h₃, hprobe⟩ := run.of_calls_eq_append_singleton h
  obtain ⟨_, _, _, rfl, run₂, h₂, ht4⟩ := run₃.of_calls_eq_append_singleton h₃
  obtain ⟨_, _, _, rfl, run₁, h₁, ht3⟩ := run₂.of_calls_eq_append_singleton h₂
  obtain ⟨earlier, before, _, rfl, run₀, h₀, ht1⟩ := run₁.of_calls_eq_append_singleton h₁
  obtain ⟨rfl, rfl⟩ := Prod.mk.inj (Option.some.inj ht1)
  obtain ⟨rfl, rfl⟩ := Prod.mk.inj (Option.some.inj ht3)
  obtain ⟨rfl, rfl⟩ := Prod.mk.inj (Option.some.inj ht4)
  obtain ⟨⟨_, outcome⟩, hresult, heq⟩ := Option.map_eq_some_iff.1 hprobe
  obtain ⟨rfl, rfl⟩ := Prod.mk.inj heq
  refine ⟨earlier, before, outcome, run₀, h₀, ClockEstimator.probed_of_onProbe hresult, ?_⟩
  simp only [List.append_assoc, List.cons_append, List.nil_append, moments, heard]

theorem adjustments_append_moments {l : ClockLink} {guardBand : Interval}
    (x : LinkExchange l guardBand) (history : List EstimatorMoment) (e : ClockEstimator)
    (outcome : SampleOutcome) (e' : ClockEstimator) :
    adjustments (history ++ x.moments e outcome e') = adjustments history ++
      (EstimatorMoment.adjustment?
        ⟨x.heard e, .probe x.probe x.probeReceived, some outcome, e'⟩).toList := by
  rw [adjustments, List.filterMap_append]
  cases outcome <;> rfl

end LinkExchange

/-! ## One exchange after the other -/

/-- A moment that ends an exchange counts its sample, and if it ends a round, it takes the offset a
part of the way. -/
def EstimatorMoment.Steers (l : ClockLink) (attenuation : Int) (m : EstimatorMoment) : Prop :=
  ∀ outcome, m.outcome = some outcome →
    m.after.roundTrip.map Int64.toInt = some ((l.toFederate + l.toCoordinator : Nat) : Int) ∧
    ((∃ clockError, outcome = .accepted clockError ∧
        clockError.toInt = l.target - m.before.offset.toInt ∧ m.after.offset = m.before.offset) ∨
      ∃ adjustment, outcome = .offsetAdjusted adjustment ∧
        adjustment.toInt = (l.target - m.before.offset.toInt).tdiv attenuation ∧
        Approaches l.target attenuation m.before.offset.toInt m.after.offset.toInt)

/-- The estimator between two exchanges, after `rounds` rounds and `exchanges` exchanges in all. -/
structure Settling (l : ClockLink) (rounds exchanges : Nat) (e : ClockEstimator) : Prop where
  samples_lt : e.samples < e.trials
  exchanges_eq : e.samples + e.trials * rounds = exchanges
  errorSum_eq : e.errorSum.toInt = e.samples * (l.target - e.offset.toInt)
  near : (l.target - e.offset.toInt).natAbs < e.attenuation ∨
    (l.target - e.offset.toInt).natAbs + rounds ≤ l.target.natAbs

namespace Settling

theorem start (l : ClockLink) (guardBand : Interval) (trials : UInt32) (attenuation : Int64) :
    Settling l 0 0 (.start guardBand trials attenuation) where
  samples_lt := Estimation.start.trials_pos
  exchanges_eq := rfl
  errorSum_eq := (Int.zero_mul _).symm
  near := .inr (Nat.le_of_eq (congrArg Int.natAbs (Int.sub_zero l.target)))

variable {l : ClockLink} {rounds exchanges : Nat} {e e' : ClockEstimator}

/-- The clock errors of a round are all the same, and so is their mean. -/
theorem tdiv_eq (h : Settling l rounds exchanges e) {lead : Int}
    (hlead : lead = l.target - e.offset.toInt) :
    (e.errorSum.toInt + lead).tdiv ((e.samples + 1 : Nat) : Int) = lead := by
  have hsum : e.errorSum.toInt + lead = ((e.samples + 1 : Nat) : Int) * lead := by
    rw [h.errorSum_eq, ← hlead, Int.natCast_succ, Int.add_mul, Int.one_mul]
  rw [hsum]
  exact Int.mul_tdiv_cancel_left lead (by omega)

/-- A probe that ends an exchange over the link. -/
theorem sampled (h : Settling l rounds exchanges e) (hattenuation : 1 ≤ e.attenuation)
    {s : ClockSample} {outcome : SampleOutcome} (hsampled : e.Sampled s e' outcome)
    (hpure : s.spread.natAbs ≤ e.guardBand.nanos.toInt)
    (htravel : s.travel = (l.toFederate + l.toCoordinator : Nat))
    (hlead : s.lead = l.target - e.offset.toInt) (call : EstimatorCall) :
    let m : EstimatorMoment := ⟨e, call, some outcome, e'⟩
    m.Steers l e.attenuation ∧
      Settling l (rounds + m.adjustment?.toList.length) (exchanges + 1) e' := by
  cases hsampled with
  | discarded himpure => exact absurd hpure (Int.not_le.2 himpure)
  | accepted _ hroundTrip hclockError herrorSum hmore =>
    have hroundTrip := hroundTrip.trans htravel
    refine ⟨?_, hmore, ?_, ?_, h.near⟩
    · rintro outcome ⟨⟩
      exact ⟨congrArg some hroundTrip, .inl ⟨_, rfl, hclockError.trans hlead, rfl⟩⟩
    · exact (Nat.add_right_comm _ _ _).trans (congrArg (· + 1) h.exchanges_eq)
    · rw [herrorSum, h.errorSum_eq, hlead, Int.natCast_succ, Int.add_mul, Int.one_mul]
  | adjusted _ hroundTrip _ hlast hadjustment hoffset =>
    have hroundTrip := hroundTrip.trans htravel
    rw [h.tdiv_eq hlead, hlead] at hadjustment
    have happroaches : Approaches l.target e.attenuation e.offset.toInt _ :=
      .of_tdiv hattenuation (hoffset.trans (congrArg _ hadjustment))
    have hround : e.samples + 1 = e.trials := Nat.le_antisymm h.samples_lt hlast
    refine ⟨?_, ?_, ?_, ?_, ?_⟩
    · rintro outcome ⟨⟩
      exact ⟨congrArg some hroundTrip, .inr ⟨_, rfl, hadjustment, happroaches⟩⟩
    · exact Nat.lt_of_le_of_lt (Nat.zero_le _) h.samples_lt
    · change 0 + e.trials * (rounds + 1) = exchanges + 1
      rw [← h.exchanges_eq, Nat.mul_succ, ← hround]
      omega
    · exact (Int.zero_mul _).symm
    · exact happroaches.near h.near

end Settling

namespace Estimation

variable {guardBand : Interval} {trials : UInt32} {attenuation : Int64} {l : ClockLink}
variable {exchanges : List (LinkExchange l guardBand)}
variable {history : List EstimatorMoment} {e : ClockEstimator}

/-- Where no correction reaches the least or the greatest count. -/
theorem settling (run : Estimation .stops (.start guardBand trials attenuation) history e)
    (hcalls : history.map (·.call) = exchanges.flatMap (·.calls))
    (hfits : ∀ m ∈ history, Fits (m.call.ownReading.toInt + m.before.offset.toInt)) :
    Settling l (adjustments history).length exchanges.length e ∧
      ∀ m ∈ history, m.Steers l (max attenuation.toInt 1) := by
  induction exchanges using List.reverseRecOn generalizing history e with
  | nil =>
    obtain rfl := List.map_eq_nil_iff.1 hcalls
    obtain rfl := run.eq_start rfl
    exact ⟨.start l guardBand trials attenuation, fun m hm => absurd hm List.not_mem_nil⟩
  | append_singleton exchanges x ih =>
    rw [List.flatMap_append, List.flatMap_singleton] at hcalls
    obtain ⟨earlier, before, outcome, run₀, hearlier, hprobed, rfl⟩ := x.of_run run hcalls
    obtain ⟨hsettling, hsteers⟩ := ih run₀ hearlier fun m hm =>
      hfits m (List.mem_append_left _ hm)
    obtain ⟨hguardBand, htrials, hattenuation⟩ := run₀.start_settings_eq
    have hreadings : ∀ reading ∈ [x.t2, x.t3, x.r4, x.probeReceived],
        Fits (reading.toInt + before.offset.toInt) := by
      simp only [List.forall_mem_append, LinkExchange.moments, List.forall_mem_cons] at hfits ⊢
      obtain ⟨-, ht1, ht3, ht4, hprobe, -⟩ := hfits
      exact ⟨ht1, ht3, ht4, hprobe, nofun⟩
    obtain ⟨hpure, htravel, hlead⟩ := x.sample_eq hreadings
    have hheard : Settling l (adjustments earlier).length exchanges.length (x.heard before) :=
      ⟨hsettling.samples_lt, hsettling.exchanges_eq, hsettling.errorSum_eq, hsettling.near⟩
    obtain ⟨hsteer, hsettled⟩ := hheard.sampled run₀.attenuation_pos
      (hprobed.sampled_of rfl) (hguardBand ▸ hpure) htravel hlead _
    -- of the four moments only the last has an outcome
    refine ⟨?_, List.forall_mem_append.2 ⟨hsteers, ?_⟩⟩
    · rw [x.adjustments_append_moments, List.length_append, List.length_append,
        List.length_singleton]
      exact hsettled
    · rw [← hattenuation]
      exact List.forall_mem_cons.2 ⟨nofun, List.forall_mem_cons.2 ⟨nofun,
        List.forall_mem_cons.2 ⟨nofun, List.forall_mem_singleton.2 hsteer⟩⟩⟩

/-- Over a link with constant delays the offset comes within the attenuation of its target. Every
exchange counts, with the clock error that is left, and every round of `k` exchanges takes the
offset a part of the way, at least one nanosecond as long as it is not there. The delays alone
decide how far target and truth are apart. -/
theorem converges (run : Estimation .stops (.start guardBand trials attenuation) history e)
    (hcalls : history.map (·.call) = exchanges.flatMap (·.calls))
    (hfits : ∀ m ∈ history, Fits (m.call.ownReading.toInt + m.before.offset.toInt)) :
    let k := max trials.toNat 1
    let a := max attenuation.toInt 1
    let rounds := exchanges.length / k
    (l.target - l.ahead).natAbs ≤ (((l.toFederate : Int) - l.toCoordinator).natAbs + 1) / 2 ∧
    (∀ m ∈ history, m.Steers l a) ∧
    (adjustments history).length = rounds ∧
    (l.target.natAbs ≤ rounds → (l.target - e.offset.toInt).natAbs < a ∧
      (l.toFederate = l.toCoordinator → (l.ahead - e.offset.toInt).natAbs < a)) := by
  intro k a rounds
  obtain ⟨-, htrials, hattenuation⟩ :
      e.guardBand = guardBand ∧ e.trials = k ∧ e.attenuation = a := run.start_settings_eq
  obtain ⟨hsettling, hsteers⟩ := run.settling hcalls hfits
  have hrounds : (adjustments history).length = rounds := by
    have hlt := htrials ▸ hsettling.samples_lt
    have hexchanges := htrials ▸ hsettling.exchanges_eq
    have hpos : 0 < k := Nat.lt_of_lt_of_le Nat.one_pos (Nat.le_max_right _ _)
    exact ((Nat.div_mod_unique hpos).2 ⟨hexchanges, hlt⟩).1.symm
  refine ⟨l.natAbs_target_sub_le, hsteers, hrounds, fun hdone => ?_⟩
  have hnear : (l.target - e.offset.toInt).natAbs < a := by
    have hnear := hsettling.near
    rw [hrounds, hattenuation] at hnear
    have hpos : 1 ≤ a := Int.le_max_right _ _
    omega
  exact ⟨hnear, fun hequal => l.target_eq hequal ▸ hnear⟩

end Estimation

/-- Two rounds of two exchanges, with more delay on the way back and a probe that comes late. -/
theorem Estimation.converges_skewed :
    let l : ClockLink := ⟨-4, 3, 8⟩
    let exchanges : List (LinkExchange l Defaults.guardBand) :=
      [⟨1000, 1007, 1020, 1024, 1031, 1100, 1112, by decide, by decide, by decide⟩,
        ⟨2000, 2007, 2007, 2011, 2018, 2100, 2107, by decide, by decide, by decide⟩,
        ⟨3000, 3007, 3900, 3904, 3911, 4000, 4007, by decide, by decide, by decide⟩,
        ⟨5000, 5007, 5010, 5014, 5021, 5100, 5107, by decide, by decide, by decide⟩]
    ∃ history e, (ClockEstimator.start Defaults.guardBand 2 2).hearAll .stops
        (exchanges.flatMap (·.calls)) = some (history, e) ∧
      l.target = -2 ∧ (adjustments history).length = 2 ∧
      ((l.target - e.offset.toInt).natAbs : Int) < 2 := by
  intro l exchanges
  have hcomputed : ((ClockEstimator.start Defaults.guardBand 2 2).hearAll .stops
      (exchanges.flatMap (·.calls))).any fun x =>
        ∀ m ∈ x.1, Fits (m.call.ownReading.toInt + m.before.offset.toInt) := by decide +kernel
  obtain ⟨⟨history, e⟩, hhear, h⟩ := (Option.any_eq_true _ _).1 hcomputed
  obtain ⟨run, hcalls⟩ := Estimation.of_hearAll hhear
  obtain ⟨-, -, hrounds, hnear⟩ := run.converges hcalls (of_decide_eq_true h)
  exact ⟨history, e, hhear, by decide, hrounds.trans (by decide), (hnear (by decide)).1.trans_eq
    (by decide)⟩

end FederatedTime
