import FederatedTime.Proofs.Client.Estimation
import Mathlib.Algebra.Ring.Int.Defs
import Mathlib.Data.List.DropRight

/-!
# Which readings make a sample

Datagrams get lost, come twice or out of order, so an estimator may hear any calls. A sample is made
of the readings since the last `t1`, if no probe has come since, and of the last of each kind
(`Estimation.sample?_eq_some_iff`). What the estimator keeps between two calls are the errors of the
samples of the present round and the adjustments of all rounds before (`Estimation.accounted`).
Together they say what each probe answers (`Estimation.samples_of_exchanges`).
-/

namespace FederatedTime

open Nanoseconds (Overflow)

/-! ## The exchange in progress -/

namespace EstimatorCall

/-- Whether an exchange goes on after a call. -/
def continues : EstimatorCall → Bool
  | t3Sent _ | t4 _ _ => true
  | t1 _ _ | probe _ _ => false

/-- When the answer has left. -/
def t3? : EstimatorCall → Option Int64
  | t3Sent sentAt => some sentAt
  | _ => none

/-- What `t4` reads, and when it has arrived. -/
def t4? : EstimatorCall → Option (Int64 × Int64)
  | t4 reading receivedAt => some (reading, receivedAt)
  | _ => none

end EstimatorCall

/-- The readings of an exchange, those of the own clock as they were read. -/
structure ClockReadings where
  t1 : Int64
  t2 : Int64
  t3 : Int64
  t4 : Int64
  r4 : Int64

/-- The calls end with an exchange that wants nothing but its probe: a last `t1`, no probe since,
and both an answer and a `t4` since, of which the last ones count. -/
def ClockReadings.Closes (r : ClockReadings) (calls : List EstimatorCall) : Prop :=
  ∃ before after, calls = before ++ .t1 r.t1 r.t2 :: after ∧ (∀ c ∈ after, c.continues = true) ∧
    (after.filterMap EstimatorCall.t3?).getLast? = some r.t3 ∧
    (after.filterMap EstimatorCall.t4?).getLast? = some (r.t4, r.r4)

/-- What an estimator makes of the readings when the probe comes. -/
def ClockReadings.sample (r : ClockReadings) (e : ClockEstimator) (probe receivedAt : Int64) :
    ClockSample :=
  ⟨r.t1, e.corrected r.t2, e.corrected r.t3, r.t4, e.corrected r.r4, probe, e.corrected receivedAt⟩

/-- An exchange that has begun: its `t1`, and the calls since. -/
structure OpenExchange where
  t1 : Int64
  t2 : Int64
  since : List EstimatorCall

namespace OpenExchange

/-- The exchange after one more call. -/
def add (open? : Option OpenExchange) : EstimatorCall → Option OpenExchange
  | .t1 t1 receivedAt => some ⟨t1, receivedAt, []⟩
  | .probe _ _ => none
  | call => open?.map fun x => { x with since := x.since ++ [call] }

def ofCalls (calls : List EstimatorCall) : Option OpenExchange := calls.foldl add none

theorem ofCalls_append_singleton (calls : List EstimatorCall) (call : EstimatorCall) :
    ofCalls (calls ++ [call]) = add (ofCalls calls) call := List.foldl_append

theorem foldl_add_of_continues {since : List EstimatorCall}
    (h : ∀ c ∈ since, c.continues = true) (x : OpenExchange) :
    since.foldl add (some x) = some { x with since := x.since ++ since } := by
  induction since generalizing x with
  | nil => simp
  | cons c since ih =>
    have hsince := fun d hd => h d (List.mem_cons_of_mem c hd)
    have hc := h c List.mem_cons_self
    have hadd : add (some x) c = some { x with since := x.since ++ [c] } := by
      cases c with
      | t3Sent | t4 => rfl
      | t1 | probe => cases hc
    rw [List.foldl_cons, hadd, ih hsince, List.append_assoc]
    rfl

/-- There is just one way to find the exchange in progress among the calls. -/
theorem ofCalls_eq_some_iff {calls : List EstimatorCall} {x : OpenExchange} :
    ofCalls calls = some x ↔ ∃ before, calls = before ++ .t1 x.t1 x.t2 :: x.since ∧
      ∀ c ∈ x.since, c.continues = true := by
  constructor
  · intro h
    induction calls using List.reverseRecOn generalizing x with
    | nil => cases h
    | append_singleton calls call ih =>
      rw [ofCalls_append_singleton] at h
      have goesOn (hcall : call.continues = true)
          (h : (ofCalls calls).map (fun x => { x with since := x.since ++ [call] }) = some x) :
          ∃ before, calls ++ [call] = before ++ .t1 x.t1 x.t2 :: x.since ∧
            ∀ c ∈ x.since, c.continues = true := by
        obtain ⟨y, hy, rfl⟩ := Option.map_eq_some_iff.1 h
        obtain ⟨before, rfl, hsince⟩ := ih hy
        refine ⟨before, by rw [List.append_assoc]; rfl, fun c hc => ?_⟩
        rcases List.mem_append.1 hc with hc | hc
        · exact hsince c hc
        · exact List.mem_singleton.1 hc ▸ hcall
      cases call with
      | t1 t1 receivedAt =>
        obtain rfl := Option.some.inj h
        exact ⟨calls, rfl, nofun⟩
      | t3Sent sentAt => exact goesOn rfl h
      | t4 t4 receivedAt => exact goesOn rfl h
      | probe probe receivedAt => cases h
  · rintro ⟨before, rfl, hsince⟩
    rw [ofCalls, List.foldl_append, List.foldl_cons]
    exact foldl_add_of_continues hsince _

/-- The last answer since the `t1`. -/
def t3? (x : OpenExchange) : Option Int64 := (x.since.filterMap EstimatorCall.t3?).getLast?

/-- The last `t4` since the `t1`. -/
def t4? (x : OpenExchange) : Option (Int64 × Int64) :=
  (x.since.filterMap EstimatorCall.t4?).getLast?

/-- The readings of the exchange, once it wants nothing but its probe. -/
def readings? (x : OpenExchange) : Option ClockReadings := do
  let t3 ← x.t3?
  let (t4, r4) ← x.t4?
  return ⟨x.t1, x.t2, t3, t4, r4⟩

/-- What an estimator holds of the exchange that corrects its readings by `correct`. -/
def held (x : OpenExchange) (correct : Int64 → Int64) : ClockExchange where
  t1 := some x.t1
  t2 := correct x.t2
  t3 := x.t3?.map correct
  t4 := x.t4?.map Prod.fst
  r4 := (x.t4?.map fun t4 => correct t4.2).getD 0

theorem held_t3Sent (x : OpenExchange) (correct : Int64 → Int64) (sentAt : Int64) :
    held { x with since := x.since ++ [.t3Sent sentAt] } correct =
      { x.held correct with t3 := some (correct sentAt) } := by
  simp [held, t3?, t4?, EstimatorCall.t3?, EstimatorCall.t4?]

theorem held_t4 (x : OpenExchange) (correct : Int64 → Int64) (t4 receivedAt : Int64) :
    held { x with since := x.since ++ [.t4 t4 receivedAt] } correct =
      { x.held correct with t4 := some t4, r4 := correct receivedAt } := by
  simp [held, t3?, t4?, EstimatorCall.t3?, EstimatorCall.t4?]

end OpenExchange

/-- Only the readings of the exchange in progress close the calls. -/
theorem ClockReadings.closes_iff {r : ClockReadings} {calls : List EstimatorCall} :
    r.Closes calls ↔ (OpenExchange.ofCalls calls).bind OpenExchange.readings? = some r := by
  constructor
  · rintro ⟨before, after, hcalls, hafter, ht3, ht4⟩
    have hopen : OpenExchange.ofCalls calls = some ⟨r.t1, r.t2, after⟩ :=
      OpenExchange.ofCalls_eq_some_iff.2 ⟨before, hcalls, hafter⟩
    simp only [hopen, Option.bind_some, OpenExchange.readings?, OpenExchange.t3?,
      OpenExchange.t4?, ht3, ht4]
    rfl
  · intro h
    obtain ⟨x, hopen, h⟩ := Option.bind_eq_some_iff.1 h
    obtain ⟨t3, ht3, h⟩ := Option.bind_eq_some_iff.1 h
    obtain ⟨⟨t4, r4⟩, ht4, h⟩ := Option.bind_eq_some_iff.1 h
    obtain rfl := Option.some.inj h
    obtain ⟨before, hcalls, hsince⟩ := OpenExchange.ofCalls_eq_some_iff.1 hopen
    exact ⟨before, x.since, hcalls, hsince, ht3, ht4⟩

namespace ClockEstimator

variable {e e' : ClockEstimator} {call : EstimatorCall} {outcome : Option SampleOutcome}
variable {open? : Option OpenExchange}

/-- What the estimator holds is the exchange that has begun, if one has. -/
inductive Holds (e : ClockEstimator) : Option OpenExchange → Prop
  | idle (h : e.exchange.t1 = none) : Holds e none
  | inExchange {x : OpenExchange} (h : e.exchange = x.held e.corrected) : Holds e (some x)

theorem Holds.hear (h : e.Holds open?) (hcall : e.Heard call e' outcome) :
    e'.Holds (OpenExchange.add open? call) := by
  cases hcall with
  | t1 t1 receivedAt => exact .inExchange rfl
  | t3Sent sentAt =>
    cases h with
    | idle h => exact .idle h
    | @inExchange x h =>
      -- the reading is corrected now; no offset changes before the probe
      have hsame : (e.onT3Sent sentAt).corrected = e.corrected := rfl
      exact .inExchange (by rw [hsame, x.held_t3Sent, ← h, onT3Sent])
  | t4 t4 receivedAt =>
    cases h with
    | idle h => exact .idle h
    | @inExchange x h =>
      have hsame : (e.onT4 t4 receivedAt).corrected = e.corrected := rfl
      exact .inExchange (by rw [hsame, x.held_t4, ← h, onT4])
  | probe hprobe => exact .idle (congrArg ClockExchange.t1 hprobe.exchange_eq)

/-- A probe makes a sample of the readings, if none is missing. -/
theorem Holds.sample?_eq (h : e.Holds open?) (probe receivedAt : Int64) :
    e.sample? probe receivedAt =
      (open?.bind OpenExchange.readings?).map fun r => r.sample e probe receivedAt := by
  unfold sample?
  cases h with
  | idle h => rw [h]; rfl
  | @inExchange x h =>
    rw [h, OpenExchange.held, Option.bind_some, OpenExchange.readings?]
    cases x.t3? <;> cases x.t4? <;> rfl

end ClockEstimator

/-! ## Any calls -/

namespace Estimation

variable {start e e' : ClockEstimator} {history : List EstimatorMoment}
variable {probe receivedAt : Int64} {s : ClockSample}

theorem holds (run : Estimation .stops start history e) (hfresh : start.exchange = {}) :
    e.Holds (OpenExchange.ofCalls (history.map (·.call))) := by
  induction run with
  | start => exact .idle (congrArg ClockExchange.t1 hfresh)
  | call earlier call h ih =>
    rw [List.map_append, List.map_singleton, OpenExchange.ofCalls_append_singleton]
    exact ih.hear (ClockEstimator.heard_of_hear h)

/-- Samples are made of the readings that close the calls before. -/
theorem sample?_eq_some_iff (run : Estimation .stops start history e)
    (hfresh : start.exchange = {}) :
    e.sample? probe receivedAt = some s ↔
      ∃ r : ClockReadings, r.Closes (history.map (·.call)) ∧ r.sample e probe receivedAt = s := by
  rw [(run.holds hfresh).sample?_eq, Option.map_eq_some_iff]
  simp only [ClockReadings.closes_iff]

end Estimation

/-! ## Rounds -/

/-- The sample that a moment has counted. -/
def EstimatorMoment.sample? (m : EstimatorMoment) : Option ClockSample :=
  match m.call, m.outcome with
  | .probe probe receivedAt, some (.accepted _) => m.before.sample? probe receivedAt
  | .probe probe receivedAt, some (.offsetAdjusted _) => m.before.sample? probe receivedAt
  | _, _ => none

/-- What a moment has added to the offset. -/
def EstimatorMoment.adjustment? (m : EstimatorMoment) : Option Int :=
  match m.outcome with
  | some (.offsetAdjusted adjustment) => some adjustment.toInt
  | _ => none

/-- The clock errors of all samples that have counted. -/
def clockErrors (history : List EstimatorMoment) : List Int :=
  (history.filterMap EstimatorMoment.sample?).map ClockSample.lead

/-- All adjustments of the offset. -/
def adjustments (history : List EstimatorMoment) : List Int :=
  history.filterMap EstimatorMoment.adjustment?

section Histories

variable {history : List EstimatorMoment} {m : EstimatorMoment} {s : ClockSample}

theorem clockErrors_append_of_none (h : m.sample? = none) :
    clockErrors (history ++ [m]) = clockErrors history := by
  simp [clockErrors, h]

theorem clockErrors_append_of_some (history : List EstimatorMoment) (h : m.sample? = some s) :
    clockErrors (history ++ [m]) = clockErrors history ++ [s.lead] := by
  simp [clockErrors, h]

theorem adjustments_append :
    adjustments (history ++ [m]) = adjustments history ++ m.adjustment?.toList := by
  simp only [adjustments, List.filterMap_append]
  cases h : m.adjustment? <;> simp [h]

end Histories

/-- What the estimator keeps between two calls, told from the history. -/
structure Accounted (history : List EstimatorMoment) (e : ClockEstimator) : Prop where
  samples_eq : e.samples = (clockErrors history).length % e.trials
  errorSum_eq : e.errorSum.toInt = ((clockErrors history).rtake e.samples).sum
  offset_eq : e.offset.toInt = (adjustments history).sum

namespace Accounted

variable {history : List EstimatorMoment} {e e' : ClockEstimator} {s : ClockSample}

theorem samples_lt (h : Accounted history e) (htrials : 0 < e.trials) : e.samples < e.trials :=
  h.samples_eq ▸ Nat.mod_lt _ htrials

/-- One more sample in the round. -/
theorem errorSum_add_lead (h : Accounted history e) (s : ClockSample) :
    e.errorSum.toInt + s.lead =
      ((clockErrors history ++ [s.lead]).rtake (e.samples + 1)).sum := by
  rw [List.rtake_concat_succ, List.sum_append, List.sum_singleton, h.errorSum_eq]

theorem length_mod (h : Accounted history e) (s : ClockSample) :
    (clockErrors history ++ [s.lead]).length % e.trials = (e.samples + 1) % e.trials := by
  rw [List.length_append, List.length_singleton, h.samples_eq, Nat.mod_add_mod]

/-- A moment without a sample. -/
theorem unchanged (h : Accounted history e) {m : EstimatorMoment} (hsample : m.sample? = none)
    (hadjustment : m.adjustment? = none) (htrials : e'.trials = e.trials)
    (hsamples : e'.samples = e.samples) (herrorSum : e'.errorSum = e.errorSum)
    (hoffset : e'.offset = e.offset) : Accounted (history ++ [m]) e' where
  samples_eq := by rw [clockErrors_append_of_none hsample, hsamples, htrials, h.samples_eq]
  errorSum_eq := by
    rw [clockErrors_append_of_none hsample, hsamples, herrorSum, h.errorSum_eq]
  offset_eq := by
    rw [adjustments_append, hadjustment, Option.toList_none, List.append_nil, hoffset, h.offset_eq]

/-- A moment with a sample that is not the last of its round. -/
theorem accepted (h : Accounted history e) {m : EstimatorMoment} (hsample : m.sample? = some s)
    (hadjustment : m.adjustment? = none) (hmore : e.samples + 1 < e.trials)
    (htrials : e'.trials = e.trials) (hsamples : e'.samples = e.samples + 1)
    (herrorSum : e'.errorSum.toInt = e.errorSum.toInt + s.lead) (hoffset : e'.offset = e.offset) :
    Accounted (history ++ [m]) e' where
  samples_eq := by
    rw [clockErrors_append_of_some _ hsample, htrials, h.length_mod s, Nat.mod_eq_of_lt hmore,
      hsamples]
  errorSum_eq := by
    rw [clockErrors_append_of_some _ hsample, hsamples, herrorSum, h.errorSum_add_lead s]
  offset_eq := by
    rw [adjustments_append, hadjustment, Option.toList_none, List.append_nil, hoffset, h.offset_eq]

/-- A moment with the last sample of its round. -/
theorem adjusted (h : Accounted history e) {m : EstimatorMoment} {adjustment : Int64}
    (hsample : m.sample? = some s) (hadjustment : m.adjustment? = some adjustment.toInt)
    (hlast : e.samples + 1 = e.trials) (htrials : e'.trials = e.trials)
    (hsamples : e'.samples = 0) (herrorSum : e'.errorSum = 0)
    (hoffset : e'.offset.toInt = e.offset.toInt + adjustment.toInt) :
    Accounted (history ++ [m]) e' where
  samples_eq := by
    rw [clockErrors_append_of_some _ hsample, htrials, h.length_mod s, hlast, Nat.mod_self,
      hsamples]
  errorSum_eq := by rw [hsamples, herrorSum, List.rtake_zero]; rfl
  offset_eq := by
    rw [adjustments_append, hadjustment, Option.toList_some, List.sum_append, List.sum_singleton,
      hoffset, h.offset_eq]

theorem hear (h : Accounted history e) (htrials : 0 < e.trials) {call : EstimatorCall}
    {outcome : Option SampleOutcome} (hcall : e.Heard call e' outcome) :
    Accounted (history ++ [⟨e, call, outcome, e'⟩]) e' := by
  cases hcall with
  | t1 | t3Sent | t4 => exact h.unchanged rfl rfl rfl rfl rfl rfl
  | probe hprobe =>
    cases hprobe with
    | incomplete => exact h.unchanged rfl rfl rfl rfl rfl rfl
    | sampled hsample hsampled =>
      cases hsampled with
      | discarded => exact h.unchanged rfl rfl rfl rfl rfl rfl
      | accepted _ _ _ herrorSum hmore =>
        exact h.accepted hsample rfl hmore rfl rfl herrorSum rfl
      | adjusted _ _ _ hlast _ hoffset =>
        have hlast := Nat.le_antisymm (h.samples_lt htrials) hlast
        exact h.adjusted hsample rfl hlast rfl rfl rfl hoffset

end Accounted

/-! ## The outcome of a probe -/

namespace ClockEstimator

variable {e e' : ClockEstimator} {probe receivedAt : Int64} {outcome : SampleOutcome}
variable {s : ClockSample} {history : List EstimatorMoment}

namespace Probed

theorem incomplete_iff (h : e.Probed probe receivedAt e' outcome) :
    outcome = .incomplete ↔ e.sample? probe receivedAt = none := by
  cases h with
  | incomplete hsample => exact iff_of_true rfl hsample
  | sampled hsample h => cases h <;> simp [hsample]

theorem discarded_iff (h : e.Probed probe receivedAt e' outcome)
    (hsample : e.sample? probe receivedAt = some s) :
    outcome = .discarded ↔ e.guardBand.nanos.toInt < s.spread.natAbs := by
  cases h.sampled_of hsample with
  | discarded himpure => exact iff_of_true rfl himpure
  | accepted hpure | adjusted hpure => exact iff_of_false nofun (Int.not_lt.2 hpure)

/-- A probe that does not count. -/
theorem of_uncounted (h : e.Probed probe receivedAt e' outcome)
    (houtcome : outcome = .incomplete ∨ outcome = .discarded) :
    e' = { e with exchange := {} } ∧
      clockErrors (history ++ [⟨e, .probe probe receivedAt, some outcome, e'⟩]) =
        clockErrors history := by
  cases h with
  | incomplete => exact ⟨rfl, clockErrors_append_of_none rfl⟩
  | sampled _ h =>
    cases h with
    | discarded => exact ⟨rfl, clockErrors_append_of_none rfl⟩
    | accepted | adjusted => simp at houtcome

/-- A probe that counts. -/
theorem sample?_of_counted (h : e.Probed probe receivedAt e' outcome)
    (hsample : e.sample? probe receivedAt = some s) (houtcome : outcome ≠ .discarded) :
    EstimatorMoment.sample? ⟨e, .probe probe receivedAt, some outcome, e'⟩ = some s := by
  cases h.sampled_of hsample with
  | discarded => exact absurd rfl houtcome
  | accepted | adjusted => exact hsample

/-- What a probe that counts answers. -/
theorem of_counted (h : e.Probed probe receivedAt e' outcome) (haccounted : Accounted history e)
    (htrials : 0 < e.trials) (hsample : e.sample? probe receivedAt = some s)
    (houtcome : outcome ≠ .discarded) {errors : List Int}
    (herrors : errors = clockErrors history ++ [s.lead]) :
    e'.roundTrip.map Int64.toInt = some s.travel ∧
    if e.trials ∣ errors.length then
      ∃ adjustment, outcome = .offsetAdjusted adjustment ∧
        adjustment.toInt = ((errors.rtake e.trials).sum.tdiv e.trials).tdiv e.attenuation
    else ∃ clockError, outcome = .accepted clockError ∧ clockError.toInt = s.lead := by
  have hmod := haccounted.length_mod s
  rw [← herrors] at hmod
  cases h.sampled_of hsample with
  | discarded => exact absurd rfl houtcome
  | @accepted _ clockError _ _ hroundTrip hclockError _ hmore =>
    have hopen : ¬ e.trials ∣ errors.length := by
      rw [Nat.dvd_iff_mod_eq_zero, hmod, Nat.mod_eq_of_lt hmore]
      exact Nat.succ_ne_zero _
    rw [if_neg hopen]
    exact ⟨congrArg some hroundTrip, clockError, rfl, hclockError⟩
  | @adjusted _ adjustment _ _ hroundTrip _ hlast hadjustment _ =>
    have hlast : e.samples + 1 = e.trials :=
      Nat.le_antisymm (haccounted.samples_lt htrials) hlast
    have hclosed : e.trials ∣ errors.length := by
      rw [Nat.dvd_iff_mod_eq_zero, hmod, hlast, Nat.mod_self]
    rw [haccounted.errorSum_add_lead, ← herrors, hlast] at hadjustment
    rw [if_pos hclosed]
    exact ⟨congrArg some hroundTrip, adjustment, rfl, hadjustment⟩

end Probed

end ClockEstimator

namespace Estimation

variable {start e e' : ClockEstimator} {history : List EstimatorMoment}
variable {guardBand : Interval} {trials : UInt32} {attenuation : Int64}

theorem accounted (run : Estimation .stops (.start guardBand trials attenuation) history e) :
    Accounted history e := by
  induction run with
  | start => exact ⟨rfl, rfl, rfl⟩
  | call earlier call h ih => exact ih.hear earlier.trials_pos (ClockEstimator.heard_of_hear h)

theorem samples_lt (run : Estimation .stops (.start guardBand trials attenuation) history e) :
    e.samples < e.trials :=
  run.accounted.samples_lt run.trials_pos

/-- Samples are made of the last exchange and of nothing else, and rounds of the last samples. -/
theorem samples_of_exchanges
    (run : Estimation .stops (.start guardBand trials attenuation) history e) :
    let k := max trials.toNat 1
    let a := max attenuation.toInt 1
    (∀ o, Estimation o (.start guardBand trials attenuation) history e) ∧
    e.samples < k ∧
    e.offset.toInt = (adjustments history).sum ∧
    ∀ probe receivedAt e' outcome, e.onProbe .stops probe receivedAt = some (e', outcome) →
      let calls := history.map (·.call)
      let errors := clockErrors (history ++ [⟨e, .probe probe receivedAt, some outcome, e'⟩])
      e'.exchange = {} ∧
      (outcome = .incomplete ↔ ∀ r : ClockReadings, ¬ r.Closes calls) ∧
      (outcome = .incomplete ∨ outcome = .discarded →
        e' = { e with exchange := {} } ∧ errors = clockErrors history) ∧
      ∀ r : ClockReadings, r.Closes calls → (∀ r' : ClockReadings, r'.Closes calls → r' = r) ∧
        let s := r.sample e probe receivedAt
        (outcome = .discarded ↔ guardBand.nanos.toInt < s.spread.natAbs) ∧
        (outcome ≠ .discarded →
          e'.roundTrip.map Int64.toInt = some s.travel ∧
          errors = clockErrors history ++ [s.lead] ∧
          if k ∣ errors.length then
            ∃ adjustment, outcome = .offsetAdjusted adjustment ∧
              adjustment.toInt = ((errors.rtake k).sum.tdiv k).tdiv a
          else ∃ clockError, outcome = .accepted clockError ∧ clockError.toInt = s.lead) := by
  intro k a
  obtain ⟨hguardBand, htrials, hattenuation⟩ :
      e.guardBand = guardBand ∧ e.trials = k ∧ e.attenuation = a := run.start_settings_eq
  refine ⟨run.of_stops, htrials ▸ run.samples_lt, run.accounted.offset_eq, ?_⟩
  intro probe receivedAt e' outcome h calls errors
  have hprobed := ClockEstimator.probed_of_onProbe h
  refine ⟨hprobed.exchange_eq, ?_, hprobed.of_uncounted, ?_⟩
  · rw [hprobed.incomplete_iff, Option.eq_none_iff_forall_ne_some]
    simp only [ne_eq, run.sample?_eq_some_iff rfl, not_exists, not_and]
    exact ⟨fun hnone r hr => hnone _ r hr rfl, fun hnone _ r hr _ => hnone r hr⟩
  intro r hr
  have hsample : e.sample? probe receivedAt = some (r.sample e probe receivedAt) :=
    (run.sample?_eq_some_iff rfl).2 ⟨r, hr, rfl⟩
  have hunique (r' : ClockReadings) (hr' : r'.Closes calls) : r' = r :=
    Option.some.inj ((ClockReadings.closes_iff.1 hr').symm.trans (ClockReadings.closes_iff.1 hr))
  have hdiscarded := hprobed.discarded_iff hsample
  rw [hguardBand] at hdiscarded
  refine ⟨hunique, hdiscarded, fun houtcome => ?_⟩
  have herrors :=
    clockErrors_append_of_some history (hprobed.sample?_of_counted hsample houtcome)
  obtain ⟨hroundTrip, hcounted⟩ :=
    hprobed.of_counted run.accounted run.trials_pos hsample houtcome herrors
  rw [htrials, hattenuation] at hcounted
  exact ⟨hroundTrip, herrors, hcounted⟩

end Estimation

/-- Two samples in a round, with a lost answer, a repeated one, a stray `t4` and a repeated probe
between them. -/
theorem Estimation.samples_of_exchanges_lossy :
    let start := ClockEstimator.start Defaults.guardBand 2 2
    let calls : List EstimatorCall :=
      [.t4 990 0, .t1 1000 0, .t1 1100 100, .t3Sent 110, .t3Sent 120, .t4 1220 220, .probe 1320 320,
        .probe 1320 325, .t1 1400 400, .t3Sent 410, .t4 1500 500]
    ∃ history e e', start.hearAll .stops calls = some (history, e) ∧
      e.onProbe .stops 1600 600 = some (e', .offsetAdjusted 523) ∧
      e.samples < 2 ∧ e'.exchange = {} ∧ e'.roundTrip.map Int64.toInt = some 90 ∧
      clockErrors (history ++ [⟨e, .probe 1600 600, some (.offsetAdjusted 523), e'⟩]) =
        [1050, 1045] ∧ ([1050, 1045] : List Int).sum.tdiv 2 = 1047 ∧ Int.tdiv 1047 2 = 523 := by
  intro start calls
  let r : ClockReadings := ⟨1400, 400, 410, 1500, 500⟩
  have hcomputed : (start.hearAll .stops calls).any fun x =>
      (x.2.onProbe .stops 1600 600).map Prod.snd = some (.offsetAdjusted 523) ∧
        r.sample x.2 1600 600 = ⟨1400, 400, 410, 1500, 500, 1600, 600⟩ ∧
        clockErrors x.1 = [1050] := by decide +kernel
  obtain ⟨⟨history, e⟩, hhear, h⟩ := (Option.any_eq_true _ _).1 hcomputed
  obtain ⟨hprobe, hsample, hearlier⟩ := of_decide_eq_true h
  obtain ⟨⟨e', outcome⟩, hprobe, rfl⟩ := Option.map_eq_some_iff.1 hprobe
  obtain ⟨run, hcalls⟩ := Estimation.of_hearAll hhear
  obtain ⟨-, hsamples, -, hnext⟩ := run.samples_of_exchanges
  obtain ⟨hexchange, -, -, hcloses⟩ := hnext 1600 600 e' _ hprobe
  have hclosed : r.Closes calls :=
    ⟨calls.take 8, [.t3Sent 410, .t4 1500 500], rfl, by decide, rfl, rfl⟩
  obtain ⟨-, -, hcounted⟩ := hcloses r (hcalls ▸ hclosed)
  obtain ⟨hroundTrip, herrors, -⟩ := hcounted nofun
  rw [hsample] at hroundTrip herrors
  exact ⟨history, e, e', hhear, hprobe, hsamples, hexchange, hroundTrip.trans (by decide),
    herrors.trans (by rw [hearlier]; decide), rfl, rfl⟩

end FederatedTime
