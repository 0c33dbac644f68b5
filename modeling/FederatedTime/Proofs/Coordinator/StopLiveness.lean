import FederatedTime.Proofs.Coordinator.StopAgreement

/-!
# A round closes

No round waits for a federate that cannot answer (`Run.pending_answer`). The next thing that a
pending federate has to say about stopping counts, and so does its departure, and the answer of the
last one closes the round.
-/

namespace FederatedTime

namespace Coordinator

variable {s : Coordinator} {m : Moment} {result : StopNegotiation × StopOutcome}
variable {candidate : Tag} {pending : FederateSet} {g : FederateId}

/-- A round closes with the answer of the only federate that is pending. -/
theorem Verdict.granted_iff (h : s.Verdict m result) (hstop : s.stop = .awaiting candidate pending)
    (hopen : ∃ g, g ∈ pending) (hcounted : ∀ g ∈ pending, s.isCounted g = false) :
    (∃ tag, result.1 = .granted tag) ↔
      ∃ g, (∀ g', g' ∈ pending ↔ g' = g) ∧ m.answer? s g ≠ none := by
  -- after an answer the others are pending, and a round is over when nobody is
  have hlast {g : FederateId} (hg : g ∈ pending) (hne : m.answer? s g ≠ none) :
      (∃ tag, result.1 = .granted tag) ↔ ∀ g', g' ∈ pending → g' = g := by
    obtain ⟨answer, hanswer⟩ := Option.ne_none_iff_exists'.1 hne
    rw [h.fst_of_answered hstop hg (hcounted g hg) hanswer,
      StopNegotiation.exists_awaiting_eq_granted_iff]
    refine forall_congr' fun g' => ?_
    rw [FederateSet.mem_erase, not_and, not_not]
  constructor
  · intro hgranted
    by_cases hanswered : ∃ g ∈ pending, m.answer? s g ≠ none
    · obtain ⟨g, hg, hne⟩ := hanswered
      have honly := (hlast hg hne).1 hgranted
      refine ⟨g, fun g' => ⟨honly g', ?_⟩, hne⟩
      rintro rfl
      exact hg
    · push Not at hanswered
      rw [h.fst_of_unanswered hstop hanswered, hstop,
        StopNegotiation.exists_awaiting_eq_granted_iff] at hgranted
      obtain ⟨g, hg⟩ := hopen
      exact absurd hg (hgranted g)
  · rintro ⟨g, hg, hne⟩
    exact (hlast ((hg g).2 rfl) hne).2 fun g' => (hg g').1

end Coordinator

namespace Run

variable {t : Topology} {settings : CoordinatorSettings} {history : List Moment} {s : Coordinator}

variable {round : Option Round} {candidate : Tag} {pending : FederateSet}

theorem Standing.stopCounted_eq_false (h : Standing history s round) (hidle : s.stop = .idle)
    {f : FederateId} {record : FederateRecord} (hf : s.registry.get? f = some record) :
    record.stopCounted = false := by
  cases h with
  | unopened _ hcounted =>
    have hcounted := hcounted f
    unfold Coordinator.isCounted at hcounted
    rw [hf] at hcounted
    exact hcounted
  | opened hleads => exact absurd hidle hleads.ne_idle

theorem Standing.isAsked_of_pending (h : Standing history s round)
    (hstop : s.stop = .negotiating candidate pending) :
    ∃ r, round = some r ∧ (∃ g, g ∈ pending) ∧ ∀ g ∈ pending, IsAsked history s r.time g := by
  cases h with
  | unopened hidle =>
    rw [hidle] at hstop
    cases hstop
  | @opened r hleads hasked =>
    rw [hstop] at hleads
    cases hleads with
    | negotiating hcandidate hpending hopen =>
      obtain ⟨g, hg⟩ := hopen
      exact ⟨r, rfl, ⟨g, (hpending g).2 hg⟩, fun g hg => hasked g ((hpending g).1 hg)⟩

/-- While a round is open there is a federate that it waits for, and every such federate is joined,
has contributed nothing and has been asked once on its connection. What it says next about stopping
counts, and so does its departure, and the round closes with the answer of the last one. No
contribution is noted while no round has been opened. -/
theorem pending_answer {p : Topology.Plan} (hbuild : p.build = .ok t)
    (run : Run t settings history s) :
    (s.stop = .idle → ∀ f record, s.registry.get? f = some record → record.stopCounted = false) ∧
    ∀ candidate pending, s.stop = .negotiating candidate pending →
      (∃ r, Round.ofHistory (.ofTopology t settings) history = some r ∧ (∃ g, g ∈ pending) ∧
        ∀ g ∈ pending, IsAsked history s r.time g) ∧
      ∀ now e, let m := (s.setTime now).moment e
        (∀ g ∈ pending, ∀ c record, s.Joined c g record →
          (∀ time, e = .messageReceived c (.stopRequest time) ∨
              e = .messageReceived c (.stopRequestReply time) →
            m.after.stop = .awaiting (max candidate (.ofTime time)) (pending.erase g)) ∧
          (e = .connectionLost c ∨ e = .messageReceived c .resign ∨
              m.after.registry.isConnected g = false →
            m.after.stop = .awaiting (max candidate record.completed) (pending.erase g))) ∧
        ((∃ tag, m.after.stop = .granted tag) ↔
          ∃ g, (∀ g', g' ∈ pending ↔ g' = g) ∧ m.answer? s g ≠ none) := by
  have hstanding := run.standing hbuild
  refine ⟨fun hidle f record hf => hstanding.stopCounted_eq_false hidle hf, ?_⟩
  intro candidate pending hstop
  obtain ⟨r, hround, hopen, hasked⟩ := hstanding.isAsked_of_pending hstop
  refine ⟨⟨r, hround, hopen, hasked⟩, ?_⟩
  intro now e m
  have hs := consistent_setTime run.consistent now
  obtain ⟨result, hverdict, hadopts⟩ := run.exists_verdict hbuild now e
  have hcounted (g : FederateId) (hg : g ∈ pending) : (s.setTime now).isCounted g = false := by
    obtain ⟨c, record, hjoined, hcounted, -⟩ := hasked g hg
    rw [← (joined_setTime.2 hjoined).stopCounted_eq]
    exact hcounted
  have hawaiting : (s.setTime now).stop = .awaiting candidate pending := by
    obtain ⟨g, hg⟩ := hopen
    rw [StopNegotiation.awaiting_of_mem hg]
    exact hstop
  have hanswered {g : FederateId} (answer : StopAnswer) (hg : g ∈ pending)
      (hanswer : m.answer? (s.setTime now) g = some answer) :
      m.after.stop = .awaiting (max candidate answer.tag) (pending.erase g) := by
    rw [hadopts.stop_eq]
    exact hverdict.fst_of_answered hawaiting hg (hcounted g hg) hanswer
  refine ⟨fun g hg c record hjoined => ⟨fun time he => ?_, fun he => ?_⟩, ?_⟩
  · exact hanswered (.named time) hg ((joined_setTime.2 hjoined).answer?_eq_named he)
  · have hjoined : (s.setTime now).Joined c g record := joined_setTime.2 hjoined
    have hafter : m.after.registry.isConnected g = false := by
      rcases he with he | he | he
      · exact hjoined.isConnected_of_departure (Or.inl he)
      · exact hjoined.isConnected_of_departure (Or.inr he)
      · exact he
    exact hanswered (.left record.completed) hg (hjoined.answer?_eq_left hs hafter)
  · rw [hadopts.stop_eq]
    exact hverdict.granted_iff hawaiting hopen hcounted

theorem pending_answer_relay : (∃ time, IsAsked Relay.stopHistory Relay.stopState time ⟨0⟩) ∧
    Relay.answered.after.stop = .awaiting (max (.ofTime 400) (.ofTime 450))
      ((FederateSet.ofList [⟨0⟩]).erase ⟨0⟩) ∧
    ∃ tag, Relay.answered.after.stop = .granted tag := by
  have hstop : Relay.stopState.stop = .negotiating (.ofTime 400) (.ofList [⟨0⟩]) := by
    decide +kernel
  have hpending (g : FederateId) : g ∈ FederateSet.ofList [⟨0⟩] ↔ g = ⟨0⟩ := by
    rw [FederateSet.mem_ofList, List.mem_singleton]
  have hsession : Relay.stopState.sessions.get? ⟨0⟩ = some (.joined ⟨0⟩) := by decide +kernel
  obtain ⟨record, hjoined⟩ := Relay.run_stop.consistent.exists_joined hsession
  have hanswer : Relay.answered.answer? Relay.stopState ⟨0⟩ = some (.named 450) :=
    (@joined_setTime _ _ _ _ 0 |>.2 hjoined).answer?_eq_named (Or.inr rfl)
  obtain ⟨-, hopen⟩ := Relay.run_stop.pending_answer Relay.build_eq
  obtain ⟨⟨r, -, -, hasked⟩, hnext⟩ := hopen _ _ hstop
  obtain ⟨hcounts, hcloses⟩ := hnext 0 (.messageReceived ⟨0⟩ (.stopRequestReply 450))
  have hmem : ⟨0⟩ ∈ FederateSet.ofList [⟨0⟩] := (hpending ⟨0⟩).2 rfl
  refine ⟨⟨r.time, hasked ⟨0⟩ hmem⟩, ?_, hcloses.2 ⟨⟨0⟩, hpending, ?_⟩⟩
  · exact (hcounts ⟨0⟩ hmem ⟨0⟩ record hjoined).1 450 (Or.inr rfl)
  · exact Option.ne_none_iff_exists'.2 ⟨.named 450, hanswer⟩

end Run

end FederatedTime
