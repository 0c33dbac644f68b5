import FederatedTime.Proofs.Coordinator.GrantSafety
import FederatedTime.Proofs.Coordinator.StopAgreement

/-!
# What is announced

An announcement gives the time of the agreed tag, and whoever reads it takes the first tag at that
time. Grants keep to the agreed tag itself. The two differ if a federate has left after a later
microstep at that time, and only then (`Run.stopGranted_iff`).
-/

namespace FederatedTime

open FederatedTime.Action (grants)

namespace Round

variable {r : Round} {tag : Tag}

theorem ofTime_time_eq_iff (htag : IsGreatest r.counted tag) : Tag.ofTime tag.time = tag ↔
    ∀ g completed, r.Asks g → r.answer? g = some (.left completed) →
      completed.time = tag.time → completed.microstep = 0 := by
  constructor
  · intro hfirst g completed hasks hanswer htime
    have hle : completed ≤ tag := htag.2 (Or.inr ⟨g, .left completed, hasks, hanswer, rfl⟩)
    rw [← hfirst, Tag.le_iff, Int64.toInt_inj] at hle
    rcases hle with hlt | ⟨-, hle⟩
    · rw [htime] at hlt
      exact absurd hlt (lt_irrefl _)
    · exact UInt32.toNat_inj.1 (Nat.le_zero.1 hle)
  · intro hleft
    rcases htag.1 with htime | ⟨g, answer, hasks, hanswer, heq⟩
    · rw [htime]
      rfl
    · cases answer with
      | named time =>
        rw [heq]
        rfl
      | left completed =>
        have hcompleted : tag = completed := heq
        have hzero := hleft g completed hasks hanswer (by rw [hcompleted])
        rw [hcompleted, Tag.ofTime, ← hzero]

end Round

namespace Run

variable {t : Topology} {settings : CoordinatorSettings} {earlier later : List Moment}
variable {s before : Coordinator} {tag : Tag}

theorem grant_le_of_stopTag (run : Run t settings earlier s) {now : Duration} {e : Event}
    (htag : ((s.setTime now).moment e).after.stopTag = some tag) {c : ConnectionId} {granted : Tag}
    (h : .send c (.timeAdvanceGrant granted) ∈ ((s.setTime now).moment e).actions) :
    granted ≤ tag := by
  obtain ⟨gs, hupdate, hgrants⟩ := run.update now e
  have hmem : (c, granted) ∈ grants ((s.setTime now).handle e).2 := Action.mem_grants.2 h
  rw [hgrants] at hmem
  obtain ⟨f, hf, -⟩ := Coordinator.mem_sent.1 hmem
  obtain ⟨-, b, -, rfl⟩ := hupdate.grant hf
  exact Tag.clamp_le_of_mem htag

theorem Standing.isGreatest_of_stopTag {history : List Moment} {round : Option Round}
    (h : Standing history s round) (htag : s.stopTag = some tag) :
    ∃ r, round = some r ∧ IsGreatest r.counted tag := by
  unfold Coordinator.stopTag at htag
  cases h with
  | unopened hidle =>
    rw [hidle] at htag
    cases htag
  | @opened r hleads =>
    generalize s.stop = stop at hleads htag
    cases hleads with
    | negotiating => cases htag
    | granted hgreatest =>
      obtain rfl := Option.some.inj htag
      exact ⟨r, rfl, hgreatest⟩

/-- A tag once agreed is the stop tag of every later moment, and no grant exceeds it. -/
theorem stopTag_of_append (run : Run t settings (earlier ++ later) s)
    (htag : (lastState (.ofTopology t settings) earlier).stopTag = some tag) :
    s.stopTag = some tag ∧ ∀ m ∈ later, m.after.stopTag = some tag ∧
      ∀ c granted, .send c (.timeAdvanceGrant granted) ∈ m.actions → granted ≤ tag := by
  -- on the moments after the agreement, since a run grows at its end
  induction later using List.reverseRecOn generalizing s with
  | nil =>
    rw [List.append_nil] at run
    rw [run.lastState_eq] at htag
    exact ⟨htag, fun m hm => absurd hm List.not_mem_nil⟩
  | append_singleton middle m ih =>
    rw [← List.append_assoc] at run
    obtain ⟨before, now, run', -, hm, run''⟩ := run.exists_of_append_cons
    have hs : s = m.after := run.lastState_eq.symm.trans run''.lastState_eq
    obtain ⟨hbefore, hmiddle⟩ := ih run'
    have hafter : m.after.stopTag = some tag := by
      rcases run'.stopTag now m.event with hnone | hkept
      · rw [hbefore] at hnone
        cases hnone
      · rw [hm]
        exact hkept.trans hbefore
    refine ⟨hs ▸ hafter, fun m' hm' => ?_⟩
    rcases List.mem_append.1 hm' with hm' | hm'
    · exact hmiddle m' hm'
    · obtain rfl := List.mem_singleton.1 hm'
      refine ⟨hafter, fun c granted hgranted => ?_⟩
      rw [hm] at hafter hgranted
      exact run'.grant_le_of_stopTag hafter hgranted

/-- The agreed tag is the greatest that counts, it is enforced from the announcement on, and it is
what is read from the announcement unless a federate has left after a later microstep at the
announced time. -/
theorem stopGranted_iff {p : Topology.Plan} (hbuild : p.build = .ok t) {m : Moment}
    (run : Run t settings (earlier ++ m :: later) s) {c : ConnectionId} {time : Int64}
    (hsend : .send c (.stopGranted time) ∈ m.actions) :
    ∃ r tag, Round.ofHistory (.ofTopology t settings) (earlier ++ [m]) = some r ∧
      IsGreatest r.counted tag ∧ tag.time = time ∧
      (∀ m' ∈ m :: later, m'.after.stopTag = some tag ∧
        ∀ c' granted, .send c' (.timeAdvanceGrant granted) ∈ m'.actions → granted ≤ tag) ∧
      (Tag.ofTime time = tag ↔ ∀ g completed, r.Asks g →
        r.answer? g = some (.left completed) → completed.time = time → completed.microstep = 0) := by
  obtain ⟨before, now, run', fresh, hm, run''⟩ := run.exists_of_append_cons
  obtain ⟨result, hverdict, hadopts⟩ := run'.exists_verdict hbuild now m.event
  rw [← hm] at hverdict hadopts
  obtain ⟨tag, hnone, htag, rfl, -⟩ := (hadopts.mem_iff_of_stopGranted hverdict).1 hsend
  obtain ⟨r, hround, hgreatest⟩ := (run''.standing hbuild).isGreatest_of_stopTag htag
  refine ⟨r, tag, hround, hgreatest, rfl, ?_, Round.ofTime_time_eq_iff hgreatest⟩
  have hhistory : earlier ++ m :: later = (earlier ++ [m]) ++ later := by simp
  rw [hhistory] at run
  obtain ⟨-, hlater⟩ := run.stopTag_of_append (by rw [run''.lastState_eq, htag])
  intro m' hm'
  rcases List.mem_cons.1 hm' with rfl | hm'
  · refine ⟨htag, fun c' granted hgranted => ?_⟩
    rw [hm] at htag hgranted
    exact run'.grant_le_of_stopTag htag hgranted
  · exact hlater m' hm'

end Run

namespace Relay

/-- The source leaves instead of an answer. -/
def departed : Moment := stopState.moment (.messageReceived ⟨0⟩ .resign)

/-- The sink goes on. -/
def continued : List Moment :=
  departed.after.trace [.messageReceived ⟨1⟩ (.nextEventTag (.ofTime 600))]

theorem run_continued : ∃ s, Run plan.graph {} (stopHistory ++ departed :: continued) s :=
  ⟨_, run_stop.append_trace [.messageReceived ⟨0⟩ .resign,
    .messageReceived ⟨1⟩ (.nextEventTag (.ofTime 600))] (by decide +kernel)⟩

end Relay

namespace Run

theorem stopGranted_iff_relay : .send ⟨1⟩ (.stopGranted 500) ∈ Relay.departed.actions ∧
    ∃ r tag, Round.ofHistory (.ofTopology Relay.plan.graph {})
        (Relay.stopHistory ++ [Relay.departed]) = some r ∧
      IsGreatest r.counted tag ∧ tag.time = 500 ∧
      (Tag.ofTime 500 = tag ↔ ∀ g completed, r.Asks g →
        r.answer? g = some (.left completed) → completed.time = 500 → completed.microstep = 0) := by
  have hsend : .send ⟨1⟩ (.stopGranted 500) ∈ Relay.departed.actions := by decide +kernel
  obtain ⟨s, hrun⟩ := Relay.run_continued
  obtain ⟨r, tag, hround, hgreatest, htime, -, hiff⟩ := hrun.stopGranted_iff Relay.build_eq hsend
  exact ⟨hsend, r, tag, hround, hgreatest, htime, hiff⟩

/-- The sink is told to stop at 500 and is then granted the microstep 3 at that time. -/
theorem stopGranted_lt_stopTag :
    (∃ s, Run Relay.plan.graph {} (Relay.stopHistory ++ Relay.departed :: Relay.continued) s) ∧
    .send ⟨1⟩ (.stopGranted 500) ∈ Relay.departed.actions ∧
    Relay.departed.after.stopTag = some ⟨500, 3⟩ ∧ Tag.ofTime 500 < ⟨500, 3⟩ ∧
    ∃ m ∈ Relay.continued, .send ⟨1⟩ (.timeAdvanceGrant ⟨500, 3⟩) ∈ m.actions := by
  refine ⟨Relay.run_continued, ?_, ?_, ?_, ?_⟩
  · decide +kernel
  · decide +kernel
  · decide +kernel
  · decide +kernel

end Run

end FederatedTime
