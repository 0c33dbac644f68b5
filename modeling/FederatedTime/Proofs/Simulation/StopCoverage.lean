import FederatedTime.Proofs.Simulation.Consulting

/-!
# What an agreed stop covers

The round of a stop counts one answer of each federate that it includes, and that is the first one
that the federate has sent. So the agreed stop is not below any of these
(`stop_covers_first_proposals`). A federate that has asked for a stop on its own may have sent
another answer meanwhile, and one that joins late is not asked: the agreed stop may be below what
these have sent (`stop_below_later_proposal`).
-/

namespace FederatedTime

namespace Simulation

variable {t : Topology} {history : List Moment} {s s' start : Simulation} {f : FederateId}
variable {p : Topology.Plan} {r : Round} {m : Moment} {c : ConnectionId} {time : Int64} {tag : Tag}
variable {proposal : Tag} {violation : Violation} {fuel : Nat}

theorem requestsLeft_le_one (s : Simulation) (f : FederateId) : s.requestsLeft f ≤ 1 := by
  unfold requestsLeft
  cases s.federates.get? f with
  | none => exact Nat.zero_le 1
  | some federate => exact federate.requestsLeft_le_one

theorem historyOf_append_singleton (past : List Simulation) (hmoment : s.moment? = some m) :
    historyOf (past ++ [s]) = historyOf past ++ [m] := by
  unfold historyOf
  rw [List.filterMap_append, List.filterMap_cons, hmoment]
  rfl

/-! ## A round that is over -/

namespace Consulting

section Round

variable (h : Consulting t start history s)
variable (hround : Round.ofHistory (.ofTopology t { clockSync := .disabled }) history = some r)
include h hround

theorem opened : (heardFrom history r.requester).head? = some r.time ∧
    (∀ f, r.Asks f → Accounted history s r f) ∧
    ∀ f c, r.opened.registry.connection? f = some c → c = connectionOf f := by
  have hconsulted := h.consulted
  rw [hround] at hconsulted
  cases hconsulted with
  | opened hrequester hasked hseated => exact ⟨hrequester, hasked, hseated⟩

/-- Only those whom the round asks are sent a request, and one. -/
theorem proposalsOn_cases (hbuild : p.build = .ok t) (f : FederateId) :
    proposalsOn (connectionOf f) history = [] ∨
      r.Asks f ∧ (proposalsOn (connectionOf f) history).length = 1 := by
  rcases h.sound.run.proposalsOn_cases hbuild (connectionOf f) with
    hnil | ⟨r', g, hr', hasks, hconnection, hproposals⟩
  · exact Or.inl hnil
  · obtain rfl := Option.some.inj (hround.symm.trans hr')
    obtain rfl := connectionOf_injective ((h.opened hround).2.2 g _ hconnection)
    exact Or.inr ⟨hasks, congrArg List.length hproposals⟩

/-- The first proposal of everybody whom the round includes counts, once the round is over. -/
theorem head_mem_counted (hclosed : ∀ g, ¬ r.Awaits g) (hf : f = r.requester ∨ r.Asks f)
    (hfirst : proposal ∈ (s.proposalsOf f).head?) :
    ∃ time, proposal = .ofTime time ∧ .ofTime time ∈ r.counted := by
  obtain ⟨hrequester, hasked, -⟩ := h.opened hround
  rw [h.tallied.proposals, stopTimes_said, List.head?_map, List.head?_append] at hfirst
  obtain ⟨time, htime, rfl⟩ := Option.map_eq_some_iff.1 hfirst
  refine ⟨time, rfl, ?_⟩
  rcases hf with rfl | hasks
  · rw [hrequester] at htime
    obtain rfl := Option.some.inj htime
    exact Or.inl rfl
  · cases hasked f hasks with
    | silent hanswer => exact absurd ⟨hasks, hanswer⟩ (hclosed f)
    | named time' hanswer hheard =>
      rw [hheard] at htime
      obtain rfl := Option.some.inj htime
      exact Or.inr ⟨f, _, hasks, hanswer, rfl⟩
    | left completed hanswer hheard hdeparted =>
      rw [hheard, hdeparted.stopTimes_eq_nil] at htime
      cases htime

theorem first_le (hclosed : ∀ g, ¬ r.Awaits g) (htag : IsGreatest r.counted tag)
    (hf : f = r.requester ∨ r.Asks f) (hfirst : proposal ∈ (s.proposalsOf f).head?) :
    proposal ≤ .ofTime tag.time := by
  obtain ⟨time, rfl, hcounted⟩ := h.head_mem_counted hround hclosed hf hfirst
  exact Tag.ofTime_le_ofTime_time (htag.2 hcounted)

omit hround in
theorem length_proposalsOf (f : FederateId) : (s.proposalsOf f).length =
    (stopRequests (said history s f)).length + (stopReplies (said history s f)).length := by
  rw [h.tallied.proposals, List.length_map, length_stopTimes]

/-- The requester asks once, and nobody asks it. -/
theorem requester (hbuild : p.build = .ok t) : 0 < start.requestsLeft r.requester ∧
    (s.proposalsOf r.requester).length ≤ 1 := by
  have hlength := h.length_proposalsOf r.requester
  have hrequests := h.tallied.requests r.requester
  have hreplies := h.tallied.replies r.requester
  have hone := requestsLeft_le_one start r.requester
  have hproposed : 0 < (s.proposalsOf r.requester).length := by
    refine List.length_pos_iff.2 fun hnil => ?_
    rw [h.tallied.proposals, stopTimes_said, List.map_eq_nil_iff, List.append_eq_nil_iff] at hnil
    have hfirst := (h.opened hround).1
    rw [hnil.1] at hfirst
    cases hfirst
  have hunasked : proposalsOn (connectionOf r.requester) history = [] :=
    (h.proposalsOn_cases hround hbuild r.requester).resolve_right fun hasked => hasked.1.1 rfl
  rw [hunasked, List.length_nil] at hreplies
  omega

/-- A federate that does not ask on its own proposes a time at most once, and only if it is
asked. -/
theorem unrequesting (hbuild : p.build = .ok t) (hleft : start.requestsLeft f = 0)
    (hproposed : 0 < (s.proposalsOf f).length) :
    r.Asks f ∧ (s.proposalsOf f).length ≤ 1 := by
  have hlength := h.length_proposalsOf f
  have hrequests := h.tallied.requests f
  have hreplies := h.tallied.replies f
  rcases h.proposalsOn_cases hround hbuild f with hnone | ⟨hasks, hone⟩
  · rw [hnone, List.length_nil] at hreplies
    omega
  · exact ⟨hasks, by omega⟩

/-- A proposal above the stop comes from a federate that asks on its own, and has not opened the
round. -/
theorem rival (hbuild : p.build = .ok t) (hclosed : ∀ g, ¬ r.Awaits g)
    (htag : IsGreatest r.counted tag) (hmem : proposal ∈ s.proposalsOf f)
    (hlt : .ofTime tag.time < proposal) : f ≠ r.requester ∧ 0 < start.requestsLeft f := by
  have single (hf : f = r.requester ∨ r.Asks f) (hone : (s.proposalsOf f).length ≤ 1) : False := by
    refine not_le.2 hlt (h.first_le hround hclosed htag hf ?_)
    obtain ⟨only, honly⟩ := List.length_eq_one_iff.1
      (le_antisymm hone (List.length_pos_of_mem hmem))
    rw [honly] at hmem ⊢
    rw [List.mem_singleton.1 hmem]
    rfl
  refine ⟨fun hf => single (Or.inl hf) (hf ▸ (h.requester hround hbuild).2), ?_⟩
  by_contra hnone
  obtain ⟨hasks, hone⟩ := h.unrequesting hround hbuild (Nat.eq_zero_of_not_pos hnone)
    (List.length_pos_of_mem hmem)
  exact single (Or.inr hasks) hone

end Round

/-- When a stop is announced, the round is over, and the stop is the greatest of what counts. -/
theorem exists_announced (hbuild : p.build = .ok t) (h : Consulting t start history s)
    (hmoment : s.moment? = some m) (hgranted : .send c (.stopGranted time) ∈ m.actions) :
    ∃ s' r tag, Consulting t start (history ++ [m]) s' ∧ s'.proposals = s.proposals ∧
      Round.ofHistory (.ofTopology t { clockSync := .disabled }) (history ++ [m]) = some r ∧
      IsGreatest r.counted tag ∧ (∀ g, ¬ r.Awaits g) ∧ tag.time = time := by
  obtain ⟨entry, rest, e, hentries, hevent, rfl⟩ := exists_of_moment? hmoment
  obtain ⟨ho, hturn⟩ := h.sound.orderly.answered hentries hevent
  have he : e ∈ s.events := hturn.events.mem_iff.2 List.mem_cons_self
  obtain ⟨r, tag, hround, htag, hclosed, htime⟩ := h.sound.run.exists_round_of_stopGranted hbuild
    entry.time e (h.sound.not_mem_opened he) hgranted
  exact ⟨_, r, tag, h.answered hbuild ho hturn, hturn.proposals, hround, htag, hclosed, htime⟩

/-- An announced stop is not below the first proposal of anybody who was joined when the round was
opened, and a proposal above it comes from a rival of the requester. -/
theorem covers (hbuild : p.build = .ok t) {past : List Simulation}
    (h : Consulting t start (historyOf past) s) (hmoment : s.moment? = some m)
    (hgranted : .send c (.stopGranted time) ∈ m.actions) :
    ∃ r, Round.ofHistory (.ofTopology t { clockSync := .disabled }) (historyOf (past ++ [s])) =
        some r ∧
      (∀ f, r.before.registry.isConnected f → ∀ first ∈ (s.proposalsOf f).head?,
        first ≤ .ofTime time) ∧
      ∀ f, ∀ proposal ∈ s.proposalsOf f, .ofTime time < proposal →
        f ≠ r.requester ∧ 0 < start.requestsLeft f ∧ 0 < start.requestsLeft r.requester := by
  obtain ⟨s', r, tag, hs', hproposals, hround, htag, hclosed, rfl⟩ :=
    h.exists_announced hbuild hmoment hgranted
  have hsame (f : FederateId) : s'.proposalsOf f = s.proposalsOf f := by
    rw [proposalsOf, hproposals]
    rfl
  refine ⟨r, ?_, fun f hf first hfirst => ?_, fun f proposal hproposal hlt => ?_⟩
  · rw [historyOf_append_singleton past hmoment]
    exact hround
  · refine hs'.first_le hround hclosed htag ?_ (hsame f ▸ hfirst)
    exact or_iff_not_imp_left.2 fun hne => ⟨hne, hf⟩
  · obtain ⟨hne, hleft⟩ := hs'.rival hround hbuild hclosed htag (hsame f ▸ hproposal) hlt
    exact ⟨hne, hleft, (hs'.requester hround hbuild).1⟩

end Consulting

/-! ## Runs -/

/-- A violation ends a run at the last state in which a delivery is made. -/
theorem exists_last_of_violation (h : (s.runWithin fuel).2 = some violation) :
    ∃ past last failed, s.visited fuel = past ++ [last] ∧
      last.step? = some (failed, some violation) := by
  rw [runWithin_eq] at h
  cases hlast : (s.visited fuel).getLast? with
  | none =>
    rw [hlast] at h
    cases h
  | some last =>
    obtain ⟨past, hvisited⟩ := List.getLast?_eq_some_iff.1 hlast
    rw [hlast, Option.elim_some] at h
    cases hstep : last.step? with
    | none =>
      rw [hstep] at h
      cases h
    | some checked =>
      obtain ⟨failed, fault⟩ := checked
      rw [hstep] at h
      obtain rfl : fault = some violation := h
      exact ⟨past, last, failed, hvisited, hstep⟩

theorem runWithin_of_stopBelowProposal {stop : Tag}
    (h : s.run.2 = some (.stopBelowProposal f proposal stop)) :
    (s.runWithin s.potential).2 = some (.stopBelowProposal f proposal stop) := by
  unfold run at h
  cases hlast : s.runWithin s.potential with
  | mk last fault =>
    rw [hlast] at h
    cases fault with
    | some fault => exact h
    | none =>
      have hstall : last.stallFault? = some (.stopBelowProposal f proposal stop) := h
      unfold stallFault? at hstall
      split at hstall
      · cases hstall
      · cases hstall

/-- The script of `f` tells it to ask for a stop. -/
def Requests (scripts : List Script) (f : FederateId) : Prop :=
  ∃ script ∈ scripts[f.index]?, script.stopAfter.isSome

theorem requests_of_requestsLeft {scripts : List Script} {latency : Latency}
    {drawing : Drawing} {random : RandomStream} {link : UInt64 → RandomStream}
    (h : 0 < (ofScripts t scripts latency drawing random link).requestsLeft f) :
    Requests scripts f := by
  unfold requestsLeft at h
  rw [get?_federates_ofScripts] at h
  cases hscript : scripts[f.index]? with
  | none =>
    rw [hscript] at h
    cases h
  | some script =>
    rw [hscript] at h
    refine ⟨script, hscript, ?_⟩
    by_contra hnone
    have hleft : (ScriptedFederate.ofScript f script).requestsLeft = 0 := by
      show ScriptedFederate.requestsAfter script.stopAfter 0 = 0
      rw [Option.not_isSome_iff_eq_none.1 hnone]
      rfl
    exact lt_irrefl 0 (lt_of_lt_of_eq h hleft)

/-- In the last state of a run `f` has proposed more than a stop that is announced. Its script tells it
to ask for one, and so does the script of another federate, which has opened the round. If `f` was
joined by then, the stop is not below the first proposal of `f`. -/
inductive Overruled (scripts : List Script) (start : Simulation) (f : FederateId)
    (proposal stop : Tag) : Prop
  | intro (past : List Simulation) (last : Simulation) (r : Round)
      (hvisited : start.visited start.potential = past ++ [last])
      (hround : Round.ofHistory start.coordinator (historyOf (past ++ [last])) = some r)
      (hproposal : proposal ∈ last.proposalsOf f) (hrival : f ≠ r.requester)
      (hrequests : Requests scripts f) (hrequester : Requests scripts r.requester)
      (hfirst : r.before.registry.isConnected f → ∃ first ∈ (last.proposalsOf f).head?, first ≤ stop)

/-- When a stop is announced, it is not below the first proposal that anybody has sent who was joined
when the round was opened. A run that ends because a stop is below a proposal has overruled the
federate that it comes from, so that no run does in which at most one federate is told to ask for a
stop. -/
theorem stop_covers_first_proposals (hbuild : p.build = .ok t) {scripts : List Script}
    (hscripts : scripts.length ≤ t.size) (latency : Latency) (drawing : Drawing)
    (random : RandomStream) (link : UInt64 → RandomStream) :
    let start := ofScripts t scripts latency drawing random link
    (∀ fuel past s later, start.visited fuel = past ++ s :: later → ∀ m ∈ s.moment?, ∀ c time,
      .send c (.stopGranted time) ∈ m.actions →
        ∃ r, Round.ofHistory start.coordinator (historyOf (past ++ [s])) = some r ∧
          ∀ f, r.before.registry.isConnected f → ∀ first ∈ (s.proposalsOf f).head?,
            first ≤ .ofTime time) ∧
    (∀ f proposal stop, start.run.2 = some (.stopBelowProposal f proposal stop) →
      Overruled scripts start f proposal stop) ∧
    ((∀ f g, Requests scripts f → Requests scripts g → f = g) →
      ∀ f proposal stop, start.run.2 ≠ some (.stopBelowProposal f proposal stop)) := by
  intro start
  have hstart : Consulting t start [] start :=
    consulting_ofScripts hbuild hscripts latency drawing random link
  have hoverruled (f proposal stop)
      (hrun : start.run.2 = some (.stopBelowProposal f proposal stop)) :
      Overruled scripts start f proposal stop := by
    obtain ⟨past, last, failed, hvisited, hstep⟩ :=
      exists_last_of_violation (runWithin_of_stopBelowProposal hrun)
    have hlast := hstart.of_visited hbuild hvisited
    obtain ⟨entry, rest, e, c, time, hentries, hevent, hsent, hfault⟩ :=
      hlast.sound.exists_entry_of_fault hbuild hstep
    obtain ⟨⟨g, above⟩, hfind, heq⟩ := Option.map_eq_some_iff.1 hfault
    obtain ⟨rfl, rfl, rfl⟩ := Violation.stopBelowProposal.inj heq
    have hlt : decide (.ofTime time < above) = true := (List.find?_eq_some_iff_append.1 hfind).1
    have hproposal : above ∈ last.proposalsOf g :=
      List.mem_filterMap.2 ⟨(g, above), List.mem_of_find?_eq_some hfind, if_pos rfl⟩
    obtain ⟨r, hround, hfirst, hrival⟩ :=
      hlast.covers hbuild (moment?_of_event hentries hevent) hsent
    obtain ⟨hne, hown, hother⟩ := hrival g above hproposal (of_decide_eq_true hlt)
    refine .intro past last r hvisited hround hproposal hne (requests_of_requestsLeft hown)
      (requests_of_requestsLeft hother) fun hg => ?_
    obtain ⟨first, hhead⟩ := Option.isSome_iff_exists.1
      (List.isSome_head?.2 (List.ne_nil_of_mem hproposal))
    exact ⟨first, hhead, hfirst g hg first hhead⟩
  refine ⟨fun fuel past s later hvisited m hm c time hgranted => ?_, hoverruled, ?_⟩
  · obtain ⟨r, hround, hfirst, -⟩ := (hstart.of_visited hbuild hvisited).covers hbuild hm hgranted
    exact ⟨r, hround, hfirst⟩
  · intro honly f proposal stop hrun
    obtain ⟨_, _, r, -, -, -, hrival, hrequests, hrequester, -⟩ := hoverruled f proposal stop hrun
    exact hrival (honly f r.requester hrequests hrequester)

end Simulation

namespace Relay

/-- Both ask for a stop after their first tags, and the sink has another one to come. -/
def rivalScripts : List Simulation.Script :=
  [{ tags := [.ofTime 10], stopAfter := some 1 },
    { tags := [.ofTime 5, .ofTime 15], stopAfter := some 1 }]

def contested : Simulation :=
  .ofScripts plan.graph rivalScripts ⟨.ofMillis 1, 0⟩ (RandomStream.below .double)
    (ChaCha.stream 0) ChaCha.stream

end Relay

namespace Simulation

/-- Three federates without connections. -/
def apart : Topology.Plan := ⟨"fed", 3, []⟩

/-- The third of them joins when the first has asked for a stop, and asks for one itself. -/
def joinedLate : Simulation :=
  .ofScripts apart.graph [{ tags := [.ofTime 10], stopAfter := some 1 }, { tags := [.ofTime 50] },
    { tags := [.ofTime 500], stopAfter := some 1 }] ⟨0, 100000⟩ (RandomStream.below .double)
    (ChaCha.stream 3359) ChaCha.stream

/-- A stop may be below a second proposal of a federate, and below that of one that joins late. -/
theorem stop_below_later_proposal :
    Relay.contested.run.2 = some (.stopBelowProposal ⟨1⟩ (.ofTime 15) (.ofTime 11)) ∧
      joinedLate.run.2 = some (.stopBelowProposal ⟨2⟩ (.ofTime 501) (.ofTime 50)) := by
  decide +kernel

theorem stop_covers_first_proposals_relay :
    Relay.contested.run.2 = some (.stopBelowProposal ⟨1⟩ (.ofTime 15) (.ofTime 11)) ∧
      Overruled Relay.rivalScripts Relay.contested ⟨1⟩ (.ofTime 15) (.ofTime 11) := by
  have hrun : Relay.contested.run.2 =
      some (.stopBelowProposal ⟨1⟩ (.ofTime 15) (.ofTime 11)) := by decide +kernel
  have hscripts : Relay.rivalScripts.length ≤ Relay.plan.graph.size := by decide
  have hcovers := stop_covers_first_proposals Relay.build_eq hscripts ⟨.ofMillis 1, 0⟩
    (RandomStream.below .double) (ChaCha.stream 0) ChaCha.stream
  exact ⟨hrun, hcovers.2.1 _ _ _ hrun⟩

end Simulation

end FederatedTime
