import FederatedTime.Proofs.Coordinator.LateJoin
import FederatedTime.Proofs.Coordinator.StartAgreement

/-!
# Proposals of an earlier session

A proposal outlives the session that it is made in: the negotiation does not forget it when its
federate leaves and joins again. So at the moment that fixes the start time everybody who is joined
has proposed, but those who have left since their last proposal have made none in their present
session (`Run.proposedOn_iff_not_left`).
-/

namespace FederatedTime

/-- What `f` has proposed on a connection in a history from `s` on. -/
def ProposedOn (s : Coordinator) (history : List Moment) (c : ConnectionId) (f : FederateId) :
    Prop :=
  ∃ proposal ∈ startProposals s history, proposal.federate = f ∧ proposal.connection = c

/-- At some time `f` has left, and it has proposed nothing since. -/
def LeftSinceProposing (s : Coordinator) (history : List Moment) (f : FederateId) : Prop :=
  ∃ first, first <+: history ∧ (lastState s first).registry.hasLeft f ∧
    ∀ proposal ∈ startProposals s history, proposal.federate = f →
      proposal ∈ startProposals s first

namespace Run

variable {t : Topology} {settings : CoordinatorSettings} {history : List Moment} {s : Coordinator}
variable {p : Topology.Plan} {c : ConnectionId} {f : FederateId} {time : Int64}

/-- Who has proposed is joined where it has, or has left since. -/
theorem proposedOn_or_left (run : Run t settings history s)
    (hproposed : ∃ c, ProposedOn (.ofTopology t settings) history c f) :
    (∃ c, s.registry.connection? f = some c ∧
      ProposedOn (.ofTopology t settings) history c f) ∨
    LeftSinceProposing (.ofTopology t settings) history f := by
  induction run with
  | start =>
    obtain ⟨c, proposal, hproposal, -⟩ := hproposed
    cases hproposal
  | @event history s run now e fresh ih =>
    have hs := consistent_setTime run.consistent now
    obtain ⟨gs, hmove, -⟩ := (Coordinator.handle_transition hs e).move
    have run' := run.event now e fresh
    have hproposals := run.startProposals_append_singleton ((s.setTime now).moment e)
    -- a federate that is joined where it has proposed stays there, or leaves at this moment
    have stays {c : ConnectionId} {record : FederateRecord} (hjoined : s.Joined c f record)
        (hc : ProposedOn (.ofTopology t settings) (history ++ [(s.setTime now).moment e]) c f) :
        (∃ c, ((s.setTime now).handle e).1.registry.connection? f = some c ∧
          ProposedOn (.ofTopology t settings) (history ++ [(s.setTime now).moment e]) c f) ∨
        LeftSinceProposing (.ofTopology t settings)
          (history ++ [(s.setTime now).moment e]) f := by
      rcases hmove.connection?_eq_or (joined_setTime.2 hjoined) with hkept | ⟨-, hleft⟩
      · exact Or.inl ⟨c, hkept, hc⟩
      · refine Or.inr ⟨_, List.prefix_refl _, ?_, fun _ hmem _ => hmem⟩
        rw [run'.lastState_eq]
        exact hleft
    by_cases hnew : ∃ proposal,
        ((s.setTime now).moment e).startProposal? s = some proposal ∧ proposal.federate = f
    · obtain ⟨proposal, hproposal, rfl⟩ := hnew
      obtain ⟨-, record, hjoined⟩ := run.consistent.exists_of_startProposal? hproposal
      refine stays hjoined ⟨proposal, ?_, rfl, rfl⟩
      rw [hproposals, hproposal]
      exact List.mem_append_right _ (List.mem_singleton_self proposal)
    · have hold : ∀ proposal ∈ startProposals (.ofTopology t settings)
          (history ++ [(s.setTime now).moment e]), proposal.federate = f →
            proposal ∈ startProposals (.ofTopology t settings) history := by
        intro proposal hproposal hf
        rw [hproposals] at hproposal
        rcases List.mem_append.1 hproposal with hproposal | hproposal
        · exact hproposal
        · exact absurd ⟨proposal, Option.mem_toList.1 hproposal, hf⟩ hnew
      obtain ⟨c, proposal, hproposal, hf, hc⟩ := hproposed
      rcases ih ⟨c, proposal, hold proposal hproposal hf, hf, hc⟩ with
        ⟨c', hc', proposal', hproposal', hf', hon⟩ | ⟨first, hfirst, hleft, hall⟩
      · obtain ⟨record, hjoined⟩ :=
          run.consistent.exists_joined ((run.consistent.joined_iff c' f).2 hc')
        refine stays hjoined ⟨proposal', ?_, hf', hon⟩
        rw [hproposals]
        exact List.mem_append_left _ hproposal'
      · refine Or.inr ⟨first, hfirst.trans (List.prefix_append _ _), hleft, ?_⟩
        exact fun proposal hproposal hf => hall proposal (hold proposal hproposal hf) hf

/-- Who has left comes back on another connection than the ones it has proposed on. -/
theorem not_proposedOn_of_hasLeft {first rest : List Moment} {record : FederateRecord}
    (run : Run t settings (first ++ rest) s) (hjoined : s.Joined c f record)
    (hleft : (lastState (.ofTopology t settings) first).registry.hasLeft f) :
    ¬ ProposedOn (.ofTopology t settings) first c f := by
  rintro ⟨proposal, hproposal, -, rfl⟩
  obtain ⟨hopened, hserved⟩ := run.of_append.served_of_proposal hproposal
  rcases run.of_append.mayServe_before run hopened (Or.inl hjoined.session) with
    hbefore | ⟨peer, hpeer⟩
  · obtain ⟨record', hjoined'⟩ := run.of_append.consistent.exists_joined hbefore
    have hconnected := hjoined'.isConnected
    rw [Registry.not_isConnected_of_hasLeft hleft] at hconnected
    cases hconnected
  · exact hserved peer hpeer

/-- At the moment that fixes the start time, everybody who is joined has proposed, and the time is a
second after every proposal at least; but who has left since its last proposal, and nobody else, has
made none in its present session. -/
theorem proposedOn_iff_not_left {earlier later : List Moment} {m : Moment}
    (hbuild : p.build = .ok t) (run : Run t settings (earlier ++ m :: later) s)
    (hopen : (lastState (.ofTopology t settings) earlier).startTime = none)
    (htime : m.after.startTime = some time) :
    let start := Coordinator.ofTopology t settings
    let history := earlier ++ [m]
    (∀ proposal ∈ startProposals start history,
      min (proposal.time.toInt + 1000000000) 9223372036854775807 ≤ time.toInt) ∧
    ∀ c f record, m.after.Joined c f record →
      (∃ c', ProposedOn start history c' f) ∧
        (ProposedOn start history c f ↔ ¬ LeftSinceProposing start history f) := by
  intro start history
  obtain ⟨-, -, -, -, -, run'⟩ := run.exists_of_append_cons
  have hfixed : m.after.startTime ≠ none := by
    rw [htime]
    exact Option.some_ne_none time
  obtain ⟨hdue, -⟩ := (run.fixed_iff hbuild).1 ⟨hopen, hfixed⟩
  obtain ⟨latest, -, hle, htoInt⟩ := run.exists_latest hbuild hopen htime
  refine ⟨fun proposal hproposal => ?_, fun c f record hjoined => ?_⟩
  · have hlatest := Int64.le_iff_toInt_le.1 (hle proposal hproposal)
    omega
  · have hproposed : ∃ c', ProposedOn start history c' f := by
      obtain ⟨-, hall⟩ := run'.startDue_iff.1 hdue
      rcases hall f (Roster.index_lt_of_get? hjoined.get?_eq) with ⟨proposal, hproposal, hf⟩ | hleft
      · exact ⟨proposal.connection, proposal, hproposal, hf, rfl⟩
      · have hconnected := hjoined.isConnected
        rw [Registry.not_isConnected_of_hasLeft hleft] at hconnected
        cases hconnected
    refine ⟨hproposed, ?_, fun hstayed => ?_⟩
    · rintro ⟨proposal, hproposal, hf, hc⟩ ⟨first, ⟨rest, hsplit⟩, hleft, hall⟩
      rw [show earlier ++ [m] = first ++ rest from hsplit.symm] at run'
      exact run'.not_proposedOn_of_hasLeft hjoined hleft
        ⟨proposal, hall proposal hproposal hf, hf, hc⟩
    · rcases run'.proposedOn_or_left hproposed with ⟨c', hc', hon⟩ | hleft
      · rw [hjoined.connection?_eq] at hc'
        rwa [Option.some.inj hc']
      · exact absurd hleft hstayed

end Run

namespace Relay

/-- The source proposes 100, leaves, and joins again on another connection before the sink joins. -/
def rejoinEvents : List Event :=
  let peer : SocketAddress := default
  [.connectionOpened ⟨0⟩ peer, .messageReceived ⟨0⟩ (.join ⟨0⟩ "relay"),
    .messageReceived ⟨0⟩ (.timestamp 100), .messageReceived ⟨0⟩ .resign,
    .connectionOpened ⟨1⟩ peer, .messageReceived ⟨1⟩ (.join ⟨0⟩ "relay"),
    .connectionOpened ⟨2⟩ peer, .messageReceived ⟨2⟩ (.join ⟨1⟩ "relay")]

def rejoinHistory : List Moment := (Coordinator.ofTopology plan.graph {}).trace rejoinEvents

def rejoinState : Coordinator := ((Coordinator.ofTopology plan.graph {}).handleAll rejoinEvents).1

/-- The sink proposes 50, which fixes the time. -/
def fixing : Moment := (rejoinState.setTime 0).moment (.messageReceived ⟨2⟩ (.timestamp 50))

theorem run_rejoin : Run plan.graph {} rejoinHistory rejoinState := .run_trace (by decide)

theorem run_fixing : Run plan.graph {} (rejoinHistory ++ [fixing]) fixing.after :=
  run_rejoin.event 0 (.messageReceived ⟨2⟩ (.timestamp 50)) nofun

theorem startTime_rejoin :
    (lastState (.ofTopology plan.graph {}) rejoinHistory).startTime = none := by decide +kernel

theorem startTime_fixing : fixing.after.startTime = some 1000000100 := by decide +kernel

theorem joined_fixing : ∃ record, fixing.after.Joined ⟨1⟩ ⟨0⟩ record :=
  run_fixing.consistent.exists_joined (by decide +kernel)

end Relay

namespace Run

theorem proposedOn_iff_not_left_relay :
    (lastState (.ofTopology Relay.plan.graph {}) Relay.rejoinHistory).startTime = none ∧
    Relay.fixing.after.startTime = some 1000000100 ∧
    (ProposedOn (.ofTopology Relay.plan.graph {}) (Relay.rejoinHistory ++ [Relay.fixing]) ⟨1⟩ ⟨0⟩ ↔
      ¬ LeftSinceProposing (.ofTopology Relay.plan.graph {})
        (Relay.rejoinHistory ++ [Relay.fixing]) ⟨0⟩) := by
  obtain ⟨record, hjoined⟩ := Relay.joined_fixing
  obtain ⟨-, hall⟩ := Relay.run_fixing.proposedOn_iff_not_left Relay.build_eq
    Relay.startTime_rejoin Relay.startTime_fixing
  exact ⟨Relay.startTime_rejoin, Relay.startTime_fixing, (hall ⟨1⟩ ⟨0⟩ record hjoined).2⟩

/-- The time is fixed although the source, which is joined, has proposed nothing since it has joined
again. -/
theorem not_proposedOn_rejoined :
    Run Relay.plan.graph {} (Relay.rejoinHistory ++ [Relay.fixing]) Relay.fixing.after ∧
    (lastState (.ofTopology Relay.plan.graph {}) Relay.rejoinHistory).startTime = none ∧
    Relay.fixing.after.startTime = some 1000000100 ∧
    (∃ record, Relay.fixing.after.Joined ⟨1⟩ ⟨0⟩ record) ∧
    ¬ ProposedOn (.ofTopology Relay.plan.graph {}) (Relay.rejoinHistory ++ [Relay.fixing])
      ⟨1⟩ ⟨0⟩ := by
  refine ⟨Relay.run_fixing, Relay.startTime_rejoin, Relay.startTime_fixing,
    Relay.joined_fixing, ?_⟩
  unfold ProposedOn
  decide +kernel

end Run

end FederatedTime
