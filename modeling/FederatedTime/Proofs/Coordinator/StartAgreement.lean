import FederatedTime.Proofs.Coordinator.GrantOrder
import FederatedTime.Proofs.Coordinator.StartStep

/-!
# The agreement on a start time

Until the time is fixed, the negotiation has noted exactly the proposals that the history shows
(`Run.start_eq_noting`). It is fixed at the first moment at which nobody is left to wait for
(`Run.startTime_eq_none_iff`), and stays. Whoever has proposed and is still joined on that
connection has been told, at that moment or in answer to the proposal (`Run.told_startTime`).
-/

namespace FederatedTime

/-! ## One event -/

namespace Coordinator

variable {s : Coordinator} {m : Moment} {time : Int64}

theorem StartStep.startTime_eq (h : s.StartStep m) (htime : s.startTime = some time) :
    m.after.startTime = some time := by
  cases h with
  | kept _ hstart | late _ _ hstart =>
    rw [← htime]
    exact congrArg StartNegotiation.startTime hstart
  | weighed hopen =>
    rw [hopen] at htime
    cases htime

/-- As long as no time is fixed, what an event brings is noted. -/
theorem StartStep.start_eq (h : s.StartStep m) (hnone : m.after.startTime = none) :
    s.startTime = none ∧ m.after.start = s.start.noteAll (m.startProposal? s).toList := by
  cases hopen : s.startTime with
  | some time =>
    rw [h.startTime_eq hopen] at hnone
    cases hnone
  | none =>
    refine ⟨rfl, ?_⟩
    cases h with
    | kept hproposal hstart =>
      rw [hproposal, hstart]
      rfl
    | late _ htime =>
      rw [hopen] at htime
      cases htime
    | weighed _ hstart =>
      rw [StartNegotiation.tryFix_eq] at hstart
      split at hstart
      · rw [startTime, hstart] at hnone
        cases hnone
      · exact hstart

/-- Everybody who is told a time is told the one that is fixed. -/
theorem StartStep.startTime_eq_of_sent (h : s.StartStep m) {c : ConnectionId}
    (hsent : .send c (.timestamp time) ∈ m.actions) : m.after.startTime = some time := by
  cases h with
  | kept _ _ _ hnone => exact absurd hsent (hnone c time)
  | late hproposal htime hstart hall =>
    obtain ⟨-, rfl⟩ := (hall c time).1 hsent
    rw [← htime]
    exact congrArg StartNegotiation.startTime hstart
  | weighed _ hstart hall =>
    obtain ⟨hdue, -⟩ := (hall c time).1 hsent
    rw [startTime, hstart, StartNegotiation.tryFix_eq, hdue]

/-- When the time is fixed, everybody is told who is joined. -/
theorem StartStep.sent_of_fixed (h : s.StartStep m) (hopen : s.startTime = none)
    (htime : m.after.startTime = some time) {c : ConnectionId}
    (hc : c ∈ m.after.registry.connections) : .send c (.timestamp time) ∈ m.actions := by
  cases h with
  | kept _ hstart =>
    have hkept : m.after.startTime = s.startTime := congrArg StartNegotiation.startTime hstart
    rw [hkept, hopen] at htime
    cases htime
  | late _ hfixed =>
    rw [hopen] at hfixed
    cases hfixed
  | weighed _ hstart hall =>
    have hnoted := (s.start.startTime_noteAll (m.startProposal? s).toList).trans hopen
    refine (hall c time).2 ⟨?_, hc⟩
    rw [← StartNegotiation.startTime_tryFix hnoted, ← hstart]
    exact htime

/-- Later, whoever proposes is told. -/
theorem StartStep.sent_of_late (h : s.StartStep m) (htime : s.startTime = some time)
    {proposal : StartProposal} (hproposal : m.startProposal? s = some proposal) :
    .send proposal.connection (.timestamp time) ∈ m.actions := by
  cases h with
  | kept hnone =>
    rw [hnone] at hproposal
    cases hproposal
  | late hsome hfixed _ hall =>
    obtain rfl := Option.some.inj (hsome.symm.trans hproposal)
    obtain rfl := Option.some.inj (hfixed.symm.trans htime)
    exact (hall _ _).2 ⟨rfl, rfl⟩
  | weighed hopen =>
    rw [htime] at hopen
    cases hopen

end Coordinator

/-! ## A whole run -/

namespace Run

variable {t : Topology} {settings : CoordinatorSettings} {history : List Moment} {s : Coordinator}
variable {p : Topology.Plan} {c : ConnectionId} {f : FederateId} {time : Int64}

theorem startStep (hbuild : p.build = .ok t) (run : Run t settings history s) (now : Duration)
    (e : Event) : s.StartStep ((s.setTime now).moment e) := by
  have hs := consistent_setTime run.consistent now
  have hsize := run.size_le hbuild
  cases Coordinator.startStep hs hsize e with
  | kept hproposal hstart hleft hsent => exact .kept hproposal hstart hleft hsent
  | late hproposal htime hstart hsent => exact .late hproposal htime hstart hsent
  | weighed hopen hstart hsent => exact .weighed hopen hstart hsent

theorem startProposals_append_singleton (run : Run t settings history s) (m : Moment) :
    startProposals (.ofTopology t settings) (history ++ [m]) =
      startProposals (.ofTopology t settings) history ++ (m.startProposal? s).toList :=
  run.gather_append_singleton _ m

/-- Until the time is fixed, the negotiation has noted the proposals of the history. -/
theorem start_eq_noting (hbuild : p.build = .ok t) (run : Run t settings history s)
    (hnone : s.startTime = none) :
    s.start = .noting t.size (startProposals (.ofTopology t settings) history) := by
  induction run with
  | start => rfl
  | @event history s run now e fresh ih =>
    obtain ⟨hopen, hstart⟩ := (run.startStep hbuild now e).start_eq hnone
    rw [run.startProposals_append_singleton, StartNegotiation.noting_append, ← ih hopen]
    exact hstart

theorem startDue_iff (run : Run t settings history s) :
    StartDue (.ofTopology t settings) history ↔
      startProposals (.ofTopology t settings) history ≠ [] ∧
        ∀ f, f.index < s.registry.size →
          (∃ p ∈ startProposals (.ofTopology t settings) history, p.federate = f) ∨
            s.registry.hasLeft f = true := by
  have hcontains (f : FederateId) :
      (Coordinator.ofTopology t settings).registry.topology.contains f = true ↔
        f.index < s.registry.size := by
    rw [run.registry_size_eq]
    exact decide_eq_true_iff
  constructor
  · intro h
    refine ⟨h.proposed, fun f hf => ?_⟩
    have hall := h.complete f ((hcontains f).2 hf)
    rwa [run.lastState_eq] at hall
  · rintro ⟨hproposed, hall⟩
    refine ⟨hproposed, fun f hf => ?_⟩
    rw [run.lastState_eq]
    exact hall f ((hcontains f).1 hf)

/-- What is due after the proposals of the history. -/
theorem due?_ne_none_iff (hbuild : p.build = .ok t) (run : Run t settings history s) :
    (StartNegotiation.noting t.size (startProposals (.ofTopology t settings) history)).due?
      s.registry ≠ none ↔ StartDue (.ofTopology t settings) history := by
  rw [run.startDue_iff, ← run.registry_size_eq]
  exact StartNegotiation.due?_noting_ne_none_iff (run.size_le hbuild) run.consistent.id_eq

/-- While nobody has fixed a time, an event fixes the one that is due after it. -/
theorem startTime_eq_due? (hbuild : p.build = .ok t) (run : Run t settings history s)
    (now : Duration) {e : Event} (fresh : ∀ c ∈ e.opens?, c ∉ opened history)
    (hopen : s.startTime = none) (hdue : ¬ StartDue (.ofTopology t settings) history) :
    ((s.setTime now).handle e).1.startTime = (StartNegotiation.noting t.size
      (startProposals (.ofTopology t settings) (history ++ [(s.setTime now).moment e]))).due?
        ((s.setTime now).handle e).1.registry := by
  have run' := run.event now e fresh
  have hproposals := run.startProposals_append_singleton ((s.setTime now).moment e)
  have hnoted : (StartNegotiation.noting t.size (startProposals (.ofTopology t settings)
      (history ++ [(s.setTime now).moment e]))).startTime = none :=
    StartNegotiation.startTime_noteAll _ _
  cases run.startStep hbuild now e with
  | kept hproposal hstart hleft =>
    have hnone : ((s.setTime now).handle e).1.startTime = none :=
      (congrArg StartNegotiation.startTime hstart).trans hopen
    rw [hnone]
    -- what was not due before is not due now, for nobody has proposed or left
    by_contra hne
    refine hdue ?_
    rw [run.startDue_iff]
    obtain ⟨hproposed, hall⟩ := run'.startDue_iff.1 ((run'.due?_ne_none_iff hbuild).1 (Ne.symm hne))
    rw [hproposals, hproposal, Option.toList_none, List.append_nil] at hproposed hall
    rw [run'.registry_size_eq, ← run.registry_size_eq] at hall
    exact ⟨hproposed, fun f hf => (hall f hf).imp_right (hleft hopen f)⟩
  | late _ htime =>
    rw [hopen] at htime
    cases htime
  | weighed _ hstart =>
    rw [run.start_eq_noting hbuild hopen, ← StartNegotiation.noting_append, ← hproposals] at hstart
    have hstartTime := congrArg StartNegotiation.startTime hstart
    rw [StartNegotiation.startTime_tryFix hnoted] at hstartTime
    exact hstartTime

/-- The time is fixed from the first moment on at which nobody is left to wait for. -/
theorem startTime_eq_none_iff (hbuild : p.build = .ok t) (run : Run t settings history s) :
    s.startTime = none ↔
      ∀ first, first <+: history → ¬ StartDue (.ofTopology t settings) first := by
  induction run with
  | start =>
    refine iff_of_true rfl fun first hfirst hdue => hdue.proposed ?_
    rw [List.prefix_nil.1 hfirst]
    rfl
  | @event history s run now e fresh ih =>
    cases hopen : s.startTime with
    | some time =>
      have hkept := (run.startStep hbuild now e).startTime_eq hopen
      rw [hopen] at ih
      refine iff_of_false (fun hnone => ?_) fun hall => ?_
      · exact Option.some_ne_none time (hkept.symm.trans hnone)
      · have hbefore := ih.2 fun first hfirst => hall first (hfirst.trans (List.prefix_append _ _))
        cases hbefore
    | none =>
      have hbefore := ih.1 hopen
      have hnow := run.startTime_eq_due? hbuild now fresh hopen
        (hbefore history (List.prefix_refl history))
      have hiff := (run.event now e fresh).due?_ne_none_iff hbuild
      rw [← hnow] at hiff
      constructor
      · intro hnone first hfirst
        rcases List.prefix_concat_iff.1 hfirst with rfl | hfirst
        · exact fun hdue => hiff.2 hdue hnone
        · exact hbefore first hfirst
      · intro hall
        by_contra hne
        exact hall _ (List.prefix_refl _) (hiff.1 hne)

/-- A time stays fixed. -/
theorem startTime_of_append (hbuild : p.build = .ok t) {earlier later : List Moment}
    (run : Run t settings (earlier ++ later) s)
    (htime : (lastState (.ofTopology t settings) earlier).startTime = some time) :
    s.startTime = some time := by
  induction later using List.reverseRecOn generalizing s with
  | nil =>
    rw [List.append_nil] at run
    rwa [run.lastState_eq] at htime
  | append_singleton later m ih =>
    rw [← List.append_assoc] at run
    obtain ⟨before, now, run', -, hm, run''⟩ := run.exists_of_append_cons
    have hkept := (run'.startStep hbuild now m.event).startTime_eq (ih run')
    rw [← hm] at hkept
    rw [← run.lastState_eq, run''.lastState_eq]
    exact hkept

/-- Everybody who is ever told a time is told the one that is fixed. -/
theorem startTime_eq_of_sent (hbuild : p.build = .ok t) (run : Run t settings history s)
    {m : Moment} (hm : m ∈ history) (hsent : .send c (.timestamp time) ∈ m.actions) :
    s.startTime = some time := by
  obtain ⟨earlier, later, rfl⟩ := List.append_of_mem hm
  obtain ⟨before, now, run', -, hmoment, run''⟩ := run.exists_of_append_cons
  have hafter : m.after.startTime = some time := by
    have hstep := run'.startStep hbuild now m.event
    rw [← hmoment] at hstep
    exact hstep.startTime_eq_of_sent hsent
  rw [List.append_cons] at run
  refine run.startTime_of_append hbuild ?_
  rwa [run''.lastState_eq]

/-! ## Who is told -/

/-- A connection on which something has been proposed is joined, or has been. -/
theorem served_of_proposal (run : Run t settings history s) {proposal : StartProposal}
    (hproposal : proposal ∈ startProposals (.ofTopology t settings) history) :
    proposal.connection ∈ opened history ∧
      ∀ peer, s.sessions.get? proposal.connection ≠ some (.handshaking peer) := by
  induction run with
  | start => cases hproposal
  | @event history s run now e fresh ih =>
    have hs := consistent_setTime run.consistent now
    obtain ⟨gs, hmove, -⟩ := (Coordinator.handle_transition hs e).move
    rw [run.startProposals_append_singleton, List.mem_append] at hproposal
    have hbefore : proposal.connection ∈ opened history ∧
        ∀ peer, s.sessions.get? proposal.connection ≠ some (.handshaking peer) := by
      rcases hproposal with hproposal | hproposal
      · exact ih hproposal
      · have hnew := Option.mem_toList.1 hproposal
        obtain ⟨-, record, hjoined⟩ := run.consistent.exists_of_startProposal? hnew
        refine ⟨run.mem_opened_of_joined hjoined, fun peer hpeer => ?_⟩
        rw [hjoined.session] at hpeer
        cases hpeer
    refine ⟨?_, fun peer hpeer => ?_⟩
    · rw [opened_append]
      exact List.mem_append_left _ hbefore.1
    · rcases hmove.handshaking_before hpeer with ⟨peer', hpeer'⟩ | hopened
      · exact hbefore.2 peer' hpeer'
      · exact fresh _ hopened hbefore.1

/-- Whoever is joined where it has proposed has been told the time there. -/
theorem told_startTime (hbuild : p.build = .ok t) (run : Run t settings history s)
    (htime : s.startTime = some time) {record : FederateRecord} (hjoined : s.Joined c f record)
    (hproposal : ∃ proposal ∈ startProposals (.ofTopology t settings) history,
      proposal.connection = c) : ∃ m ∈ history, .send c (.timestamp time) ∈ m.actions := by
  induction run generalizing record with
  | start => cases htime
  | @event history s run now e fresh ih =>
    have hs := consistent_setTime run.consistent now
    obtain ⟨gs, hmove, -⟩ := (Coordinator.handle_transition hs e).move
    have hstep := run.startStep hbuild now e
    obtain ⟨proposal, hproposal, rfl⟩ := hproposal
    rw [run.startProposals_append_singleton, List.mem_append] at hproposal
    cases hopen : s.startTime with
    | none =>
      have run' := run.event now e fresh
      have hc := (Registry.mem_connections_iff (run'.size_le hbuild)).2 ⟨f, hjoined.connection?_eq⟩
      refine ⟨_, List.mem_append_right _ (List.mem_singleton_self _), ?_⟩
      exact hstep.sent_of_fixed hopen htime hc
    | some fixed =>
      obtain rfl : fixed = time :=
        Option.some.inj ((hstep.startTime_eq hopen).symm.trans htime)
      rcases hproposal with hold | hnew
      · have hserved := run.served_of_proposal hold
        rcases hmove.joined_before hs hjoined with ⟨record', hjoined'⟩ | ⟨⟨peer, hpeer⟩, -⟩
        · obtain ⟨m, hm, hsent⟩ := ih hopen (joined_setTime.1 hjoined') ⟨proposal, hold, rfl⟩
          exact ⟨m, List.mem_append_left _ hm, hsent⟩
        · exact absurd hpeer (hserved.2 peer)
      · refine ⟨_, List.mem_append_right _ (List.mem_singleton_self _), ?_⟩
        exact hstep.sent_of_late hopen (Option.mem_toList.1 hnew)

/-! ## The moment that fixes the time -/

section Fixing

variable {earlier later : List Moment} {m : Moment}

/-- The time is fixed at the first moment at which nobody is left to wait for. -/
theorem fixed_iff (hbuild : p.build = .ok t) (run : Run t settings (earlier ++ m :: later) s) :
    (lastState (.ofTopology t settings) earlier).startTime = none ∧ m.after.startTime ≠ none ↔
      StartDue (.ofTopology t settings) (earlier ++ [m]) ∧
        ∀ first, first <+: earlier → ¬ StartDue (.ofTopology t settings) first := by
  obtain ⟨before, now, run', -, -, run''⟩ := run.exists_of_append_cons
  rw [run'.lastState_eq, ne_eq, run'.startTime_eq_none_iff hbuild,
    run''.startTime_eq_none_iff hbuild]
  constructor
  · rintro ⟨hbefore, hfixed⟩
    refine ⟨?_, hbefore⟩
    by_contra hdue
    refine hfixed fun first hfirst => ?_
    rcases List.prefix_concat_iff.1 hfirst with rfl | hfirst
    · exact hdue
    · exact hbefore first hfirst
  · rintro ⟨hdue, hbefore⟩
    exact ⟨hbefore, fun hall => hall _ (List.prefix_refl _) hdue⟩

/-- It is a second after the latest proposal up to then. -/
theorem exists_latest (hbuild : p.build = .ok t) (run : Run t settings (earlier ++ m :: later) s)
    (hopen : (lastState (.ofTopology t settings) earlier).startTime = none)
    (htime : m.after.startTime = some time) :
    ∃ latest ∈ startProposals (.ofTopology t settings) (earlier ++ [m]),
      (∀ proposal ∈ startProposals (.ofTopology t settings) (earlier ++ [m]),
        proposal.time ≤ latest.time) ∧
      time.toInt = min (latest.time.toInt + 1000000000) 9223372036854775807 := by
  obtain ⟨before, now, run', fresh, hm, -⟩ := run.exists_of_append_cons
  rw [run'.lastState_eq] at hopen
  have hdue := run'.startTime_eq_due? hbuild now fresh hopen
    ((run'.startTime_eq_none_iff hbuild).1 hopen earlier (List.prefix_refl earlier))
  have hafter : m.after = ((before.setTime now).handle m.event).1 := congrArg Moment.after hm
  rw [← hafter, ← hm, htime] at hdue
  exact StartNegotiation.due?_noting_spec hdue.symm

end Fixing

/-- The start time is fixed once, at the first moment at which somebody has proposed and everybody
has or has left. It is a second after the latest proposal up to then, and stays; nobody is ever told
another, and whoever has proposed on the connection that it is joined on has been told. -/
theorem startTime_agreement (hbuild : p.build = .ok t) (run : Run t settings history s) :
    (∀ earlier m later, history = earlier ++ m :: later →
      let start := Coordinator.ofTopology t settings
      let before := lastState start earlier
      let proposals := startProposals start (earlier ++ [m])
      (∀ time, before.startTime = some time →
        ∀ m' ∈ m :: later, m'.after.startTime = some time) ∧
      (before.startTime = none ∧ m.after.startTime ≠ none ↔
        StartDue start (earlier ++ [m]) ∧ ∀ first, first <+: earlier → ¬ StartDue start first) ∧
      (before.startTime = none → ∀ time, m.after.startTime = some time →
        ∃ latest ∈ proposals, (∀ proposal ∈ proposals, proposal.time ≤ latest.time) ∧
          time.toInt = min (latest.time.toInt + 1000000000) 9223372036854775807)) ∧
    (∀ m ∈ history, ∀ c time, .send c (.timestamp time) ∈ m.actions → s.startTime = some time) ∧
    ∀ time, s.startTime = some time → ∀ c f record, s.Joined c f record →
      (∃ proposal ∈ startProposals (.ofTopology t settings) history, proposal.connection = c) →
        ∃ m ∈ history, .send c (.timestamp time) ∈ m.actions := by
  refine ⟨?_, fun m hm c time hsent => run.startTime_eq_of_sent hbuild hm hsent,
    fun time htime c f record hjoined => run.told_startTime hbuild htime hjoined⟩
  rintro earlier m later rfl
  refine ⟨fun time htime m' hm' => ?_, run.fixed_iff hbuild,
    fun hopen time htime => run.exists_latest hbuild hopen htime⟩
  obtain ⟨between, rest, hsplit⟩ := List.append_of_mem hm'
  rw [hsplit, ← List.append_assoc] at run
  obtain ⟨-, -, -, -, -, hafter⟩ := run.exists_of_append_cons
  rw [List.append_assoc] at hafter
  exact hafter.startTime_of_append hbuild htime

end Run

namespace Relay

/-- The source proposes 100 and the sink 300; then the source leaves, joins again on another
connection and proposes 5000. -/
def startEvents : List Event :=
  let peer : SocketAddress := default
  [.connectionOpened ⟨0⟩ peer, .messageReceived ⟨0⟩ (.join ⟨0⟩ "relay"),
    .messageReceived ⟨0⟩ (.timestamp 100),
    .connectionOpened ⟨1⟩ peer, .messageReceived ⟨1⟩ (.join ⟨1⟩ "relay"),
    .messageReceived ⟨1⟩ (.timestamp 300), .messageReceived ⟨0⟩ .resign,
    .connectionOpened ⟨2⟩ peer, .messageReceived ⟨2⟩ (.join ⟨0⟩ "relay"),
    .messageReceived ⟨2⟩ (.timestamp 5000)]

def startHistory : List Moment := (Coordinator.ofTopology plan.graph {}).trace startEvents

def startState : Coordinator := ((Coordinator.ofTopology plan.graph {}).handleAll startEvents).1

theorem run_start : Run plan.graph {} startHistory startState := .run_trace (by decide)

end Relay

namespace Run

theorem startTime_agreement_relay : Relay.startState.startTime = some 1000000300 ∧
    (∀ m ∈ Relay.startHistory, ∀ c time, .send c (.timestamp time) ∈ m.actions →
      time = 1000000300) ∧
    ∃ m ∈ Relay.startHistory, .send ⟨2⟩ (.timestamp 1000000300) ∈ m.actions := by
  have htime : Relay.startState.startTime = some 1000000300 := by decide +kernel
  have hproposal : ∃ proposal ∈ startProposals (.ofTopology Relay.plan.graph {}) Relay.startHistory,
      proposal.connection = ⟨2⟩ := by decide +kernel
  obtain ⟨record, hjoined⟩ : ∃ record, Relay.startState.Joined ⟨2⟩ ⟨0⟩ record :=
    Relay.run_start.consistent.exists_joined (by decide +kernel)
  obtain ⟨-, hsent, htold⟩ := Relay.run_start.startTime_agreement Relay.build_eq
  refine ⟨htime, fun m hm c time h => ?_, htold _ htime ⟨2⟩ ⟨0⟩ record hjoined hproposal⟩
  exact Option.some.inj ((hsent m hm c time h).symm.trans htime)

end Run

end FederatedTime
