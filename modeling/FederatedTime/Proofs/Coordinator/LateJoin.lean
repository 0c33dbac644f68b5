import FederatedTime.Proofs.Coordinator.Announcement
import FederatedTime.Proofs.Coordinator.GrantOrder

/-!
# Who is told of the stop

The agreed stop tag is announced once, to everybody who is joined at that moment. Grants keep to it
from then on for everybody, also for those who join later, and these are never told
(`Run.count_stopGranted_eq`).
-/

namespace FederatedTime

/-! ## The life of a connection -/

namespace Coordinator

variable {s s' : Coordinator} {e : Event} {c : ConnectionId} {f : FederateId} {gs : List Grant}

/-- The connection is joined as `f`, or may still become so. -/
def MayServe (s : Coordinator) (c : ConnectionId) (f : FederateId) : Prop :=
  s.sessions.get? c = some (.joined f) ∨ ∃ peer, s.sessions.get? c = some (.handshaking peer)

theorem Move.mayServe_before (hs : s.Consistent) (hs' : s'.Consistent) (h : Move s e s' gs)
    (hopen : c ∉ e.opens?) (hserve : s'.MayServe c f) : s.MayServe c f := by
  rcases hserve with hjoined | ⟨peer, hpeer⟩
  · obtain ⟨record', hrecord'⟩ := hs'.exists_joined hjoined
    rcases h.joined_before hs hrecord' with ⟨record, hrecord⟩ | ⟨hpeer, -⟩
    · exact Or.inl hrecord.session
    · exact Or.inr hpeer
  · rcases h.handshaking_before hpeer with hpeer' | hopened
    · exact Or.inr hpeer'
    · exact absurd hopened hopen

end Coordinator

namespace Run

variable {t : Topology} {settings : CoordinatorSettings} {history earlier later : List Moment}
variable {s s₀ : Coordinator} {c : ConnectionId} {f g : FederateId} {tag : Tag} {m : Moment}

/-- What comes first in a run is a run. -/
theorem of_append (run : Run t settings (earlier ++ later) s) :
    Run t settings earlier (lastState (.ofTopology t settings) earlier) := by
  cases later with
  | nil =>
    rw [List.append_nil] at run
    rwa [run.lastState_eq]
  | cons m later =>
    obtain ⟨before, -, run', -⟩ := run.exists_of_append_cons
    rwa [run'.lastState_eq]

theorem mayServe_before (first : Run t settings earlier s₀)
    (run : Run t settings (earlier ++ later) s) (hc : c ∈ opened earlier)
    (hserve : s.MayServe c f) : s₀.MayServe c f := by
  -- on the later moments, since a run grows at its end
  induction later using List.reverseRecOn generalizing s with
  | nil =>
    rw [List.append_nil] at run
    rw [← first.lastState_eq, run.lastState_eq]
    exact hserve
  | append_singleton middle m ih =>
    rw [← List.append_assoc] at run
    obtain ⟨before, now, run', fresh, hm, run''⟩ := run.exists_of_append_cons
    have hlast : s = m.after := run.lastState_eq.symm.trans run''.lastState_eq
    have hafter : m.after = ((before.setTime now).handle m.event).1 := congrArg Moment.after hm
    have hs := consistent_setTime run'.consistent now
    have hs' := run''.consistent
    obtain ⟨gs, hmove, -⟩ := (Coordinator.handle_transition hs m.event).move
    rw [hlast, hafter] at hserve
    rw [hafter] at hs'
    have hopen : c ∉ m.event.opens? := by
      intro hopened
      refine fresh c hopened ?_
      rw [opened_append]
      exact List.mem_append_left _ hc
    have hbefore := hmove.mayServe_before hs hs' hopen hserve
    exact ih run' hbefore

/-- A connection serves one federate only. -/
theorem eq_of_connection? (first : Run t settings earlier s₀)
    (run : Run t settings (earlier ++ later) s) (hg : s₀.registry.connection? g = some c)
    (hf : s.registry.connection? f = some c) : f = g := by
  have hsession := (first.consistent.joined_iff c g).2 hg
  obtain ⟨record, hjoined⟩ := first.consistent.exists_joined hsession
  have hserve : s.MayServe c f := Or.inl ((run.consistent.joined_iff c f).2 hf)
  rcases first.mayServe_before run (first.mem_opened_of_joined hjoined) hserve with h | ⟨peer, h⟩
  · exact Session.joined.inj (Option.some.inj (h.symm.trans hsession))
  · rw [hsession] at h
    cases h

/-! ## The agreement -/

/-- A tag that is agreed has been agreed at some moment. -/
theorem exists_agreement (run : Run t settings history s) (htag : s.stopTag = some tag) :
    ∃ earlier m later, history = earlier ++ m :: later ∧
      (lastState (.ofTopology t settings) earlier).stopTag = none ∧
      m.after.stopTag = some tag := by
  induction run with
  | start => cases htag
  | @event history s run now e fresh ih =>
    cases hbefore : s.stopTag with
    | none =>
      refine ⟨history, (s.setTime now).moment e, [], rfl, ?_, htag⟩
      rw [run.lastState_eq, hbefore]
    | some tag' =>
      have hkept : ((s.setTime now).handle e).1.stopTag = s.stopTag := by
        refine (run.stopTag now e).resolve_left ?_
        rw [hbefore]
        exact Option.some_ne_none tag'
      obtain ⟨earlier, m, later, rfl, hnone, hm⟩ := ih (hkept ▸ htag)
      exact ⟨earlier, m, later ++ [(s.setTime now).moment e], by simp, hnone, hm⟩

theorem stopTag_eq_none_of_append (run : Run t settings (earlier ++ later) s)
    (h : s.stopTag = none) : (lastState (.ofTopology t settings) earlier).stopTag = none := by
  cases hearlier : (lastState (.ofTopology t settings) earlier).stopTag with
  | none => rfl
  | some tag =>
    rw [(run.stopTag_of_append hearlier).1] at h
    cases h

/-- Nothing is announced at a moment that brings no agreement. -/
theorem stopGranted_not_mem {p : Topology.Plan} (hbuild : p.build = .ok t)
    (run : Run t settings (earlier ++ m :: later) s)
    (h : m.after.stopTag = none ∨ (lastState (.ofTopology t settings) earlier).stopTag ≠ none)
    (c : ConnectionId) (time : Int64) : .send c (.stopGranted time) ∉ m.actions := by
  obtain ⟨before, now, run', -, hm, -⟩ := run.exists_of_append_cons
  obtain ⟨result, hverdict, hadopts⟩ := run'.exists_verdict hbuild now m.event
  rw [← hm] at hverdict hadopts
  intro hmem
  obtain ⟨tag, hnone, htag, -⟩ := (hadopts.mem_iff_of_stopGranted hverdict).1 hmem
  rcases h with h | h
  · rw [htag] at h
    cases h
  · rw [run'.lastState_eq] at h
    exact h hnone

/-- Nothing is announced before the agreement. -/
theorem not_announced_of_none {p : Topology.Plan} (hbuild : p.build = .ok t)
    (run : Run t settings history s) (hnone : s.stopTag = none) (hm : m ∈ history)
    (c : ConnectionId) (time : Int64) : .send c (.stopGranted time) ∉ m.actions := by
  obtain ⟨first, second, rfl⟩ := List.append_of_mem hm
  refine run.stopGranted_not_mem hbuild (Or.inl ?_) c time
  obtain ⟨-, -, -, -, -, run'⟩ := run.exists_of_append_cons
  rw [List.append_cons] at run
  rw [← run'.lastState_eq]
  exact run.stopTag_eq_none_of_append hnone

/-- Nothing is announced after the agreement. -/
theorem not_announced_of_some {p : Topology.Plan} (hbuild : p.build = .ok t)
    (run : Run t settings (earlier ++ later) s)
    (htag : (lastState (.ofTopology t settings) earlier).stopTag = some tag) (hm : m ∈ later)
    (c : ConnectionId) (time : Int64) : .send c (.stopGranted time) ∉ m.actions := by
  obtain ⟨first, second, rfl⟩ := List.append_of_mem hm
  rw [← List.append_assoc] at run
  refine run.stopGranted_not_mem hbuild (Or.inr ?_) c time
  rw [(run.of_append.stopTag_of_append htag).1]
  exact Option.some_ne_none tag

/-- The announcements of one moment, which brings the agreement. -/
theorem count_of_agreement {p : Topology.Plan} (hbuild : p.build = .ok t)
    (run : Run t settings (earlier ++ m :: later) s)
    (hnone : (lastState (.ofTopology t settings) earlier).stopTag = none)
    (htag : m.after.stopTag = some tag) (c : ConnectionId) (time : Int64) :
    m.actions.count (.send c (.stopGranted time)) =
      if time = tag.time ∧ c ∈ m.after.registry.connections then 1 else 0 := by
  obtain ⟨before, now, run', -, hm, run''⟩ := run.exists_of_append_cons
  obtain ⟨result, hverdict, hadopts⟩ := run'.exists_verdict hbuild now m.event
  rw [← hm] at hverdict hadopts
  rw [run'.lastState_eq] at hnone
  split
  · rename_i htold
    rw [htold.1]
    exact hadopts.count_stopGranted hverdict run''.consistent (run''.size_le hbuild) hnone htag
      htold.2
  · rename_i htold
    refine List.count_eq_zero.2 fun hmem => htold ?_
    obtain ⟨tag', -, htag', htime, hc⟩ := (hadopts.mem_iff_of_stopGranted hverdict).1 hmem
    rw [htag] at htag'
    obtain rfl := Option.some.inj htag'
    exact ⟨htime.symm, hc⟩

/-- The agreed tag is announced at one moment, and every later grant keeps to it. Of those who are
joined at any time after it, exactly those have been told on their connection who were joined there
at that moment, and they have been told once. -/
theorem count_stopGranted_eq {p : Topology.Plan} (hbuild : p.build = .ok t)
    (run : Run t settings history s) (htag : s.stopTag = some tag) :
    ∃ earlier m later, history = earlier ++ m :: later ∧
      (lastState (.ofTopology t settings) earlier).stopTag = none ∧
      m.after.stopTag = some tag ∧
      (∀ m' ∈ later, ∀ c granted, .send c (.timeAdvanceGrant granted) ∈ m'.actions →
        granted ≤ tag) ∧
      ∀ c f record, s.Joined c f record → ∀ time,
        (history.flatMap (·.actions)).count (.send c (.stopGranted time)) =
          if time = tag.time ∧ m.after.registry.connection? f = some c then 1 else 0 := by
  obtain ⟨earlier, m, later, rfl, hnone, hm⟩ := run.exists_agreement htag
  obtain ⟨-, -, -, -, -, hafter⟩ := run.exists_of_append_cons
  have run' := run
  rw [List.append_cons] at run'
  have hlast : (lastState (.ofTopology t settings) (earlier ++ [m])).stopTag = some tag := by
    rw [hafter.lastState_eq, hm]
  obtain ⟨-, hlater⟩ := run'.stopTag_of_append hlast
  refine ⟨earlier, m, later, rfl, hnone, hm, fun m' hm' => (hlater m' hm').2, ?_⟩
  intro c f record hjoined time
  have hcount := run.count_of_agreement hbuild hnone hm c time
  have hbefore : (earlier.flatMap (·.actions)).count (.send c (.stopGranted time)) = 0 := by
    refine List.count_eq_zero.2 fun hmem => ?_
    obtain ⟨m', hm', hmem⟩ := List.mem_flatMap.1 hmem
    exact run.of_append.not_announced_of_none hbuild hnone hm' c time hmem
  have hafterwards : (later.flatMap (·.actions)).count (.send c (.stopGranted time)) = 0 := by
    refine List.count_eq_zero.2 fun hmem => ?_
    obtain ⟨m', hm', hmem⟩ := List.mem_flatMap.1 hmem
    exact run'.not_announced_of_some hbuild hlast hm' c time hmem
  have hmembers : c ∈ m.after.registry.connections ↔ m.after.registry.connection? f = some c := by
    rw [Registry.mem_connections_iff (hafter.size_le hbuild)]
    constructor
    · rintro ⟨g, hg⟩
      rwa [hafter.eq_of_connection? run' hg hjoined.connection?_eq]
    · intro hf
      exact ⟨f, hf⟩
  rw [List.flatMap_append, List.flatMap_cons, List.count_append, List.count_append, hbefore,
    hafterwards, hcount, Nat.zero_add, Nat.add_zero]
  simp only [hmembers]

end Run

namespace Relay

/-- The sink, alone, stops at 100. Then the source joins, with something to do at 500. -/
def lateEvents : List Event :=
  let peer : SocketAddress := default
  [.connectionOpened ⟨0⟩ peer, .messageReceived ⟨0⟩ (.join ⟨1⟩ "relay"),
    .messageReceived ⟨0⟩ (.stopRequest 100),
    .connectionOpened ⟨1⟩ peer, .messageReceived ⟨1⟩ (.join ⟨0⟩ "relay"),
    .messageReceived ⟨1⟩ (.nextEventTag (.ofTime 500))]

def lateHistory : List Moment := (Coordinator.ofTopology plan.graph {}).trace lateEvents

def lateState : Coordinator := ((Coordinator.ofTopology plan.graph {}).handleAll lateEvents).1

theorem run_late : Run plan.graph {} lateHistory lateState := .run_trace (by decide)

theorem joined_late : ∃ record, lateState.Joined ⟨1⟩ ⟨0⟩ record :=
  run_late.consistent.exists_joined (by decide +kernel)

end Relay

namespace Run

theorem count_stopGranted_eq_relay : Relay.lateState.stopTag = some (.ofTime 100) ∧
    ∃ earlier m later, Relay.lateHistory = earlier ++ m :: later ∧
      (lastState (.ofTopology Relay.plan.graph {}) earlier).stopTag = none ∧
      m.after.stopTag = some (.ofTime 100) ∧
      (Relay.lateHistory.flatMap (·.actions)).count (.send ⟨1⟩ (.stopGranted 100)) =
        if m.after.registry.connection? ⟨0⟩ = some ⟨1⟩ then 1 else 0 := by
  have htag : Relay.lateState.stopTag = some (.ofTime 100) := by decide +kernel
  obtain ⟨record, hjoined⟩ := Relay.joined_late
  obtain ⟨earlier, m, later, hhistory, hnone, hm, -, hcount⟩ :=
    Relay.run_late.count_stopGranted_eq Relay.build_eq htag
  refine ⟨htag, earlier, m, later, hhistory, hnone, hm, ?_⟩
  rw [hcount ⟨1⟩ ⟨0⟩ record hjoined 100]
  simp [Tag.ofTime]

/-- The source joins after the agreement and is held back at the stop tag, of which it has been told
nothing. -/
theorem not_told_of_stopTag : Run Relay.plan.graph {} Relay.lateHistory Relay.lateState ∧
    Relay.lateState.stopTag = some (.ofTime 100) ∧
    (∃ record, Relay.lateState.Joined ⟨1⟩ ⟨0⟩ record ∧ record.nextEvent = .ofTime 500 ∧
      record.lastGranted = .ofTime 100) ∧
    ∀ m ∈ Relay.lateHistory, ∀ time, .send ⟨1⟩ (.stopGranted time) ∉ m.actions := by
  obtain ⟨record, hjoined⟩ := Relay.joined_late
  have htags : (Relay.lateState.registry.get? ⟨0⟩).map
      (fun record => (record.nextEvent, record.lastGranted)) =
        some (.ofTime 500, .ofTime 100) := by decide +kernel
  rw [hjoined.get?_eq] at htags
  obtain ⟨hnext, hgranted⟩ := Prod.mk.inj (Option.some.inj htags)
  have hnotices : ∀ m ∈ Relay.lateHistory, ∀ notice ∈ Action.notices m.actions,
      notice.1 ≠ ⟨1⟩ := by decide +kernel
  refine ⟨Relay.run_late, by decide +kernel, ⟨record, hjoined, hnext, hgranted⟩, ?_⟩
  intro m hm time hmem
  exact hnotices m hm _ (Action.mem_notices_agreed.2 hmem) rfl

end Run

end FederatedTime
