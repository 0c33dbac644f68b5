import FederatedTime.Coordinator.Step
import FederatedTime.Proofs.Topology.WellFormed
import Mathlib.Data.List.Nodup

/-!
# Runs of the coordinator

A run answers events one after the other, from the coordinator of a federation that nobody has
joined. Its history has one `Moment` for each event. No connection is opened twice in a run, and the
time may be set to anything between two events. `run_trace` is that `Coordinator.handleAll` makes
such a run.
-/

namespace FederatedTime

/-- An event of a run, with the actions and the state that it has been answered by. -/
structure Moment where
  event : Event
  actions : List Action
  after : Coordinator

namespace Event

def opens? : Event → Option ConnectionId
  | connectionOpened c _ => some c
  | _ => none

end Event

namespace Coordinator

def moment (s : Coordinator) (e : Event) : Moment := ⟨e, (s.handle e).2, (s.handle e).1⟩

/-- The answers to events one after the other. -/
def trace (s : Coordinator) : List Event → List Moment
  | [] => []
  | e :: events => s.moment e :: (s.handle e).1.trace events

end Coordinator

/-- The connections opened in a history. -/
def opened (history : List Moment) : List ConnectionId := history.filterMap (·.event.opens?)

/-- The coordinator of the federation `t` comes to the state `s` by what has happened in the
history. -/
inductive Run (t : Topology) (settings : CoordinatorSettings) : List Moment → Coordinator → Prop
  | start : Run t settings [] (.ofTopology t settings)
  | event {history : List Moment} {s : Coordinator} (earlier : Run t settings history s)
      (now : Duration) (e : Event) (fresh : ∀ c ∈ e.opens?, c ∉ opened history) :
      Run t settings (history ++ [(s.setTime now).moment e]) ((s.setTime now).handle e).1

namespace Run

variable {t : Topology} {settings : CoordinatorSettings} {history : List Moment} {s : Coordinator}

theorem opened_append (first second : List Moment) :
    opened (first ++ second) = opened first ++ opened second :=
  List.filterMap_append

theorem opened_moment (s : Coordinator) (e : Event) : opened [s.moment e] = e.opens?.toList := by
  unfold opened Coordinator.moment
  cases h : e.opens? <;> simp [h]

/-- Each moment of a run is the answer of a state of a shorter run. -/
theorem exists_of_mem (run : Run t settings history s) {m : Moment} (hm : m ∈ history) :
    ∃ earlier before now, Run t settings earlier before ∧
      (∀ c ∈ m.event.opens?, c ∉ opened earlier) ∧ m = (before.setTime now).moment m.event := by
  induction run with
  | start => exact absurd hm List.not_mem_nil
  | @event earlier before run now e fresh ih =>
    rcases List.mem_append.1 hm with hm | hm
    · exact ih hm
    · rw [List.mem_singleton] at hm
      subst hm
      exact ⟨earlier, before, now, run, fresh, rfl⟩

/-- A moment of a run is the answer of the state that the moments before it lead to. -/
theorem exists_of_append_cons {earlier later : List Moment} {m : Moment}
    (run : Run t settings (earlier ++ m :: later) s) :
    ∃ before now, Run t settings earlier before ∧ (∀ c ∈ m.event.opens?, c ∉ opened earlier) ∧
      m = (before.setTime now).moment m.event ∧ Run t settings (earlier ++ [m]) m.after := by
  generalize h : earlier ++ m :: later = history at run
  induction run generalizing later with
  | start => exact absurd h (List.append_ne_nil_of_right_ne_nil _ (List.cons_ne_nil m later))
  | @event history before run now e fresh ih =>
    rcases List.eq_nil_or_concat later with rfl | ⟨middle, last, rfl⟩
    · obtain ⟨rfl, hm⟩ := List.append_inj' h rfl
      obtain rfl := (List.cons.inj hm).1
      exact ⟨before, now, run, fresh, rfl, run.event now e fresh⟩
    · rw [List.concat_eq_append, ← List.cons_append, ← List.append_assoc] at h
      exact ih (List.append_inj' h rfl).1

theorem append_trace (run : Run t settings history s) (events : List Event)
    (h : (opened history ++ events.filterMap Event.opens?).Nodup) :
    Run t settings (history ++ s.trace events) (s.handleAll events).1 := by
  induction events generalizing history s with
  | nil =>
    rw [Coordinator.trace, List.append_nil]
    exact run
  | cons e events ih =>
    have hopened : opened (history ++ [s.moment e]) ++ events.filterMap Event.opens? =
        opened history ++ (e :: events).filterMap Event.opens? := by
      rw [opened_append, opened_moment, List.append_assoc, List.filterMap_cons]
      cases e.opens? <;> rfl
    have fresh : ∀ c ∈ e.opens?, c ∉ opened history := by
      intro c hc hmem
      rw [List.nodup_append] at h
      refine h.2.2 c hmem c ?_ rfl
      exact List.mem_filterMap.2 ⟨e, List.mem_cons_self, hc⟩
    have hnext := ih (run.event s.now e fresh) (hopened ▸ h)
    rw [List.append_assoc] at hnext
    exact hnext

/-- Events that open no connection twice make a run. -/
theorem run_trace {events : List Event} (h : (events.filterMap Event.opens?).Nodup) :
    Run t settings ((Coordinator.ofTopology t settings).trace events)
      ((Coordinator.ofTopology t settings).handleAll events).1 :=
  start.append_trace events h

end Run

/-! ## A small federation -/

namespace Relay

/-- A source feeds a sink ten nanoseconds later. -/
def plan : Topology.Plan :=
  { federationId := "relay", size := 2, connections := [⟨⟨0⟩, ⟨1⟩, ⟨10⟩⟩] }

/-- Both join and come to work: the source has completed 10 and the sink 5, with more to do. -/
def events : List Event :=
  let peer : SocketAddress := default
  [.connectionOpened ⟨0⟩ peer, .messageReceived ⟨0⟩ (.join ⟨0⟩ "relay"),
    .connectionOpened ⟨1⟩ peer, .messageReceived ⟨1⟩ (.join ⟨1⟩ "relay"),
    .messageReceived ⟨0⟩ (.nextEventTag (.ofTime 10)),
    .messageReceived ⟨0⟩ (.logicalTagComplete (.ofTime 10)),
    .messageReceived ⟨0⟩ (.nextEventTag (.ofTime 20)),
    .messageReceived ⟨1⟩ (.nextEventTag (.ofTime 5)),
    .messageReceived ⟨1⟩ (.logicalTagComplete (.ofTime 5)),
    .messageReceived ⟨1⟩ (.nextEventTag (.ofTime 30))]

def history : List Moment := (Coordinator.ofTopology plan.graph {}).trace events

def state : Coordinator := ((Coordinator.ofTopology plan.graph {}).handleAll events).1

theorem build_eq : plan.build = .ok plan.graph :=
  Topology.Plan.build_eq_ok_iff.2 ⟨rfl, rfl, by cbv, rfl⟩

theorem run : Run plan.graph {} history state := .run_trace (by decide)

end Relay

end FederatedTime
