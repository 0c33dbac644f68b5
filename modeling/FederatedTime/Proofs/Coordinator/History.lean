import FederatedTime.Proofs.Coordinator.StopRound
import FederatedTime.Proofs.Coordinator.Transition

/-!
# Reading a history

Some of what a history shows takes a look at the state that a moment finds: who the federate is that
an event comes from, and who is joined where. `gather` reads every moment of a history beside that
state.
-/

namespace FederatedTime

namespace Event

def message? : Event → Option Message
  | messageReceived _ message => some message
  | _ => none

theorem eq_messageReceived {e : Event} {c : ConnectionId} {message : Message}
    (hc : e.connection? = some c) (hmessage : e.message? = some message) :
    e = .messageReceived c message := by
  unfold message? at hmessage
  split at hmessage
  · obtain rfl := Option.some.inj hc
    rw [Option.some.inj hmessage]
  · cases hmessage

end Event

theorem Coordinator.Joined.origin?_eq {s : Coordinator} {c : ConnectionId} {f : FederateId}
    {record : FederateRecord} {e : Event} (h : s.Joined c f record) (he : e.connection? = some c) :
    s.origin? e = some f := by
  unfold origin? federateOf
  rw [he, Option.bind_some, h.session]

section Gather

variable {α : Type} (read : Moment → Coordinator → Option α)

/-- What the moments of a history from `s` on give, each read beside the state that it finds. -/
def gather : Coordinator → List Moment → List α
  | _, [] => []
  | s, m :: later => (read m s).toList ++ gather m.after later

theorem gather_append_singleton (s : Coordinator) (history : List Moment) (m : Moment) :
    gather read s (history ++ [m]) =
      gather read s history ++ (read m (lastState s history)).toList := by
  induction history generalizing s with
  | nil => simp [gather, lastState]
  | cons m' history ih =>
    rw [List.cons_append, gather, gather, ih, List.append_assoc]
    rfl

theorem Run.gather_append_singleton {t : Topology} {settings : CoordinatorSettings}
    {history : List Moment} {s : Coordinator} (run : Run t settings history s) (m : Moment) :
    gather read (.ofTopology t settings) (history ++ [m]) =
      gather read (.ofTopology t settings) history ++ (read m s).toList := by
  rw [FederatedTime.gather_append_singleton, run.lastState_eq]

end Gather

end FederatedTime
