import FederatedTime.Proofs.Coordinator.Run
import FederatedTime.Proofs.Time.Order

/-!
# Rounds of the stop negotiation

What a history tells about stopping, read off its events and off who is joined, without a look at
the negotiation itself. The first request of a joined federate opens the round
(`Round.ofHistory`). Every other federate that is joined at that moment is asked, and its answer is
the first thing after that: a time that it names, or what it has completed when its session ends
(`Round.answer?`). `Round.Leads` is the negotiation that these answers add up to.
-/

namespace FederatedTime

/-! ## Requests and answers in a moment -/

namespace Event

def stopRequest? : Event → Option Int64
  | messageReceived _ (.stopRequest time) => some time
  | _ => none

/-- The time in a request to stop or in an answer to one. -/
def stopTime? : Event → Option Int64
  | messageReceived _ (.stopRequest time) | messageReceived _ (.stopRequestReply time) => some time
  | _ => none

end Event

/-- How a federate answers a request to stop. -/
inductive StopAnswer where
  | named (time : Int64)
  /-- It leaves, having completed a tag. -/
  | left (completed : Tag)

def StopAnswer.tag : StopAnswer → Tag
  | named time => .ofTime time
  | left completed => completed

/-- The federate that an event comes from. -/
def Coordinator.origin? (s : Coordinator) (e : Event) : Option FederateId :=
  e.connection?.bind s.federateOf

namespace Moment

variable (m : Moment) (before : Coordinator)

/-- The federate that asks to stop in a moment, and the time that it proposes. -/
def request? : Option (FederateId × Int64) := do
  let f ← before.origin? m.event
  let time ← m.event.stopRequest?
  pure (f, time)

/-- The time that `f` names in a request to stop or in an answer to one. -/
def named? (f : FederateId) : Option Int64 :=
  if before.origin? m.event = some f then m.event.stopTime? else none

/-- What `f` has completed when its session ends. -/
def left? (f : FederateId) : Option Tag :=
  if before.registry.isConnected f && !m.after.registry.isConnected f then
    (before.registry.get? f).map (·.completed)
  else none

def answer? (f : FederateId) : Option StopAnswer :=
  ((m.named? before f).map .named).or ((m.left? before f).map .left)

end Moment

/-- If nobody answers but for `f`, then an answer is that of `f`. -/
theorem Moment.eq_of_answer? {m : Moment} {s : Coordinator} {f g : FederateId} {answer : StopAnswer}
    (hother : ∀ g, g ≠ f → m.answer? s g = none) (hg : m.answer? s g = some answer) : g = f := by
  by_contra hne
  simp [hother g hne] at hg

/-! ## Rounds -/

/-- The state that a history from `s` on ends in. -/
def lastState (s : Coordinator) (history : List Moment) : Coordinator :=
  history.foldl (fun _ m => m.after) s

/-- The first answer of `f` in the moments that follow the state `s`. -/
def firstAnswer? (f : FederateId) : Coordinator → List Moment → Option StopAnswer
  | _, [] => none
  | s, m :: later => (m.answer? s f).or (firstAnswer? f m.after later)

/-- A round of the negotiation, as a history shows it. -/
structure Round where
  /-- The state that the opening request finds. -/
  before : Coordinator
  requester : FederateId
  time : Int64
  /-- The state after it. -/
  opened : Coordinator
  later : List Moment

namespace Round

/-- The round that a history from `s` on opens, by its first request to stop. -/
def ofHistory : Coordinator → List Moment → Option Round
  | _, [] => none
  | s, m :: later =>
    match m.request? s with
    | some (f, time) => some ⟨s, f, time, m.after, later⟩
    | none => ofHistory m.after later

variable (r : Round)

/-- The round asks every federate that is joined when it opens, but for the requester. -/
def Asks (g : FederateId) : Prop := g ≠ r.requester ∧ r.before.registry.isConnected g

def answer? (g : FederateId) : Option StopAnswer := firstAnswer? g r.opened r.later

def Awaits (g : FederateId) : Prop := r.Asks g ∧ r.answer? g = none

/-- The tags that count: what the request proposes, and the answers of those who are asked. -/
def counted : Set Tag :=
  {tag | tag = .ofTime r.time ∨
    ∃ g answer, r.Asks g ∧ r.answer? g = some answer ∧ tag = answer.tag}

/-- The negotiation that the answers add up to. -/
inductive Leads (r : Round) : StopNegotiation → Prop
  | negotiating {candidate : Tag} {pending : FederateSet} (hcandidate : IsGreatest r.counted candidate)
      (hpending : ∀ g, g ∈ pending ↔ r.Awaits g) (hopen : ∃ g, r.Awaits g) :
    Leads r (.negotiating candidate pending)
  | granted {tag : Tag} (htag : IsGreatest r.counted tag) (hclosed : ∀ g, ¬ r.Awaits g) :
    Leads r (.granted tag)

/-- The round with one more moment. -/
def extend (r : Round) (m : Moment) : Round := { r with later := r.later ++ [m] }

end Round

/-! ## One more moment -/

section Append

variable {s : Coordinator} {history : List Moment}

theorem firstAnswer?_append_singleton (f : FederateId) (s : Coordinator) (later : List Moment)
    (m : Moment) : firstAnswer? f s (later ++ [m]) =
      (firstAnswer? f s later).or (m.answer? (lastState s later) f) := by
  induction later generalizing s with
  | nil => simp [firstAnswer?, lastState]
  | cons m' later ih =>
    rw [List.cons_append, firstAnswer?, firstAnswer?, ih, Option.or_assoc]
    rfl

namespace Round

theorem ofHistory_append_singleton (s : Coordinator) (history : List Moment) (m : Moment) :
    ofHistory s (history ++ [m]) =
      ((ofHistory s history).map (·.extend m)).or (ofHistory (lastState s history) [m]) := by
  induction history generalizing s with
  | nil => rfl
  | cons m' history ih =>
    rw [List.cons_append, ofHistory, ofHistory]
    cases m'.request? s with
    | none => exact ih m'.after
    | some request => rfl

theorem lastState_of_ofHistory {r : Round} (h : ofHistory s history = some r) :
    lastState r.opened r.later = lastState s history := by
  induction history generalizing s with
  | nil => cases h
  | cons m history ih =>
    rw [ofHistory] at h
    cases hrequest : m.request? s with
    | none =>
      rw [hrequest] at h
      exact ih h
    | some request =>
      rw [hrequest] at h
      rw [← Option.some.inj h]
      rfl

theorem answer?_extend (r : Round) (m : Moment) (g : FederateId) : (r.extend m).answer? g =
    (r.answer? g).or (m.answer? (lastState r.opened r.later) g) :=
  firstAnswer?_append_singleton g r.opened r.later m

end Round

end Append

/-! ## The state before a moment -/

namespace Run

variable {t : Topology} {settings : CoordinatorSettings} {history : List Moment} {s : Coordinator}

theorem lastState_eq (run : Run t settings history s) :
    lastState (.ofTopology t settings) history = s := by
  cases run with
  | start => rfl
  | event earlier now e fresh =>
    rw [lastState, List.foldl_append]
    rfl

end Run

namespace Relay

/-- The source runs ahead, up to the microstep 3 at 500, and the sink asks to stop at 400. -/
def stopEvents : List Event :=
  events ++ [.messageReceived ⟨0⟩ (.nextEventTag ⟨500, 3⟩),
    .messageReceived ⟨0⟩ (.logicalTagComplete ⟨500, 3⟩),
    .messageReceived ⟨1⟩ (.stopRequest 400)]

def stopHistory : List Moment := (Coordinator.ofTopology plan.graph {}).trace stopEvents

def stopState : Coordinator := ((Coordinator.ofTopology plan.graph {}).handleAll stopEvents).1

theorem run_stop : Run plan.graph {} stopHistory stopState := .run_trace (by decide)

/-- The source answers the sink with 450. -/
def answered : Moment :=
  (stopState.setTime 0).moment (.messageReceived ⟨0⟩ (.stopRequestReply 450))

end Relay

end FederatedTime
