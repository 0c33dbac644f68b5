import FederatedTime.Proofs.Coordinator.StopRequests
import FederatedTime.Proofs.Simulation.Attendance

/-!
# What federates say about stopping

A federate has said what the coordinator has received from it and what is under way (`said`). Its
proposals are the times that it has named there for a stop. It has answered no more requests than
have been sent to it, and has asked for a stop once at most, if its script tells it to (`Tallied`).
-/

namespace FederatedTime

open FederatedTime.Action (notices)
open FederatedTime.StopNotice (proposalsTo)

/-! ## Readings -/

/-- The time in an answer to a request to stop. -/
def Event.stopReply? : Event → Option Int64
  | messageReceived _ (.stopRequestReply time) => some time
  | _ => none

/-- The time in a request to stop. -/
def Message.stopRequest? : Message → Option Int64
  | stopRequest time => some time
  | _ => none

/-- The times that events name for a stop. -/
def stopTimes (events : List Event) : List Int64 := events.filterMap (·.stopTime?)

/-- The times at which events request a stop. -/
def stopRequests (events : List Event) : List Int64 := events.filterMap (·.stopRequest?)

/-- The times in events that answer a request to stop. -/
def stopReplies (events : List Event) : List Int64 := events.filterMap (·.stopReply?)

section Readings

variable (first second : List Event)

theorem stopTimes_append : stopTimes (first ++ second) = stopTimes first ++ stopTimes second :=
  List.filterMap_append

theorem stopRequests_append :
    stopRequests (first ++ second) = stopRequests first ++ stopRequests second :=
  List.filterMap_append

theorem stopReplies_append :
    stopReplies (first ++ second) = stopReplies first ++ stopReplies second :=
  List.filterMap_append

/-- Whatever names a time is a request or an answer. -/
theorem length_stopTimes (events : List Event) :
    (stopTimes events).length = (stopRequests events).length + (stopReplies events).length := by
  induction events with
  | nil => rfl
  | cons e events ih =>
    have hone : (stopTimes [e]).length = (stopRequests [e]).length + (stopReplies [e]).length := by
      cases e with
      | messageReceived c message => cases message <;> rfl
      | _ => rfl
    rw [← List.singleton_append, stopTimes_append, stopRequests_append, stopReplies_append,
      List.length_append, List.length_append, List.length_append, ih, hone]
    omega

theorem stopRequests_of_stopTimes {events : List Event} (h : stopTimes events = []) :
    stopRequests events = [] := by
  have hlength := length_stopTimes events
  rw [h, List.length_nil] at hlength
  exact List.length_eq_zero_iff.1 (by omega)

theorem stopReplies_of_stopTimes {events : List Event} (h : stopTimes events = []) :
    stopReplies events = [] := by
  have hlength := length_stopTimes events
  rw [h, List.length_nil] at hlength
  exact List.length_eq_zero_iff.1 (by omega)

end Readings

namespace Simulation

/-! ## What federates answer -/

namespace ScriptedFederate

/-- How many requests are still to come of a script, when the given number of tags is processed. -/
def requestsAfter (stopAfter : Option Nat) (processed : Nat) : Nat :=
  match stopAfter with
  | some count => if processed < count then 1 else 0
  | none => 0

/-- How many times a federate may still ask for a stop. -/
def requestsLeft (f : ScriptedFederate) : Nat := requestsAfter f.stopAfter f.processed

theorem requestsLeft_le_one (f : ScriptedFederate) : f.requestsLeft ≤ 1 := by
  unfold requestsLeft requestsAfter
  split
  · split <;> omega
  · omega

end ScriptedFederate

open ScriptedFederate (requestsAfter)

/-- A federate asks for a stop no more often than it may, and answers a request only. -/
structure Restrained (f : FederateId) (federate : ScriptedFederate) (message : Message)
    (answer : ScriptedFederate × List Output) : Prop where
  requests : (stopRequests (answer.2.map (·.event f))).length + answer.1.requestsLeft ≤
    federate.requestsLeft
  replies : (stopReplies (answer.2.map (·.event f))).length ≤ message.stopRequest?.toList.length

theorem stopTimes_closing {federate : ScriptedFederate} {closing : List Output}
    (h : federate.Closing closing) (f : FederateId) :
    stopTimes (closing.map (·.event f)) = [] := by
  cases h with
  | waits | announces => rfl
  | leaves => cases federate.ending <;> rfl

theorem stopRequests_remarks (federate : ScriptedFederate) (message : Message) (now : Int64)
    (f : FederateId) : stopRequests ((federate.remarks message now).map (·.event f)) = [] := by
  cases message <;> rfl

theorem length_stopReplies_remarks (federate : ScriptedFederate) (message : Message) (now : Int64)
    (f : FederateId) : (stopReplies ((federate.remarks message now).map (·.event f))).length =
      message.stopRequest?.toList.length := by
  cases message <;> rfl

/-- What is reported of one tag. -/
theorem stops_report (federate : ScriptedFederate) (f : FederateId) (tag : Tag) (processed : Nat) :
    (stopRequests ((federate.report tag (processed + 1)).map (·.event f))).length +
        requestsAfter federate.stopAfter (processed + 1) ≤
      requestsAfter federate.stopAfter processed ∧
    stopReplies ((federate.report tag (processed + 1)).map (·.event f)) = [] := by
  unfold ScriptedFederate.report
  by_cases hstop : federate.stop.isNone ∧ federate.stopAfter = some (processed + 1)
  · rw [if_pos hstop, hstop.2]
    have hbefore : requestsAfter (some (processed + 1)) processed = 1 := if_pos (by omega)
    have hafter : requestsAfter (some (processed + 1)) (processed + 1) = 0 := if_neg (by omega)
    rw [hbefore, hafter]
    exact ⟨le_refl 1, rfl⟩
  · rw [if_neg hstop]
    refine ⟨?_, rfl⟩
    show 0 + requestsAfter federate.stopAfter (processed + 1) ≤ _
    unfold requestsAfter
    split
    · split <;> split <;> omega
    · omega

/-- A federate asks for a stop when it has processed the tag after which it is to do so. -/
theorem stops_reports (federate : ScriptedFederate) (f : FederateId) (tags : List Tag) :
    (stopRequests ((federate.reports tags).map (·.event f))).length +
        requestsAfter federate.stopAfter (federate.processed + tags.length) ≤
      federate.requestsLeft ∧
    stopReplies ((federate.reports tags).map (·.event f)) = [] := by
  unfold ScriptedFederate.reports ScriptedFederate.requestsLeft
  generalize federate.processed = processed
  induction tags generalizing processed with
  | nil => exact ⟨Nat.le_of_eq (Nat.zero_add _), rfl⟩
  | cons tag tags ih =>
    obtain ⟨hrequests, hreplies⟩ := stops_report federate f tag processed
    obtain ⟨hrequests', hreplies'⟩ := ih (processed + 1)
    rw [List.zipIdx_cons, List.flatMap_cons, List.map_append, stopRequests_append,
      stopReplies_append, hreplies, hreplies', List.length_append, List.length_cons,
      Nat.add_comm tags.length, ← Nat.add_assoc processed]
    dsimp only at hrequests' ⊢
    exact ⟨by omega, rfl⟩

theorem restrained_onMessage (federate : ScriptedFederate) (message : Message) (now : Int64)
    (f : FederateId) : Restrained f federate message (federate.onMessage message now) := by
  cases hdone : federate.done with
  | true =>
    rw [ScriptedFederate.onMessage_of_done hdone]
    exact ⟨Nat.le_of_eq (Nat.zero_add _), Nat.zero_le _⟩
  | false =>
    obtain ⟨closing, h⟩ := ScriptedFederate.exists_response hdone message now
    have hclosing := stopTimes_closing h.closing f
    obtain ⟨hrequests, hreplies⟩ := stops_reports federate f (federate.due message)
    refine ⟨?_, ?_⟩
    · rw [h.outputs, List.map_append, List.map_append, stopRequests_append, stopRequests_append,
        stopRequests_remarks, stopRequests_of_stopTimes hclosing, List.nil_append, List.append_nil,
        ScriptedFederate.requestsLeft, h.stopAfter, h.processed]
      exact hrequests
    · rw [h.outputs, List.map_append, List.map_append, stopReplies_append, stopReplies_append,
        hreplies, stopReplies_of_stopTimes hclosing, List.append_nil, List.append_nil,
        length_stopReplies_remarks]

/-! ## What has been said -/

/-- What `f` has said: what the coordinator has received from it, and what is under way. -/
def said (history : List Moment) (s : Simulation) (f : FederateId) : List Event :=
  eventsOn (connectionOf f) (history.map (·.event)) ++ s.sentBy f

/-- The times that `f` has proposed for a stop, in order. -/
def proposalsOf (s : Simulation) (f : FederateId) : List Tag :=
  s.proposals.filterMap fun (g, proposal) => if g = f then some proposal else none

/-- How many times `f` may still ask for a stop. -/
def requestsLeft (s : Simulation) (f : FederateId) : Nat :=
  ((s.federates.get? f).map (·.requestsLeft)).getD 0

variable {t : Topology} {history : List Moment} {s s' start : Simulation} {e : Event}
variable {f g : FederateId} {p : Topology.Plan} {now : Duration}

theorem Started.said_eq (hturn : Started s s' f) (history : List Moment) (g : FederateId) :
    said history s' g = said history s g ++ if g = f
      then [.connectionOpened (connectionOf f) (peerOf f),
        .messageReceived (connectionOf f) (.join f s.federationId)] else [] := by
  unfold said
  rw [hturn.sentBy, List.append_assoc]

/-- What is received is under way no longer. -/
theorem Answered.said_eq (hturn : Answered s s' now e) (history : List Moment) (g : FederateId) :
    said (history ++ [(s.coordinator.setTime now).moment e]) s' g = said history s g := by
  have hreceived : eventsOn (connectionOf g) [e] =
      if e.connection? = some (connectionOf g) then [e] else [] := by
    by_cases he : e.connection? = some (connectionOf g)
    · rw [if_pos he, eventsOn_of_eq he]
    · rw [if_neg he, eventsOn_of_ne he]
  unfold said
  rw [hturn.sentBy g, ← hreceived, ← List.append_assoc, ← eventsOn_append, List.map_append]
  rfl

section Heard

variable {federate : ScriptedFederate} {message : Message} {now : Int64}

theorem Heard.said_eq (hturn : Heard s s' f federate message now) (history : List Moment)
    (g : FederateId) : said history s' g = said history s g ++
      if g = f then (federate.onMessage message now).2.map (·.event f) else [] := by
  unfold said
  rw [hturn.sentBy, List.append_assoc]

theorem Heard.proposalsOf_eq (hturn : Heard s s' f federate message now) (g : FederateId) :
    s'.proposalsOf g = s.proposalsOf g ++ if g = f
      then (stopTimes ((federate.onMessage message now).2.map (·.event f))).map .ofTime
      else [] := by
  unfold proposalsOf
  rw [hturn.proposals, List.filterMap_append, proposalsIn, List.filterMap_filterMap]
  congr 1
  by_cases hg : g = f
  · rw [if_pos hg, stopTimes, List.map_filterMap]
    refine List.filterMap_congr fun e _ => ?_
    cases e.stopTime? with
    | none => rfl
    | some time => exact if_pos hg.symm
  · rw [if_neg hg, List.filterMap_eq_nil_iff]
    intro e _
    cases e.stopTime? with
    | none => rfl
    | some time => exact if_neg (Ne.symm hg)

theorem Heard.requestsLeft_eq (hturn : Heard s s' f federate message now) (g : FederateId) :
    s'.requestsLeft g =
      if g = f then (federate.onMessage message now).1.requestsLeft else s.requestsLeft g := by
  unfold requestsLeft
  rw [hturn.federates]
  by_cases hg : g = f
  · subst hg
    rw [if_pos rfl, Roster.get?_set_self (Roster.index_lt_of_get? hturn.get?_eq)]
    rfl
  · rw [if_neg hg, Roster.get?_set_ne (Ne.symm hg)]

end Heard

/-! ## Tallies -/

/-- What has been said about stopping, and how often it may have been. -/
structure Tallied (start : Simulation) (history : List Moment) (s : Simulation) : Prop where
  proposals : ∀ f, s.proposalsOf f = (stopTimes (said history s f)).map .ofTime
  /-- A request to `f` is under way, or may have been answered. -/
  replies : ∀ f, (stopReplies (said history s f)).length +
    ((s.sentTo f).filterMap (·.stopRequest?)).length ≤ (proposalsOn (connectionOf f) history).length
  requests : ∀ f, (stopRequests (said history s f)).length + s.requestsLeft f ≤
    start.requestsLeft f

namespace Tallied

theorem started (h : Tallied start history s) (hturn : Started s s' f) :
    Tallied start history s' := by
  have hsaid {α : Type} (read : Event → Option α)
      (hread : read (.connectionOpened (connectionOf f) (peerOf f)) = none ∧
        read (.messageReceived (connectionOf f) (.join f s.federationId)) = none)
      (g : FederateId) :
      (said history s' g).filterMap read = (said history s g).filterMap read := by
    rw [hturn.said_eq, List.filterMap_append, List.append_right_eq_self]
    split
    · rw [List.filterMap_cons, hread.1, List.filterMap_cons, hread.2]
      rfl
    · rfl
  refine ⟨fun g => ?_, fun g => ?_, fun g => ?_⟩
  · rw [stopTimes, hsaid _ ⟨rfl, rfl⟩, proposalsOf, hturn.proposals]
    exact h.proposals g
  · rw [stopReplies, hsaid _ ⟨rfl, rfl⟩, hturn.sentTo]
    exact h.replies g
  · rw [stopRequests, hsaid _ ⟨rfl, rfl⟩, requestsLeft, hturn.federates]
    exact h.requests g

theorem heard (h : Tallied start history s) {federate : ScriptedFederate} {message : Message}
    {now : Int64} (hturn : Heard s s' f federate message now) : Tallied start history s' := by
  have hanswer := restrained_onMessage federate message now f
  refine ⟨fun g => ?_, fun g => ?_, fun g => ?_⟩
  · rw [hturn.proposalsOf_eq, h.proposals, hturn.said_eq, stopTimes_append, List.map_append]
    congr 1
    split <;> rfl
  · have hreplies := h.replies g
    rw [hturn.sentTo, List.filterMap_append, List.length_append] at hreplies
    rw [hturn.said_eq, stopReplies_append, List.length_append]
    by_cases hg : g = f
    · subst hg
      have hreply := hanswer.replies
      rw [if_pos rfl] at hreplies ⊢
      have htold : ([message].filterMap (·.stopRequest?)).length =
          message.stopRequest?.toList.length := by
        rw [List.filterMap_cons]
        cases message.stopRequest? <;> rfl
      omega
    · rw [if_neg hg] at hreplies ⊢
      exact le_trans (Nat.add_le_add_left (Nat.le_add_left _ _) _) hreplies
  · have hrequests := h.requests g
    rw [hturn.said_eq, stopRequests_append, List.length_append, hturn.requestsLeft_eq]
    by_cases hg : g = f
    · subst hg
      have hbefore : s.requestsLeft g = federate.requestsLeft := by
        rw [requestsLeft, hturn.get?_eq]
        rfl
      have hrequest := hanswer.requests
      rw [if_pos rfl, if_pos rfl]
      omega
    · rw [if_neg hg, if_neg hg]
      exact hrequests

theorem missed (h : Tallied start history s) {message : Message}
    (hturn : Missed s s' f message) : Tallied start history s' := by
  have hsaid (g : FederateId) : said history s' g = said history s g := by
    rw [said, hturn.sentBy]
    rfl
  refine ⟨fun g => ?_, fun g => ?_, fun g => ?_⟩
  · rw [hsaid, proposalsOf, hturn.proposals]
    exact h.proposals g
  · have hreplies := h.replies g
    rw [hturn.sentTo, List.filterMap_append, List.length_append] at hreplies
    rw [hsaid]
    omega
  · rw [hsaid, requestsLeft, hturn.federates]
    exact h.requests g

end Tallied

/-- The requests among what `f` is told are those that go out on its connection. -/
theorem Sound.stopRequests_messagesFor (hbuild : p.build = .ok t) (h : Sound t history s)
    (he : e ∈ s.events) (now : Duration) (f : FederateId) :
    (messagesFor f ((s.coordinator.setTime now).handle e).2).filterMap (·.stopRequest?) =
      proposalsTo (connectionOf f) (notices ((s.coordinator.setTime now).handle e).2) := by
  unfold messagesFor proposalsTo notices
  rw [List.filterMap_filterMap, List.filterMap_filterMap]
  refine List.filterMap_congr fun a ha => ?_
  cases a with
  | send c message =>
    have hc := h.connection_of_sent hbuild he now ha
    have hiff : c = connectionOf f ↔ federateOn c = f := by
      refine ⟨fun heq => by rw [heq, federateOn_connectionOf], ?_⟩
      rintro rfl
      exact hc
    cases message with
    | stopRequest time =>
      show (if federateOn c = f then some (Message.stopRequest time) else none).bind
        (·.stopRequest?) = if c = connectionOf f then some time else none
      rw [if_congr hiff rfl rfl]
      split <;> rfl
    | stopGranted time =>
      show (if federateOn c = f then some (Message.stopGranted time) else none).bind
        (·.stopRequest?) = if c = connectionOf f then none else none
      split <;> split <;> rfl
    | _ =>
      refine Option.bind_eq_none_iff.2 fun message hmessage => ?_
      obtain ⟨-, heq⟩ := Option.ite_none_right_eq_some.1 hmessage
      rw [← Option.some.inj heq]
      rfl
  | closeConnection | sendClockSync | federationFinished => rfl

theorem Tallied.answered (h : Tallied start history s) (hbuild : p.build = .ok t)
    (hsound : Sound t history s) (hturn : Answered s s' now e) :
    Tallied start (history ++ [(s.coordinator.setTime now).moment e]) s' := by
  have he : e ∈ s.events := hturn.events.mem_iff.2 List.mem_cons_self
  refine ⟨fun g => ?_, fun g => ?_, fun g => ?_⟩
  · rw [hturn.said_eq, proposalsOf, hturn.proposals]
    exact h.proposals g
  · have hreplies := h.replies g
    rw [hturn.said_eq, hturn.sentTo, List.filterMap_append, List.length_append,
      hsound.stopRequests_messagesFor hbuild he, proposalsOn_append_singleton, List.length_append]
    exact (Nat.add_assoc _ _ _).symm.trans_le (Nat.add_le_add_right hreplies _)
  · rw [hturn.said_eq, requestsLeft, hturn.federates]
    exact h.requests g

end Simulation

end FederatedTime
