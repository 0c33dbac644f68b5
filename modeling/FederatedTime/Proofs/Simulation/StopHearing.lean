import FederatedTime.Proofs.Simulation.StopTalk

/-!
# What the coordinator hears about stopping

The coordinator hears of a stop only from federates that are joined. The first that it hears from
the requester opens the round; the first that it hears from a federate that the round asks is the
answer of that federate, unless it leaves without a word (`Consulted`).
-/

namespace FederatedTime

open FederatedTime.Action (notices)

/-- Who leaves has been joined, and is so no longer. -/
theorem Moment.isConnected_of_left? {m : Moment} {s : Coordinator} {f : FederateId}
    {completed : Tag} (h : m.left? s f = some completed) :
    s.registry.isConnected f = true ∧ m.after.registry.isConnected f = false := by
  unfold left? at h
  split at h
  · rename_i hboth
    simpa using hboth
  · cases h

namespace Simulation

/-- The times that the coordinator has heard from `f` for a stop. -/
def heardFrom (history : List Moment) (f : FederateId) : List Int64 :=
  stopTimes (eventsOn (connectionOf f) (history.map (·.event)))

/-- What has been heard from `f`, whom the round asks. -/
inductive Accounted (history : List Moment) (s : Simulation) (r : Round) (f : FederateId) : Prop
  | silent (hanswer : r.answer? f = none) (hheard : heardFrom history f = [])
  | named (time : Int64) (hanswer : r.answer? f = some (.named time))
      (hheard : (heardFrom history f).head? = some time)
  | left (completed : Tag) (hanswer : r.answer? f = some (.left completed))
      (hheard : heardFrom history f = []) (hdeparted : Departed s f)

/-- What has been heard from everybody, given the round that the history shows. -/
inductive Consulted (history : List Moment) (s : Simulation) : Option Round → Prop
  | unopened (hheard : ∀ f, heardFrom history f = []) : Consulted history s none
  | opened {r : Round} (hrequester : (heardFrom history r.requester).head? = some r.time)
      (hasked : ∀ f, r.Asks f → Accounted history s r f)
      (hseated : ∀ f c, r.opened.registry.connection? f = some c → c = connectionOf f) :
    Consulted history s (some r)

variable {t : Topology} {history : List Moment} {s s' start : Simulation} {e : Event}
variable {f g : FederateId} {p : Topology.Plan} {now : Duration} {rest : List Event} {time : Int64}
variable {r : Round}

theorem heardFrom_append_singleton (history : List Moment) (m : Moment) (f : FederateId) :
    heardFrom (history ++ [m]) f =
      heardFrom history f ++ stopTimes (eventsOn (connectionOf f) [m.event]) := by
  unfold heardFrom
  rw [List.map_append, eventsOn_append, stopTimes_append]
  rfl

theorem heardFrom_moment_of_eq {before : Coordinator}
    (h : e.connection? = some (connectionOf f)) : heardFrom (history ++ [before.moment e]) f =
      heardFrom history f ++ e.stopTime?.toList := by
  have hreceived : eventsOn (connectionOf f) [(before.moment e).event] = [e] := eventsOn_of_eq h
  rw [heardFrom_append_singleton, hreceived, stopTimes, List.filterMap_cons]
  cases e.stopTime? <;> rfl

theorem heardFrom_moment_of_ne {before : Coordinator}
    (h : e.connection? ≠ some (connectionOf f)) :
    heardFrom (history ++ [before.moment e]) f = heardFrom history f := by
  have hreceived : eventsOn (connectionOf f) [(before.moment e).event] = [] := eventsOn_of_ne h
  rw [heardFrom_append_singleton, hreceived]
  exact List.append_nil _

theorem stopTimes_said (history : List Moment) (s : Simulation) (f : FederateId) :
    stopTimes (said history s f) = heardFrom history f ++ stopTimes (s.sentBy f) :=
  stopTimes_append _ _

theorem Departed.stopTimes_eq_nil (h : Departed s f) : stopTimes (s.sentBy f) = [] := by
  refine List.filterMap_eq_nil_iff.2 fun e he => ?_
  rw [h.sentBy e he]
  rfl

/-! ## One event -/

/-- What names a time for a stop comes from a federate that is joined. -/
theorem Attendance.joined_of_stopTime? (h : Attendance t s f) (hsent : s.sentBy f = e :: rest)
    (htime : e.stopTime? = some time) :
    s.coordinator.sessions.get? (connectionOf f) = some (.joined f) := by
  cases h with
  | absent _ _ _ hnil | asleep _ _ _ hnil =>
    rw [hnil] at hsent
    cases hsent
  | opens _ _ _ hsent' | joins _ _ _ _ hsent' =>
    obtain ⟨rfl, -⟩ := List.cons.inj (hsent'.symm.trans hsent)
    cases htime
  | attends _ _ _ _ hsession | leaves _ _ _ _ hsession => exact hsession
  | gone _ h =>
    have he := h.sentBy e (hsent ▸ List.mem_cons_self)
    rw [he] at htime
    cases htime

/-- Whoever loses its session has left for good. -/
theorem Attendance.departed (hsound : Sound t history s) (h : Attendance t s f)
    (hturn : Answered s s' now e) (he : e.connection? = some (connectionOf f))
    (hsession : s.coordinator.sessions.get? (connectionOf f) = some (.joined f))
    (hover : s'.coordinator.sessions.get? (connectionOf f) ≠ some (.joined f)) :
    Departed s' f := by
  have hsentBy := hturn.sentBy_self he
  have talks (htalk : Talk f e) : False := hover (hsound.session_of_talk hturn htalk hsession)
  cases h with
  | absent _ _ hsession' | asleep _ _ hsession' | opens _ _ hsession' | joins _ _ _ hsession'
  | gone _ _ hsession' =>
    rw [hsession'] at hsession
    cases hsession
  | attends _ _ _ _ _ hsent =>
    rw [hsentBy] at hsent
    exact (talks (hsent e List.mem_cons_self)).elim
  | leaves _ federate hfederate hdone _ talk ending htalk hsent =>
    cases talk with
    | nil =>
      obtain ⟨-, hrest⟩ := Ending.farewell_eq_cons (hsent.symm.trans hsentBy)
      exact ⟨⟨federate, hturn.federates.symm ▸ hfederate, hdone⟩, hrest⟩
    | cons first talk =>
      obtain ⟨rfl, -⟩ := List.cons.inj (hsent.symm.trans hsentBy)
      exact (talks (htalk _ List.mem_cons_self)).elim

namespace Sound

variable (h : Sound t history s)
include h

theorem session_of_isConnected (hconnected : s.coordinator.registry.isConnected f) :
    s.coordinator.sessions.get? (connectionOf f) = some (.joined f) := by
  obtain ⟨c, record, hjoined⟩ := h.run.consistent.isConnected_iff.1 hconnected
  rw [← h.seated c f hjoined.session]
  exact hjoined.session

theorem connection_of_origin? (horigin : s.coordinator.origin? e = some f) :
    e.connection? = some (connectionOf f) := by
  obtain ⟨c, hc, hfederate⟩ := Option.bind_eq_some_iff.1 horigin
  rw [hc, h.seated c f (Coordinator.federateOf_eq_some_iff.1 hfederate)]

/-- Nobody answers but who the event comes from. -/
theorem answer?_eq_none (hmem : e ∈ s.events) (he : e.connection? ≠ some (connectionOf f))
    (now : Duration) :
    ((s.coordinator.setTime now).moment e).answer? s.coordinator f = none := by
  have hs := Run.consistent_setTime h.run.consistent now
  have hnamed : ((s.coordinator.setTime now).moment e).named? s.coordinator f = none :=
    if_neg fun horigin => he (h.connection_of_origin? horigin)
  have hleft : ((s.coordinator.setTime now).moment e).left? s.coordinator f = none := by
    refine Coordinator.left?_of_isConnected fun hconnected => ?_
    have hsession := (Coordinator.handle_transition hs e).get?_sessions_of_ne he
    obtain ⟨record, hjoined⟩ := (h.run_event hmem now).consistent.exists_joined
      (hsession.trans (h.session_of_isConnected hconnected))
    exact hjoined.isConnected
  unfold Moment.answer?
  rw [hnamed, hleft]
  rfl

/-- Whoever names a time while it is joined answers with it. -/
theorem answer?_eq_named (hsession : s.coordinator.sessions.get? (connectionOf f) = some (.joined f))
    (he : e.connection? = some (connectionOf f)) (htime : e.stopTime? = some time)
    (now : Duration) :
    ((s.coordinator.setTime now).moment e).answer? s.coordinator f = some (.named time) := by
  obtain ⟨record, hjoined⟩ := h.run.consistent.exists_joined hsession
  have hnamed : ((s.coordinator.setTime now).moment e).named? s.coordinator f = some time :=
    (if_pos (hjoined.origin?_eq he)).trans htime
  unfold Moment.answer?
  rw [hnamed]
  rfl

end Sound

/-! ## One more moment -/

section Answered

variable (hsound : Sound t history s) (hturn : Answered s s' now e)
include hsound hturn

/-- A federate that has not answered is silent, or leaves without a word. -/
theorem Accounted.of_mute (hattendance : Attendance t s f)
    (hlast : lastState r.opened r.later = s.coordinator) (hanswer : r.answer? f = none)
    (hheard : heardFrom history f = []) (he : e.connection? = some (connectionOf f))
    (htime : e.stopTime? = none) :
    Accounted (history ++ [(s.coordinator.setTime now).moment e]) s'
      (r.extend ((s.coordinator.setTime now).moment e)) f := by
  have hmem : e ∈ s.events := hturn.events.mem_iff.2 List.mem_cons_self
  have hextend := r.answer?_extend ((s.coordinator.setTime now).moment e) f
  have hnamed : ((s.coordinator.setTime now).moment e).named? s.coordinator f = none :=
    (if_congr Iff.rfl htime rfl).trans (ite_self none)
  rw [hlast, hanswer, Option.none_or, Moment.answer?, hnamed, Option.map_none, Option.none_or]
    at hextend
  have hheard' : heardFrom (history ++ [(s.coordinator.setTime now).moment e]) f = [] := by
    rw [heardFrom_moment_of_eq he, hheard, htime]
    rfl
  cases hleft : ((s.coordinator.setTime now).moment e).left? s.coordinator f with
  | none =>
    rw [hleft] at hextend
    exact .silent hextend hheard'
  | some completed =>
    rw [hleft] at hextend
    obtain ⟨hbefore, hafter⟩ := Moment.isConnected_of_left? hleft
    refine .left completed hextend hheard' ?_
    refine hattendance.departed hsound hturn he (hsound.session_of_isConnected hbefore) ?_
    intro hsession
    rw [hturn.coordinator] at hsession
    obtain ⟨record, hjoined⟩ := (hsound.run_event hmem now).consistent.exists_joined hsession
    exact ne_true_of_eq_false hafter hjoined.isConnected

/-- What is heard from a federate is its answer, if it has not given one before. -/
theorem Accounted.own (hattendance : Attendance t s f)
    (hlast : lastState r.opened r.later = s.coordinator) (h : Accounted history s r f)
    (he : e.connection? = some (connectionOf f)) :
    Accounted (history ++ [(s.coordinator.setTime now).moment e]) s'
      (r.extend ((s.coordinator.setTime now).moment e)) f := by
  have hextend := r.answer?_extend ((s.coordinator.setTime now).moment e) f
  have hsentBy := hturn.sentBy_self he
  cases h with
  | named time hanswer hfirst =>
    refine .named time (by rw [hextend, hanswer]; rfl) ?_
    rw [heardFrom_moment_of_eq he, List.head?_append, hfirst]
    rfl
  | left completed hanswer hnone hdeparted =>
    have hlost := hdeparted.sentBy
    rw [hsentBy] at hlost
    obtain ⟨rfl, hrest⟩ := List.forall_mem_cons.1 hlost
    refine .left completed (by rw [hextend, hanswer]; rfl) ?_ ⟨?_, hrest⟩
    · rw [heardFrom_moment_of_eq he, hnone]
      rfl
    · rw [hturn.federates]
      exact hdeparted.federate
  | silent hanswer hnone =>
    cases htime : e.stopTime? with
    | none => exact .of_mute hsound hturn hattendance hlast hanswer hnone he htime
    | some time =>
      have hsession := hattendance.joined_of_stopTime? hsentBy htime
      rw [hlast, hanswer, Option.none_or] at hextend
      refine .named time (hextend.trans (hsound.answer?_eq_named hsession he htime now)) ?_
      rw [heardFrom_moment_of_eq he, hnone, htime]
      rfl

/-- What is heard from others changes nothing. -/
theorem Accounted.other (hbuild : p.build = .ok t)
    (hlast : lastState r.opened r.later = s.coordinator) (h : Accounted history s r f)
    (he : e.connection? ≠ some (connectionOf f)) :
    Accounted (history ++ [(s.coordinator.setTime now).moment e]) s'
      (r.extend ((s.coordinator.setTime now).moment e)) f := by
  have hmem : e ∈ s.events := hturn.events.mem_iff.2 List.mem_cons_self
  have hextend := r.answer?_extend ((s.coordinator.setTime now).moment e) f
  rw [hlast, hsound.answer?_eq_none hmem he, Option.or_none] at hextend
  have hheard : heardFrom (history ++ [(s.coordinator.setTime now).moment e]) f =
      heardFrom history f := heardFrom_moment_of_ne he
  cases h with
  | silent hanswer hnone => exact .silent (hextend.trans hanswer) (hheard.trans hnone)
  | named time hanswer hfirst => exact .named time (hextend.trans hanswer) (hheard.symm ▸ hfirst)
  | left completed hanswer hnone hdeparted =>
    exact .left completed (hextend.trans hanswer) (hheard.trans hnone)
      ((hsound.bystands hbuild hturn he).departed hdeparted)

/-- The first request opens the round. -/
theorem Consulted.opened_of_request (hheard : ∀ f, heardFrom history f = [])
    (hrequest : ((s.coordinator.setTime now).moment e).request? s.coordinator = some (f, time)) :
    Consulted (history ++ [(s.coordinator.setTime now).moment e]) s'
      (some ⟨s.coordinator, f, time, ((s.coordinator.setTime now).moment e).after, []⟩) := by
  have hmem : e ∈ s.events := hturn.events.mem_iff.2 List.mem_cons_self
  obtain ⟨horigin, htime⟩ : s.coordinator.origin? e = some f ∧ e.stopRequest? = some time := by
    unfold Moment.request? at hrequest
    obtain ⟨g, hg, hrequest⟩ := Option.bind_eq_some_iff.1 hrequest
    obtain ⟨time', htime', heq⟩ := Option.bind_eq_some_iff.1 hrequest
    obtain ⟨rfl, rfl⟩ := Prod.mk.inj (Option.some.inj heq)
    exact ⟨hg, htime'⟩
  have he := hsound.connection_of_origin? horigin
  refine .opened ?_ (fun g hg => .silent rfl ?_) fun g c hg => ?_
  · have hstop : e.stopTime? = some time := by
      unfold Event.stopRequest? at htime
      split at htime
      · exact htime
      · cases htime
    rw [heardFrom_moment_of_eq he, hheard, hstop]
    rfl
  · have hne : e.connection? ≠ some (connectionOf g) := by
      rw [he]
      exact fun heq => hg.1 (connectionOf_injective (Option.some.inj heq)).symm
    exact (heardFrom_moment_of_ne hne).trans (hheard g)
  · have hjoined := ((hsound.run_event hmem now).consistent.joined_iff c g).2 hg
    exact hsound.seated_event hmem now c g hjoined

/-- While no round is open, nobody who is heard names a time without a request. -/
theorem Consulted.unopened_of_not_request (hattendance : ∀ f, Attendance t s f)
    (htallied : Tallied start history s) (hasked : ∀ c, proposalsOn c history = [])
    (hheard : ∀ f, heardFrom history f = [])
    (hrequest : ((s.coordinator.setTime now).moment e).request? s.coordinator = none) :
    Consulted (history ++ [(s.coordinator.setTime now).moment e]) s' none := by
  refine .unopened fun f => ?_
  by_cases he : e.connection? = some (connectionOf f)
  · rw [heardFrom_moment_of_eq he, hheard, List.nil_append]
    cases htime : e.stopTime? with
    | none => rfl
    | some time =>
      have hsentBy := hturn.sentBy_self he
      have hsession := (hattendance f).joined_of_stopTime? hsentBy htime
      obtain ⟨record, hjoined⟩ := hsound.run.consistent.exists_joined hsession
      obtain ⟨c, rfl | rfl⟩ := Coordinator.eq_stopRequest_or_eq_stopRequestReply htime
      · have horigin : s.coordinator.origin? ((s.coordinator.setTime now).moment
            (.messageReceived c (.stopRequest time))).event = some f := hjoined.origin?_eq he
        rw [Moment.request?, horigin] at hrequest
        cases hrequest
      · -- nobody has been asked, so nobody answers
        have hreplies := htallied.replies f
        rw [hasked, said, hsentBy, stopReplies_append, List.length_append] at hreplies
        have hreply : (stopReplies (Event.messageReceived c (.stopRequestReply time) ::
            s'.sentBy f)).length = (stopReplies (s'.sentBy f)).length + 1 := rfl
        rw [hreply, List.length_nil] at hreplies
        omega
  · exact (heardFrom_moment_of_ne he).trans (hheard f)

theorem Consulted.answered (hbuild : p.build = .ok t) (hattendance : ∀ f, Attendance t s f)
    (htallied : Tallied start history s)
    (h : Consulted history s (Round.ofHistory (.ofTopology t { clockSync := .disabled }) history)) :
    Consulted (history ++ [(s.coordinator.setTime now).moment e]) s'
      (Round.ofHistory (.ofTopology t { clockSync := .disabled })
        (history ++ [(s.coordinator.setTime now).moment e])) := by
  have hstanding := hsound.run.standing hbuild
  rw [Round.ofHistory_append_singleton, hsound.run.lastState_eq]
  cases hround : Round.ofHistory (.ofTopology t { clockSync := .disabled }) history with
  | none =>
    rw [hround] at h hstanding
    rw [Option.map_none, Option.none_or, Round.ofHistory]
    cases h with
    | unopened hheard =>
      cases hrequest : ((s.coordinator.setTime now).moment e).request? s.coordinator with
      | none =>
        exact unopened_of_not_request hsound hturn hattendance htallied
          hstanding.proposalsOn_eq_nil hheard hrequest
      | some request => exact opened_of_request hsound hturn hheard hrequest
  | some r =>
    rw [hround] at h
    have hlast : lastState r.opened r.later = s.coordinator :=
      (Round.lastState_of_ofHistory hround).trans hsound.run.lastState_eq
    cases h with
    | opened hrequester hasked hseated =>
      refine .opened ?_ (fun f hf => ?_) hseated
      · rw [heardFrom_append_singleton, List.head?_append]
        exact Option.or_eq_some_iff.2 (Or.inl hrequester)
      · by_cases he : e.connection? = some (connectionOf f)
        · exact (hasked f hf).own hsound hturn (hattendance f) hlast he
        · exact (hasked f hf).other hsound hturn hbuild hlast he

end Answered

end Simulation

end FederatedTime
