import FederatedTime.Proofs.Simulation.Course

/-!
# How a federate attends

Whatever its script holds, a federate opens its connection and joins, talks while its session lasts,
and leaves with a farewell. `Attendance` lists how far it may have come, with what is under way from
it and what the coordinator takes its connection for; every delivery takes it on from there
(`Sound.attendance`).
-/

namespace FederatedTime

namespace Message

/-- Whether a message proposes a time for a stop. -/
def isProposal : Message → Bool
  | stopRequest _ | stopRequestReply _ => true
  | _ => false

/-- Whether a message is one that a federate says in the course of its session. -/
def isTalk (message : Message) : Bool := message.isReport || message.isProposal

end Message

/-- Talk ends no session, and begins none. -/
theorem Coordinator.Joined.sessions_of_talk {s : Coordinator} {c : ConnectionId} {f : FederateId}
    {record : FederateRecord} {message : Message} (h : s.Joined c f record)
    (hmessage : message.isTalk = true) :
    (s.handle (.messageReceived c message)).1.sessions = s.sessions := by
  rcases Bool.or_eq_true_iff.1 hmessage with hreport | hproposal
  · exact (h.exists_of_report hreport).1
  · rw [h.handle_message]
    cases message with
    | stopRequest time | stopRequestReply time => exact sessions_contribute s f _
    | _ => cases hproposal

namespace Simulation

/-- The event is talk of `f`. -/
def Talk (f : FederateId) (e : Event) : Prop :=
  ∃ message, message.isTalk = true ∧ e = .messageReceived (connectionOf f) message

/-! ## What federates answer -/

/-- What `f` answers to a message: talk, and a farewell if it leaves. -/
inductive Utterance (f : FederateId) (answer : ScriptedFederate × List Output) : Prop
  | stays (hdone : answer.1.done = false) (htalk : ∀ e ∈ answer.2.map (·.event f), Talk f e)
  | leaves (talk : List Event) (ending : Ending) (hdone : answer.1.done = true)
      (htalk : ∀ e ∈ talk, Talk f e)
      (houtputs : answer.2.map (·.event f) = talk ++ ending.farewell f)

theorem talk_of_mem_remarks {federate : ScriptedFederate} {message : Message} {now : Int64}
    {output : Output} (f : FederateId) (h : output ∈ federate.remarks message now) :
    Talk f (output.event f) := by
  rcases ScriptedFederate.eq_of_mem_remarks h with ⟨time, rfl⟩ | ⟨time, rfl⟩
  · exact ⟨_, rfl, rfl⟩
  · exact ⟨_, rfl, rfl⟩

theorem talk_of_mem_reports {federate : ScriptedFederate} {tags : List Tag} {output : Output}
    (f : FederateId) (h : output ∈ federate.reports tags) : Talk f (output.event f) := by
  rcases ScriptedFederate.eq_of_mem_reports h with ⟨tag, rfl⟩ | ⟨time, rfl⟩
  · exact ⟨_, rfl, rfl⟩
  · exact ⟨_, rfl, rfl⟩

/-- Remarks, reports and announcements are talk, and the rest is a farewell. -/
theorem utterance_onMessage {federate : ScriptedFederate} (f : FederateId)
    (hdone : federate.done = false) (message : Message) (now : Int64) :
    Utterance f (federate.onMessage message now) := by
  obtain ⟨closing, h⟩ := ScriptedFederate.exists_response hdone message now
  have htalk : ∀ e ∈ (federate.remarks message now ++
      federate.reports (federate.due message)).map (·.event f), Talk f e := by
    rw [List.forall_mem_map, List.forall_mem_append]
    exact ⟨fun _ hmem => talk_of_mem_remarks f hmem, fun _ hmem => talk_of_mem_reports f hmem⟩
  have houtputs := congrArg (List.map (·.event f)) h.outputs
  rw [← List.append_assoc, List.map_append] at houtputs
  cases h.closing with
  | waits hpresent =>
    refine .stays hpresent ?_
    rw [houtputs]
    exact List.forall_mem_append.2 ⟨htalk, List.forall_mem_nil _⟩
  | announces next rest hpresent =>
    refine .stays hpresent ?_
    rw [houtputs]
    exact List.forall_mem_append.2 ⟨htalk, List.forall_mem_singleton.2 ⟨_, rfl, rfl⟩⟩
  | leaves hgone =>
    refine .leaves _ (federate.onMessage message now).1.ending hgone htalk ?_
    rw [houtputs, Ending.map_event_outputs]

/-! ## Attendance -/

/-- The federate `f` has left for good. -/
structure Departed (s : Simulation) (f : FederateId) : Prop where
  federate : ∃ federate, s.federates.get? f = some federate ∧ federate.done = true
  sentBy : ∀ e ∈ s.sentBy f, e = .connectionLost (connectionOf f)

/-- The federate `f` has been told nothing so far. -/
structure Unheard (s : Simulation) (f : FederateId) : Prop where
  federate : ∃ federate, s.federates.get? f = some federate ∧ federate.done = false
  sentTo : s.sentTo f = []

/-- How far `f` has come, and what is under way from it. -/
inductive Attendance (t : Topology) (s : Simulation) (f : FederateId) : Prop
  /-- There is no such federate. -/
  | absent (hstarting : f ∉ s.starting) (hfederate : s.federates.get? f = none)
      (hsession : s.coordinator.sessions.get? (connectionOf f) = none) (hsent : s.sentBy f = [])
  | asleep (hstarting : f ∈ s.starting) (h : Unheard s f)
      (hsession : s.coordinator.sessions.get? (connectionOf f) = none) (hsent : s.sentBy f = [])
  | opens (hstarting : f ∉ s.starting) (h : Unheard s f)
      (hsession : s.coordinator.sessions.get? (connectionOf f) = none)
      (hsent : s.sentBy f = [opening f, joining t f])
  | joins (hstarting : f ∉ s.starting) (h : Unheard s f) (peer : SocketAddress)
      (hsession : s.coordinator.sessions.get? (connectionOf f) = some (.handshaking peer))
      (hsent : s.sentBy f = [joining t f])
  | attends (hstarting : f ∉ s.starting) (federate : ScriptedFederate)
      (hfederate : s.federates.get? f = some federate) (hdone : federate.done = false)
      (hsession : s.coordinator.sessions.get? (connectionOf f) = some (.joined f))
      (hsent : ∀ e ∈ s.sentBy f, Talk f e)
  | leaves (hstarting : f ∉ s.starting) (federate : ScriptedFederate)
      (hfederate : s.federates.get? f = some federate) (hdone : federate.done = true)
      (hsession : s.coordinator.sessions.get? (connectionOf f) = some (.joined f))
      (talk : List Event) (ending : Ending) (htalk : ∀ e ∈ talk, Talk f e)
      (hsent : s.sentBy f = talk ++ ending.farewell f)
  | gone (hstarting : f ∉ s.starting) (h : Departed s f)
      (hsession : s.coordinator.sessions.get? (connectionOf f) = none)

variable {t : Topology} {history : List Moment} {s s' : Simulation} {e : Event} {f g : FederateId}
variable {p : Topology.Plan} {now : Duration}

/-! ### The turns of others -/

/-- Somebody else has acted, and `f` is told of it at most if it is joined. -/
structure Bystands (s s' : Simulation) (f : FederateId) : Prop where
  starting : f ∈ s'.starting ↔ f ∈ s.starting
  federate : s'.federates.get? f = s.federates.get? f
  session : s'.coordinator.sessions.get? (connectionOf f) =
    s.coordinator.sessions.get? (connectionOf f)
  sentBy : s'.sentBy f = s.sentBy f
  sentTo : (∀ g, s.coordinator.sessions.get? (connectionOf f) ≠ some (.joined g)) →
    s'.sentTo f = s.sentTo f

theorem Overhears.bystands {more : List Message} (h : Overhears s s' f more) :
    Bystands s s' f where
  starting := h.starting
  federate := h.federate
  session := h.session
  sentBy := h.sentBy
  sentTo hsession := by
    rw [h.sentTo, h.more_eq_nil hsession]
    exact List.append_nil _

theorem Sound.bystands (hbuild : p.build = .ok t) (h : Sound t history s)
    (hturn : Answered s s' now e) (hconnection : e.connection? ≠ some (connectionOf f)) :
    Bystands s s' f := by
  have he : e ∈ s.events := hturn.events.mem_iff.2 List.mem_cons_self
  have htransition :=
    Coordinator.handle_transition (Run.consistent_setTime h.run.consistent now) e
  have hsession := htransition.get?_sessions_of_ne hconnection
  refine ⟨by rw [hturn.starting], by rw [hturn.federates], ?_, ?_, fun hnone => ?_⟩
  · rw [hturn.coordinator]
    exact hsession
  · rw [hturn.sentBy, if_neg hconnection, List.nil_append]
  · have hexchange := h.run.exchange hbuild now e (connectionOf f)
    rw [hsession] at hexchange
    obtain ⟨messages, hmessages, -, hjoined⟩ :=
      hexchange.exists_told fun heq => absurd heq hconnection
    have hnil : messages = [] := by
      by_contra hne
      obtain ⟨g, hg⟩ := hjoined hne
      exact hnone g hg
    rw [hturn.sentTo, List.append_right_eq_self, List.eq_nil_iff_forall_not_mem]
    intro message hmessage
    have hsent := (h.mem_messagesFor_iff hbuild he now).1 hmessage
    have hon := Action.mem_on.2 ⟨hsent, rfl⟩
    rw [hmessages, hnil] at hon
    cases hon

theorem Bystands.unheard (h : Bystands s s' f) (hunheard : Unheard s f)
    (hsession : ∀ g, s.coordinator.sessions.get? (connectionOf f) ≠ some (.joined g)) :
    Unheard s' f where
  federate := h.federate.symm ▸ hunheard.federate
  sentTo := (h.sentTo hsession).trans hunheard.sentTo

theorem Bystands.departed (h : Bystands s s' f) (hdeparted : Departed s f) : Departed s' f where
  federate := h.federate.symm ▸ hdeparted.federate
  sentBy := h.sentBy.symm ▸ hdeparted.sentBy

/-- What others do leaves a federate where it is. -/
theorem Attendance.bystands (h : Attendance t s f) (hby : Bystands s s' f) :
    Attendance t s' f := by
  have hawake (hstarting : f ∉ s.starting) : f ∉ s'.starting := mt hby.starting.1 hstarting
  cases h with
  | absent hstarting hfederate hsession hsent =>
    exact .absent (hawake hstarting) (hby.federate.trans hfederate) (hby.session.trans hsession)
      (hby.sentBy.trans hsent)
  | asleep hstarting h hsession hsent =>
    exact .asleep (hby.starting.2 hstarting) (hby.unheard h (by simp [hsession]))
      (hby.session.trans hsession) (hby.sentBy.trans hsent)
  | opens hstarting h hsession hsent =>
    exact .opens (hawake hstarting) (hby.unheard h (by simp [hsession]))
      (hby.session.trans hsession) (hby.sentBy.trans hsent)
  | joins hstarting h peer hsession hsent =>
    exact .joins (hawake hstarting) (hby.unheard h (by simp [hsession])) peer
      (hby.session.trans hsession) (hby.sentBy.trans hsent)
  | attends hstarting federate hfederate hdone hsession hsent =>
    exact .attends (hawake hstarting) federate (hby.federate.trans hfederate) hdone
      (hby.session.trans hsession) (hby.sentBy.symm ▸ hsent)
  | leaves hstarting federate hfederate hdone hsession talk ending htalk hsent =>
    exact .leaves (hawake hstarting) federate (hby.federate.trans hfederate) hdone
      (hby.session.trans hsession) talk ending htalk (hby.sentBy.trans hsent)
  | gone hstarting h hsession =>
    exact .gone (hawake hstarting) (hby.departed h) (hby.session.trans hsession)

/-! ### Who has left stays away -/

theorem Departed.started (hattendance : Attendance t s g) (hturn : Started s s' f)
    (h : Departed s g) : Departed s' g := by
  by_cases hg : g = f
  · subst hg
    obtain ⟨federate, hfederate, hdone⟩ := h.federate
    have hstarting : g ∈ s.starting := hturn.starting ▸ List.mem_cons_self
    cases hattendance with
    | asleep _ hunheard =>
      obtain ⟨federate', hfederate', hundone⟩ := hunheard.federate
      obtain rfl := Option.some.inj (hfederate.symm.trans hfederate')
      rw [hdone] at hundone
      cases hundone
    | absent hawake | opens hawake | joins hawake | attends hawake | leaves hawake | gone hawake =>
      exact absurd hstarting hawake
  · exact (hturn.overhears hg).bystands.departed h

theorem Departed.heard {federate : ScriptedFederate} {message : Message} {now : Int64}
    (hturn : Heard s s' f federate message now) (h : Departed s g) : Departed s' g := by
  by_cases hg : g = f
  · subst hg
    obtain ⟨federate', hfederate, hdone⟩ := h.federate
    obtain rfl := Option.some.inj (hfederate.symm.trans hturn.get?_eq)
    obtain ⟨hafter, hsent⟩ := hturn.of_done hdone
    exact ⟨⟨_, hafter, hdone⟩, hsent.symm ▸ h.sentBy⟩
  · exact (hturn.overhears hg).bystands.departed h

theorem Departed.missed {message : Message} (hturn : Missed s s' f message)
    (h : Departed s g) : Departed s' g where
  federate := hturn.federates.symm ▸ h.federate
  sentBy := (hturn.sentBy g).symm ▸ h.sentBy

/-! ### Its own turns -/

/-- A federate that starts opens its connection and joins. -/
theorem Attendance.started (hsound : Sound t history s) (hturn : Started s s' f)
    (h : Attendance t s f) : Attendance t s' f := by
  have hstarting : f ∈ s.starting := hturn.starting ▸ List.mem_cons_self
  cases h with
  | asleep _ h hsession hsent =>
    have hid : s.federationId = t.federationId :=
      congrArg (·.federationId) hsound.run.topology_eq
    refine .opens (hsound.not_mem_starting hturn) ⟨?_, ?_⟩ ?_ ?_
    · rw [hturn.federates]
      exact h.federate
    · exact (hturn.sentTo f).trans h.sentTo
    · rw [hturn.coordinator]
      exact hsession
    · rw [hturn.sentBy, hsent, if_pos rfl, hid]
      rfl
  | absent hawake | opens hawake | joins hawake | attends hawake | leaves hawake | gone hawake =>
    exact absurd hstarting hawake

theorem Attendance.heard {federate : ScriptedFederate} {message : Message} {now : Int64}
    (hturn : Heard s s' f federate message now) (h : Attendance t s f) : Attendance t s' f := by
  have hawake (hstarting : f ∉ s.starting) : f ∉ s'.starting := hturn.starting ▸ hstarting
  have htold := hturn.sentTo_self
  have hsentBy := hturn.sentBy_self
  have hafter := hturn.get?_self
  have same {federate' : ScriptedFederate} (heq : s.federates.get? f = some federate') :
      federate' = federate := Option.some.inj (heq.symm.trans hturn.get?_eq)
  cases h with
  | absent _ hfederate =>
    rw [hturn.get?_eq] at hfederate
    cases hfederate
  | asleep _ h | opens _ h | joins _ h =>
    rw [h.sentTo] at htold
    cases htold
  | attends hstarting federate' hfederate hdone hsession hsent =>
    obtain rfl := same hfederate
    cases utterance_onMessage f hdone message now with
    | stays hdone' htalk =>
      refine .attends (hawake hstarting) _ hafter hdone' (hturn.coordinator ▸ hsession) ?_
      rw [hsentBy]
      exact List.forall_mem_append.2 ⟨hsent, htalk⟩
    | leaves talk ending hdone' htalk houtputs =>
      refine .leaves (hawake hstarting) _ hafter hdone' (hturn.coordinator ▸ hsession)
        (s.sentBy f ++ talk) ending (List.forall_mem_append.2 ⟨hsent, htalk⟩) ?_
      rw [hsentBy, houtputs, List.append_assoc]
  | leaves hstarting federate' hfederate hdone hsession talk ending htalk hsent =>
    obtain rfl := same hfederate
    obtain ⟨hfederate', hsent'⟩ := hturn.of_done hdone
    exact .leaves (hawake hstarting) _ hfederate' hdone (hturn.coordinator ▸ hsession) talk ending
      htalk (hsent'.trans hsent)
  | gone hstarting h hsession =>
    exact .gone (hawake hstarting) (h.heard hturn) (hturn.coordinator ▸ hsession)

theorem Attendance.missed {message : Message} (hturn : Missed s s' f message)
    (h : Attendance t s f) : Attendance t s' f := by
  have hnone := hturn.get?_eq
  have present (hfederate : ∃ federate, s.federates.get? f = some federate) : False := by
    obtain ⟨federate, hfederate⟩ := hfederate
    rw [hnone] at hfederate
    cases hfederate
  cases h with
  | absent hstarting hfederate hsession hsent =>
    exact .absent (hturn.starting ▸ hstarting) (hturn.federates ▸ hfederate)
      (hturn.coordinator ▸ hsession) ((hturn.sentBy f).trans hsent)
  | asleep _ h | opens _ h | joins _ h | gone _ h =>
    obtain ⟨federate, hfederate, -⟩ := h.federate
    exact (present ⟨federate, hfederate⟩).elim
  | attends _ federate hfederate | leaves _ federate hfederate =>
    exact (present ⟨federate, hfederate⟩).elim

section Answered

/-- The coordinator lets in whoever joins. -/
theorem Sound.lets_in (hsound : Sound t history s) (hturn : Answered s s' now (joining t f))
    {peer : SocketAddress} (hf : t.contains f)
    (hsession : s.coordinator.sessions.get? (connectionOf f) = some (.handshaking peer)) :
    s'.coordinator.sessions.get? (connectionOf f) = some (.joined f) := by
  have htopology : (s.coordinator.setTime now).registry.topology = t := hsound.run.topology_eq
  -- who is joined is so on its own connection, which still waits here
  have haway : (s.coordinator.setTime now).registry.isConnected f = false := by
    refine eq_false_of_ne_true fun hconnected => ?_
    obtain ⟨c, record, hjoined⟩ := hsound.run.consistent.isConnected_iff.1 hconnected
    have hc := hjoined.session
    rw [hsound.seated c f hc, hsession] at hc
    cases hc
  have hhandle := Coordinator.handle_join (s := s.coordinator.setTime now) hsession
    (htopology.symm ▸ hf) haway
  rw [htopology] at hhandle
  rw [hturn.coordinator, joining, hhandle]
  exact Sessions.get?_put_self _ _ _

/-- Talk keeps a session as it is. -/
theorem Sound.session_of_talk (hsound : Sound t history s) (hturn : Answered s s' now e)
    (htalk : Talk f e)
    (hsession : s.coordinator.sessions.get? (connectionOf f) = some (.joined f)) :
    s'.coordinator.sessions.get? (connectionOf f) = some (.joined f) := by
  obtain ⟨message, hmessage, rfl⟩ := htalk
  obtain ⟨record, hjoined⟩ :=
    (Run.consistent_setTime hsound.run.consistent now).exists_joined hsession
  rw [hturn.coordinator, hjoined.sessions_of_talk hmessage]
  exact hsession

/-- A farewell ends a session. -/
theorem Sound.session_of_farewell (hsound : Sound t history s) (hturn : Answered s s' now e)
    (he : e = .connectionLost (connectionOf f) ∨ e = .messageReceived (connectionOf f) .resign)
    (hsession : s.coordinator.sessions.get? (connectionOf f) = some (.joined f)) :
    s'.coordinator.sessions.get? (connectionOf f) = none := by
  obtain ⟨record, hjoined⟩ := hsound.run.consistent.exists_joined hsession
  exact (hturn.dismisses he hjoined).1

theorem Attendance.answered (hsound : Sound t history s) (hsize : s.federates.size ≤ t.size)
    (hturn : Answered s s' now e) (he : e.connection? = some (connectionOf f))
    (h : Attendance t s f) : Attendance t s' f := by
  have hawake (hstarting : f ∉ s.starting) : f ∉ s'.starting := hturn.starting ▸ hstarting
  have hsentBy := hturn.sentBy_self he
  have hfederates {federate : ScriptedFederate} (heq : s.federates.get? f = some federate) :
      s'.federates.get? f = some federate := hturn.federates.symm ▸ heq
  cases h with
  | absent _ _ _ hsent | asleep _ _ _ hsent =>
    rw [hsent] at hsentBy
    cases hsentBy
  | opens hstarting h hsession hsent =>
    obtain ⟨rfl, hrest⟩ := List.cons.inj (hsent.symm.trans hsentBy)
    refine .joins (hawake hstarting) ⟨hturn.federates ▸ h.federate, ?_⟩ (peerOf f) ?_ hrest.symm
    · exact (hturn.sentTo f).trans ((List.append_nil _).trans h.sentTo)
    · rw [hturn.coordinator]
      exact Sessions.get?_put_self _ _ _
  | joins hstarting h peer hsession hsent =>
    obtain ⟨rfl, hrest⟩ := List.cons.inj (hsent.symm.trans hsentBy)
    obtain ⟨federate, hfederate, hdone⟩ := h.federate
    have hf : t.contains f :=
      decide_eq_true (lt_of_lt_of_le (Roster.index_lt_of_get? hfederate) hsize)
    exact .attends (hawake hstarting) federate (hfederates hfederate) hdone
      (hsound.lets_in hturn hf hsession) (hrest ▸ nofun)
  | attends hstarting federate hfederate hdone hsession hsent =>
    rw [hsentBy] at hsent
    obtain ⟨htalk, hrest⟩ := List.forall_mem_cons.1 hsent
    exact .attends (hawake hstarting) federate (hfederates hfederate) hdone
      (hsound.session_of_talk hturn htalk hsession) hrest
  | leaves hstarting federate hfederate hdone hsession talk ending htalk hsent =>
    cases talk with
    | nil =>
      obtain ⟨he, hrest⟩ := Ending.farewell_eq_cons (hsent.symm.trans hsentBy)
      exact .gone (hawake hstarting) ⟨⟨federate, hfederates hfederate, hdone⟩, hrest⟩
        (hsound.session_of_farewell hturn he hsession)
    | cons first talk =>
      obtain ⟨rfl, hrest⟩ := List.cons.inj (hsent.symm.trans hsentBy)
      obtain ⟨hfirst, htalk⟩ := List.forall_mem_cons.1 htalk
      exact .leaves (hawake hstarting) federate (hfederates hfederate) hdone
        (hsound.session_of_talk hturn hfirst hsession) talk ending htalk hrest.symm
  | gone hstarting h hsession =>
    have hsent := h.sentBy
    rw [hsentBy] at hsent
    obtain ⟨rfl, hrest⟩ := List.forall_mem_cons.1 hsent
    refine .gone (hawake hstarting) ⟨hturn.federates.symm ▸ h.federate, hrest⟩ ?_
    rw [hturn.coordinator_of_lost hsession]
    exact hsession

end Answered

/-! ### Whole turns -/

/-- Every delivery takes a federate on, or leaves it where it is. -/
theorem Sound.attendance (hbuild : p.build = .ok t) (hsound : Sound t history s)
    (hsize : s.federates.size ≤ t.size) (hturn : Turn s s') (h : Attendance t s g) :
    Attendance t s' g := by
  cases hturn with
  | @started f hturn =>
    by_cases hg : g = f
    · subst hg
      exact h.started hsound hturn
    · exact h.bystands (hturn.overhears hg).bystands
  | @answered now e hturn =>
    by_cases he : e.connection? = some (connectionOf g)
    · exact h.answered hsound hsize hturn he
    · exact h.bystands (hsound.bystands hbuild hturn he)
  | @heard f _ _ _ hturn =>
    by_cases hg : g = f
    · subst hg
      exact h.heard hturn
    · exact h.bystands (hturn.overhears hg).bystands
  | @missed f _ hturn =>
    by_cases hg : g = f
    · subst hg
      exact h.missed hturn
    · exact h.bystands (hturn.overhears hg).bystands

end Simulation

end FederatedTime
