import FederatedTime.Proofs.Coordinator.Startup
import FederatedTime.Proofs.Simulation.Phase

/-!
# The turns of a federate

Its own turns take a federate from one phase to the next: it starts (`Phase.started`), it is told
something (`Phase.heard`), or the coordinator answers what it has sent (`Phase.answered`).
-/

namespace FederatedTime

namespace Simulation

variable {t : Topology} {history : List Moment} {s s' : Simulation} {e : Event} {f : FederateId}
variable {script : Script} {p : Topology.Plan}

/-! ## It starts -/

theorem Sound.not_mem_starting (h : Sound t history s) (hturn : Started s s' f) :
    f ∉ s'.starting := by
  have hnodup := (List.nodup_append.1 h.fresh).1.of_map
  rw [hturn.starting] at hnodup
  exact (List.nodup_cons.1 hnodup).1

/-- A federate that starts opens its connection and joins. -/
theorem Phase.started (hsound : Sound t history s) (hturn : Started s s' f)
    (h : Phase t s f script) : Phase t s' f script := by
  have hstarting : f ∈ s.starting := hturn.starting ▸ List.mem_cons_self
  cases h with
  | asleep _ h hsession hsent =>
    have hid : s.federationId = t.federationId :=
      congrArg (·.federationId) hsound.run.topology_eq
    refine .opens (hsound.not_mem_starting hturn) ⟨?_, ?_, ?_⟩ ?_ ?_
    · rw [hturn.federates]
      exact h.federate
    · exact (hturn.sentTo f).trans h.sentTo
    · rw [hturn.coordinator]
      exact h.record
    · rw [hturn.coordinator]
      exact hsession
    · rw [hturn.sentBy, hsent, if_pos rfl, hid]
      rfl
  | opens hawake | joins hawake | admitted hawake | works hawake | leaves hawake | gone hawake =>
    exact absurd hstarting hawake

/-! ## It is told something -/

section Heard

variable {record : FederateRecord} {federate : ScriptedFederate} {message : Message} {now : Int64}

/-- After its reaction a federate works on, or leaves. -/
theorem Reaction.phase {known : Progress} {granted : Tag}
    {answer : ScriptedFederate × List Output} (h : Reaction f script known granted answer)
    (hstarting : f ∉ s.starting) (hfederate : s.federates.get? f = some answer.1)
    (hjoined : s.coordinator.Joined (connectionOf f) f record) {reports : List Message}
    (hsent : s.sentBy f = speech f reports ++ answer.2.map (·.event f))
    (hreports : ∀ message ∈ reports, message.isReport = true)
    (hknown : reports.foldl Progress.note record.progress = known)
    (hnews : ∀ message ∈ s.sentTo f, message.isNews = true)
    (hgranted : record.lastGranted = lastGrant granted (s.sentTo f)) : Phase t s f script := by
  cases h with
  | works next messages hwork hlast hmessages hnote houtputs =>
    refine .works hstarting answer.1 next hfederate hwork record hjoined (reports ++ messages) ?_
      (List.forall_mem_append.2 ⟨hreports, hmessages⟩) ?_ hnews ?_
    · rw [hsent, houtputs, speech_append]
    · rw [List.foldl_append, hknown, hnote]
    · rw [hlast, hgranted]
  | leaves messages ending hthrough hmessages houtputs =>
    refine .leaves hstarting answer.1 hfederate hthrough record hjoined (reports ++ messages)
      ending ?_ (List.forall_mem_append.2 ⟨hreports, hmessages⟩)
    rw [hsent, houtputs, speech_append, List.append_assoc]

/-- A federate that has left says nothing more. -/
theorem Heard.of_done (hturn : Heard s s' f federate message now) (hdone : federate.done = true) :
    s'.federates.get? f = some federate ∧ s'.sentBy f = s.sentBy f := by
  have hanswer := ScriptedFederate.onMessage_of_done hdone message now
  refine ⟨?_, ?_⟩
  · rw [hturn.federates, hanswer]
    exact Roster.get?_set_self (Roster.index_lt_of_get? hturn.get?_eq)
  · rw [hturn.sentBy, hanswer, if_pos rfl]
    exact List.append_nil _

/-- What a federate is told takes it on in its script. -/
theorem Phase.heard (hscript : script.Steady) (hturn : Heard s s' f federate message now)
    (h : Phase t s f script) : Phase t s' f script := by
  have hawake (hstarting : f ∉ s.starting) : f ∉ s'.starting := hturn.starting ▸ hstarting
  have htold := hturn.sentTo_self
  have hsentBy := hturn.sentBy_self
  have hafter := hturn.get?_self
  have same {federate' : ScriptedFederate} (heq : s.federates.get? f = some federate') :
      federate' = federate := Option.some.inj (heq.symm.trans hturn.get?_eq)
  have joined {record : FederateRecord}
      (hjoined : s.coordinator.Joined (connectionOf f) f record) :
      s'.coordinator.Joined (connectionOf f) f record := hturn.coordinator.symm ▸ hjoined
  cases h with
  | asleep _ h | opens _ h | joins _ h =>
    rw [h.sentTo] at htold
    cases htold
  | admitted hstarting hfederate record hjoined hprogress hsent port news htold' hnews hgranted =>
    obtain rfl := same hfederate
    obtain ⟨rfl, hrest⟩ := List.cons.inj (htold'.symm.trans htold)
    have hsaid : s'.sentBy f = speech f [] ++
        ((ScriptedFederate.ofScript f script).onMessage (.ack port) now).2.map (·.event f) := by
      rw [hsentBy, hsent]
      rfl
    exact (reaction_ack hscript f port now).phase (hawake hstarting) hafter (joined hjoined) hsaid
      (List.forall_mem_nil _) hprogress (hrest ▸ hnews) (hrest ▸ hgranted)
  | works hstarting federate' next hfederate h record hjoined reports hsent hreports hprogress
      hnews hgranted =>
    obtain rfl := same hfederate
    rw [htold] at hnews hgranted
    obtain ⟨hmessage, hrest⟩ := List.forall_mem_cons.1 hnews
    refine (h.reaction hscript hmessage f now).phase (hawake hstarting) hafter (joined hjoined)
      ?_ hreports hprogress hrest hgranted
    rw [hsentBy, hsent]
  | leaves hstarting federate' hfederate h record hjoined reports ending hsent hreports =>
    obtain rfl := same hfederate
    obtain ⟨hfederate', hsent'⟩ := hturn.of_done h.done
    exact .leaves (hawake hstarting) _ hfederate' h record (joined hjoined) reports ending
      (hsent'.trans hsent) hreports
  | gone hstarting federate' hfederate h hsession hrecord hsent =>
    obtain rfl := same hfederate
    obtain ⟨hfederate', hsent'⟩ := hturn.of_done h.done
    refine .gone (hawake hstarting) _ hfederate' h ?_ ?_ (hsent' ▸ hsent)
    · rw [hturn.coordinator]
      exact hsession
    · rw [hturn.coordinator]
      exact hrecord

end Heard

/-! ## The coordinator answers -/

/-- The last events of a federate end its session. -/
theorem Ending.farewell_eq_cons {ending : Ending} {rest : List Event}
    (h : ending.farewell f = e :: rest) :
    (e = .connectionLost (connectionOf f) ∨ e = .messageReceived (connectionOf f) .resign) ∧
      ∀ e' ∈ rest, e' = .connectionLost (connectionOf f) := by
  cases ending with
  | resign =>
    obtain ⟨rfl, rfl⟩ := List.cons.inj h
    exact ⟨Or.inr rfl, List.forall_mem_singleton.2 rfl⟩
  | disconnect =>
    obtain ⟨rfl, rfl⟩ := List.cons.inj h
    exact ⟨Or.inl rfl, nofun⟩

section Answered

variable {now : Duration} {record : FederateRecord} {message : Message}

/-- The coordinator waits for whoever opens a connection to join. -/
theorem Outside.opened (h : Outside s f script) (hturn : Answered s s' now (opening f)) :
    Outside s' f script ∧
      s'.coordinator.sessions.get? (connectionOf f) = some (.handshaking (peerOf f)) := by
  let sessions := s.coordinator.sessions.put (connectionOf f) (.handshaking (peerOf f))
  have hhandle : (s.coordinator.setTime now).handle (opening f) =
      ({ s.coordinator.setTime now with sessions := sessions }, []) := rfl
  have hcoordinator := hturn.coordinator
  have htold := hturn.sentTo f
  rw [hhandle] at hcoordinator htold
  refine ⟨⟨hturn.federates ▸ h.federate, ?_, ?_⟩, ?_⟩
  · rw [htold, h.sentTo]
    rfl
  · rw [hcoordinator]
    exact h.record
  · rw [hcoordinator]
    exact Sessions.get?_put_self _ _ _

/-- The coordinator lets in whoever joins for the first time. -/
theorem Sound.admits (hsound : Sound t history s) (hturn : Answered s s' now (joining t f))
    {peer : SocketAddress} (hfederate : s.federates.get? f = some (.ofScript f script))
    (hsession : s.coordinator.sessions.get? (connectionOf f) = some (.handshaking peer))
    (hrecord : s.coordinator.registry.get? f = some record) (hconnected : ¬ record.isConnected)
    (hstarting : f ∉ s'.starting) (hsent : s'.sentBy f = []) (hsentTo : s.sentTo f = []) :
    Phase t s' f script := by
  have hcontains : (s.coordinator.setTime now).registry.topology.contains f = true := by
    refine decide_eq_true (lt_of_lt_of_eq (Roster.index_lt_of_get? hrecord) ?_)
    exact hsound.run.consistent.size_eq
  have haway : (s.coordinator.setTime now).registry.isConnected f = false := by
    rw [show (s.coordinator.setTime now).registry = s.coordinator.registry from rfl,
      Registry.isConnected_of_get? hrecord]
    exact eq_false_of_ne_true hconnected
  have hhandle := Coordinator.handle_join (s := s.coordinator.setTime now) hsession hcontains haway
  have htopology : (s.coordinator.setTime now).registry.topology = t := hsound.run.topology_eq
  rw [htopology] at hhandle
  have hcoordinator := hturn.coordinator
  have htold := hturn.sentTo f
  unfold joining at hcoordinator htold
  rw [hhandle] at hcoordinator htold
  refine .admitted hstarting (hturn.federates ▸ hfederate) (record.join (connectionOf f) peer.ip)
    ⟨?_, ?_, rfl, rfl⟩ rfl hsent (s.coordinator.setTime now).settings.advertisedUdpPort [] ?_ nofun
    rfl
  · rw [hcoordinator]
    exact Sessions.get?_put_self _ _ _
  · rw [hcoordinator]
    refine (Registry.get?_modify _ _ _ _).trans ?_
    rw [if_pos rfl]
    exact congrArg (Option.map _) hrecord
  · rw [htold, hsentTo]
    simp [messagesFor, delivery?, Delivery.messageTo?, federateOn_connectionOf]

/-- The coordinator takes note of a report, and tells its federate news. -/
theorem Sound.reported (hbuild : p.build = .ok t) (hsound : Sound t history s)
    (hidle : s.coordinator.stop = .idle)
    (hturn : Answered s s' now (.messageReceived (connectionOf f) message))
    (hreport : message.isReport = true)
    (hjoined : s.coordinator.Joined (connectionOf f) f record) :
    ∃ record' more, s'.coordinator.Joined (connectionOf f) f record' ∧
      record'.progress = record.progress.note message ∧ s'.sentTo f = s.sentTo f ++ more ∧
      (∀ message ∈ more, message.isNews = true) ∧
      record'.lastGranted = lastGrant record.lastGranted more := by
  have he := hturn.events.mem_iff.2 (List.mem_cons_self (l := s'.events))
  have hmute : (Event.messageReceived (connectionOf f) message).stopTime? = none := by
    cases message <;> first | rfl | cases hreport
  have hjoined' : (s.coordinator.setTime now).Joined (connectionOf f) f record :=
    Run.joined_setTime.2 hjoined
  obtain ⟨hsessions, record', hrecord', hprogress, hconnected⟩ :=
    hjoined'.exists_of_report hreport
  have hsession := congrArg (·.get? (connectionOf f)) hsessions
  have hconsistent := (hsound.run_event he now).consistent
  obtain ⟨record'', hafter⟩ := hconsistent.exists_joined (hsession.trans hjoined.session)
  obtain rfl := Option.some.inj (hafter.get?_eq.symm.trans hrecord')
  refine ⟨record'', messagesFor f ((s.coordinator.setTime now).handle _).2, ?_, hprogress,
    hturn.sentTo f, ?_, ?_⟩
  · rw [hturn.coordinator]
    exact hafter
  · exact (hsound.news hbuild he now hidle hmute hsession fun _ => ⟨f, hjoined.session⟩).1
  · exact hsound.lastGranted_eq hbuild he now hjoined.get?_eq hrecord'
      fun _ => hjoined.connected

/-- The coordinator forgets a federate that leaves. -/
theorem Answered.dismisses (hturn : Answered s s' now e)
    (he : e = .connectionLost (connectionOf f) ∨ e = .messageReceived (connectionOf f) .resign)
    (hjoined : s.coordinator.Joined (connectionOf f) f record) :
    s'.coordinator.sessions.get? (connectionOf f) = none ∧
      ∃ record', s'.coordinator.registry.get? f = some record' ∧ record'.state = .resigned := by
  have hjoined' : (s.coordinator.setTime now).Joined (connectionOf f) f record :=
    Run.joined_setTime.2 hjoined
  rw [hturn.coordinator]
  exact hjoined'.exists_of_departure he

/-- That a connection is lost after its session is nothing to the coordinator. -/
theorem Answered.coordinator_of_lost
    (hturn : Answered s s' now (.connectionLost (connectionOf f)))
    (hsession : s.coordinator.sessions.get? (connectionOf f) = none) :
    s'.coordinator = s.coordinator.setTime now := by
  have hnone : (s.coordinator.setTime now).sessions.get? (connectionOf f) = none := hsession
  rw [hturn.coordinator]
  unfold Coordinator.handle Coordinator.onConnectionLost
  dsimp only
  rw [hnone]
  rfl

/-- The coordinator's answer takes a federate on. -/
theorem Phase.answered (hbuild : p.build = .ok t) (hsound : Sound t history s)
    (hidle : s.coordinator.stop = .idle) (hturn : Answered s s' now e) (hown : Own f e)
    (h : Phase t s f script) : Phase t s' f script := by
  have hawake (hstarting : f ∉ s.starting) : f ∉ s'.starting := hturn.starting ▸ hstarting
  have hsentBy := hturn.sentBy_self hown.connection?
  have hfederates {federate : ScriptedFederate} (heq : s.federates.get? f = some federate) :
      s'.federates.get? f = some federate := hturn.federates.symm ▸ heq
  cases h with
  | asleep _ _ _ hsent | admitted _ _ _ _ _ hsent =>
    rw [hsent] at hsentBy
    cases hsentBy
  | opens hstarting h hsession hsent =>
    obtain ⟨rfl, hrest⟩ := List.cons.inj (hsent.symm.trans hsentBy)
    obtain ⟨houtside, hsession'⟩ := h.opened hturn
    exact .joins (hawake hstarting) houtside (peerOf f) hsession' hrest.symm
  | joins hstarting h peer hsession hsent =>
    obtain ⟨rfl, hrest⟩ := List.cons.inj (hsent.symm.trans hsentBy)
    obtain ⟨record, hrecord, hconnected⟩ := h.record
    exact hsound.admits hturn h.federate hsession hrecord hconnected (hawake hstarting) hrest.symm
      h.sentTo
  | works hstarting federate next hfederate h record hjoined reports hsent hreports hprogress hnews
      hgranted =>
    obtain ⟨message, reports, rfl, rfl, hrest⟩ := List.map_eq_cons_iff.1 (hsent.symm.trans hsentBy)
    obtain ⟨hreport, hreports⟩ := List.forall_mem_cons.1 hreports
    obtain ⟨record', more, hjoined', hprogress', hmore, hnewer, hgranted'⟩ :=
      hsound.reported hbuild hidle hturn hreport hjoined
    refine .works (hawake hstarting) federate next (hfederates hfederate) h record' hjoined' reports
      hrest.symm hreports ?_ ?_ ?_
    · rw [hprogress']
      exact hprogress
    · rw [hmore]
      exact List.forall_mem_append.2 ⟨hnews, hnewer⟩
    · rw [hgranted', hgranted, hmore, lastGrant_append]
  | leaves hstarting federate hfederate h record hjoined reports ending hsent hreports =>
    cases reports with
    | nil =>
      obtain ⟨he, hrest⟩ := Ending.farewell_eq_cons (hsent.symm.trans hsentBy)
      obtain ⟨hsession, hrecord⟩ := hturn.dismisses he hjoined
      exact .gone (hawake hstarting) federate (hfederates hfederate) h hsession hrecord hrest
    | cons message reports =>
      obtain ⟨rfl, hrest⟩ := List.cons.inj (hsent.symm.trans hsentBy)
      obtain ⟨hreport, hreports⟩ := List.forall_mem_cons.1 hreports
      obtain ⟨record', more, hjoined', -⟩ := hsound.reported hbuild hidle hturn hreport hjoined
      exact .leaves (hawake hstarting) federate (hfederates hfederate) h record' hjoined' reports
        ending hrest.symm hreports
  | gone hstarting federate hfederate h hsession hrecord hsent =>
    rw [hsentBy] at hsent
    obtain ⟨rfl, hrest⟩ := List.forall_mem_cons.1 hsent
    have hcoordinator := hturn.coordinator_of_lost hsession
    refine .gone (hawake hstarting) federate (hfederates hfederate) h ?_ ?_ hrest
    · rw [hcoordinator]
      exact hsession
    · rw [hcoordinator]
      exact hrecord

end Answered

end Simulation

end FederatedTime
