import FederatedTime.Proofs.Simulation.Reaction

/-!
# The phases of a federate

From its start to its departure a federate goes through the phases of `Phase`: what is under way
between it and the coordinator fits what each of the two knows of the other. Whoever else acts, a
federate only hears about it, and stays in its phase (`Phase.overhears`).
-/

namespace FederatedTime

namespace Simulation

/-! ## Phases -/

/-- The federate `f` has not been let in: neither it nor the coordinator knows anything. -/
structure Outside (s : Simulation) (f : FederateId) (script : Script) : Prop where
  federate : s.federates.get? f = some (.ofScript f script)
  sentTo : s.sentTo f = []
  record : ∃ record, s.coordinator.registry.get? f = some record ∧ ¬ record.isConnected

/-- The event by which `f` opens its connection. -/
def opening (f : FederateId) : Event := .connectionOpened (connectionOf f) (peerOf f)

/-- The event by which `f` joins. -/
def joining (t : Topology) (f : FederateId) : Event :=
  .messageReceived (connectionOf f) (.join f t.federationId)

/-- How far `f` is in its script, and what is under way between it and the coordinator. -/
inductive Phase (t : Topology) (s : Simulation) (f : FederateId) (script : Script) : Prop
  /-- It has not started. -/
  | asleep (hstarting : f ∈ s.starting) (h : Outside s f script)
      (hsession : s.coordinator.sessions.get? (connectionOf f) = none) (hsent : s.sentBy f = [])
  | opens (hstarting : f ∉ s.starting) (h : Outside s f script)
      (hsession : s.coordinator.sessions.get? (connectionOf f) = none)
      (hsent : s.sentBy f = [opening f, joining t f])
  | joins (hstarting : f ∉ s.starting) (h : Outside s f script) (peer : SocketAddress)
      (hsession : s.coordinator.sessions.get? (connectionOf f) = some (.handshaking peer))
      (hsent : s.sentBy f = [joining t f])
  /-- It is joined, and is going to be told so. -/
  | admitted (hstarting : f ∉ s.starting)
      (hfederate : s.federates.get? f = some (.ofScript f script)) (record : FederateRecord)
      (hjoined : s.coordinator.Joined (connectionOf f) f record)
      (hprogress : record.progress = ⟨.never, .never⟩) (hsent : s.sentBy f = [])
      (port : Option UInt16) (news : List Message) (htold : s.sentTo f = .ack port :: news)
      (hnews : ∀ message ∈ news, message.isNews = true)
      (hgranted : record.lastGranted = lastGrant .never news)
  /-- It has more to do. What it has reported is known or under way, and so is what it has been
  granted. -/
  | works (hstarting : f ∉ s.starting) (federate : ScriptedFederate) (next : Tag)
      (hfederate : s.federates.get? f = some federate) (h : AtWork script federate next)
      (record : FederateRecord) (hjoined : s.coordinator.Joined (connectionOf f) f record)
      (reports : List Message) (hsent : s.sentBy f = speech f reports)
      (hreports : ∀ message ∈ reports, message.isReport = true)
      (hprogress : reports.foldl Progress.note record.progress = ⟨federate.completed, next⟩)
      (hnews : ∀ message ∈ s.sentTo f, message.isNews = true)
      (hgranted : record.lastGranted = lastGrant federate.lastGrant (s.sentTo f))
  /-- It has left, and the coordinator is going to hear of it. -/
  | leaves (hstarting : f ∉ s.starting) (federate : ScriptedFederate)
      (hfederate : s.federates.get? f = some federate) (h : Through script federate)
      (record : FederateRecord) (hjoined : s.coordinator.Joined (connectionOf f) f record)
      (reports : List Message) (ending : Ending)
      (hsent : s.sentBy f = speech f reports ++ ending.farewell f)
      (hreports : ∀ message ∈ reports, message.isReport = true)
  /-- Its session is over. -/
  | gone (hstarting : f ∉ s.starting) (federate : ScriptedFederate)
      (hfederate : s.federates.get? f = some federate) (h : Through script federate)
      (hsession : s.coordinator.sessions.get? (connectionOf f) = none)
      (hrecord : ∃ record, s.coordinator.registry.get? f = some record ∧ record.state = .resigned)
      (hsent : ∀ e ∈ s.sentBy f, e = .connectionLost (connectionOf f))

variable {t : Topology} {history : List Moment} {s s' : Simulation} {e : Event} {f g : FederateId}
variable {script : Script} {p : Topology.Plan}

theorem Phase.exists_federate (h : Phase t s f script) :
    ∃ federate, s.federates.get? f = some federate := by
  cases h with
  | asleep _ h | opens _ h | joins _ h => exact ⟨_, h.federate⟩
  | admitted _ hfederate => exact ⟨_, hfederate⟩
  | works _ _ _ hfederate | leaves _ _ hfederate | gone _ _ hfederate => exact ⟨_, hfederate⟩

/-- A federate that goes through its script says nothing about stopping. -/
theorem Phase.stopTime?_eq_none (h : Phase t s f script) :
    ∀ e ∈ s.sentBy f, e.stopTime? = none := by
  have reported {reports : List Message} (hreports : ∀ message ∈ reports, message.isReport = true) :
      ∀ e ∈ speech f reports, e.stopTime? = none := by
    intro e he
    obtain ⟨message, hmessage, rfl⟩ := List.mem_map.1 he
    have hreport := hreports message hmessage
    cases message <;> first | rfl | cases hreport
  cases h with
  | asleep _ _ _ hsent | admitted _ _ _ _ _ hsent =>
    rw [hsent]
    exact nofun
  | opens _ _ _ hsent =>
    rw [hsent]
    exact List.forall_mem_cons.2 ⟨rfl, List.forall_mem_singleton.2 rfl⟩
  | joins _ _ _ _ hsent =>
    rw [hsent]
    exact List.forall_mem_singleton.2 rfl
  | works _ _ _ _ _ _ _ _ hsent hreports =>
    rw [hsent]
    exact reported hreports
  | leaves _ _ _ _ _ _ reports ending hsent hreports =>
    rw [hsent]
    refine List.forall_mem_append.2 ⟨reported hreports, ?_⟩
    cases ending with
    | resign => exact List.forall_mem_cons.2 ⟨rfl, List.forall_mem_singleton.2 rfl⟩
    | disconnect => exact List.forall_mem_singleton.2 rfl
  | gone _ _ _ _ _ _ hsent =>
    intro e he
    rw [hsent e he]
    rfl

/-! ## The turns of others -/

/-- Somebody else has acted, and `f` is told `more`. -/
structure Overhears (s s' : Simulation) (f : FederateId) (more : List Message) : Prop where
  starting : f ∈ s'.starting ↔ f ∈ s.starting
  federate : s'.federates.get? f = s.federates.get? f
  session : s'.coordinator.sessions.get? (connectionOf f) =
    s.coordinator.sessions.get? (connectionOf f)
  sentBy : s'.sentBy f = s.sentBy f
  sentTo : s'.sentTo f = s.sentTo f ++ more
  news : ∀ message ∈ more, message.isNews = true
  joined : more ≠ [] → ∃ g, s.coordinator.sessions.get? (connectionOf f) = some (.joined g)
  record : ∀ record, s.coordinator.registry.get? f = some record →
    ∃ record', s'.coordinator.registry.get? f = some record' ∧ record.Spared record' ∧
      record'.lastGranted = lastGrant record.lastGranted more

variable {more : List Message}

theorem Overhears.exists_joined (h : Overhears s s' f more) {record : FederateRecord}
    (hjoined : s.coordinator.Joined (connectionOf f) f record) :
    ∃ record', s'.coordinator.Joined (connectionOf f) f record' ∧
      record'.progress = record.progress ∧
      record'.lastGranted = lastGrant record.lastGranted more := by
  obtain ⟨record', hrecord', hspared, hgranted⟩ := h.record record hjoined.get?_eq
  refine ⟨record', ⟨h.session.trans hjoined.session, hrecord', ?_, ?_⟩, hspared.progress_eq,
    hgranted⟩
  · exact hspared.connection_eq.trans hjoined.connection
  · exact hspared.isConnected_eq.trans hjoined.connected

theorem Overhears.more_eq_nil (h : Overhears s s' f more)
    (hsession : ∀ g, s.coordinator.sessions.get? (connectionOf f) ≠ some (.joined g)) :
    more = [] := by
  by_contra hne
  obtain ⟨g, hg⟩ := h.joined hne
  exact hsession g hg

theorem Overhears.outside (h : Overhears s s' f more) (ho : Outside s f script)
    (hsession : ∀ g, s.coordinator.sessions.get? (connectionOf f) ≠ some (.joined g)) :
    Outside s' f script := by
  obtain ⟨record, hrecord, hconnected⟩ := ho.record
  obtain ⟨record', hrecord', hspared, -⟩ := h.record record hrecord
  refine ⟨h.federate.trans ho.federate, ?_, record', hrecord', ?_⟩
  · rw [h.sentTo, ho.sentTo, h.more_eq_nil hsession]
    rfl
  · rw [hspared.isConnected_eq]
    exact hconnected

/-- What a federate overhears leaves it in its phase. -/
theorem Phase.overhears (h : Phase t s f script) (hmore : Overhears s s' f more) :
    Phase t s' f script := by
  have hawake (hstarting : f ∉ s.starting) : f ∉ s'.starting := mt hmore.starting.1 hstarting
  cases h with
  | asleep hstarting h hsession hsent =>
    exact .asleep (hmore.starting.2 hstarting) (hmore.outside h (by simp [hsession]))
      (hmore.session.trans hsession) (hmore.sentBy.trans hsent)
  | opens hstarting h hsession hsent =>
    exact .opens (hawake hstarting) (hmore.outside h (by simp [hsession]))
      (hmore.session.trans hsession) (hmore.sentBy.trans hsent)
  | joins hstarting h peer hsession hsent =>
    exact .joins (hawake hstarting) (hmore.outside h (by simp [hsession])) peer
      (hmore.session.trans hsession) (hmore.sentBy.trans hsent)
  | admitted hstarting hfederate record hjoined hprogress hsent port news htold hnews hgranted =>
    obtain ⟨record', hjoined', hprogress', hgranted'⟩ := hmore.exists_joined hjoined
    refine .admitted (hawake hstarting) (hmore.federate.trans hfederate) record' hjoined'
      (hprogress'.trans hprogress) (hmore.sentBy.trans hsent) port (news ++ more) ?_ ?_ ?_
    · rw [hmore.sentTo, htold]
      rfl
    · exact List.forall_mem_append.2 ⟨hnews, hmore.news⟩
    · rw [hgranted', hgranted, lastGrant_append]
  | works hstarting federate next hfederate h record hjoined reports hsent hreports hprogress hnews
      hgranted =>
    obtain ⟨record', hjoined', hprogress', hgranted'⟩ := hmore.exists_joined hjoined
    refine .works (hawake hstarting) federate next (hmore.federate.trans hfederate) h record'
      hjoined' reports (hmore.sentBy.trans hsent) hreports (hprogress' ▸ hprogress) ?_ ?_
    · rw [hmore.sentTo]
      exact List.forall_mem_append.2 ⟨hnews, hmore.news⟩
    · rw [hgranted', hgranted, hmore.sentTo, lastGrant_append]
  | leaves hstarting federate hfederate h record hjoined reports ending hsent hreports =>
    obtain ⟨record', hjoined', -⟩ := hmore.exists_joined hjoined
    exact .leaves (hawake hstarting) federate (hmore.federate.trans hfederate) h record' hjoined'
      reports ending (hmore.sentBy.trans hsent) hreports
  | gone hstarting federate hfederate h hsession hrecord hsent =>
    obtain ⟨record, hrecord, hresigned⟩ := hrecord
    obtain ⟨record', hrecord', hspared, -⟩ := hmore.record record hrecord
    exact .gone (hawake hstarting) federate (hmore.federate.trans hfederate) h
      (hmore.session.trans hsession) ⟨record', hrecord', hspared.resigned hresigned⟩
      (hmore.sentBy ▸ hsent)

/-- A turn that the coordinator has no part in is not heard of. -/
theorem overhears_of_coordinator_eq (hstarting : f ∈ s'.starting ↔ f ∈ s.starting)
    (hfederate : s'.federates.get? f = s.federates.get? f)
    (hcoordinator : s'.coordinator = s.coordinator) (hsentBy : s'.sentBy f = s.sentBy f)
    (hsentTo : s'.sentTo f = s.sentTo f) : Overhears s s' f [] where
  starting := hstarting
  federate := hfederate
  session := by rw [hcoordinator]
  sentBy := hsentBy
  sentTo := by rw [hsentTo, List.append_nil]
  news := nofun
  joined := absurd rfl
  record record hrecord := by
    rw [hcoordinator]
    exact ⟨record, hrecord, .refl record, rfl⟩

theorem Started.overhears (h : Started s s' f) (hne : g ≠ f) : Overhears s s' g [] := by
  refine overhears_of_coordinator_eq ?_ (by rw [h.federates]) h.coordinator ?_ (h.sentTo g)
  · rw [h.starting, List.mem_cons]
    exact (or_iff_right hne).symm
  · rw [h.sentBy, if_neg hne, List.append_nil]

theorem Heard.overhears {federate : ScriptedFederate} {message : Message} {now : Int64}
    (h : Heard s s' f federate message now) (hne : g ≠ f) : Overhears s s' g [] := by
  refine overhears_of_coordinator_eq (by rw [h.starting]) ?_ h.coordinator ?_ ?_
  · rw [h.federates, Roster.get?_set_ne (Ne.symm hne)]
  · rw [h.sentBy, if_neg hne, List.append_nil]
  · rw [h.sentTo, if_neg hne, List.nil_append]

theorem Missed.overhears {message : Message} (h : Missed s s' f message) (hne : g ≠ f) :
    Overhears s s' g [] := by
  refine overhears_of_coordinator_eq (by rw [h.starting]) (by rw [h.federates]) h.coordinator
    (h.sentBy g) ?_
  rw [h.sentTo, if_neg hne, List.nil_append]

/-- What the coordinator answers somebody else is news. -/
theorem Sound.overhears (hbuild : p.build = .ok t) (h : Sound t history s) {now : Duration}
    (hturn : Answered s s' now e) (hidle : s.coordinator.stop = .idle) (hmute : e.stopTime? = none)
    (hown : Own f e) (hne : g ≠ f) :
    Overhears s s' g (messagesFor g ((s.coordinator.setTime now).handle e).2) := by
  have he : e ∈ s.events := hturn.events.mem_iff.2 List.mem_cons_self
  have hconnection : e.connection? ≠ some (connectionOf g) := by
    rw [hown.connection?]
    exact fun heq => hne (connectionOf_injective (Option.some.inj heq)).symm
  have hs := Run.consistent_setTime h.run.consistent now
  have htransition := Coordinator.handle_transition hs e
  have hsession := htransition.get?_sessions_of_ne hconnection
  have hnews := h.news hbuild he now hidle hmute hsession fun heq => absurd heq hconnection
  refine ⟨by rw [hturn.starting], by rw [hturn.federates], ?_, ?_, hturn.sentTo g, hnews.1, hnews.2,
    fun record hrecord => ?_⟩
  · rw [hturn.coordinator]
    exact hsession
  · rw [hturn.sentBy, if_neg hconnection, List.nil_append]
  · have ht : (s.coordinator.setTime now).registry.topology.WellFormed :=
      h.run.topology_eq.symm ▸ Topology.Plan.wellFormed_of_build hbuild
    have hopen : e.opens? = some (connectionOf f) →
        (s.coordinator.setTime now).sessions.get? (connectionOf f) = none := by
      intro hopens
      by_contra hsome
      exact h.not_mem_opened he _ hopens (h.run.consistent_and_opened.2 _ hsome)
    have hjoined : (s.coordinator.setTime now).sessions.get? (connectionOf f) ≠
        some (.joined g) := fun heq => hne (connectionOf_injective (h.seated _ g heq)).symm
    have hjoin (federationId : String) :
        e ≠ .messageReceived (connectionOf f) (.join g federationId) :=
      fun heq => hne (hown.join _ g federationId heq)
    obtain ⟨record', hrecord', hspared⟩ :=
      htransition.exists_spared ht hs hown.connection? hopen hjoined hjoin hrecord
    rw [hturn.coordinator]
    refine ⟨record', hrecord', hspared, ?_⟩
    exact h.lastGranted_eq hbuild he now hrecord hrecord' fun hafter =>
      hspared.isConnected_eq ▸ hafter

end Simulation

end FederatedTime
