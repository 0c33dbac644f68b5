import FederatedTime.Coordinator.Step

/-!
# What an event comes to

`Transition` lists what can come of an event, one constructor for each way of answering it, with
what is then known of the connection that the event concerns. `handle_transition` is that nothing
else can, as long as the sessions and the registry agree on who is joined where (`Consistent`).
Before it stand the equations for the state after each part of a step.
-/

namespace FederatedTime

namespace Coordinator

variable {s : Coordinator} {f : FederateId} {c : ConnectionId}

/-! ## The state after the parts of a step -/

-- By cases although both hold by definition, so that rewriting with them unfolds no step.
@[simp] theorem Step.andThen_fst (first : Step) (next : Coordinator → Step) :
    (first.andThen next).1 = (next first.1).1 := by
  obtain ⟨s, actions⟩ := first
  rfl

@[simp] theorem Step.andThen_snd (first : Step) (next : Coordinator → Step) :
    (first.andThen next).2 = first.2 ++ (next first.1).2 := by
  obtain ⟨s, actions⟩ := first
  rfl

theorem advance_fst (s : Coordinator) (seeds : List FederateId) : (s.advance seeds).1 =
    { s with registry := (s.registry.sweep s.stopTag seeds).1 } := rfl

theorem settleStop_fst (s : Coordinator) (result : StopNegotiation × StopOutcome) :
    (s.settleStop result).1 = { s with stop := result.1 } := by
  obtain ⟨stop, outcome⟩ := result
  cases outcome <;> rfl

theorem settleStart_fst (s : Coordinator) (f : FederateId)
    (result : StartNegotiation × StartOutcome) :
    (s.settleStart f result).1 = { s with start := result.1 } := by
  obtain ⟨start, outcome⟩ := result
  cases outcome <;> rfl

theorem finishIfDone_fst (s : Coordinator) :
    s.finishIfDone.1 = { s with finished := s.finished || s.registry.allResigned } := by
  unfold finishIfDone
  cases hfinished : s.finished <;> cases s.registry.allResigned <;> simp [idle]
  all_goals rw [← hfinished]

/-- The state after a departure. -/
theorem depart_fst {record : FederateRecord} (h : s.registry.get? f = some record) :
    (s.depart f c).1 =
      let left := s.forget f c
      let stop := (s.stop.departure f record.completed).1
      let start := (s.start.departure left.registry).1
      let swept := (left.registry.sweep stop.stopTag (left.registry.topology.downstream f)).1
      { left with
        registry := swept
        stop := stop
        start := start
        finished := s.finished || swept.allResigned } := by
  unfold depart
  rw [h]
  simp only [Step.andThen_fst, settleStop_fst, settleStart_fst, advance_fst, finishIfDone_fst]
  rfl

theorem sessions_depart {record : FederateRecord} (h : s.registry.get? f = some record)
    (c : ConnectionId) : (s.depart f c).1.sessions = s.sessions.remove c := by
  rw [depart_fst h]
  rfl

/-- It makes no difference to a departure whether the session is still there. -/
theorem depart_remove (s : Coordinator) (f : FederateId) (c : ConnectionId) :
    { s with sessions := s.sessions.remove c }.depart f c = s.depart f c := by
  unfold depart forget
  simp only [Sessions.remove_remove]

/-- A contribution is passed over, or counted. -/
theorem contribute_fst (s : Coordinator) (f : FederateId) (result : StopNegotiation × StopOutcome) :
    (s.contribute f result).1 = s ∨ (s.contribute f result).1 = { s with stop := result.1 } ∨
      (s.contribute f result).1 =
        { s with
          registry := s.registry.modify f ({ · with stopCounted := true })
          stop := result.1 } := by
  unfold contribute
  split
  · exact Or.inl rfl
  · rw [settleStop_fst]
    unfold markCounted
    split
    · exact Or.inr (Or.inl rfl)
    · exact Or.inr (Or.inr rfl)

theorem onAddressAd_eq (s : Coordinator) (f : FederateId) (port : UInt16) :
    ∃ directory, s.onAddressAd f port = { s with directory := directory } := by
  unfold onAddressAd
  split
  · exact ⟨_, rfl⟩
  · exact ⟨s.directory, rfl⟩

theorem registry_onAddressAd (s : Coordinator) (f : FederateId) (port : UInt16) :
    (s.onAddressAd f port).registry = s.registry := by
  obtain ⟨directory, hdirectory⟩ := onAddressAd_eq s f port
  rw [hdirectory]

theorem onClockSyncProbe_fst (s : Coordinator) (f : FederateId) (address : SocketAddress) :
    (s.onClockSyncProbe f address).1 = s ∨ ∃ clock, (s.onClockSyncProbe f address).1 =
      { s with registry := s.registry.modify f (registerClock address), clock := clock } := by
  unfold onClockSyncProbe
  split
  · exact Or.inr ⟨_, rfl⟩
  · exact Or.inl rfl

/-! ## Who is joined where -/

/-- The federate `f` is joined on `c`, with the given record. -/
structure Joined (s : Coordinator) (c : ConnectionId) (f : FederateId) (record : FederateRecord) :
    Prop where
  session : s.sessions.get? c = some (.joined f)
  get?_eq : s.registry.get? f = some record
  connection : record.connection = some c
  connected : record.isConnected

theorem Joined.unique {g : FederateId} {record record' : FederateRecord}
    (h : s.Joined c f record) (h' : s.Joined c g record') : record = record' := by
  have hsession := h.session.symm.trans h'.session
  obtain rfl := Session.joined.inj (Option.some.inj hsession)
  exact Option.some.inj (h.get?_eq.symm.trans h'.get?_eq)

/-- The sessions and the registry agree on who is joined where. -/
structure Consistent (s : Coordinator) : Prop where
  size_eq : s.registry.size = s.registry.topology.size
  id_eq : ∀ f record, s.registry.get? f = some record → record.id = f
  joined_iff : ∀ c f, s.sessions.get? c = some (.joined f) ↔ s.registry.connection? f = some c
  connected_iff : ∀ f record, s.registry.get? f = some record →
    (record.isConnected ↔ record.connection.isSome)

theorem Consistent.exists_joined (hs : s.Consistent) (h : s.sessions.get? c = some (.joined f)) :
    ∃ record, s.Joined c f record := by
  obtain ⟨record, hrecord, hconnection⟩ := Option.bind_eq_some_iff.1 ((hs.joined_iff c f).1 h)
  exact ⟨record, h, hrecord, hconnection,
    (hs.connected_iff f record hrecord).2 (by rw [hconnection]; rfl)⟩

theorem Joined.isConnected {record : FederateRecord} (h : s.Joined c f record) :
    s.registry.isConnected f = true := by
  rw [Registry.isConnected_of_get? h.get?_eq]
  exact h.connected

theorem Joined.handle_message {record : FederateRecord} (h : s.Joined c f record)
    (message : Message) : s.handle (.messageReceived c message) = s.onMessage f message := by
  unfold handle onMessageReceived
  dsimp only
  rw [h.session]

theorem federateOf_eq_some_iff : s.federateOf c = some f ↔
    s.sessions.get? c = some (.joined f) := by
  unfold federateOf
  split
  · rename_i g hsession
    rw [hsession, Option.some_inj, Option.some_inj, Session.joined.injEq]
  · rename_i hsession
    exact iff_of_false nofun fun h => hsession f h

theorem Consistent.exists_joined_of_federateOf (hs : s.Consistent) (h : s.federateOf c = some f) :
    ∃ record, s.Joined c f record :=
  hs.exists_joined (federateOf_eq_some_iff.1 h)

theorem Joined.connection?_eq {record : FederateRecord} (h : s.Joined c f record) :
    s.registry.connection? f = some c := by
  rw [Registry.connection?, h.get?_eq]
  exact h.connection

theorem Joined.handle_departure {e : Event} {record : FederateRecord} (h : s.Joined c f record)
    (he : e = .connectionLost c ∨ e = .messageReceived c .resign) :
    s.handle e = s.depart f c := by
  rcases he with rfl | rfl
  · unfold handle onConnectionLost
    dsimp only
    rw [h.session]
    exact depart_remove s f c
  · refine (h.handle_message .resign).trans ?_
    unfold onMessage
    dsimp only
    rw [h.connection?_eq]

theorem Consistent.isConnected_iff (hs : s.Consistent) :
    s.registry.isConnected f ↔ ∃ c record, s.Joined c f record := by
  constructor
  · intro h
    obtain ⟨record, hf, hconnected⟩ := Registry.exists_of_isConnected h
    obtain ⟨c, hc⟩ := Option.isSome_iff_exists.1 ((hs.connected_iff f record hf).1 hconnected)
    have hconnection : s.registry.connection? f = some c := by
      rw [Registry.connection?, hf]
      exact hc
    exact ⟨c, record, (hs.joined_iff c f).2 hconnection, hf, hc, hconnected⟩
  · rintro ⟨c, record, h⟩
    exact h.isConnected

theorem Consistent.isConnected_iff_federateOf (hs : s.Consistent) :
    s.registry.isConnected f ↔ ∃ c, s.federateOf c = some f := by
  rw [hs.isConnected_iff]
  refine exists_congr fun c => ⟨fun ⟨record, h⟩ => federateOf_eq_some_iff.2 h.session, fun h => ?_⟩
  exact hs.exists_joined_of_federateOf h

/-! ## Connections that have not joined -/

section Handshaking

variable {peer : SocketAddress} (h : s.sessions.get? c = some (.handshaking peer))
include h

theorem handle_handshake (message : Message) :
    s.handle (.messageReceived c message) = s.onHandshake c peer message := by
  unfold handle onMessageReceived
  dsimp only
  rw [h]

theorem handle_malformed (reason : RejectReason) :
    s.handle (.malformedMessage c reason) = s.refuse c reason := by
  unfold handle onMalformed
  dsimp only
  rw [h]

theorem handle_lost : s.handle (.connectionLost c) =
    ({ s with sessions := s.sessions.remove c }, [.closeConnection c]) := by
  unfold handle onConnectionLost
  dsimp only
  rw [h]

theorem handle_timedOut : s.handle (.handshakeTimedOut c) =
    ({ s with sessions := s.sessions.remove c }, [.closeConnection c]) := by
  unfold handle onHandshakeTimedOut
  dsimp only
  rw [h]

end Handshaking

theorem joinFault?_eq_none_iff {federationId : String} : s.joinFault? f federationId = none ↔
    federationId = s.registry.topology.federationId ∧ f.index < s.registry.topology.size ∧
      ¬ s.registry.isConnected f := by
  unfold joinFault? Topology.contains
  by_cases hid : federationId = s.registry.topology.federationId
  · by_cases hindex : f.index < s.registry.topology.size <;> simp [hid, hindex]
  · simp [hid]

theorem Consistent.exists_of_joinFault? {federationId : String} (hs : s.Consistent)
    (h : s.joinFault? f federationId = none) :
    ∃ record, s.registry.get? f = some record ∧ ¬ record.isConnected := by
  obtain ⟨-, hindex, hconnected⟩ := joinFault?_eq_none_iff.1 h
  obtain ⟨record, hrecord⟩ := Roster.exists_get?_of_index_lt (hs.size_eq.symm ▸ hindex)
  exact ⟨record, hrecord, by rwa [Registry.isConnected_of_get? hrecord] at hconnected⟩

/-! ## The transitions -/

/-- What can come of an event. -/
inductive Transition (s : Coordinator) : Event → Step → Prop
  | opened (c : ConnectionId) (peer : SocketAddress) :
    Transition s (.connectionOpened c peer)
      ({ s with sessions := s.sessions.put c (.handshaking peer) }, [])
  /-- There is nothing to be done: the connection is not open, the timer comes too late, or clocks
  are not synchronised with the federate. -/
  | ignored (e : Event) : Transition s e (s, [])
  | closed {c : ConnectionId} (reason : RejectReason) (h : s.sessions.get? c = none) :
    Transition s (.malformedMessage c reason) (s, [.closeConnection c])
  | refused {e : Event} {c : ConnectionId} {peer : SocketAddress} (reason : RejectReason)
      (he : e.connection? = some c) (h : s.sessions.get? c = some (.handshaking peer)) :
    Transition s e (s.refuse c reason)
  | abandoned {e : Event} {c : ConnectionId} {peer : SocketAddress}
      (he : e.connection? = some c) (h : s.sessions.get? c = some (.handshaking peer)) :
    Transition s e ({ s with sessions := s.sessions.remove c }, [.closeConnection c])
  | admitted {c : ConnectionId} {peer : SocketAddress} {f : FederateId} {federationId : String}
      {record : FederateRecord} (h : s.sessions.get? c = some (.handshaking peer))
      (hfault : s.joinFault? f federationId = none) (hf : s.registry.get? f = some record)
      (hrecord : ¬ record.isConnected) :
    Transition s (.messageReceived c (.join f federationId))
      (s.admitted c peer f, [.send c (.ack s.settings.advertisedUdpPort)])
  | proposed {c : ConnectionId} {f : FederateId} {record : FederateRecord} (proposal : Int64)
      (h : s.Joined c f record) :
    Transition s (.messageReceived c (.timestamp proposal)) (s.onTimestamp f proposal)
  | nextEvent {c : ConnectionId} {f : FederateId} {record : FederateRecord} {tag : Tag}
      (h : s.Joined c f record) (htag : ¬ tag < record.completed) :
    Transition s (.messageReceived c (.nextEventTag tag))
      ({ s with registry := s.registry.modify f ({ · with nextEvent := tag }) }.advance [f])
  | completed {c : ConnectionId} {f : FederateId} {record : FederateRecord} {tag : Tag}
      (h : s.Joined c f record) (htag : ¬ tag ≤ record.completed) :
    Transition s (.messageReceived c (.logicalTagComplete tag))
      ({ s with registry := s.registry.modify f (completing tag) }.advance
        (s.registry.topology.downstream f))
  | requested {c : ConnectionId} {f : FederateId} {record : FederateRecord} (time : Int64)
      (h : s.Joined c f record) :
    Transition s (.messageReceived c (.stopRequest time)) (s.onStopRequest f (.ofTime time))
  | replied {c : ConnectionId} {f : FederateId} {record : FederateRecord} (time : Int64)
      (h : s.Joined c f record) :
    Transition s (.messageReceived c (.stopRequestReply time)) (s.onStopReply f (.ofTime time))
  | forwardedUntimed {c : ConnectionId} {f : FederateId} {record : FederateRecord}
      (m : UntimedMessage) (h : s.Joined c f record) :
    Transition s (.messageReceived c (.untimed m)) (s, s.sendTo m.federate (.untimed m))
  | forwardedTimed {c : ConnectionId} {f : FederateId} {record : FederateRecord}
      (m : TimedMessage) (h : s.Joined c f record) :
    Transition s (.messageReceived c (.timed m)) (s, s.sendTo m.federate (.timed m))
  | queried {c : ConnectionId} {f : FederateId} {record : FederateRecord} (target : FederateId)
      (h : s.Joined c f record) :
    Transition s (.messageReceived c (.addressQuery target))
      (s, s.sendTo f (s.directory.reply target))
  | advertised {c : ConnectionId} {f : FederateId} {record : FederateRecord} (port : UInt16)
      (h : s.Joined c f record) :
    Transition s (.messageReceived c (.addressAd port)) (s.onAddressAd f port, [])
  | departed {e : Event} {c : ConnectionId} {f : FederateId} {record : FederateRecord}
      (h : s.Joined c f record) (he : e = .connectionLost c ∨ e = .messageReceived c .resign) :
    Transition s e (s.depart f c)
  | expelled {e : Event} {c : ConnectionId} {f : FederateId} {record : FederateRecord}
      (he : e.connection? = some c) (h : s.Joined c f record) : Transition s e (s.expel f c)
  | probed {f : FederateId} {record : FederateRecord} (address : SocketAddress)
      (h : s.registry.get? f = some record) (hf : record.isConnected) :
    Transition s (.clockSyncProbe f address) (s.onClockSyncProbe f address)
  | timer : Transition s .clockSyncTimer s.onClockSyncTimer

theorem onHandshake_transition {peer : SocketAddress} (hs : s.Consistent) (message : Message)
    (h : s.sessions.get? c = some (.handshaking peer)) :
    Transition s (.messageReceived c message) (s.onHandshake c peer message) := by
  unfold onHandshake
  split
  · split
    · rename_i reason _
      exact .refused reason rfl h
    · rename_i hnone
      obtain ⟨record, hf, hrecord⟩ := hs.exists_of_joinFault? hnone
      exact .admitted h hnone hf hrecord
  · exact .refused .unexpectedMessage rfl h

theorem onMessage_transition {record : FederateRecord} (message : Message)
    (h : s.Joined c f record) :
    Transition s (.messageReceived c message) (s.onMessage f message) := by
  unfold onMessage
  cases message with
  | timestamp proposal => exact .proposed proposal h
  | nextEventTag tag =>
    dsimp only
    unfold onNextEvent
    rw [h.get?_eq]
    dsimp only
    split
    · exact .ignored _
    · rename_i htag
      exact .nextEvent h htag
  | logicalTagComplete tag =>
    dsimp only
    unfold onCompleted
    rw [h.get?_eq]
    dsimp only
    split
    · exact .ignored _
    · rename_i htag
      exact .completed h htag
  | untimed m => exact .forwardedUntimed m h
  | timed m => exact .forwardedTimed m h
  | stopRequest time => exact .requested time h
  | stopRequestReply time => exact .replied time h
  | addressQuery target => exact .queried target h
  | addressAd port => exact .advertised port h
  | resign =>
    dsimp only
    rw [h.connection?_eq]
    exact .departed h (Or.inr rfl)
  | _ =>
    dsimp only
    rw [h.connection?_eq]
    exact .expelled rfl h

/-- Nothing else can come of an event. -/
theorem handle_transition (hs : s.Consistent) (e : Event) : Transition s e (s.handle e) := by
  cases e with
  | connectionOpened c peer => exact .opened c peer
  | messageReceived c message =>
    unfold handle onMessageReceived
    dsimp only
    split
    · rename_i peer h
      exact onHandshake_transition hs message h
    · rename_i f h
      obtain ⟨record, hjoined⟩ := hs.exists_joined h
      exact onMessage_transition message hjoined
    · exact .ignored _
  | malformedMessage c reason =>
    unfold handle onMalformed
    dsimp only
    split
    · rename_i peer h
      exact .refused reason rfl h
    · rename_i f h
      obtain ⟨record, hjoined⟩ := hs.exists_joined h
      exact .expelled rfl hjoined
    · rename_i h
      exact .closed reason h
  | connectionLost c =>
    unfold handle onConnectionLost
    dsimp only
    split
    · rename_i f h
      obtain ⟨record, hjoined⟩ := hs.exists_joined h
      rw [depart_remove]
      exact .departed hjoined (Or.inl rfl)
    · rename_i peer h
      exact .abandoned rfl h
    · exact .ignored _
  | handshakeTimedOut c =>
    unfold handle onHandshakeTimedOut
    dsimp only
    split
    · rename_i peer h
      exact .abandoned rfl h
    · exact .ignored _
  | clockSyncProbe f address =>
    by_cases hprobe : (s.clock.isEnabled && s.registry.isConnected f) = true
    · obtain ⟨record, hf, hconnected⟩ :=
        Registry.exists_of_isConnected (Bool.and_eq_true_iff.1 hprobe).2
      exact .probed address hf hconnected
    · have hignored : s.handle (.clockSyncProbe f address) = (s, []) := by
        unfold handle onClockSyncProbe
        exact if_neg hprobe
      rw [hignored]
      exact .ignored _
  | clockSyncTimer => exact .timer

end Coordinator

end FederatedTime
