import FederatedTime.Proofs.Coordinator.Dialogue
import FederatedTime.Wire.Error

/-!
# Sessions and records

The coordinator notes twice who is joined where: by connection in the sessions, and by federate in
the records. The two say the same in every state of a run (`Run.sessions_records`), so that a join
is refused for a federate that is in use only while another connection is joined as that federate.
-/

namespace FederatedTime

theorem FederateState.isConnected_iff {state : FederateState} :
    state.isConnected ↔ state = .granted ∨ state = .pending := by
  cases state <;> simp [isConnected]

theorem Wire.Error.rejectReason_ne_federateIdInUse (fault : Wire.Error) :
    fault.rejectReason ≠ .federateIdInUse := by
  cases fault <;> nofun

namespace Coordinator

variable {s : Coordinator} {e : Event} {f : FederateId} {c d : ConnectionId}

/-! ## Refusals -/

theorem mem_refuse {reason reason' : RejectReason} :
    .send d (.reject reason) ∈ (s.refuse c reason').2 ↔ d = c ∧ reason = reason' := by
  simp [refuse]

theorem isConnected_of_joinFault? {federationId : String}
    (h : s.joinFault? f federationId = some .federateIdInUse) : s.registry.isConnected f := by
  unfold joinFault? at h
  split at h
  · cases h
  · split at h
    · cases h
    · split at h
      · assumption
      · cases h

/-- An answer to the first message on a connection that says that a federate is in use. -/
theorem of_onHandshake_inUse {peer : SocketAddress} {message : Message}
    (h : .send d (.reject .federateIdInUse) ∈ (s.onHandshake c peer message).2) :
    ∃ f federationId, message = .join f federationId ∧ s.registry.isConnected f := by
  unfold onHandshake at h
  split at h
  · rename_i f federationId
    split at h
    · rename_i reason hfault
      obtain ⟨-, rfl⟩ := mem_refuse.1 h
      exact ⟨f, federationId, rfl, isConnected_of_joinFault? hfault⟩
    · simp at h
  · simp [refuse] at h

/-- That a federate is in use is the answer to a join of that federate, or to bytes that make no
message and are to be refused with this reason. -/
theorem Consistent.of_inUse (hs : s.Consistent) (hsize : s.registry.size ≤ Topology.maxFederates)
    (hmem : .send d (.reject .federateIdInUse) ∈ (s.handle e).2) :
    (∃ f federationId peer, e = .messageReceived d (.join f federationId) ∧
      s.registry.isConnected f ∧ s.sessions.get? d = some (.handshaking peer)) ∨
    e = .malformedMessage d .federateIdInUse := by
  have hexchange := (handle_transition hs e).exchange hs hsize d
  obtain ⟨-, heq | ⟨he, peer, hpeer⟩⟩ := hexchange.of_reject (Action.mem_on.2 ⟨hmem, rfl⟩)
  · cases heq
  · cases e with
    | connectionOpened c peer' => simp [handle] at hmem
    | messageReceived c message =>
      obtain rfl : c = d := Option.some.inj he
      rw [handle_handshake hpeer] at hmem
      obtain ⟨f, federationId, rfl, hf⟩ := of_onHandshake_inUse hmem
      exact Or.inl ⟨f, federationId, peer, rfl, hf, hpeer⟩
    | malformedMessage c reason =>
      obtain rfl : c = d := Option.some.inj he
      rw [handle_malformed hpeer] at hmem
      obtain ⟨-, rfl⟩ := mem_refuse.1 hmem
      exact Or.inr rfl
    | connectionLost c =>
      obtain rfl : c = d := Option.some.inj he
      simp [handle_lost hpeer] at hmem
    | handshakeTimedOut c =>
      obtain rfl : c = d := Option.some.inj he
      simp [handle_timedOut hpeer] at hmem
    | clockSyncProbe | clockSyncTimer => cases he

/-! ## Records of joined federates -/

theorem Consistent.joined_iff_connection (hs : s.Consistent) :
    s.sessions.get? c = some (.joined f) ↔
      ∃ record, s.registry.get? f = some record ∧ record.connection = some c := by
  rw [hs.joined_iff]
  exact Option.bind_eq_some_iff

end Coordinator

namespace Run

variable {t : Topology} {settings : CoordinatorSettings} {history : List Moment} {s : Coordinator}
variable {p : Topology.Plan}

/-- Sessions and records never drift apart. That a federate is in use is only said while another
connection is joined as that federate, unless an event itself brings the reason, which no fault of
the decoder has. -/
theorem sessions_records (hbuild : p.build = .ok t) (run : Run t settings history s) :
    (∀ c f, s.sessions.get? c = some (.joined f) ↔
      ∃ record, s.registry.get? f = some record ∧ record.connection = some c) ∧
    (∀ f record, s.registry.get? f = some record →
      (record.connection.isSome ↔ record.state = .granted ∨ record.state = .pending)) ∧
    (∀ c d f, s.sessions.get? c = some (.joined f) → s.sessions.get? d = some (.joined f) →
      c = d) ∧
    (∀ c f g, s.registry.connection? f = some c → s.registry.connection? g = some c → f = g) ∧
    (∀ c peer, s.sessions.get? c = some (.handshaking peer) →
      ∀ f, s.registry.connection? f ≠ some c) ∧
    (∀ now e d, .send d (.reject .federateIdInUse) ∈ ((s.setTime now).handle e).2 →
      (∃ f federationId c, e = .messageReceived d (.join f federationId) ∧ c ≠ d ∧
        s.sessions.get? c = some (.joined f)) ∨ e = .malformedMessage d .federateIdInUse) ∧
    ∀ fault : Wire.Error, fault.rejectReason ≠ .federateIdInUse := by
  have hs := run.consistent
  refine ⟨fun c f => hs.joined_iff_connection, fun f record hf => ?_, fun c d f hc hd => ?_,
    fun c f g => hs.connection?_injective, fun c peer hc f hf => ?_, fun now e d hmem => ?_,
    Wire.Error.rejectReason_ne_federateIdInUse⟩
  · rw [← hs.connected_iff f record hf]
    exact FederateState.isConnected_iff
  · rw [hs.joined_iff] at hc hd
    exact Option.some.inj (hc.symm.trans hd)
  · rw [← hs.joined_iff, hc] at hf
    cases hf
  · have hsize : s.registry.size ≤ Topology.maxFederates := run.size_le hbuild
    refine ((consistent_setTime hs now).of_inUse hsize hmem).imp_left ?_
    rintro ⟨f, federationId, peer, rfl, hf, hpeer⟩
    obtain ⟨c, record, hjoined⟩ := hs.isConnected_iff.1 hf
    refine ⟨f, federationId, c, rfl, fun heq => ?_, hjoined.session⟩
    rw [heq] at hjoined
    cases hjoined.session.symm.trans hpeer

end Run

namespace Relay

/-- Both federates are at work, and a third connection has been opened. -/
def contendedHistory : List Moment := history ++ state.trace [.connectionOpened ⟨2⟩ default]

def contendedState : Coordinator := (state.handleAll [.connectionOpened ⟨2⟩ default]).1

theorem run_contended : Run plan.graph {} contendedHistory contendedState :=
  run.append_trace [.connectionOpened ⟨2⟩ default] (by decide)

end Relay

namespace Run

theorem sessions_records_relay :
    (∃ record, Relay.contendedState.registry.get? ⟨0⟩ = some record ∧
      record.connection = some ⟨0⟩ ∧ (record.state = .granted ∨ record.state = .pending)) ∧
    (∀ f, Relay.contendedState.registry.connection? f ≠ some ⟨2⟩) ∧
    .send ⟨2⟩ (.reject .federateIdInUse) ∈ ((Relay.contendedState.setTime 0).handle
      (.messageReceived ⟨2⟩ (.join ⟨0⟩ "relay"))).2 ∧
    ∃ c, c ≠ ⟨2⟩ ∧ Relay.contendedState.sessions.get? c = some (.joined ⟨0⟩) := by
  obtain ⟨hjoined, hstate, -, -, hwaiting, hinUse, -⟩ :=
    Relay.run_contended.sessions_records Relay.build_eq
  have hsource : Relay.contendedState.sessions.get? ⟨0⟩ = some (.joined ⟨0⟩) := by decide +kernel
  have hthird : Relay.contendedState.sessions.get? ⟨2⟩ = some (.handshaking default) := by
    decide +kernel
  have hanswer : .send ⟨2⟩ (.reject .federateIdInUse) ∈ ((Relay.contendedState.setTime 0).handle
      (.messageReceived ⟨2⟩ (.join ⟨0⟩ "relay"))).2 := by decide +kernel
  obtain ⟨record, hrecord, hconnection⟩ := (hjoined _ _).1 hsource
  refine ⟨⟨record, hrecord, hconnection, ?_⟩, hwaiting _ _ hthird, hanswer, ?_⟩
  · exact (hstate _ record hrecord).1 (by rw [hconnection]; rfl)
  · obtain ⟨f, federationId, c, he, hc, hsession⟩ | he := hinUse 0 _ _ hanswer
    · simp only [Event.messageReceived.injEq, Message.join.injEq, true_and] at he
      obtain ⟨rfl, -⟩ := he
      exact ⟨c, hc, hsession⟩
    · cases he

end Run

end FederatedTime
