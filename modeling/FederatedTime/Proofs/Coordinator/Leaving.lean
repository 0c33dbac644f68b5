import FederatedTime.Proofs.Coordinator.Membership

/-!
# Ways to leave

A federate may resign, its connection may be lost, or it may send what the coordinator does not let
it send. It comes to the same: the state afterwards is the same, and so are the actions, except that
a fault is answered with a reject first (`Run.leaving_alike`).
-/

namespace FederatedTime

namespace Message

/-- Whether a federate that has joined may not send a message. -/
def isForbidden : Message → Bool
  | join _ _ | ack _ | reject _ | timeAdvanceGrant _ | stopGranted _ | addressQueryReply _ _ => true
  | message => message.isPeer || message.isClockSync

end Message

namespace Coordinator

variable {s : Coordinator} {f : FederateId} {c : ConnectionId} {record : FederateRecord}

/-! ## Faults of a joined federate -/

theorem expel_eq (s : Coordinator) (f : FederateId) (c : ConnectionId) :
    s.expel f c =
      ((s.depart f c).1, .send c (.reject .unexpectedMessage) :: (s.depart f c).2) := by
  unfold expel
  rw [Prod.ext_iff, Step.andThen_fst, Step.andThen_snd]
  exact ⟨rfl, rfl⟩

theorem Joined.handle_forbidden (h : s.Joined c f record) {message : Message}
    (hforbidden : message.isForbidden) :
    s.handle (.messageReceived c message) = s.expel f c := by
  rw [h.handle_message]
  unfold onMessage
  rw [h.connection?_eq]
  cases message with
  | timestamp | nextEventTag | logicalTagComplete | untimed | timed | stopRequest
  | stopRequestReply | addressQuery | addressAd | resign => cases hforbidden
  | _ => rfl

theorem Joined.handle_malformed (h : s.Joined c f record) (reason : RejectReason) :
    s.handle (.malformedMessage c reason) = s.expel f c := by
  unfold handle onMalformed
  dsimp only
  rw [h.session]

/-! ## After a departure -/

theorem Joined.connection?_depart (h : s.Joined c f record) :
    (s.depart f c).1.registry.connection? f = none := by
  rw [depart_fst h.get?_eq]
  refine ((Registry.sameMembers_sweep _ _ _).connection? f).trans ?_
  rw [forget, Registry.connection?_modify h.get?_eq, if_pos rfl]
  rfl

theorem Joined.mem_depart (h : s.Joined c f record) :
    .closeConnection c ∈ (s.depart f c).2 := by
  unfold depart
  rw [h.get?_eq]
  dsimp only
  rw [Step.andThen_snd]
  exact List.mem_append_left _ List.mem_cons_self

end Coordinator

namespace Run

variable {t : Topology} {settings : CoordinatorSettings} {history : List Moment} {s : Coordinator}

/-- All ways of leaving are the same: the federate is joined no longer and its connection is closed,
after a reject if the federate is at fault. -/
theorem leaving_alike (run : Run t settings history s) (now : Duration) {c : ConnectionId}
    {f : FederateId} (h : s.sessions.get? c = some (.joined f)) :
    let lost := (s.setTime now).handle (.connectionLost c)
    (lost.1.sessions.get? c = none ∧ lost.1.registry.connection? f = none ∧
      .closeConnection c ∈ lost.2) ∧
    (s.setTime now).handle (.messageReceived c .resign) = lost ∧
    (∀ reason, (s.setTime now).handle (.malformedMessage c reason) =
      (lost.1, .send c (.reject .unexpectedMessage) :: lost.2)) ∧
    ∀ message : Message, message.isForbidden →
      (s.setTime now).handle (.messageReceived c message) =
        (lost.1, .send c (.reject .unexpectedMessage) :: lost.2) := by
  obtain ⟨record, hrecord⟩ := run.consistent.exists_joined h
  have hjoined : (s.setTime now).Joined c f record := joined_setTime.2 hrecord
  intro lost
  have hlost : lost = (s.setTime now).depart f c := hjoined.handle_departure (Or.inl rfl)
  rw [hlost]
  refine ⟨⟨?_, hjoined.connection?_depart, hjoined.mem_depart⟩,
    hjoined.handle_departure (Or.inr rfl), fun reason => ?_, fun message hforbidden => ?_⟩
  · rw [Coordinator.sessions_depart hjoined.get?_eq, Sessions.get?_remove_self]
  · rw [hjoined.handle_malformed reason, Coordinator.expel_eq]
  · rw [hjoined.handle_forbidden hforbidden, Coordinator.expel_eq]

theorem leaving_alike_relay : Relay.state.sessions.get? ⟨0⟩ = some (.joined ⟨0⟩) ∧
    (Message.timeAdvanceGrant (.ofTime 20)).isForbidden ∧
    (let lost := (Relay.state.setTime 0).handle (.connectionLost ⟨0⟩)
    (lost.1.sessions.get? ⟨0⟩ = none ∧ lost.1.registry.connection? ⟨0⟩ = none ∧
      .closeConnection ⟨0⟩ ∈ lost.2) ∧
    (Relay.state.setTime 0).handle (.messageReceived ⟨0⟩ .resign) = lost ∧
    (Relay.state.setTime 0).handle (.malformedMessage ⟨0⟩ .wrongServer) =
      (lost.1, .send ⟨0⟩ (.reject .unexpectedMessage) :: lost.2) ∧
    (Relay.state.setTime 0).handle
        (.messageReceived ⟨0⟩ (.timeAdvanceGrant (.ofTime 20))) =
      (lost.1, .send ⟨0⟩ (.reject .unexpectedMessage) :: lost.2)) := by
  have hjoined : Relay.state.sessions.get? ⟨0⟩ = some (.joined ⟨0⟩) := by decide +kernel
  obtain ⟨hleft, hresign, hmalformed, hforbidden⟩ := Relay.run.leaving_alike 0 hjoined
  exact ⟨hjoined, rfl, hleft, hresign, hmalformed _, hforbidden _ rfl⟩

end Run

end FederatedTime
