import FederatedTime.Proofs.Coordinator.Correspondence

/-!
# Who is admitted

The first message on a connection decides what becomes of it. `Run.admission` says how: a join is
answered with an ack if it is for this federation and for one of its federates as which nobody is
joined (`Coordinator.Admissible`), and any other message with a reject that names the first thing
that is wrong with it (`Coordinator.Refusal`). However a connection ends before it has joined, it
leaves no trace (`Coordinator.Vanishes`): its session goes, and nothing else changes.
-/

namespace FederatedTime

namespace Coordinator

variable {t : Topology} {s : Coordinator} {e : Event} {c : ConnectionId} {f : FederateId}
variable {federationId : String} {message : Message} {reason : RejectReason}
variable {peer : SocketAddress}

/-- Nothing is wrong with a join as `f` of the federation with this name. -/
structure Admissible (t : Topology) (s : Coordinator) (f : FederateId) (federationId : String) :
    Prop where
  federationId_eq : federationId = t.federationId
  index_lt : f.index < t.size
  vacant : ∀ d, s.federateOf d ≠ some f

/-- The first thing that is wrong with the first message on a connection. -/
inductive Refusal (t : Topology) (s : Coordinator) : Message → RejectReason → Prop
  | otherFederation {f : FederateId} {federationId : String} (h : federationId ≠ t.federationId) :
    Refusal t s (.join f federationId) .federationIdDoesNotMatch
  | outOfRange {f : FederateId} (hf : t.size ≤ f.index) :
    Refusal t s (.join f t.federationId) .federateIdOutOfRange
  | inUse {f : FederateId} {d : ConnectionId} (hf : f.index < t.size)
      (hd : s.federateOf d = some f) : Refusal t s (.join f t.federationId) .federateIdInUse
  | unexpected {message : Message} (h : ∀ f federationId, message ≠ .join f federationId) :
    Refusal t s message .unexpectedMessage

/-- An event ends the connection `c`, which has not joined. -/
inductive Fails (t : Topology) (s : Coordinator) (c : ConnectionId) : Event → Prop
  | refused {message : Message} {reason : RejectReason} (h : Refusal t s message reason) :
    Fails t s c (.messageReceived c message)
  | malformed (reason : RejectReason) : Fails t s c (.malformedMessage c reason)
  | timedOut : Fails t s c (.handshakeTimedOut c)
  | lost : Fails t s c (.connectionLost c)

/-- A step removes the session of `c` and changes nothing else. It closes `c`, and concerns no other
connection. -/
structure Vanishes (s : Coordinator) (c : ConnectionId) (out : Step) : Prop where
  state_eq : out.1 = { s with sessions := s.sessions.remove c }
  session : ∀ d, out.1.sessions.get? d = if d = c then none else s.sessions.get? d
  closes : .closeConnection c ∈ out.2
  connection?_eq : ∀ a ∈ out.2, a.connection? = some c

theorem vanishes_refuse (s : Coordinator) (c : ConnectionId) (reason : RejectReason) :
    s.Vanishes c (s.refuse c reason) where
  state_eq := rfl
  session d := Sessions.get?_remove s.sessions c d
  closes := List.mem_cons_of_mem _ List.mem_cons_self
  connection?_eq a ha := by
    unfold refuse at ha
    rcases List.mem_pair.1 ha with rfl | rfl <;> rfl

theorem vanishes_close (s : Coordinator) (c : ConnectionId) :
    s.Vanishes c ({ s with sessions := s.sessions.remove c }, [.closeConnection c]) where
  state_eq := rfl
  session d := Sessions.get?_remove s.sessions c d
  closes := List.mem_singleton_self _
  connection?_eq a ha := by
    obtain rfl := List.mem_singleton.1 ha
    rfl

/-! ## What is wrong with a message -/

theorem Consistent.joinFault?_eq_none_iff_admissible (hs : s.Consistent) :
    s.joinFault? f federationId = none ↔ Admissible s.registry.topology s f federationId := by
  rw [joinFault?_eq_none_iff, hs.isConnected_iff_federateOf, not_exists]
  exact ⟨fun ⟨hid, hindex, hvacant⟩ => ⟨hid, hindex, hvacant⟩,
    fun h => ⟨h.federationId_eq, h.index_lt, h.vacant⟩⟩

theorem Consistent.joinFault?_eq_some_iff (hs : s.Consistent) :
    s.joinFault? f federationId = some reason ↔
      Refusal s.registry.topology s (.join f federationId) reason := by
  constructor
  · intro h
    unfold joinFault? Topology.contains at h
    split_ifs at h with hid hindex hconnected <;> obtain rfl := Option.some.inj h
    · exact .otherFederation hid
    · obtain rfl := not_ne_iff.1 hid
      exact .outOfRange (by simpa using hindex)
    · obtain rfl := not_ne_iff.1 hid
      obtain ⟨d, hd⟩ := hs.isConnected_iff_federateOf.1 hconnected
      exact .inUse (by simpa using hindex) hd
  · intro h
    cases h with
    | otherFederation h => exact if_pos h
    | outOfRange hf => simp [joinFault?, Topology.contains, hf]
    | @inUse _ d hf hd =>
      have hconnected := hs.isConnected_iff_federateOf.2 ⟨d, hd⟩
      simp [joinFault?, Topology.contains, hf, hconnected]
    | unexpected h => exact absurd rfl (h f federationId)

theorem Consistent.exists_refusal (hs : s.Consistent)
    (h : ¬ Admissible s.registry.topology s f federationId) :
    ∃ reason, Refusal s.registry.topology s (.join f federationId) reason := by
  rw [← hs.joinFault?_eq_none_iff_admissible] at h
  obtain ⟨reason, hreason⟩ := Option.ne_none_iff_exists'.1 h
  exact ⟨reason, hs.joinFault?_eq_some_iff.1 hreason⟩

/-! ## Answers -/

theorem Consistent.handle_of_admissible (hs : s.Consistent)
    (hc : s.sessions.get? c = some (.handshaking peer))
    (h : Admissible s.registry.topology s f federationId) :
    s.handle (.messageReceived c (.join f federationId)) =
      (s.admitted c peer f, [.send c (.ack s.settings.advertisedUdpPort)]) := by
  rw [handle_handshake hc, onHandshake, hs.joinFault?_eq_none_iff_admissible.2 h]

theorem Consistent.handle_of_refusal (hs : s.Consistent)
    (hc : s.sessions.get? c = some (.handshaking peer))
    (h : Refusal s.registry.topology s message reason) :
    s.handle (.messageReceived c message) = s.refuse c reason := by
  rw [handle_handshake hc]
  cases message with
  | join f federationId => rw [onHandshake, hs.joinFault?_eq_some_iff.2 h]
  | _ =>
    cases h
    rfl

theorem Consistent.vanishes (hs : s.Consistent)
    (hc : s.sessions.get? c = some (.handshaking peer)) (h : Fails s.registry.topology s c e) :
    s.Vanishes c (s.handle e) := by
  cases h with
  | refused h =>
    rw [hs.handle_of_refusal hc h]
    exact s.vanishes_refuse c _
  | malformed reason =>
    rw [handle_malformed hc]
    exact s.vanishes_refuse c reason
  | timedOut =>
    rw [handle_timedOut hc]
    exact s.vanishes_close c
  | lost =>
    rw [handle_lost hc]
    exact s.vanishes_close c

theorem handle_handshakeTimedOut_of_joined (h : s.federateOf c = some f) :
    s.handle (.handshakeTimedOut c) = (s, []) := by
  unfold handle onHandshakeTimedOut
  dsimp only
  rw [federateOf_eq_some_iff.1 h]
  rfl

/-! ## The time makes no difference -/

theorem Admissible.setTime (h : Admissible t s f federationId) (now : Duration) :
    Admissible t (s.setTime now) f federationId :=
  ⟨h.federationId_eq, h.index_lt, h.vacant⟩

theorem Refusal.setTime (h : Refusal t s message reason) (now : Duration) :
    Refusal t (s.setTime now) message reason := by
  cases h with
  | otherFederation h => exact .otherFederation h
  | outOfRange hf => exact .outOfRange hf
  | inUse hf hd => exact .inUse hf hd
  | unexpected h => exact .unexpected h

theorem Fails.setTime (h : Fails t s c e) (now : Duration) : Fails t (s.setTime now) c e := by
  cases h with
  | refused h => exact .refused (h.setTime now)
  | malformed reason => exact .malformed reason
  | timedOut => exact .timedOut
  | lost => exact .lost

end Coordinator

namespace Run

open Coordinator (Admissible Refusal Fails)

variable {t : Topology} {settings : CoordinatorSettings} {history : List Moment} {s : Coordinator}
variable {c : ConnectionId} {peer : SocketAddress}

/-- A join on a connection that has not joined is admitted if nothing is wrong with it. Any other
message is refused for the first thing that is, and however the connection ends then, it leaves no
trace. A connection that has joined has no more time to run out of. -/
theorem admission (run : Run t settings history s) (now : Duration)
    (hc : s.sessions.get? c = some (.handshaking peer)) :
    (∀ f federationId,
      let out := (s.setTime now).handle (.messageReceived c (.join f federationId))
      ((∃ port, .send c (.ack port) ∈ out.2) ↔ Admissible t s f federationId) ∧
      (Admissible t s f federationId →
        out.2 = [.send c (.ack s.settings.advertisedUdpPort)] ∧ out.1.federateOf c = some f) ∧
      (¬ Admissible t s f federationId → ∃ reason, Refusal t s (.join f federationId) reason)) ∧
    (∀ message reason, Refusal t s message reason →
      ((s.setTime now).handle (.messageReceived c message)).2 =
        [.send c (.reject reason), .closeConnection c]) ∧
    (∀ e, Fails t s c e → (s.setTime now).Vanishes c ((s.setTime now).handle e)) ∧
    ∀ d f, s.federateOf d = some f →
      (s.setTime now).handle (.handshakeTimedOut d) = (s.setTime now, []) := by
  have hs := run.consistent
  have hs' := consistent_setTime hs now
  obtain rfl := run.topology_eq
  have hrefuse : ∀ message reason, Refusal s.registry.topology s message reason →
      ((s.setTime now).handle (.messageReceived c message)).2 =
        [.send c (.reject reason), .closeConnection c] := fun message reason h => by
    rw [hs'.handle_of_refusal hc (h.setTime now)]
    rfl
  refine ⟨fun f federationId => ⟨⟨?_, fun h => ?_⟩, fun h => ?_, hs.exists_refusal⟩, hrefuse,
    fun e h => hs'.vanishes hc (h.setTime now), fun d f h => ?_⟩
  · rintro ⟨port, hack⟩
    by_contra h
    obtain ⟨reason, hreason⟩ := hs.exists_refusal h
    rw [hrefuse _ reason hreason] at hack
    simp at hack
  · rw [hs'.handle_of_admissible hc (h.setTime now)]
    exact ⟨_, List.mem_singleton_self _⟩
  · rw [hs'.handle_of_admissible hc (h.setTime now)]
    exact ⟨rfl, Coordinator.federateOf_eq_some_iff.2 (Sessions.get?_put_self _ c _)⟩
  · exact Coordinator.handle_handshakeTimedOut_of_joined (s := s.setTime now) h

end Run

namespace Relay

/-- The sink is gone, and a new connection waits for its join. -/
def vacantEvents : List Event := [.connectionLost ⟨1⟩, .connectionOpened ⟨2⟩ default]

def vacantState : Coordinator := (state.handleAll vacantEvents).1

theorem run_vacant : Run plan.graph {} (history ++ state.trace vacantEvents) vacantState :=
  run.append_trace vacantEvents (by decide)

end Relay

namespace Run

theorem admission_relay :
    Relay.vacantState.sessions.get? ⟨2⟩ = some (.handshaking default) ∧
    (∃ port, .send ⟨2⟩ (.ack port) ∈ ((Relay.vacantState.setTime 0).handle
      (.messageReceived ⟨2⟩ (.join ⟨1⟩ "relay"))).2) ∧
    ((Relay.vacantState.setTime 0).handle (.messageReceived ⟨2⟩ (.join ⟨0⟩ "relay"))).2 =
      [.send ⟨2⟩ (.reject .federateIdInUse), .closeConnection ⟨2⟩] ∧
    ((Relay.vacantState.setTime 0).handle (.messageReceived ⟨2⟩ (.join ⟨9⟩ "other"))).2 =
      [.send ⟨2⟩ (.reject .federationIdDoesNotMatch), .closeConnection ⟨2⟩] ∧
    (Relay.vacantState.setTime 0).Vanishes ⟨2⟩
      ((Relay.vacantState.setTime 0).handle (.handshakeTimedOut ⟨2⟩)) ∧
    (Relay.vacantState.setTime 0).handle (.handshakeTimedOut ⟨0⟩) =
      (Relay.vacantState.setTime 0, []) := by
  have hwaiting : Relay.vacantState.sessions.get? ⟨2⟩ = some (.handshaking default) := by
    decide +kernel
  have hjoined : ∀ d, Relay.vacantState.federateOf d ≠ some ⟨1⟩ := fun d hd => by
    have hconnected := Relay.run_vacant.consistent.isConnected_iff_federateOf.2 ⟨d, hd⟩
    exact absurd hconnected (by decide +kernel)
  have hsource : Relay.vacantState.federateOf ⟨0⟩ = some ⟨0⟩ := by decide +kernel
  obtain ⟨hjoin, hrefused, hvanishes, htimer⟩ := Relay.run_vacant.admission 0 hwaiting
  refine ⟨hwaiting, (hjoin ⟨1⟩ "relay").1.2 ⟨rfl, by decide, hjoined⟩, ?_, ?_, ?_, ?_⟩
  · exact hrefused _ _ (.inUse (by decide) hsource)
  · exact hrefused _ _ (.otherFederation (by decide))
  · exact hvanishes _ .timedOut
  · exact htimer ⟨0⟩ ⟨0⟩ hsource

end Run

end FederatedTime
