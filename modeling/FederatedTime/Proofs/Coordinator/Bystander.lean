import FederatedTime.Proofs.Coordinator.Dialogue
import FederatedTime.Proofs.Coordinator.GrantOrder
import FederatedTime.Proofs.Coordinator.Isolation

/-!
# What an event leaves alone

An event changes no session but that of its connection (`Transition.get?_sessions_of_ne`), and no
record but that of the federate there, apart from the grants that follow
(`Transition.exists_spared`).
-/

namespace FederatedTime

namespace Coordinator

variable {s : Coordinator} {e : Event} {out : Step} {c : ConnectionId} {f g : FederateId}
variable {record : FederateRecord}

theorem Transition.get?_sessions_of_ne (h : Transition s e out) (hc : e.connection? ≠ some c) :
    out.1.sessions.get? c = s.sessions.get? c := by
  have ne {d : ConnectionId} (hd : e.connection? = some d) : c ≠ d := fun heq =>
    hc (heq ▸ hd)
  cases h with
  | opened d peer => exact Sessions.get?_put_of_ne _ _ (ne rfl)
  | ignored | closed | nextEvent | completed | forwardedUntimed | forwardedTimed | queried
  | timer => rfl
  | refused _ he | abandoned he => exact Sessions.get?_remove_of_ne _ (ne he)
  | admitted => exact Sessions.get?_put_of_ne _ _ (ne rfl)
  | proposed => rw [onTimestamp, settleStart_fst]
  | requested | replied => exact congrArg (·.get? c) (sessions_contribute _ _ _)
  | @advertised _ g _ port h =>
    obtain ⟨directory, hdirectory⟩ := onAddressAd_eq s g port
    rw [hdirectory]
  | @departed _ d _ _ h he =>
    have hd : e.connection? = some d := by rcases he with rfl | rfl <;> rfl
    exact (congrArg (·.get? c) (sessions_depart h.get?_eq d)).trans
      (Sessions.get?_remove_of_ne _ (ne hd))
  | @expelled _ d _ _ he h =>
    exact (congrArg (·.get? c) (sessions_depart h.get?_eq d)).trans
      (Sessions.get?_remove_of_ne _ (ne he))
  | probed => exact congrArg (·.get? c) (sessions_onClockSyncProbe _ _ _)

/-- On a connection that nobody is joined on, a federate may join, and that is all that can happen
to the records. -/
theorem Transition.registry_of_not_joined (h : Transition s e out) (he : e.connection? = some c)
    (hc : ∀ f, s.sessions.get? c ≠ some (.joined f)) : out.1.registry = s.registry ∨
      ∃ f federationId host, e = .messageReceived c (.join f federationId) ∧
        out.1.registry = s.registry.modify f (·.join c host) := by
  have unjoined {d : ConnectionId} {f : FederateId} {record : FederateRecord}
      (hd : some d = some c) (hf : s.Joined d f record) : False := by
    obtain rfl := Option.some.inj hd
    exact hc f hf.session
  cases h with
  | opened | ignored | closed | refused | abandoned => exact Or.inl rfl
  | @admitted d peer f federationId =>
    obtain rfl := Option.some.inj he
    exact Or.inr ⟨f, federationId, peer.ip, rfl, rfl⟩
  | proposed _ h | nextEvent h | completed h | requested _ h | replied _ h
  | forwardedUntimed _ h | forwardedTimed _ h | queried _ h | advertised _ h =>
    exact (unjoined he h).elim
  | departed h he' =>
    rcases he' with rfl | rfl
    · exact (unjoined he h).elim
    · exact (unjoined he h).elim
  | expelled he' h => exact (unjoined (he'.symm.trans he) h).elim
  | probed | timer => cases he

/-- The record of a federate that an event is not about, neither as who is joined on the connection
nor as who wants to join, is spared. -/
theorem Transition.exists_spared (ht : s.registry.topology.WellFormed) (hs : s.Consistent)
    (h : Transition s e out) (he : e.connection? = some c)
    (hopen : e.opens? = some c → s.sessions.get? c = none)
    (hjoined : s.sessions.get? c ≠ some (.joined g))
    (hjoin : ∀ federationId, e ≠ .messageReceived c (.join g federationId))
    (hg : s.registry.get? g = some record) :
    ∃ record', out.1.registry.get? g = some record' ∧ record.Spared record' := by
  by_cases hc : ∃ f, s.sessions.get? c = some (.joined f)
  · obtain ⟨f, hf⟩ := hc
    obtain ⟨old, hold⟩ := hs.exists_joined hf
    have hopen' : e.opens? ≠ some c := fun heq => by
      rw [hopen heq] at hf
      cases hf
    have hne : g ≠ f := fun heq => hjoined (heq ▸ hf)
    obtain ⟨record', hrecord', hspared, -⟩ := (h.confined hold he hopen').spared ht hne hg
    exact ⟨record', hrecord', hspared⟩
  · rcases h.registry_of_not_joined he (not_exists.1 hc) with
      heq | ⟨f, federationId, host, hjoin', heq⟩
    · rw [heq]
      exact ⟨record, hg, .refl record⟩
    · have hne : f ≠ g := fun hfg => hjoin federationId (hfg ▸ hjoin')
      rw [heq, Registry.get?_modify, if_neg hne]
      exact ⟨record, hg, .refl record⟩

variable {session : Option Session} {actions : List Action}

/-- Where the session stays, nothing but news is told: to whoever is joined there, if anybody is. -/
theorem Exchange.exists_told (h : Exchange e c session actions session)
    (he : e.connection? = some c → ∃ f, session = some (.joined f)) :
    ∃ messages : List Message, actions = messages.map (.send c) ∧
      (∀ message ∈ messages, ¬ message.isVerdict) ∧
      (messages ≠ [] → ∃ f, session = some (.joined f)) := by
  cases h with
  | told hverdict hjoined => exact ⟨_, rfl, hverdict, hjoined⟩
  | opened peer hopen =>
    obtain ⟨f, hf⟩ := he (Event.connection?_of_opens? hopen)
    cases hf
  | closed hclosed =>
    obtain ⟨f, hf⟩ := he hclosed
    cases hf

end Coordinator

end FederatedTime
