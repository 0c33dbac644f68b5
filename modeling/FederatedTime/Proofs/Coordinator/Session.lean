import FederatedTime.Proofs.Coordinator.Contact
import FederatedTime.Proofs.Coordinator.GrantOrder
import FederatedTime.Proofs.Coordinator.History

/-!
# A session in a history

A federate joins on a connection that waits for it. That connection has been opened once, from the
host that the record then notes (`Run.openings_of_joined`). What a history shows of the federate
that is joined on a connection belongs to one session: there is nothing of it before the join
(`Run.gather_eq_nil`).
-/

namespace FederatedTime

/-- Where a connection comes from, if it is opened. -/
def Event.opening? (c : ConnectionId) : Event → Option SocketAddress
  | connectionOpened d peer => if d = c then some peer else none
  | _ => none

/-- Where a connection comes from, for each time that it is opened. -/
def openings (c : ConnectionId) (history : List Moment) : List SocketAddress :=
  history.filterMap (·.event.opening? c)

section Openings

variable {c : ConnectionId} {e : Event} {history : List Moment}

theorem openings_append_singleton (c : ConnectionId) (history : List Moment) (m : Moment) :
    openings c (history ++ [m]) = openings c history ++ (m.event.opening? c).toList := by
  unfold openings
  rw [List.filterMap_append, List.filterMap_cons]
  cases m.event.opening? c <;> rfl

theorem Event.opening?_eq_none (h : c ∉ e.opens?) : e.opening? c = none := by
  unfold opening?
  split
  · exact if_neg fun hc => h (congrArg some hc)
  · rfl

theorem openings_eq_nil (h : c ∉ opened history) : openings c history = [] := by
  refine List.filterMap_eq_nil_iff.2 fun m hm => Event.opening?_eq_none fun hc => h ?_
  exact List.mem_filterMap.2 ⟨m, hm, hc⟩

end Openings

/-- A reading that finds nothing unless a federate is joined on `c`. -/
def ReadsSession {α : Type} (c : ConnectionId) (read : Moment → Coordinator → Option α) : Prop :=
  ∀ m s, (∀ f, s.sessions.get? c ≠ some (.joined f)) → read m s = none

namespace Coordinator

variable {s s' : Coordinator} {e : Event} {c : ConnectionId} {f : FederateId} {gs : List Grant}
variable {peer : SocketAddress}

/-- A connection that is not opened now, and waits for its join, has done so before. -/
theorem Move.handshaking_of_not_opened (h : Move s e s' gs) (hopen : c ∉ e.opens?)
    (hpeer : s'.sessions.get? c = some (.handshaking peer)) :
    s.sessions.get? c = some (.handshaking peer) := by
  cases h with
  | idle hsessions | progressed _ _ _ hsessions =>
    rw [hsessions] at hpeer
    exact hpeer
  | @opened d _ he hsessions =>
    have hcd : c ≠ d := fun heq => hopen (heq ▸ he)
    rw [hsessions, Sessions.get?_put_of_ne _ _ hcd] at hpeer
    exact hpeer
  | closed _ hsessions | departed _ hsessions =>
    rw [hsessions, Sessions.get?_remove] at hpeer
    split at hpeer
    · cases hpeer
    · exact hpeer
  | joined _ _ _ _ hsessions =>
    rw [hsessions, Sessions.get?_put] at hpeer
    split at hpeer
    · cases hpeer
    · exact hpeer

/-- A federate that is joined has been joined there from the same host before, or it joins now. -/
theorem Affects.joined_before (hs : s.Consistent) (h : s.Affects e f s') {record : FederateRecord}
    (hj : s'.Joined c f record) :
    (∃ earlier, s.Joined c f earlier ∧ earlier.host = record.host) ∨
      ∃ peer, s.sessions.get? c = some (.handshaking peer) ∧ record.host = some peer.ip := by
  have hcontact := Registry.contact?_of_get? hj.get?_eq
  -- where the contact names the connection, the federate was joined there
  have before {contact : Contact} (hbefore : s.registry.contact? f = some contact)
      (hconnection : contact.connection = record.connection)
      (hhost : contact.host = record.host) :
      ∃ earlier, s.Joined c f earlier ∧ earlier.host = record.host := by
    obtain ⟨earlier, hearlier, rfl⟩ := Option.map_eq_some_iff.1 hbefore
    have hc : s.registry.connection? f = some c := by
      rw [Registry.connection?, hearlier]
      exact hconnection.trans hj.connection
    obtain ⟨earlier', hjoined⟩ := hs.exists_joined ((hs.joined_iff c f).2 hc)
    obtain rfl := Option.some.inj (hearlier.symm.trans hjoined.get?_eq)
    exact ⟨earlier, hjoined, hhost⟩
  cases h with
  | kept hkept =>
    rw [hkept.contact] at hcontact
    exact Or.inl (before hcontact rfl rfl)
  | @joined d peer _ h _ _ hafter =>
    rw [hafter, Option.some_inj] at hcontact
    have hd : some d = record.connection := congrArg Contact.connection hcontact
    have hhost : some peer.ip = record.host := congrArg Contact.host hcontact
    rw [hj.connection, Option.some_inj] at hd
    exact Or.inr ⟨peer, hd ▸ h, hhost.symm⟩
  | left _ hafter =>
    rw [hafter, Option.some_inj] at hcontact
    have hnone : none = record.connection := congrArg Contact.connection hcontact
    rw [hj.connection] at hnone
    cases hnone
  | @advertised _ _ port _ _ hafter =>
    obtain ⟨directory, hdirectory⟩ := onAddressAd_eq s f port
    rw [hafter, hdirectory] at hcontact
    exact Or.inl (before hcontact rfl rfl)
  | @probed _ earlier address h _ hafter =>
    rw [hafter, Option.some_inj] at hcontact
    have hregister := contact_registerClock earlier address
    rw [hcontact] at hregister
    exact Or.inl (before (Registry.contact?_of_get? h.get?_eq) hregister.1.symm hregister.2.symm)
  | timed _ hafter =>
    rw [hafter] at hcontact
    exact Or.inl (before hcontact rfl rfl)

end Coordinator

namespace Run

variable {t : Topology} {settings : CoordinatorSettings} {history : List Moment} {s : Coordinator}
variable {c : ConnectionId} {f : FederateId} {peer : SocketAddress}

/-- A connection that waits for its join has been opened once. -/
theorem openings_of_handshaking (run : Run t settings history s)
    (hpeer : s.sessions.get? c = some (.handshaking peer)) : openings c history = [peer] := by
  induction run with
  | start => cases hpeer
  | @event history s run now e fresh ih =>
    rw [openings_append_singleton]
    by_cases hopen : c ∈ e.opens?
    · rw [openings_eq_nil (fresh c hopen)]
      cases e with
      | connectionOpened d peer' =>
        obtain rfl := Option.some.inj hopen
        have hput : ((s.setTime now).sessions.put d (.handshaking peer')).get? d =
          some (.handshaking peer) := hpeer
        rw [Sessions.get?_put_self, Option.some_inj, Session.handshaking.injEq] at hput
        rw [hput]
        exact congrArg (fun opening : Option SocketAddress => [] ++ opening.toList) (if_pos rfl)
      | _ => cases hopen
    · obtain ⟨gs, hmove, -⟩ :=
        (Coordinator.handle_transition (consistent_setTime run.consistent now) e).move
      have hbefore := ih (hmove.handshaking_of_not_opened hopen hpeer)
      have hnone : ((s.setTime now).moment e).event.opening? c = none :=
        Event.opening?_eq_none hopen
      rw [hnone, hbefore]
      rfl

theorem openings_of_joined (run : Run t settings history s) {record : FederateRecord}
    (hjoined : s.Joined c f record) :
    ∃ peer, openings c history = [peer] ∧ record.host = some peer.ip := by
  induction run generalizing record with
  | start =>
    obtain ⟨h, -⟩ := hjoined
    cases h
  | @event history s run now e fresh ih =>
    have hs := consistent_setTime run.consistent now
    have hbefore : ∃ peer, openings c history = [peer] ∧ record.host = some peer.ip := by
      rcases (Coordinator.handle_affects hs e f).joined_before hs hjoined with
        ⟨earlier, hearlier, hhost⟩ | ⟨peer, hpeer, hhost⟩
      · rw [← hhost]
        exact ih (joined_setTime.1 hearlier)
      · exact ⟨peer, run.openings_of_handshaking hpeer, hhost⟩
    obtain ⟨peer, hopenings, hhost⟩ := hbefore
    have hopen : c ∉ e.opens? := fun hc => by
      rw [openings_eq_nil (fresh c hc)] at hopenings
      cases hopenings
    have hnone : ((s.setTime now).moment e).event.opening? c = none :=
      Event.opening?_eq_none hopen
    refine ⟨peer, ?_, hhost⟩
    rw [openings_append_singleton, hnone, hopenings]
    rfl

/-- Nobody has been joined on a connection that is not opened yet, or waits for its join. -/
theorem gather_eq_nil {α : Type} {read : Moment → Coordinator → Option α}
    (hread : ReadsSession c read) (run : Run t settings history s)
    (h : c ∉ opened history ∨ ∃ peer, s.sessions.get? c = some (.handshaking peer)) :
    gather read (.ofTopology t settings) history = [] := by
  induction run with
  | start => rfl
  | @event history s run now e fresh ih =>
    have hs := consistent_setTime run.consistent now
    obtain ⟨gs, hmove, -⟩ := (Coordinator.handle_transition hs e).move
    have hbefore : c ∉ opened history ∨ ∃ peer, s.sessions.get? c = some (.handshaking peer) := by
      rcases h with hc | ⟨peer, hpeer⟩
      · rw [opened_append, List.mem_append, not_or] at hc
        exact Or.inl hc.1
      · by_cases hopen : c ∈ e.opens?
        · exact Or.inl (fresh c hopen)
        · exact Or.inr ⟨peer, hmove.handshaking_of_not_opened hopen hpeer⟩
    have hnone : read ((s.setTime now).moment e) s = none := by
      refine hread _ _ fun f hf => ?_
      rcases hbefore with hc | ⟨peer, hpeer⟩
      · obtain ⟨record, hjoined⟩ := run.consistent.exists_joined hf
        exact hc (run.mem_opened_of_joined hjoined)
      · rw [hf] at hpeer
        cases hpeer
    rw [run.gather_append_singleton, ih hbefore, hnone]
    rfl

/-- Whatever comes next on a connection that waits for its join, nobody has been joined there. -/
theorem gather_append_eq_nil {α : Type} {read : Moment → Coordinator → Option α}
    (hread : ReadsSession c read) (run : Run t settings history s) {peer : SocketAddress}
    (hpeer : s.sessions.get? c = some (.handshaking peer)) (m : Moment) :
    gather read (.ofTopology t settings) (history ++ [m]) = [] := by
  have hnone : read m s = none := by
    refine hread m s fun f hf => ?_
    rw [hf] at hpeer
    cases hpeer
  rw [run.gather_append_singleton, run.gather_eq_nil hread (Or.inr ⟨peer, hpeer⟩), hnone]
  rfl

end Run

end FederatedTime
