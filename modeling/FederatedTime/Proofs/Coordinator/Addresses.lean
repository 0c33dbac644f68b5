import FederatedTime.Proofs.Coordinator.Session
import FederatedTime.Proofs.Net.Ipv6

/-!
# The directory and the sessions

The directory lists who is joined and has advertised a port in its present session, at the port that
it advertised last and at the address that its connection comes from (`Run.lookup_eq_listed`). A
query is answered with just that (`Run.lookup_reflects_sessions`).
-/

namespace FederatedTime

/-- The port that `f`, which is joined on `c`, advertises. -/
def Moment.port? (c : ConnectionId) (f : FederateId) (m : Moment) (before : Coordinator) :
    Option UInt16 :=
  match m.event with
  | .messageReceived d (.addressAd port) =>
    if d = c ∧ before.federateOf c = some f then some port else none
  | _ => none

/-- The ports that `f` advertises in its session on `c`, in a history from `s` on. -/
def ports (c : ConnectionId) (f : FederateId) (s : Coordinator) (history : List Moment) :
    List UInt16 :=
  gather (Moment.port? c f) s history

/-- Where a federate with a contact accepts peers, given the ports that it advertises on each
connection. -/
def Contact.listed? (contact : Contact) (ports : ConnectionId → List UInt16) :
    Option PeerAddress := do
  let c ← contact.connection
  let host ← contact.host
  let port ← (ports c).getLast?
  pure ⟨host.toIpv4, port⟩

section Listed

variable {contact other : Contact} {c : ConnectionId} {host : IpAddress}
variable {ports : ConnectionId → List UInt16}

theorem Contact.listed?_eq_none (h : contact.connection = none) : contact.listed? ports = none := by
  rw [listed?, h]
  rfl

theorem Contact.listed?_eq_map (hconnection : contact.connection = some c)
    (hhost : contact.host = some host) : contact.listed? ports =
      (ports c).getLast?.map fun port => ⟨host.toIpv4, port⟩ := by
  rw [listed?, hconnection, hhost]
  exact Option.map_eq_bind.symm

theorem Contact.listed?_congr (hconnection : contact.connection = other.connection)
    (hhost : contact.host = other.host) : contact.listed? ports = other.listed? ports := by
  rw [listed?, listed?, hconnection, hhost]

end Listed

theorem Directory.lookup_empty (size : Nat) (f : FederateId) :
    (Directory.empty size).lookup f = none := by
  unfold lookup empty Roster.getD
  rw [Roster.get?_replicate]
  split <;> rfl

theorem Moment.port?_eq_none {m : Moment} {s : Coordinator} {c : ConnectionId} {f : FederateId}
    (h : ∀ port, m.event = .messageReceived c (.addressAd port) → s.federateOf c ≠ some f) :
    m.port? c f s = none := by
  unfold port?
  split
  · rename_i d port hevent
    refine if_neg fun hc => ?_
    rw [hc.1] at hevent
    exact h port hevent hc.2
  · rfl

theorem readsSession_port? (c : ConnectionId) (f : FederateId) :
    ReadsSession c (Moment.port? c f) := by
  intro m s hs
  refine Moment.port?_eq_none fun port _ hf => hs f ?_
  exact Coordinator.federateOf_eq_some_iff.1 hf

namespace Run

variable {t : Topology} {settings : CoordinatorSettings} {history : List Moment} {s : Coordinator}
variable {c : ConnectionId} {f : FederateId}

theorem directory_size_eq (run : Run t settings history s) :
    s.directory.entries.size = t.size := by
  induction run with
  | start => exact Roster.size_replicate _ _
  | @event history s run now e fresh ih =>
    have hs := consistent_setTime run.consistent now
    exact (Coordinator.handle_transition hs e).keepsTables.size_directory.trans ih

theorem ports_append_singleton (run : Run t settings history s) (m : Moment) (c : ConnectionId)
    (f : FederateId) : ports c f (.ofTopology t settings) (history ++ [m]) =
      ports c f (.ofTopology t settings) history ++ (m.port? c f s).toList :=
  run.gather_append_singleton _ m

theorem ports_eq_of_not_advertised (run : Run t settings history s) (now : Duration) (e : Event)
    (h : ∀ c port, e = .messageReceived c (.addressAd port) →
      (s.setTime now).federateOf c ≠ some f) :
    (fun c => ports c f (.ofTopology t settings) (history ++ [(s.setTime now).moment e])) =
      fun c => ports c f (.ofTopology t settings) history := by
  funext c
  rw [run.ports_append_singleton, Moment.port?_eq_none fun port => h c port]
  exact List.append_nil _

/-- What a federate advertises is listed from then on. -/
theorem lookup_onAddressAd (run : Run t settings history s) (now : Duration)
    {record : FederateRecord} (hjoined : s.Joined c f record) (port : UInt16) :
    ((s.setTime now).onAddressAd f port).directory.lookup f =
      record.contact.listed? fun d => ports d f (.ofTopology t settings)
        (history ++ [(s.setTime now).moment (.messageReceived c (.addressAd port))]) := by
  obtain ⟨peer, -, hhost⟩ := run.openings_of_joined hjoined
  have hport : ((s.setTime now).moment (.messageReceived c (.addressAd port))).port? c f s =
      some port := if_pos ⟨rfl, Coordinator.federateOf_eq_some_iff.2 hjoined.session⟩
  have hsize : f.index < s.directory.entries.size := by
    rw [run.directory_size_eq, ← run.registry_size_eq]
    exact Roster.index_lt_of_get? hjoined.get?_eq
  have hdirectory : ((s.setTime now).onAddressAd f port).directory =
      s.directory.advertise f peer.ip port := by
    have hrecord : (s.setTime now).registry.get? f = some record := hjoined.get?_eq
    rw [Coordinator.onAddressAd, hrecord, Option.bind_some, hhost]
    rfl
  rw [hdirectory, Directory.lookup_advertise_self hsize,
    Contact.listed?_eq_map hjoined.connection hhost, run.ports_append_singleton, hport,
    Option.toList_some, List.getLast?_concat]
  rfl

/-- The directory lists what the contacts and the history say. -/
theorem lookup_eq_listed (run : Run t settings history s) (f : FederateId) :
    s.directory.lookup f = (s.registry.contact? f).bind fun contact =>
      contact.listed? fun c => ports c f (.ofTopology t settings) history := by
  induction run with
  | start =>
    refine (Directory.lookup_empty t.size f).trans
      (Option.bind_eq_none_iff.2 fun contact hcontact => ?_).symm
    obtain ⟨record, hrecord, rfl⟩ := Option.map_eq_some_iff.1 hcontact
    rw [Coordinator.get?_ofTopology hrecord]
    rfl
  | @event history s run now e fresh ih =>
    have hs := consistent_setTime run.consistent now
    cases Coordinator.handle_affects hs e f with
    | kept hkept had =>
      rw [hkept.lookup, hkept.contact, run.ports_eq_of_not_advertised now e had]
      exact ih
    | @joined c peer record hpeer hrecord hconnected hcontact hlookup =>
      -- whoever joins was not listed, and has said nothing yet on its new connection
      have hbefore : s.directory.lookup f = none := by
        have hcontact : s.registry.contact? f = some record.contact :=
          Registry.contact?_of_get? hrecord
        have hconnection : record.contact.connection = none :=
          Option.not_isSome_iff_eq_none.1 (mt (hs.connected_iff f record hrecord).2 hconnected)
        rw [ih, hcontact]
        exact Contact.listed?_eq_none hconnection
      have hports : ports c f (.ofTopology t settings) (history ++ [(s.setTime now).moment e]) =
          [] := run.gather_append_eq_nil (readsSession_port? c f) hpeer _
      rw [hlookup, hcontact, Option.bind_some, Contact.listed?_eq_map rfl rfl, hports]
      exact hbefore
    | left _ hcontact hlookup =>
      rw [hlookup, hcontact]
      exact (Contact.listed?_eq_none rfl).symm
    | @advertised c record port hjoined he hafter =>
      subst he
      have hcontact : (s.setTime now).registry.contact? f = some record.contact :=
        Registry.contact?_of_get? hjoined.get?_eq
      rw [hafter, Coordinator.registry_onAddressAd, hcontact]
      exact run.lookup_onAddressAd now (joined_setTime.1 hjoined) port
    | @probed c record address hjoined he hcontact hlookup =>
      have hbefore : s.registry.contact? f = some record.contact :=
        Registry.contact?_of_get? hjoined.get?_eq
      have hregister := Coordinator.contact_registerClock record address
      rw [hbefore] at ih
      have hports := run.ports_eq_of_not_advertised (f := f) now e fun c port heq =>
        nomatch heq.symm.trans he.event
      rw [hlookup, hcontact, hports, Option.bind_some,
        Contact.listed?_congr hregister.1 hregister.2]
      exact ih
    | timed he hafter =>
      have hports := run.ports_eq_of_not_advertised (f := f) now e fun c port heq =>
        nomatch heq.symm.trans he
      rw [hafter, hports]
      exact ih

/-- Where a joined federate is listed. -/
theorem lookup_of_connection? (run : Run t settings history s)
    (hc : s.registry.connection? f = some c) :
    ∃ peer, openings c history = [peer] ∧ s.directory.lookup f =
      (ports c f (.ofTopology t settings) history).getLast?.map fun port =>
        ⟨peer.ip.toIpv4, port⟩ := by
  obtain ⟨record, hjoined⟩ := run.consistent.exists_joined ((run.consistent.joined_iff c f).2 hc)
  obtain ⟨peer, hopenings, hhost⟩ := run.openings_of_joined hjoined
  refine ⟨peer, hopenings, ?_⟩
  rw [run.lookup_eq_listed, Registry.contact?_of_get? hjoined.get?_eq]
  exact Contact.listed?_eq_map hjoined.connection hhost

/-- Nobody else is listed. -/
theorem exists_connection?_of_lookup (run : Run t settings history s) {address : PeerAddress}
    (h : s.directory.lookup f = some address) : ∃ c, s.registry.connection? f = some c := by
  rw [run.lookup_eq_listed] at h
  obtain ⟨contact, hcontact, hlisted⟩ := Option.bind_eq_some_iff.1 h
  cases hconnection : contact.connection with
  | none =>
    rw [Contact.listed?_eq_none hconnection] at hlisted
    cases hlisted
  | some c =>
    refine ⟨c, ?_⟩
    rw [Registry.connection?_eq_contact?, hcontact]
    exact hconnection

end Run

/-- The source advertises a port and loses its connection; it comes back from the own host and
advertises two more. The sink advertises nothing. -/
def Relay.movedEvents : List Event :=
  [.connectionOpened ⟨0⟩ (.v6 (.mapping ⟨10, 0, 0, 7⟩) 0 40000),
    .messageReceived ⟨0⟩ (.join ⟨0⟩ "relay"), .messageReceived ⟨0⟩ (.addressAd 7000),
    .connectionLost ⟨0⟩, .connectionOpened ⟨1⟩ (.v4 ⟨192, 168, 0, 9⟩ 40001),
    .messageReceived ⟨1⟩ (.join ⟨1⟩ "relay"), .connectionOpened ⟨2⟩ (.v6 .loopback 0 40002),
    .messageReceived ⟨2⟩ (.join ⟨0⟩ "relay"), .messageReceived ⟨2⟩ (.addressAd 7001),
    .messageReceived ⟨2⟩ (.addressAd 7002)]

def Relay.movedHistory : List Moment :=
  (Coordinator.ofTopology plan.graph {}).trace movedEvents

def Relay.movedState : Coordinator :=
  ((Coordinator.ofTopology plan.graph {}).handleAll movedEvents).1

theorem Relay.run_moved : Run plan.graph {} movedHistory movedState := .run_trace (by decide)

namespace Run

variable {t : Topology} {settings : CoordinatorSettings} {history : List Moment} {s : Coordinator}

/-- A federate is listed if it is joined and has advertised a port in its present session. It is
then listed at the last port that it advertised there, and at the IPv4 form of the address that its
connection was opened from. A query, for whomever, is answered to who asks and to nobody else, with
what is listed, or without a port where nothing is. -/
theorem lookup_reflects_sessions (run : Run t settings history s) :
    (∀ f, (s.directory.lookup f).isSome ↔ ∃ c, s.registry.connection? f = some c ∧
      ports c f (.ofTopology t settings) history ≠ []) ∧
    (∀ f address, s.directory.lookup f = some address → ∃ c peer,
      s.registry.connection? f = some c ∧ openings c history = [peer] ∧
      (ports c f (.ofTopology t settings) history).getLast? = some address.port ∧
      peer.ip.HasIpv4Form address.ip) ∧
    ∀ c f target now, s.federateOf c = some f →
      (s.setTime now).handle (.messageReceived c (.addressQuery target)) =
        (s.setTime now, [.send c (match s.directory.lookup target with
          | some address => .addressQueryReply (some address.port) address.ip
          | none => .addressQueryReply none ⟨0, 0, 0, 0⟩)]) := by
  refine ⟨fun f => ⟨fun h => ?_, ?_⟩, fun f address h => ?_, fun c f target now hf => ?_⟩
  · obtain ⟨address, haddress⟩ := Option.isSome_iff_exists.1 h
    obtain ⟨c, hc⟩ := run.exists_connection?_of_lookup haddress
    refine ⟨c, hc, fun hnil => ?_⟩
    obtain ⟨peer, -, hlookup⟩ := run.lookup_of_connection? hc
    rw [hlookup, hnil] at haddress
    cases haddress
  · rintro ⟨c, hc, hports⟩
    obtain ⟨peer, -, hlookup⟩ := run.lookup_of_connection? hc
    rw [hlookup, Option.isSome_map, List.getLast?_isSome]
    exact hports
  · obtain ⟨c, hc⟩ := run.exists_connection?_of_lookup h
    obtain ⟨peer, hopenings, hlookup⟩ := run.lookup_of_connection? hc
    rw [hlookup] at h
    obtain ⟨port, hport, rfl⟩ := Option.map_eq_some_iff.1 h
    exact ⟨c, peer, hc, hopenings, hport, IpAddress.hasIpv4Form_iff.2 rfl⟩
  · obtain ⟨record, hjoined⟩ := run.consistent.exists_joined_of_federateOf hf
    have hjoined' : (s.setTime now).Joined c f record := joined_setTime.2 hjoined
    have hsent : (s.setTime now).sendTo f (s.directory.reply target) =
        [.send c (s.directory.reply target)] := by
      rw [Coordinator.sendTo, hjoined'.connection?_eq]
      rfl
    rw [hjoined'.handle_message]
    exact congrArg (Prod.mk (s.setTime now)) hsent

/-- The sink asks for the source, and is told where it is now. -/
theorem lookup_reflects_sessions_relay :
    let s := Relay.movedState
    let start := Coordinator.ofTopology Relay.plan.graph {}
    Run Relay.plan.graph {} Relay.movedHistory s ∧ s.federateOf ⟨1⟩ = some ⟨1⟩ ∧
    s.directory.lookup ⟨0⟩ = some ⟨⟨127, 0, 0, 1⟩, 7002⟩ ∧ s.directory.lookup ⟨1⟩ = none ∧
    (∃ c peer, s.registry.connection? ⟨0⟩ = some c ∧
      openings c Relay.movedHistory = [peer] ∧
      (ports c ⟨0⟩ start Relay.movedHistory).getLast? = some 7002 ∧
      peer.ip.HasIpv4Form ⟨127, 0, 0, 1⟩) ∧
    (s.setTime 0).handle (.messageReceived ⟨1⟩ (.addressQuery ⟨0⟩)) =
      (s.setTime 0, [.send ⟨1⟩ (.addressQueryReply (some 7002) ⟨127, 0, 0, 1⟩)]) := by
  intro s start
  have hsink : s.federateOf ⟨1⟩ = some ⟨1⟩ := by decide +kernel
  have hsource : s.directory.lookup ⟨0⟩ = some ⟨⟨127, 0, 0, 1⟩, 7002⟩ := by decide +kernel
  obtain ⟨-, hlisted, hquery⟩ := Relay.run_moved.lookup_reflects_sessions
  refine ⟨Relay.run_moved, hsink, hsource, by decide +kernel, hlisted _ _ hsource, ?_⟩
  have hanswer := hquery ⟨1⟩ ⟨1⟩ ⟨0⟩ 0 hsink
  rw [hsource] at hanswer
  exact hanswer

end Run

end FederatedTime
