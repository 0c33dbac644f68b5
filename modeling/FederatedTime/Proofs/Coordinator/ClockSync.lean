import FederatedTime.Proofs.Coordinator.Datagrams
import FederatedTime.Proofs.Coordinator.Session

/-!
# Whose clock is synchronised

A datagram that asks for the time may come from anywhere, at any time, in the name of anybody. Who
is joined and has asked has the address that it asked from last in its present session, and nobody
else has one (`Run.synced`). Cycles and datagrams are for those alone
(`Run.clock_sync_of_probed`).
-/

namespace FederatedTime

open FederatedTime.Action (datagrams)

/-- Where `f`, which is joined on `c`, asks for the time from, if it is answered. -/
def Moment.probe? (c : ConnectionId) (f : FederateId) (m : Moment) (before : Coordinator) :
    Option SocketAddress :=
  match m.event with
  | .clockSyncProbe g address =>
    if g = f ∧ before.clock.isEnabled ∧ before.federateOf c = some f then some address else none
  | _ => none

/-- Where `f` asks for the time from in its session on `c`, in a history from `s` on. -/
def probes (c : ConnectionId) (f : FederateId) (s : Coordinator) (history : List Moment) :
    List SocketAddress :=
  gather (Moment.probe? c f) s history

/-- The address of a clock is the one that was last asked from, and known just in real time. -/
structure Contact.Synced (contact : Contact) (probes : ConnectionId → List SocketAddress) :
    Prop where
  udpAddress : ∀ c, contact.connection = some c → contact.udpAddress = (probes c).getLast?
  mode : contact.connection.isSome → (contact.mode = .realtime ↔ contact.udpAddress.isSome)

theorem Contact.synced_of_none {contact : Contact} (h : contact.connection = none)
    (probes : ConnectionId → List SocketAddress) : contact.Synced probes where
  udpAddress c hc := by
    rw [h] at hc
    cases hc
  mode hc := by
    rw [h] at hc
    cases hc

namespace Moment

variable {m : Moment} {s : Coordinator} {c : ConnectionId} {f : FederateId}

theorem probe?_eq_none (hs : s.Consistent) (h : ∀ address, ¬ s.Probes m.event f address) :
    m.probe? c f s = none := by
  unfold probe?
  split
  · rename_i g address hevent
    refine if_neg ?_
    rintro ⟨rfl, henabled, hf⟩
    obtain ⟨record, hjoined⟩ := hs.exists_joined_of_federateOf hf
    exact h address ⟨hevent, henabled, hjoined.isConnected⟩
  · rfl

theorem probe?_eq_some {address : SocketAddress} {record : FederateRecord}
    (hjoined : s.Joined c f record) (h : s.Probes m.event f address) :
    m.probe? c f s = some address := by
  rw [probe?, h.event]
  exact if_pos ⟨rfl, h.enabled, Coordinator.federateOf_eq_some_iff.2 hjoined.session⟩

theorem readsSession_probe? (c : ConnectionId) (f : FederateId) : ReadsSession c (probe? c f) := by
  intro m s hs
  unfold probe?
  split
  · refine if_neg fun h => hs f ?_
    exact Coordinator.federateOf_eq_some_iff.1 h.2.2
  · rfl

end Moment

namespace Run

variable {t : Topology} {settings : CoordinatorSettings} {history : List Moment} {s : Coordinator}
variable {c : ConnectionId} {f : FederateId}

theorem probes_append_singleton (run : Run t settings history s) (m : Moment) (c : ConnectionId)
    (f : FederateId) : probes c f (.ofTopology t settings) (history ++ [m]) =
      probes c f (.ofTopology t settings) history ++ (m.probe? c f s).toList :=
  run.gather_append_singleton _ m

theorem probes_eq_of_not_probes (run : Run t settings history s) (now : Duration) (e : Event)
    (h : ∀ address, ¬ (s.setTime now).Probes e f address) :
    (fun c => probes c f (.ofTopology t settings) (history ++ [(s.setTime now).moment e])) =
      fun c => probes c f (.ofTopology t settings) history := by
  funext c
  have hnone : ((s.setTime now).moment e).probe? c f s = none :=
    Moment.probe?_eq_none run.consistent fun address hprobe =>
      h address ⟨hprobe.event, hprobe.enabled, hprobe.connected⟩
  rw [run.probes_append_singleton, hnone]
  exact List.append_nil _

theorem settings_clock_eq (run : Run t settings history s) :
    s.clock.settings = settings.clockSync := by
  induction run with
  | start => rfl
  | event run now e fresh ih =>
    have hs := consistent_setTime run.consistent now
    exact (Coordinator.handle_transition hs e).keepsTables.settings_clock.trans ih

/-- What the registry has of a clock is what its federate asked from last. -/
theorem synced (run : Run t settings history s) {contact : Contact}
    (h : s.registry.contact? f = some contact) :
    contact.Synced fun c => probes c f (.ofTopology t settings) history := by
  induction run generalizing contact with
  | start =>
    obtain ⟨record, hrecord, rfl⟩ := Option.map_eq_some_iff.1 h
    rw [Coordinator.get?_ofTopology hrecord]
    exact Contact.synced_of_none rfl _
  | @event history s run now e fresh ih =>
    have hs := consistent_setTime run.consistent now
    cases Coordinator.handle_affects hs e f with
    | kept hkept _ hprobe =>
      rw [run.probes_eq_of_not_probes now e hprobe]
      exact ih (hkept.contact ▸ h)
    | @joined d peer _ hpeer _ _ hcontact =>
      obtain rfl := Option.some.inj (hcontact.symm.trans h)
      refine ⟨fun c hc => ?_, fun _ => iff_of_false nofun nofun⟩
      obtain rfl := Option.some.inj hc
      rw [probes, run.gather_append_eq_nil (Moment.readsSession_probe? d f) hpeer]
      rfl
    | left _ hcontact =>
      obtain rfl := Option.some.inj (hcontact.symm.trans h)
      exact Contact.synced_of_none rfl _
    | @advertised c _ port _ he hafter =>
      have hprobe (address : SocketAddress) : ¬ (s.setTime now).Probes e f address := fun hprobe =>
        nomatch he.symm.trans hprobe.event
      rw [run.probes_eq_of_not_probes now e hprobe]
      rw [hafter, Coordinator.registry_onAddressAd] at h
      exact ih h
    | @probed d record address hjoined hprobe hcontact =>
      obtain rfl := Option.some.inj (hcontact.symm.trans h)
      have hjoined := joined_setTime.1 hjoined
      have hbefore := ih (Registry.contact?_of_get? hjoined.get?_eq)
      have hregister := Coordinator.contact_registerClock record address
      have haddress := Coordinator.udpAddress_registerClock record address
      refine ⟨fun c hc => ?_, fun _ => iff_of_true ?_ ?_⟩
      · rw [hregister.1] at hc
        obtain rfl := Option.some.inj (hjoined.connection.symm.trans hc)
        have hread : ((s.setTime now).moment e).probe? d f s = some address :=
          Moment.probe?_eq_some hjoined ⟨hprobe.event, hprobe.enabled, hprobe.connected⟩
        rw [run.probes_append_singleton, hread, Option.toList_some, List.getLast?_concat]
        exact haddress
      · exact Coordinator.mode_registerClock address
          (hbefore.mode (Option.isSome_iff_exists.2 ⟨d, hjoined.connection⟩))
      · exact Option.isSome_iff_exists.2 ⟨address, haddress⟩
    | timed he hafter =>
      have hprobe (address : SocketAddress) : ¬ (s.setTime now).Probes e f address := fun hprobe =>
        nomatch he.symm.trans hprobe.event
      rw [run.probes_eq_of_not_probes now e hprobe]
      rw [hafter] at h
      exact ih h

/-- A cycle is in progress only with who is joined and has asked. -/
theorem exists_of_inCycle {p : Topology.Plan} (hbuild : p.build = .ok t)
    (run : Run t settings history s) (h : s.clock.inCycle f = true) :
    ∃ contact, s.registry.contact? f = some contact ∧ contact.connection.isSome ∧
      contact.mode = .realtime ∧ contact.udpAddress.isSome := by
  induction run with
  | start =>
    have hnone : (ClockSchedule.start settings.clockSync t.size).cycle? f = none := by
      unfold ClockSchedule.cycle? ClockSchedule.start Roster.getD
      rw [Roster.get?_replicate]
      split <;> rfl
    have hcycle : ((ClockSchedule.start settings.clockSync t.size).cycle? f).isSome = true := h
    rw [hnone] at hcycle
    cases hcycle
  | @event history s run now e fresh ih =>
    have hs := consistent_setTime run.consistent now
    have kept (hcycle : ((s.setTime now).handle e).1.clock.cycle? f = s.clock.cycle? f) :
        s.clock.inCycle f = true := by
      rw [ClockSchedule.inCycle, ← hcycle]
      exact h
    cases Coordinator.handle_affects hs e f with
    | kept hkept =>
      rw [hkept.contact]
      exact ih (kept hkept.cycle)
    | @joined _ _ record _ hrecord hconnected _ _ hcycle =>
      -- nobody joins who is in a cycle, since nobody joins who is joined
      obtain ⟨contact, hcontact, hconnection, -⟩ := ih (kept hcycle)
      have hbefore : s.registry.contact? f = some record.contact :=
        Registry.contact?_of_get? hrecord
      obtain rfl := Option.some.inj (hbefore.symm.trans hcontact)
      exact absurd ((hs.connected_iff f record hrecord).2 hconnection) hconnected
    | left _ _ _ hcycle =>
      rw [ClockSchedule.inCycle, hcycle] at h
      cases h
    | @advertised _ _ port _ _ hafter =>
      obtain ⟨directory, hdirectory⟩ := Coordinator.onAddressAd_eq (s.setTime now) f port
      rw [hafter, hdirectory] at h ⊢
      exact ih h
    | @probed d record address hjoined _ hcontact =>
      have hjoined := joined_setTime.1 hjoined
      have hconnection : record.connection.isSome :=
        Option.isSome_iff_exists.2 ⟨d, hjoined.connection⟩
      have hmode := (run.synced (Registry.contact?_of_get? hjoined.get?_eq)).mode hconnection
      refine ⟨_, hcontact, ?_, Coordinator.mode_registerClock address hmode, ?_⟩
      · rw [(Coordinator.contact_registerClock record address).1]
        exact hconnection
      · exact Option.isSome_iff_exists.2
          ⟨address, Coordinator.udpAddress_registerClock record address⟩
    | timed _ hafter =>
      rw [hafter] at h ⊢
      rcases ClockSchedule.inCycle_timer h with hbefore | ⟨address, hmem⟩
      · exact ih hbefore
      · have hsize := run.size_le hbuild
        obtain ⟨record, hrecord, hconnected, hmode, haddress⟩ :=
          (Coordinator.mem_clockTargets hs hsize).1 hmem
        exact ⟨record.contact, Registry.contact?_of_get? hrecord,
          (hs.connected_iff f record hrecord).1 hconnected, hmode,
          Option.isSome_iff_exists.2 ⟨address, haddress⟩⟩

/-- A datagram goes where the registry has the clock of a joined federate. -/
theorem exists_of_datagram {p : Topology.Plan} (hbuild : p.build = .ok t)
    (run : Run t settings history s) {m : Moment} (hm : m ∈ history) {address : SocketAddress}
    (h : (f, address) ∈ datagrams m.actions) : settings.clockSync.enabled = true ∧
      ∃ record, m.after.registry.get? f = some record ∧ record.isConnected = true ∧
        record.udpAddress = some address := by
  obtain ⟨earlier, before, now, run', fresh, hmoment⟩ := run.exists_of_mem hm
  have hs := consistent_setTime run'.consistent now
  have hs' := (run'.event now m.event fresh).consistent
  have henabled (h : (before.setTime now).clock.isEnabled = true) :
      settings.clockSync.enabled = true := by
    rw [← run'.settings_clock_eq]
    exact h
  generalize m.event = e at hmoment fresh hs'
  subst hmoment
  rcases Coordinator.handle_datagrams hs h with hprobe | ⟨rfl, henabled', hmem⟩
  · obtain ⟨c, record, hjoined⟩ := hs.isConnected_iff.1 hprobe.connected
    refine ⟨henabled hprobe.enabled, Coordinator.registerClock address record, ?_, ?_,
      Coordinator.udpAddress_registerClock record address⟩
    · show ((before.setTime now).handle e).1.registry.get? f = _
      rw [hprobe.registry_handle, Registry.get?_modify, if_pos rfl, hjoined.get?_eq]
      rfl
    · rw [Coordinator.isConnected_registerClock]
      exact hjoined.connected
  · have hsize := run'.size_le hbuild
    obtain ⟨record, hrecord, hconnected, -, haddress⟩ :=
      (Coordinator.mem_clockTargets hs hsize).1 hmem
    exact ⟨henabled henabled', record, hrecord, hconnected, haddress⟩

/-- Without synchronisation, nobody is in real time. -/
theorem mode_eq_fast (hdisabled : settings.clockSync.enabled = false)
    (run : Run t settings history s) {contact : Contact}
    (h : s.registry.contact? f = some contact) : contact.mode = .fast := by
  induction run generalizing contact with
  | start =>
    obtain ⟨record, hrecord, rfl⟩ := Option.map_eq_some_iff.1 h
    rw [Coordinator.get?_ofTopology hrecord]
    rfl
  | @event history s run now e fresh ih =>
    have hs := consistent_setTime run.consistent now
    cases Coordinator.handle_affects hs e f with
    | kept hkept => exact ih (hkept.contact ▸ h)
    | joined _ _ _ hcontact =>
      rw [← Option.some.inj (hcontact.symm.trans h)]
    | @left _ record hjoined hcontact =>
      have hmode : record.contact.mode = .fast :=
        ih (Registry.contact?_of_get? (joined_setTime.1 hjoined).get?_eq)
      rw [← Option.some.inj (hcontact.symm.trans h)]
      exact hmode
    | @advertised _ _ port _ _ hafter =>
      rw [hafter, Coordinator.registry_onAddressAd] at h
      exact ih h
    | probed _ hprobe =>
      have henabled : s.clock.settings.enabled = true := hprobe.enabled
      rw [run.settings_clock_eq, hdisabled] at henabled
      cases henabled
    | timed _ hafter =>
      rw [hafter] at h
      exact ih h

/-- Clock synchronisation is for who is joined and has asked for it. A cycle is in progress with
nobody else. A joined federate runs in real time if its clock has an address, and that is the one it
asked from last in its present session; every datagram goes to the address that the clock of a
joined federate has afterwards. Without synchronisation there are no datagrams, and nobody runs in
real time. -/
theorem clock_sync_of_probed {p : Topology.Plan} (hbuild : p.build = .ok t)
    (run : Run t settings history s) :
    (∀ f, s.clock.inCycle f = true → ∃ record, s.registry.get? f = some record ∧
      record.isConnected = true ∧ record.mode = .realtime ∧ record.udpAddress.isSome) ∧
    (∀ f record, s.registry.get? f = some record → record.isConnected = true →
      (record.mode = .realtime ↔ record.udpAddress.isSome) ∧
      ∃ c, record.connection = some c ∧
        record.udpAddress = (probes c f (.ofTopology t settings) history).getLast?) ∧
    (∀ m ∈ history, ∀ f address kind, .sendClockSync f address kind ∈ m.actions →
      ∃ record, m.after.registry.get? f = some record ∧ record.isConnected = true ∧
        record.udpAddress = some address) ∧
    (settings.clockSync.enabled = false →
      (∀ m ∈ history, ∀ f address kind, .sendClockSync f address kind ∉ m.actions) ∧
      ∀ f record, s.registry.get? f = some record → record.mode = .fast) := by
  have hs := run.consistent
  refine ⟨fun f h => ?_, fun f record hrecord hconnected => ?_, fun m hm f address kind h => ?_,
    fun hdisabled => ⟨fun m hm f address kind h => ?_, fun f record hrecord => ?_⟩⟩
  · obtain ⟨contact, hcontact, hconnection, hmode, haddress⟩ := run.exists_of_inCycle hbuild h
    obtain ⟨record, hrecord, rfl⟩ := Option.map_eq_some_iff.1 hcontact
    exact ⟨record, hrecord, (hs.connected_iff f record hrecord).2 hconnection, hmode, haddress⟩
  · have hsynced := run.synced (Registry.contact?_of_get? hrecord)
    have hconnection := (hs.connected_iff f record hrecord).1 hconnected
    obtain ⟨c, hc⟩ := Option.isSome_iff_exists.1 hconnection
    exact ⟨hsynced.mode hconnection, c, hc, hsynced.udpAddress c hc⟩
  · exact (run.exists_of_datagram hbuild hm (Action.mem_datagrams.2 ⟨kind, h⟩)).2
  · have henabled := (run.exists_of_datagram hbuild hm (Action.mem_datagrams.2 ⟨kind, h⟩)).1
    rw [hdisabled] at henabled
    cases henabled
  · exact run.mode_eq_fast hdisabled (Registry.contact?_of_get? hrecord)

end Run

namespace Relay

/-- Where the source asks for the time from, before and after it moves. -/
def clockAddress (moved : Bool) : SocketAddress :=
  .v4 ⟨10, 0, 0, if moved then 8 else 7⟩ 5000

/-- The source asks for the time before it joins, and again twice, the second time from elsewhere;
in between it is time for a cycle. -/
def clockEvents : List Event :=
  [.clockSyncProbe ⟨0⟩ (clockAddress false), .connectionOpened ⟨0⟩ default,
    .messageReceived ⟨0⟩ (.join ⟨0⟩ "relay"), .clockSyncProbe ⟨0⟩ (clockAddress false),
    .clockSyncTimer, .clockSyncProbe ⟨0⟩ (clockAddress true)]

def clockHistory (settings : CoordinatorSettings) : List Moment :=
  (Coordinator.ofTopology plan.graph settings).trace clockEvents

def clockState (settings : CoordinatorSettings) : Coordinator :=
  ((Coordinator.ofTopology plan.graph settings).handleAll clockEvents).1

theorem run_clock (settings : CoordinatorSettings) :
    Run plan.graph settings (clockHistory settings) (clockState settings) :=
  .run_trace (by decide)

end Relay

/-- The source has moved in the middle of a cycle, and is written to where it is now. Without
synchronisation the same events bring about nothing. -/
theorem Run.clock_sync_of_probed_relay :
    let s := Relay.clockState {}
    let start := Coordinator.ofTopology Relay.plan.graph {}
    let disabled : CoordinatorSettings := { clockSync := .disabled }
    Relay.plan.build = .ok Relay.plan.graph ∧
    Run Relay.plan.graph {} (Relay.clockHistory {}) s ∧ s.clock.inCycle ⟨0⟩ = true ∧
    (∃ record, s.registry.get? ⟨0⟩ = some record ∧ record.mode = .realtime ∧
      ∃ c, record.connection = some c ∧
        record.udpAddress = (probes c ⟨0⟩ start (Relay.clockHistory {})).getLast?) ∧
    (∃ m ∈ Relay.clockHistory {},
      .sendClockSync ⟨0⟩ (Relay.clockAddress true) .t1 ∈ m.actions ∧
      ∃ record, m.after.registry.get? ⟨0⟩ = some record ∧
        record.udpAddress = some (Relay.clockAddress true)) ∧
    ∀ m ∈ Relay.clockHistory disabled, ∀ f address kind,
      .sendClockSync f address kind ∉ m.actions := by
  intro s start disabled
  obtain ⟨hcycle, hmode, hsent, -⟩ := (Relay.run_clock {}).clock_sync_of_probed Relay.build_eq
  obtain ⟨-, -, -, hdisabled⟩ := (Relay.run_clock disabled).clock_sync_of_probed Relay.build_eq
  have hinCycle : s.clock.inCycle ⟨0⟩ = true := by decide +kernel
  have hwritten : ∃ m ∈ Relay.clockHistory {},
      .sendClockSync ⟨0⟩ (Relay.clockAddress true) .t1 ∈ m.actions := by decide +kernel
  obtain ⟨record, hrecord, hconnected, hrealtime, -⟩ := hcycle ⟨0⟩ hinCycle
  obtain ⟨m, hm, hsend⟩ := hwritten
  obtain ⟨record', hrecord', -, haddress⟩ := hsent m hm _ _ _ hsend
  exact ⟨Relay.build_eq, Relay.run_clock {}, hinCycle,
    ⟨record, hrecord, hrealtime, (hmode _ record hrecord hconnected).2⟩,
    ⟨m, hm, hsend, record', hrecord', haddress⟩, (hdisabled rfl).1⟩

end FederatedTime
