import FederatedTime.Proofs.Coordinator.Isolation

/-!
# How federates are reached

Beside its connection, a federate may be reached where it accepts peers, which is known from the
host that it joined from and the port that it advertises, and where its clock is synchronised.
`Affects` lists what an event does to all that is known of one federate in this way, and
`handle_affects` is that nothing else happens to it.
-/

namespace FederatedTime

/-- Where a federate is joined, and what is known there of its host and of its clock. -/
structure Contact where
  connection : Option ConnectionId
  host : Option IpAddress
  mode : ExecutionMode
  udpAddress : Option SocketAddress
deriving DecidableEq

def FederateRecord.contact (record : FederateRecord) : Contact :=
  ⟨record.connection, record.host, record.mode, record.udpAddress⟩

/-! ## Contacts in a registry -/

namespace Registry

variable {r : Registry} {f g : FederateId} {record : FederateRecord}
variable {change : FederateRecord → FederateRecord}

def contact? (r : Registry) (f : FederateId) : Option Contact := (r.get? f).map (·.contact)

theorem contact?_of_get? (h : r.get? f = some record) : r.contact? f = some record.contact := by
  rw [contact?, h]
  rfl

theorem contact_settle (granted : Option Tag) (record : FederateRecord) :
    (settle granted record).contact = record.contact := by
  unfold settle FederateRecord.refresh
  split <;> rfl

theorem contact?_sweep (r : Registry) (stop : Option Tag) (seeds : List FederateId)
    (f : FederateId) : (r.sweep stop seeds).1.contact? f = r.contact? f :=
  map_get?_sweep contact_settle f

theorem contact?_modify_self (h : r.get? f = some record) :
    (r.modify f change).contact? f = some (change record).contact := by
  rw [contact?, get?_modify, if_pos rfl, h]
  rfl

theorem contact?_modify_of_ne (h : f ≠ g) : (r.modify f change).contact? g = r.contact? g := by
  rw [contact?, get?_modify, if_neg h]
  rfl

theorem contact?_modify_of_eq (h : r.get? f = some record)
    (hcontact : (change record).contact = record.contact) (g : FederateId) :
    (r.modify f change).contact? g = r.contact? g := by
  by_cases hfg : f = g
  · subst hfg
    rw [contact?_modify_self h, contact?_of_get? h, hcontact]
  · exact contact?_modify_of_ne hfg

theorem connection?_eq_contact? (r : Registry) (f : FederateId) :
    r.connection? f = (r.contact? f).bind (·.connection) := by
  unfold connection? contact?
  cases r.get? f <;> rfl

end Registry

/-! ## Entries of a federate -/

theorem Roster.getD_set_self {α : Type} (r : Roster (Option α)) (f : FederateId) :
    (r.set f none).getD f none = none := by
  unfold getD
  rw [get?_set, if_pos rfl]
  cases r.get? f <;> rfl

theorem Directory.lookup_forget_self (d : Directory) (f : FederateId) :
    (d.forget f).lookup f = none := d.entries.getD_set_self f

theorem Directory.lookup_advertise_self {d : Directory} {f : FederateId}
    (h : f.index < d.entries.size) (host : IpAddress) (port : UInt16) :
    (d.advertise f host port).lookup f = some ⟨host.toIpv4, port⟩ := by
  unfold advertise lookup Roster.getD
  rw [Roster.get?_set_self h]
  rfl

theorem ClockSchedule.cycle?_forget_self (s : ClockSchedule) (f : FederateId) :
    (s.forget f).cycle? f = none := s.cycles.getD_set_self f

theorem ClockSchedule.cycle?_probe_of_ne {s : ClockSchedule} {f g : FederateId} (h : g ≠ f)
    (now : Duration) (address : SocketAddress) :
    (s.probe now f address).1.cycle? g = s.cycle? g := by
  unfold probe
  dsimp only
  split
  · split
    · rfl
    · split
      · exact cycle?_setCycle_of_ne h _
      · exact cycle?_setCycle_of_ne h _
  · rfl

namespace ClockSchedule

theorem settings_probe (s : ClockSchedule) (now : Duration) (f : FederateId)
    (address : SocketAddress) : (s.probe now f address).1.settings = s.settings := by
  unfold probe
  dsimp only
  split
  · split
    · rfl
    · split <;> rfl
  · rfl

theorem settings_openCycle (s : ClockSchedule) (now : Duration) (f : FederateId)
    (address : SocketAddress) : (s.openCycle now f address).1.settings = s.settings := by
  unfold openCycle
  extract_lets isFree
  cases isFree <;> rfl

theorem settings_openCycles (s : ClockSchedule) (now : Duration)
    (targets : List (FederateId × SocketAddress)) :
    (s.openCycles now targets).1.settings = s.settings := by
  induction targets generalizing s with
  | nil => rfl
  | cons target targets ih => exact (ih _).trans (settings_openCycle s now target.1 target.2)

theorem settings_timer (s : ClockSchedule) (now : Duration)
    (targets : List (FederateId × SocketAddress)) :
    (s.timer now targets).1.settings = s.settings := by
  unfold timer
  split
  · exact settings_openCycles s now targets
  · rfl

end ClockSchedule

/-! ## One event -/

namespace Coordinator

variable {s s' : Coordinator} {e : Event} {out : Step} {c : ConnectionId} {f g : FederateId}
variable {record : FederateRecord}

/-- A datagram of `f` that asks for the time gets an answer. -/
structure Probes (s : Coordinator) (e : Event) (f : FederateId) (address : SocketAddress) :
    Prop where
  event : e = .clockSyncProbe f address
  enabled : s.clock.isEnabled = true
  connected : s.registry.isConnected f = true

/-- Nothing changes of how `f` is reached. -/
structure KeepsReach (s : Coordinator) (f : FederateId) (s' : Coordinator) : Prop where
  contact : s'.registry.contact? f = s.registry.contact? f
  lookup : s'.directory.lookup f = s.directory.lookup f
  cycle : s'.clock.cycle? f = s.clock.cycle? f

/-- What an event does to how `f` is reached. -/
inductive Affects (s : Coordinator) (e : Event) (f : FederateId) (s' : Coordinator) : Prop
  | kept (hkept : s.KeepsReach f s')
      (had : ∀ c port, e = .messageReceived c (.addressAd port) → s.federateOf c ≠ some f)
      (hprobe : ∀ address, ¬ s.Probes e f address)
  | joined {c : ConnectionId} {peer : SocketAddress} {record : FederateRecord}
      (h : s.sessions.get? c = some (.handshaking peer)) (hf : s.registry.get? f = some record)
      (hrecord : ¬ record.isConnected)
      (hcontact : s'.registry.contact? f = some ⟨some c, some peer.ip, .fast, none⟩)
      (hlookup : s'.directory.lookup f = s.directory.lookup f)
      (hcycle : s'.clock.cycle? f = s.clock.cycle? f)
  | left {c : ConnectionId} {record : FederateRecord} (h : s.Joined c f record)
      (hcontact : s'.registry.contact? f = some record.leave.contact)
      (hlookup : s'.directory.lookup f = none) (hcycle : s'.clock.cycle? f = none)
  | advertised {c : ConnectionId} {record : FederateRecord} {port : UInt16}
      (h : s.Joined c f record) (he : e = .messageReceived c (.addressAd port))
      (hafter : s' = s.onAddressAd f port)
  | probed {c : ConnectionId} {record : FederateRecord} {address : SocketAddress}
      (h : s.Joined c f record) (he : s.Probes e f address)
      (hcontact : s'.registry.contact? f = some (registerClock address record).contact)
      (hlookup : s'.directory.lookup f = s.directory.lookup f)
  | timed (he : e = .clockSyncTimer) (hafter : s' = s.onClockSyncTimer.1)

theorem keepsReach_of_contact?_eq (h : s'.registry.contact? f = s.registry.contact? f)
    (hdirectory : s'.directory = s.directory) (hclock : s'.clock = s.clock) :
    s.KeepsReach f s' := by
  refine ⟨h, ?_, ?_⟩
  · rw [hdirectory]
  · rw [hclock]

theorem keepsReach_contribute (h : s.registry.get? g = some record)
    (result : StopNegotiation × StopOutcome) (f : FederateId) :
    s.KeepsReach f (s.contribute g result).1 := by
  rcases contribute_fst s g result with heq | heq | heq
  · rw [heq]
    exact ⟨rfl, rfl, rfl⟩
  · rw [heq]
    exact ⟨rfl, rfl, rfl⟩
  · rw [heq]
    exact ⟨Registry.contact?_modify_of_eq h rfl f, rfl, rfl⟩

theorem keepsReach_advance {change : FederateRecord → FederateRecord}
    (h : s.registry.get? g = some record) (hcontact : (change record).contact = record.contact)
    (seeds : List FederateId) (f : FederateId) :
    s.KeepsReach f ({ s with registry := s.registry.modify g change }.advance seeds).1 :=
  keepsReach_of_contact?_eq
    ((Registry.contact?_sweep _ _ _ f).trans (Registry.contact?_modify_of_eq h hcontact f)) rfl rfl

theorem contact?_depart (h : s.registry.get? g = some record) (c : ConnectionId)
    (f : FederateId) : (s.depart g c).1.registry.contact? f =
      (s.registry.modify g (·.leave)).contact? f := by
  rw [depart_fst h]
  exact Registry.contact?_sweep _ _ _ f

/-- The end of another session leaves `f` alone, that of its own leaves nothing to reach it by. -/
theorem affects_depart (h : s.Joined c g record)
    (hkept : s.KeepsReach f (s.depart g c).1 → s.Affects e f (s.depart g c).1) :
    s.Affects e f (s.depart g c).1 := by
  have hcontact := contact?_depart h.get?_eq c f
  by_cases hgf : g = f
  · subst hgf
    rw [Registry.contact?_modify_self h.get?_eq] at hcontact
    refine .left h hcontact ?_ ?_
    · rw [depart_fst h.get?_eq]
      exact s.directory.lookup_forget_self g
    · rw [depart_fst h.get?_eq]
      exact s.clock.cycle?_forget_self g
  · rw [Registry.contact?_modify_of_ne hgf] at hcontact
    refine hkept ⟨hcontact, ?_, ?_⟩
    · rw [depart_fst h.get?_eq]
      exact Directory.lookup_forget_of_ne (Ne.symm hgf)
    · rw [depart_fst h.get?_eq]
      exact ClockSchedule.cycle?_forget_of_ne (Ne.symm hgf)

theorem contact_registerClock (record : FederateRecord) (address : SocketAddress) :
    (registerClock address record).contact.connection = record.contact.connection ∧
      (registerClock address record).contact.host = record.contact.host := by
  unfold registerClock
  split <;> exact ⟨rfl, rfl⟩

theorem isConnected_registerClock (record : FederateRecord) (address : SocketAddress) :
    (registerClock address record).isConnected = record.isConnected :=
  (record.alike_registerClock address).isConnected

theorem udpAddress_registerClock (record : FederateRecord) (address : SocketAddress) :
    (registerClock address record).udpAddress = some address := by
  unfold registerClock
  split
  · assumption
  · rfl

/-- The mode goes by whether an address is known, as long as it has done so before. -/
theorem mode_registerClock {record : FederateRecord} (address : SocketAddress)
    (h : record.mode = .realtime ↔ record.udpAddress.isSome) :
    (registerClock address record).mode = .realtime := by
  unfold registerClock
  split
  · rename_i haddress
    exact h.2 (by rw [haddress]; rfl)
  · rfl

theorem onClockSyncProbe_of_enabled {address : SocketAddress} (henabled : s.clock.isEnabled = true)
    (hconnected : s.registry.isConnected f = true) : s.onClockSyncProbe f address =
      ({ s with
        registry := s.registry.modify f (registerClock address)
        clock := (s.clock.probe s.now f address).1 }, (s.clock.probe s.now f address).2) := by
  unfold onClockSyncProbe
  rw [henabled, hconnected]
  rfl

theorem Probes.registry_handle {address : SocketAddress} (h : s.Probes e f address) :
    (s.handle e).1.registry = s.registry.modify f (registerClock address) := by
  have hhandle : s.handle e = s.onClockSyncProbe f address := by rw [h.event]; rfl
  rw [hhandle, onClockSyncProbe_of_enabled h.enabled h.connected]

/-- What `f` neither advertises nor asks by may be its join or its departure, or the timer, and
otherwise leaves `f` alone. -/
theorem Transition.affects (h : Transition s e out)
    (had : ∀ c port, e = .messageReceived c (.addressAd port) → s.federateOf c ≠ some f)
    (hprobe : ∀ address, ¬ s.Probes e f address) : s.Affects e f out.1 := by
  have kept {s' : Coordinator} (hkept : s.KeepsReach f s') : s.Affects e f s' :=
    .kept hkept had hprobe
  cases h with
  | opened | ignored | closed | refused | abandoned | forwardedUntimed | forwardedTimed
  | queried => exact kept ⟨rfl, rfl, rfl⟩
  | @admitted c peer g federationId record h _ hg hrecord =>
    by_cases hgf : g = f
    · subst hgf
      exact .joined h hg hrecord (Registry.contact?_modify_self hg) rfl rfl
    · exact kept ⟨Registry.contact?_modify_of_ne hgf, rfl, rfl⟩
  | proposed =>
    rw [onTimestamp, settleStart_fst]
    exact kept ⟨rfl, rfl, rfl⟩
  | nextEvent h | completed h => exact kept (keepsReach_advance h.get?_eq rfl _ f)
  | requested _ h | replied _ h => exact kept (keepsReach_contribute h.get?_eq _ f)
  | @advertised c g record port h =>
    have hgf : f ≠ g := fun heq => had c port rfl (heq ▸ federateOf_eq_some_iff.2 h.session)
    refine kept ?_
    dsimp only
    unfold onAddressAd
    split
    · exact ⟨rfl, Directory.lookup_advertise_of_ne hgf _ port, rfl⟩
    · exact ⟨rfl, rfl, rfl⟩
  | departed h => exact affects_depart h kept
  | expelled _ h => exact affects_depart h kept
  | @probed g record address h hconnected =>
    have hg : s.registry.isConnected g = true := by
      rw [Registry.isConnected_eq_flag, Registry.flag_of_get? h]
      exact hconnected
    by_cases henabled : s.clock.isEnabled = true
    · have hgf : g ≠ f := fun heq => hprobe address ⟨heq ▸ rfl, henabled, heq ▸ hg⟩
      rw [onClockSyncProbe_of_enabled henabled hg]
      exact kept ⟨Registry.contact?_modify_of_ne hgf, rfl,
        ClockSchedule.cycle?_probe_of_ne (Ne.symm hgf) _ _⟩
    · unfold onClockSyncProbe
      rw [if_neg fun hboth => henabled (Bool.and_eq_true_iff.1 hboth).1]
      exact kept ⟨rfl, rfl, rfl⟩
  | timer => exact .timed rfl rfl

/-- The directory keeps its size, and the clocks their settings. -/
structure KeepsTables (s s' : Coordinator) : Prop where
  size_directory : s'.directory.entries.size = s.directory.entries.size
  settings_clock : s'.clock.settings = s.clock.settings

theorem keepsTables_depart (h : s.registry.get? f = some record) (c : ConnectionId) :
    s.KeepsTables (s.depart f c).1 := by
  rw [depart_fst h]
  exact ⟨Roster.size_set _ _ _, rfl⟩

theorem Transition.keepsTables (h : Transition s e out) : s.KeepsTables out.1 := by
  cases h with
  | opened | ignored | closed | refused | abandoned | admitted | nextEvent | completed
  | forwardedUntimed | forwardedTimed | queried => exact ⟨rfl, rfl⟩
  | proposed =>
    rw [onTimestamp, settleStart_fst]
    exact ⟨rfl, rfl⟩
  | @requested _ g _ time | @replied _ g _ time =>
    rcases contribute_fst s g _ with heq | heq | heq
    all_goals exact ⟨congrArg (·.directory.entries.size) heq, congrArg (·.clock.settings) heq⟩
  | @advertised _ g _ port =>
    dsimp only
    unfold onAddressAd
    split
    · exact ⟨Roster.size_set _ _ _, rfl⟩
    · exact ⟨rfl, rfl⟩
  | departed h | expelled _ h => exact keepsTables_depart h.get?_eq _
  | @probed g _ address =>
    unfold onClockSyncProbe
    split
    · exact ⟨rfl, ClockSchedule.settings_probe _ _ _ _⟩
    · exact ⟨rfl, rfl⟩
  | timer => exact ⟨rfl, ClockSchedule.settings_timer _ _ _⟩

theorem handle_affects (hs : s.Consistent) (e : Event) (f : FederateId) :
    s.Affects e f (s.handle e).1 := by
  by_cases had : ∃ c port, e = .messageReceived c (.addressAd port) ∧ s.federateOf c = some f
  · obtain ⟨c, port, rfl, hf⟩ := had
    obtain ⟨record, hjoined⟩ := hs.exists_joined_of_federateOf hf
    refine .advertised hjoined rfl ?_
    rw [hjoined.handle_message]
    rfl
  by_cases hprobe : ∃ address, s.Probes e f address
  · obtain ⟨address, hprobes⟩ := hprobe
    obtain ⟨c, record, hjoined⟩ := hs.isConnected_iff.1 hprobes.connected
    have hhandle : s.handle e = s.onClockSyncProbe f address := by rw [hprobes.event]; rfl
    rw [hhandle, onClockSyncProbe_of_enabled hprobes.enabled hprobes.connected]
    exact .probed hjoined hprobes (Registry.contact?_modify_self hjoined.get?_eq) rfl
  · exact (handle_transition hs e).affects
      (fun c port he hf => had ⟨c, port, he, hf⟩) (not_exists.1 hprobe)

end Coordinator

end FederatedTime
