import FederatedTime.Proofs.Coordinator.Membership
import FederatedTime.Proofs.Topology.WellFormed

/-!
# Federates do not disturb each other

An event on the connection of one federate changes the record of that federate, its session, its
entry in the directory and its clock cycle. Everybody else may at most be granted more by it, and
only who depends on that federate, through however many others (`Run.isolated`).
-/

namespace FederatedTime

/-! ## What grants change of a record -/

namespace FederateRecord

/-- The second record may have come of the first by a grant: there is at most a later last grant,
and the state that goes with it. -/
structure Spared (a b : FederateRecord) : Prop where
  eq : b = { a with state := b.state, lastGranted := b.lastGranted }
  le_lastGranted : a.lastGranted ≤ b.lastGranted
  state : b.state = a.state ∨ a.state = .granted ∧ b.state = .pending ∨
    a.state = .pending ∧ b.state = .granted

theorem Spared.refl (a : FederateRecord) : a.Spared a := ⟨rfl, le_refl _, Or.inl rfl⟩

/-- A refresh has only the two states of a joined federate to choose from. -/
theorem spared_refresh (a : FederateRecord) : a.Spared a.refresh := by
  unfold refresh
  split
  · rename_i hconnected
    refine ⟨rfl, le_refl _, ?_⟩
    dsimp only
    unfold isConnected at hconnected
    cases hstate : a.state with
    | notConnected | resigned =>
      rw [hstate] at hconnected
      cases hconnected
    | granted | pending => split <;> simp
  · exact .refl a

end FederateRecord

namespace Registry

variable {r : Registry} {stop : Option Tag} {seeds : List FederateId} {f g : FederateId}
variable {record : FederateRecord}

theorem spared_settle {granted : Option Tag}
    (h : ∀ tag ∈ granted, record.lastGranted ≤ tag) : record.Spared (settle granted record) := by
  have hle : record.lastGranted ≤ granted.getD record.lastGranted := by
    cases granted with
    | none => exact le_refl _
    | some tag => exact h tag rfl
  have hrefresh := FederateRecord.spared_refresh
    { record with lastGranted := granted.getD record.lastGranted }
  exact ⟨hrefresh.eq, hle.trans hrefresh.le_lastGranted, hrefresh.state⟩

/-- A sweep spares every record, and raises the last grants of federates that it meets. -/
theorem exists_spared_sweep (stop : Option Tag) (seeds : List FederateId)
    (hg : r.get? g = some record) : ∃ record', (r.sweep stop seeds).1.get? g = some record' ∧
      record.Spared record' ∧
      (record.lastGranted < record'.lastGranted → g ∈ r.concerned stop seeds) := by
  rw [get?_sweep, hg]
  split
  · rename_i hmem
    refine ⟨_, rfl, spared_settle fun tag htag => ?_, fun _ => hmem⟩
    obtain ⟨record', hrecord', -, hlt, -⟩ := raise?_eq_some_iff.1 htag
    obtain rfl := Option.some.inj (hg.symm.trans hrecord')
    exact le_of_lt hlt
  · exact ⟨record, rfl, .refl record, fun hlt => absurd hlt (lt_irrefl _)⟩

/-- Whom a sweep concerns is a seed, or depends on one. -/
theorem exists_seed_of_mem_concerned (ht : r.topology.WellFormed)
    (h : g ∈ r.concerned stop seeds) :
    ∃ f ∈ seeds, Relation.ReflTransGen r.topology.Feeds f g := by
  obtain ⟨f, hf, hpath⟩ := Graph.exists_seed_of_mem_reach h
  refine ⟨f, hf, Relation.ReflTransGen.mono (fun u d hd => ?_) f g hpath⟩
  split at hd
  · exact List.mem_map.1 ((ht.mem_downstream_iff u d).1 hd)
  · cases hd

end Registry

/-! ## One event -/

namespace Directory

variable {d : Directory} {f g : FederateId}

theorem lookup_forget_of_ne (h : g ≠ f) : (d.forget f).lookup g = d.lookup g := by
  unfold forget lookup Roster.getD
  rw [Roster.get?_set_ne (Ne.symm h)]

theorem lookup_advertise_of_ne (h : g ≠ f) (host : IpAddress) (port : UInt16) :
    (d.advertise f host port).lookup g = d.lookup g := by
  unfold advertise lookup Roster.getD
  rw [Roster.get?_set_ne (Ne.symm h)]

end Directory

theorem ClockSchedule.cycle?_setCycle_of_ne {s : ClockSchedule} {f g : FederateId} (h : g ≠ f)
    (cycle : Option ClockCycle) : (s.setCycle f cycle).cycle? g = s.cycle? g := by
  unfold setCycle cycle? Roster.getD
  rw [Roster.get?_set_ne (Ne.symm h)]

theorem ClockSchedule.cycle?_forget_of_ne {s : ClockSchedule} {f g : FederateId} (h : g ≠ f) :
    (s.forget f).cycle? g = s.cycle? g :=
  cycle?_setCycle_of_ne h none

namespace Coordinator

variable {s s' : Coordinator} {e : Event} {c : ConnectionId} {f g : FederateId}
variable {record : FederateRecord}

/-- What happens is a matter of `f` on `c`, apart from the grants that follow. -/
structure Confined (s : Coordinator) (c : ConnectionId) (f : FederateId) (s' : Coordinator) :
    Prop where
  sessions : s'.sessions = s.sessions ∨ s'.sessions = s.sessions.remove c
  registry : s'.registry = s.registry ∨ ∃ change stop seeds,
    (∀ g ∈ seeds, g = f ∨ g ∈ s.registry.topology.downstream f) ∧
      s'.registry = ((s.registry.modify f change).sweep stop seeds).1
  directory : ∀ g, g ≠ f → s'.directory.lookup g = s.directory.lookup g
  clock : ∀ g, g ≠ f → s'.clock.cycle? g = s.clock.cycle? g

/-- Nothing happens to the record of `f` either. -/
theorem confined_of_registry_eq (hsessions : s'.sessions = s.sessions)
    (hregistry : s'.registry = s.registry)
    (hdirectory : ∀ g, g ≠ f → s'.directory.lookup g = s.directory.lookup g)
    (hclock : s'.clock = s.clock) : s.Confined c f s' where
  sessions := Or.inl hsessions
  registry := Or.inl hregistry
  directory := hdirectory
  clock g _ := by rw [hclock]

theorem Confined.refl (s : Coordinator) (c : ConnectionId) (f : FederateId) : s.Confined c f s :=
  confined_of_registry_eq rfl rfl (fun _ _ => rfl) rfl

theorem confined_advance {change : FederateRecord → FederateRecord} {seeds : List FederateId}
    (hseeds : ∀ g ∈ seeds, g = f ∨ g ∈ s.registry.topology.downstream f) (c : ConnectionId) :
    s.Confined c f ({ s with registry := s.registry.modify f change }.advance seeds).1 where
  sessions := Or.inl rfl
  registry := Or.inr ⟨change, s.stopTag, seeds, hseeds, rfl⟩
  directory _ _ := rfl
  clock _ _ := rfl

theorem confined_contribute (s : Coordinator) (c : ConnectionId) (f : FederateId)
    (result : StopNegotiation × StopOutcome) : s.Confined c f (s.contribute f result).1 := by
  rcases contribute_fst s f result with h | h | h
  · rw [h]
    exact .refl s c f
  · rw [h]
    exact confined_of_registry_eq rfl rfl (fun _ _ => rfl) rfl
  · rw [h]
    refine ⟨Or.inl rfl, Or.inr ⟨({ · with stopCounted := true }), none, [], nofun, ?_⟩,
      fun _ _ => rfl, fun _ _ => rfl⟩
    rw [Registry.sweep_nil]

theorem confined_onAddressAd (s : Coordinator) (c : ConnectionId) (f : FederateId)
    (port : UInt16) : s.Confined c f (s.onAddressAd f port) := by
  unfold onAddressAd
  split
  · exact confined_of_registry_eq rfl rfl
      (fun g hg => Directory.lookup_advertise_of_ne hg _ port) rfl
  · exact .refl s c f

theorem confined_depart (h : s.registry.get? f = some record) (c : ConnectionId) :
    s.Confined c f (s.depart f c).1 := by
  rw [depart_fst h]
  exact ⟨Or.inr rfl, Or.inr ⟨_, _, _, fun g hg => Or.inr hg, rfl⟩,
    fun g hg => Directory.lookup_forget_of_ne hg,
    fun g hg => ClockSchedule.cycle?_forget_of_ne hg⟩

/-- Whatever comes of an event on the connection of a joined federate is a matter of that
federate. -/
theorem Transition.confined {out : Step} (h : Transition s e out) (hj : s.Joined c f record)
    (he : e.connection? = some c) (hopen : e.opens? ≠ some c) : s.Confined c f out.1 := by
  have unique {d : ConnectionId} {g : FederateId} {record' : FederateRecord}
      (hd : some d = some c) (hg : s.Joined d g record') : d = c ∧ g = f := by
    obtain rfl := Option.some.inj hd
    have hsession := hg.session.symm.trans hj.session
    exact ⟨rfl, Session.joined.inj (Option.some.inj hsession)⟩
  have waiting {d : ConnectionId} {peer : SocketAddress} (hd : some d = some c)
      (hpeer : s.sessions.get? d = some (.handshaking peer)) : False := by
    obtain rfl := Option.some.inj hd
    rw [hj.session] at hpeer
    cases hpeer
  cases h with
  | opened d peer => exact absurd he hopen
  | ignored | closed => exact .refl s c f
  | refused reason he' h => exact (waiting (he'.symm.trans he) h).elim
  | abandoned he' h => exact (waiting (he'.symm.trans he) h).elim
  | admitted h => exact (waiting he h).elim
  | proposed proposal h =>
    rw [onTimestamp, settleStart_fst]
    exact confined_of_registry_eq rfl rfl (fun _ _ => rfl) rfl
  | nextEvent h =>
    obtain ⟨rfl, rfl⟩ := unique he h
    exact confined_advance (fun g hg => Or.inl (List.mem_singleton.1 hg)) _
  | completed h =>
    obtain ⟨rfl, rfl⟩ := unique he h
    exact confined_advance (fun g hg => Or.inr hg) _
  | requested time h | replied time h =>
    obtain ⟨rfl, rfl⟩ := unique he h
    exact confined_contribute s _ _ _
  | forwardedUntimed | forwardedTimed | queried => exact .refl s c f
  | advertised port h =>
    obtain ⟨rfl, rfl⟩ := unique he h
    exact confined_onAddressAd s _ _ port
  | @departed _ d g record' h he' =>
    have hd : e.connection? = some d := by rcases he' with rfl | rfl <;> rfl
    obtain ⟨rfl, rfl⟩ := unique (hd.symm.trans he) h
    exact confined_depart h.get?_eq _
  | expelled he' h =>
    obtain ⟨rfl, rfl⟩ := unique (he'.symm.trans he) h
    exact confined_depart h.get?_eq _
  | probed | timer => cases he

theorem Confined.joined_iff (h : s.Confined c f s') (hc : s.sessions.get? c = some (.joined f))
    (hne : g ≠ f) (d : ConnectionId) :
    s'.sessions.get? d = some (.joined g) ↔ s.sessions.get? d = some (.joined g) := by
  rcases h.sessions with heq | heq
  · rw [heq]
  · rw [heq, Sessions.get?_remove]
    split
    · rename_i hd
      rw [hd, hc]
      refine iff_of_false (fun hnone => nomatch hnone) fun hjoined => hne ?_
      exact (Session.joined.inj (Option.some.inj hjoined)).symm
    · rfl

/-- The others are spared, and those of them that are granted more depend on `f`. -/
theorem Confined.spared (ht : s.registry.topology.WellFormed) (h : s.Confined c f s')
    (hne : g ≠ f) (hg : s.registry.get? g = some record) :
    ∃ record', s'.registry.get? g = some record' ∧ record.Spared record' ∧
      (record.lastGranted < record'.lastGranted →
        Relation.TransGen s.registry.topology.Feeds f g) := by
  rcases h.registry with heq | ⟨change, stop, seeds, hseeds, heq⟩
  · rw [heq]
    exact ⟨record, hg, .refl record, fun hlt => absurd hlt (lt_irrefl _)⟩
  · have hmiddle : (s.registry.modify f change).get? g = some record := by
      rw [Registry.get?_modify, if_neg (Ne.symm hne), hg]
    obtain ⟨record', hrecord', hspared, hconcerned⟩ :=
      Registry.exists_spared_sweep stop seeds hmiddle
    rw [heq]
    refine ⟨record', hrecord', hspared, fun hlt => ?_⟩
    obtain ⟨u, hu, hpath⟩ :=
      Registry.exists_seed_of_mem_concerned (r := s.registry.modify f change) ht (hconcerned hlt)
    rcases hseeds u hu with rfl | hdown
    · exact (Relation.reflTransGen_iff_eq_or_transGen.1 hpath).resolve_left hne
    · exact .head' (List.mem_map.1 ((ht.mem_downstream_iff f u).1 hdown)) hpath

end Coordinator

namespace Run

variable {t : Topology} {settings : CoordinatorSettings} {history : List Moment} {s : Coordinator}

/-- Whatever happens on the connection of a joined federate leaves every other federate its session,
its entry in the directory, its clock cycle and its record, except that its last grant may rise. It
does so only for a federate that depends on the first one, at one or more removes. -/
theorem isolated {p : Topology.Plan} (hbuild : p.build = .ok t) (run : Run t settings history s)
    (now : Duration) {e : Event} (fresh : ∀ c ∈ e.opens?, c ∉ opened history) {c : ConnectionId}
    {f : FederateId} (he : e.connection? = some c) (hf : s.federateOf c = some f) :
    let after := ((s.setTime now).handle e).1
    ∀ g, g ≠ f →
      (∀ d, after.sessions.get? d = some (.joined g) ↔ s.sessions.get? d = some (.joined g)) ∧
      after.directory.lookup g = s.directory.lookup g ∧
      after.clock.cycle? g = s.clock.cycle? g ∧
      ∀ record, s.registry.get? g = some record →
        ∃ record', after.registry.get? g = some record' ∧ record.Spared record' ∧
          (record.lastGranted < record'.lastGranted → Relation.TransGen t.Feeds f g) := by
  intro after g hne
  have ht : (s.setTime now).registry.topology.WellFormed :=
    run.topology_eq.symm ▸ Topology.Plan.wellFormed_of_build hbuild
  obtain ⟨record, hjoined⟩ := run.consistent.exists_joined_of_federateOf hf
  have hopen : e.opens? ≠ some c := fun hc => fresh c hc (run.mem_opened_of_joined hjoined)
  have hconfined : (s.setTime now).Confined c f after :=
    (Coordinator.handle_transition (consistent_setTime run.consistent now) e).confined
      (joined_setTime.2 hjoined) he hopen
  refine ⟨hconfined.joined_iff hjoined.session hne, hconfined.directory g hne,
    hconfined.clock g hne, fun record' hg => ?_⟩
  have hspared := hconfined.spared ht hne hg
  rw [← run.topology_eq]
  exact hspared

/-- The source completes 20: the sink may then go on to 30, and keeps everything else. -/
theorem isolated_relay :
    let e : Event := .messageReceived ⟨0⟩ (.logicalTagComplete (.ofTime 20))
    let after := ((Relay.state.setTime 0).handle e).1
    e.connection? = some ⟨0⟩ ∧ e.opens? = none ∧ Relay.state.federateOf ⟨0⟩ = some ⟨0⟩ ∧
    (after.sessions.get? ⟨1⟩ = some (.joined ⟨1⟩) ↔
      Relay.state.sessions.get? ⟨1⟩ = some (.joined ⟨1⟩)) ∧
    ∃ record record', Relay.state.registry.get? ⟨1⟩ = some record ∧
      after.registry.get? ⟨1⟩ = some record' ∧ record.Spared record' ∧
      record.lastGranted = .ofTime 20 ∧ record'.lastGranted = .ofTime 30 ∧
      Relation.TransGen Relay.plan.graph.Feeds ⟨0⟩ ⟨1⟩ := by
  intro e after
  have hfederate : Relay.state.federateOf ⟨0⟩ = some ⟨0⟩ := by decide +kernel
  have hgranted : (Relay.state.registry.get? ⟨1⟩).map (·.lastGranted) = some (.ofTime 20) := by
    decide +kernel
  have hgranted' : (after.registry.get? ⟨1⟩).map (·.lastGranted) = some (.ofTime 30) := by
    decide +kernel
  obtain ⟨record, hrecord, hlast⟩ := Option.map_eq_some_iff.1 hgranted
  obtain ⟨hsession, -, -, hspared⟩ :=
    Relay.run.isolated Relay.build_eq 0 (e := e) nofun rfl hfederate ⟨1⟩ (by decide)
  obtain ⟨record', hrecord', hspares, hfeeds⟩ := hspared record hrecord
  have hlast' : record'.lastGranted = .ofTime 30 := by
    rw [hrecord'] at hgranted'
    exact Option.some.inj hgranted'
  refine ⟨rfl, rfl, hfederate, hsession ⟨1⟩, record, record', hrecord, hrecord', hspares, hlast,
    hlast', hfeeds ?_⟩
  rw [hlast, hlast']
  decide

end Run

end FederatedTime
