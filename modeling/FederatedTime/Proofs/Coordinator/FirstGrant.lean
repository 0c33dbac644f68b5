import FederatedTime.Proofs.Coordinator.GrantLiveness
import FederatedTime.Proofs.Coordinator.GrantSafety
import FederatedTime.Proofs.Coordinator.Startup

/-!
# The first grant

Nobody who depends on anybody is granted anything while a federation starts up, as nothing is known
of what is completed upstream. So something is granted if and only if some federate depends on
nobody (`Run.exists_grant_iff`). Without a cycle of dependencies, of whatever delays, there is such
a federate.
-/

namespace FederatedTime

/-! ## What is granted is sent -/

namespace Registry

variable {r r' : Registry} {stop : Option Tag} {gs : List Grant} {f : FederateId}
variable {record' : FederateRecord}

/-- A last grant goes up only by a grant to a joined federate. -/
theorem Update.grant_or_le (h : r.Update stop r' gs) (hf : r'.get? f = some record') :
    (record'.isConnected ∧ ⟨f, record'.lastGranted⟩ ∈ gs) ∨
      ∃ record, r.get? f = some record ∧ record'.lastGranted ≤ record.lastGranted := by
  cases h with
  | idle hr =>
    rw [hr] at hf
    exact Or.inr ⟨record', hf, le_refl _⟩
  | @change g old change seeds hg hchange hr hgs =>
    subst hr
    obtain ⟨middle, hmiddle, hsettled⟩ := get?_sweep_eq_some hf
    have hold : ∃ record, r.get? f = some record ∧ middle.lastGranted ≤ record.lastGranted := by
      rcases get?_modify_cases hg hmiddle with ⟨rfl, rfl⟩ | ⟨-, hrecord⟩
      · exact ⟨old, hg, hchange.lastGranted_le⟩
      · exact ⟨middle, hrecord, le_refl _⟩
    rcases hsettled with rfl | ⟨hconcerned, rfl⟩
    · exact Or.inr hold
    · cases hraise : (r.modify g change).raise? stop f with
      | none => exact Or.inr (by rw [lastGranted_settle]; exact hold)
      | some tag =>
        obtain ⟨middle', hmiddle', hconnected, -⟩ := raise?_eq_some_iff.1 hraise
        obtain rfl := Option.some.inj (hmiddle.symm.trans hmiddle')
        rw [isConnected_settle, lastGranted_settle, hgs]
        exact Or.inl ⟨hconnected, mem_grants_sweep.2 ⟨hconcerned, hraise⟩⟩

end Registry

namespace Run

open FederatedTime.Action (grants)

variable {t : Topology} {settings : CoordinatorSettings} {history : List Moment} {s : Coordinator}
variable {conn : FederateId → ConnectionId} {next : FederateId → Tag} {f : FederateId}

theorem exists_grant_of_lastGranted (run : Run t settings history s) {record : FederateRecord}
    (hf : s.registry.get? f = some record) (hgranted : record.lastGranted ≠ .never) :
    ∃ m ∈ history, ∃ c tag, .send c (.timeAdvanceGrant tag) ∈ m.actions := by
  induction run generalizing record with
  | start =>
    rw [Coordinator.get?_ofTopology hf] at hgranted
    exact absurd rfl hgranted
  | @event history s run now e fresh ih =>
    have hs' := (run.event now e fresh).consistent
    obtain ⟨gs, hupdate, hgrants⟩ := run.update now e
    rcases hupdate.grant_or_le hf with ⟨hconnected, hgrant⟩ | ⟨old, hold, hle⟩
    · obtain ⟨c, hc⟩ := Option.isSome_iff_exists.1 ((hs'.connected_iff f record hf).1 hconnected)
      have hconnection : ((s.setTime now).handle e).1.registry.connection? f = some c := by
        rw [Registry.connection?, hf]
        exact hc
      have hsent := Coordinator.mem_sent.2 ⟨f, hgrant, hconnection⟩
      rw [← hgrants] at hsent
      exact ⟨_, List.mem_append_right _ List.mem_cons_self, c, _, Action.mem_grants.1 hsent⟩
    · have hne : old.lastGranted ≠ .never :=
        Tag.never_lt_iff.1 (lt_of_lt_of_le (Tag.never_lt_iff.2 hgranted) hle)
      obtain ⟨m, hm, hgrant⟩ := ih hold hne
      exact ⟨m, List.mem_append_left _ hm, hgrant⟩

/-! ## Who is granted something -/

theorem exists_source_of_grant (run : Run t settings history s)
    (hstart : StartUp t conn next (history.map (·.event))) {m : Moment} (hm : m ∈ history)
    {c : ConnectionId} {tag : Tag} (hgrant : .send c (.timeAdvanceGrant tag) ∈ m.actions) :
    ∃ f, t.contains f ∧ t.upstream f = [] := by
  obtain ⟨earlier, later, rfl⟩ := List.append_of_mem hm
  obtain ⟨before, now, run', -, hmoment, run''⟩ := run.exists_of_append_cons
  rw [List.append_cons, List.map_append] at hstart
  have hstarting := run''.starting hstart
  obtain ⟨gs, hupdate, hgrants⟩ := run'.update now m.event
  have hactions : m.actions = ((before.setTime now).handle m.event).2 :=
    congrArg Moment.actions hmoment
  have hafter : m.after = ((before.setTime now).handle m.event).1 := congrArg Moment.after hmoment
  rw [← Action.mem_grants, hactions, hgrants] at hgrant
  obtain ⟨f, hf, -⟩ := Coordinator.mem_sent.1 hgrant
  obtain ⟨-, b, hbound, -⟩ := hupdate.grant hf
  rw [← hafter] at hbound
  obtain ⟨hinformed, -⟩ := Registry.admissibleBound_eq_some hbound
  obtain ⟨record, hrecord, -⟩ := hinformed.nextEvent
  refine ⟨f, ?_, ?_⟩
  · have hlt := Roster.index_lt_of_get? hrecord
    have hsize := run''.consistent.size_eq
    rw [run''.topology_eq] at hsize
    exact decide_eq_true (lt_of_lt_of_eq hlt hsize)
  · refine List.eq_nil_iff_forall_not_mem.2 fun d hd => ?_
    rw [← run''.topology_eq] at hd
    obtain ⟨u, hu, hne⟩ := hinformed.upstream d hd
    exact hne (hstarting.unstarted d.federate u hu)

theorem exists_grant_of_source (ht : t.WellFormed) (run : Run t settings history s)
    (hstart : StartUp t conn next (history.map (·.event))) (hf : t.contains f)
    (hsource : t.upstream f = []) :
    ∃ m ∈ history, ∃ c tag, .send c (.timeAdvanceGrant tag) ∈ m.actions := by
  have hwhole : StartUp t conn next (history.map (·.event) ++ []) := by rwa [List.append_nil]
  have hstarting := run.starting hwhole
  obtain ⟨peer, hscript⟩ := hstart.script f hf
  have hstage := hstarting.stage f hf
  rw [hscript] at hstage
  cases hstage with
  | waiting hsession hnext =>
    obtain ⟨record, hjoined⟩ := run.consistent.exists_joined hsession
    have hrecord := hjoined.get?_eq
    have htag : record.nextEvent = next f := hnext record hrecord
    have hne : record.nextEvent ≠ .never := htag ▸ hstart.next_ne f hf
    have hupstream : s.registry.topology.upstream f = [] := by rw [run.topology_eq, hsource]
    have hinformed : s.registry.Informed f :=
      ⟨⟨record, hrecord, hne⟩, fun d hd => absurd hd (by rw [hupstream]; exact List.not_mem_nil)⟩
    obtain ⟨b, hbound⟩ := hinformed.exists_admissibleBound
    have hpending : record.completed < record.nextEvent := by
      rw [Registry.completed_of_effectiveCompleted (hstarting.unstarted f record hrecord)]
      exact Tag.never_lt_iff.2 hne
    have hsettled := run.settled ht f record b hrecord hjoined.connected hpending hbound
    rw [hstarting.stopTag] at hsettled
    -- nothing limits the federate but its next event
    have hb : b ≠ .never := by
      obtain ⟨-, hlimit, -⟩ := Registry.admissibleBound_eq_some hbound
      rcases hlimit with ⟨record', hrecord', rfl⟩ | ⟨d, hd, -⟩
      · obtain rfl := Option.some.inj (hrecord.symm.trans hrecord')
        exact hne
      · rw [hupstream] at hd
        exact absurd hd List.not_mem_nil
    refine run.exists_grant_of_lastGranted hrecord ?_
    exact Tag.never_lt_iff.1 (lt_of_lt_of_le (Tag.never_lt_iff.2 hb) hsettled)

/-- When a federation has started up, something has been granted if and only if some federate
depends on nobody, and it has if there is no cycle of dependencies. -/
theorem exists_grant_iff {p : Topology.Plan} (hbuild : p.build = .ok t)
    (run : Run t settings history s) (hstart : StartUp t conn next (history.map (·.event))) :
    ((∃ m ∈ history, ∃ c tag, .send c (.timeAdvanceGrant tag) ∈ m.actions) ↔
      ∃ f, t.contains f ∧ t.upstream f = []) ∧
    ((∀ f, ¬ Relation.TransGen t.Feeds f f) →
      ∃ m ∈ history, ∃ c tag, .send c (.timeAdvanceGrant tag) ∈ m.actions) := by
  have ht := Topology.Plan.wellFormed_of_build hbuild
  have hsource : (∃ f, t.contains f ∧ t.upstream f = []) →
      ∃ m ∈ history, ∃ c tag, .send c (.timeAdvanceGrant tag) ∈ m.actions := by
    rintro ⟨f, hf, hupstream⟩
    exact run.exists_grant_of_source ht hstart hf hupstream
  refine ⟨⟨?_, hsource⟩, fun hacyclic => hsource ?_⟩
  · rintro ⟨m, hm, c, tag, hgrant⟩
    exact run.exists_source_of_grant hstart hm hgrant
  · exact ht.exists_upstream_eq_nil (Topology.Plan.size_pos_of_build hbuild) hacyclic

end Run

/-! ## Two federates -/

theorem Coordinator.map_event_trace (s : Coordinator) (events : List Event) :
    (s.trace events).map (·.event) = events := by
  induction events generalizing s with
  | nil => rfl
  | cons e events ih => exact congrArg (e :: ·) (ih _)

namespace Pair

/-- Each federate has the connection of its own number. -/
def conn (f : FederateId) : ConnectionId := ⟨f.number.toUInt64⟩

/-- Two federates join, and then both tell that they have something to do at once. -/
def events (federationId : String) : List Event :=
  let peer : SocketAddress := default
  [.connectionOpened ⟨0⟩ peer, .messageReceived ⟨0⟩ (.join ⟨0⟩ federationId),
    .connectionOpened ⟨1⟩ peer, .messageReceived ⟨1⟩ (.join ⟨1⟩ federationId),
    .messageReceived ⟨0⟩ (.nextEventTag (.ofTime 0)),
    .messageReceived ⟨1⟩ (.nextEventTag (.ofTime 0))]

def history (t : Topology) : List Moment :=
  (Coordinator.ofTopology t {}).trace (events t.federationId)

theorem run (t : Topology) : ∃ s, Run t {} (history t) s := by
  refine ⟨_, .run_trace ?_⟩
  show ([⟨0⟩, ⟨1⟩] : List ConnectionId).Nodup
  decide

theorem startUp {t : Topology} (hsize : t.size = 2) :
    StartUp t conn (fun _ => .ofTime 0) ((history t).map (·.event)) := by
  rw [history, Coordinator.map_event_trace]
  refine ⟨fun f hf => ?_, fun e he c hc => ?_, fun _ _ => by decide⟩
  · have hindex : f.index = 0 ∨ f.index = 1 := by
      have hlt : f.index < t.size := of_decide_eq_true hf
      omega
    rcases hindex with hindex | hindex
    · obtain rfl : f = ⟨0⟩ := FederateId.index_injective hindex
      exact ⟨default, rfl⟩
    · obtain rfl : f = ⟨1⟩ := FederateId.index_injective hindex
      exact ⟨default, rfl⟩
  · have hconnection : e.connection? = some (conn ⟨0⟩) ∨ e.connection? = some (conn ⟨1⟩) := by
      simp only [events, List.mem_cons, List.not_mem_nil, or_false] at he
      rcases he with rfl | rfl | rfl | rfl | rfl | rfl
      exacts [Or.inl rfl, Or.inl rfl, Or.inr rfl, Or.inr rfl, Or.inl rfl, Or.inr rfl]
    have hcontains (f : FederateId) (hf : f.index < 2) : t.contains f :=
      decide_eq_true (lt_of_lt_of_eq hf hsize.symm)
    rcases hconnection with heq | heq
    · exact ⟨⟨0⟩, hcontains ⟨0⟩ (by decide), Option.some.inj (heq.symm.trans hc)⟩
    · exact ⟨⟨1⟩, hcontains ⟨1⟩ (by decide), Option.some.inj (heq.symm.trans hc)⟩

/-- Each feeds the other, ten nanoseconds later. -/
def ring : Topology.Plan :=
  { federationId := "ring", size := 2, connections := [⟨⟨0⟩, ⟨1⟩, ⟨10⟩⟩, ⟨⟨1⟩, ⟨0⟩, ⟨10⟩⟩] }

end Pair

namespace Run

theorem exists_grant_iff_relay :
    (∃ s, Run Relay.plan.graph {} (Pair.history Relay.plan.graph) s) ∧
    StartUp Relay.plan.graph Pair.conn (fun _ => .ofTime 0)
      ((Pair.history Relay.plan.graph).map (·.event)) ∧
    ((∃ m ∈ Pair.history Relay.plan.graph, ∃ c tag,
        .send c (.timeAdvanceGrant tag) ∈ m.actions) ↔
      ∃ f, Relay.plan.graph.contains f ∧ Relay.plan.graph.upstream f = []) := by
  obtain ⟨s, hrun⟩ := Pair.run Relay.plan.graph
  have hstart := Pair.startUp (t := Relay.plan.graph) rfl
  exact ⟨⟨s, hrun⟩, hstart, (hrun.exists_grant_iff Relay.build_eq hstart).1⟩

/-- The plan of the ring is accepted, both federates start up, and nobody is granted anything. -/
theorem not_granted_ring : Pair.ring.build = .ok Pair.ring.graph ∧
    (∃ s, Run Pair.ring.graph {} (Pair.history Pair.ring.graph) s) ∧
    StartUp Pair.ring.graph Pair.conn (fun _ => .ofTime 0)
      ((Pair.history Pair.ring.graph).map (·.event)) ∧
    ∀ m ∈ Pair.history Pair.ring.graph, ∀ c tag, .send c (.timeAdvanceGrant tag) ∉ m.actions := by
  have hbuild : Pair.ring.build = .ok Pair.ring.graph :=
    Topology.Plan.build_eq_ok_iff.2 ⟨rfl, rfl, by cbv, rfl⟩
  have hgrants : ∀ m ∈ Pair.history Pair.ring.graph, Action.grants m.actions = [] := by
    decide +kernel
  refine ⟨hbuild, Pair.run _, Pair.startUp rfl, fun m hm c tag hgrant => ?_⟩
  rw [← Action.mem_grants, hgrants m hm] at hgrant
  exact List.not_mem_nil hgrant

end Run

end FederatedTime
