import FederatedTime.Proofs.Coordinator.Membership

/-!
# Notices about stopping

The coordinator says two things about stopping: what has been proposed, and what has been agreed.
`Action.notices` are those among the actions, and `StopOutcome.notices` what an outcome of the
negotiation asks for, given who is joined where. Everybody who is joined stands once in
`Registry.connected` and `Registry.connections`.
-/

namespace FederatedTime

/-! ## Who is joined, in lists -/

namespace FederateId

theorem nodup_firstIds {n : Nat} (h : n ≤ 65536) : (firstIds n).Nodup := by
  refine List.Nodup.map_on ?_ List.nodup_range
  intro i hi j hj heq
  have hi : i < n := List.mem_range.1 hi
  have hj : j < n := List.mem_range.1 hj
  rw [← index_ofNat (n := i) (by omega), heq, index_ofNat (by omega)]

end FederateId

namespace Registry

variable {r r' : Registry} {f : FederateId} {c : ConnectionId}

theorem connections_eq_filterMap (h : r.size ≤ Topology.maxFederates) :
    r.connections = r.records.ids.filterMap r.connection? := by
  unfold connections
  rw [Roster.toList_eq_filterMap h, List.filterMap_filterMap]
  rfl

theorem SameMembers.connections (h : r.SameMembers r') (hsize : r.size ≤ Topology.maxFederates) :
    r'.connections = r.connections := by
  have hids : r'.records.ids = r.records.ids := congrArg FederateId.firstIds h.size_eq
  have hconnection : r'.connection? = r.connection? := funext h.connection?
  rw [connections_eq_filterMap hsize, connections_eq_filterMap (h.size_eq.symm ▸ hsize), hids,
    hconnection]

theorem map_toList_sweep {α : Type} {field : FederateRecord → α}
    (hfield : ∀ granted record, field (settle granted record) = field record)
    (hsize : r.size ≤ Topology.maxFederates) (stop : Option Tag) (seeds : List FederateId) :
    (r.sweep stop seeds).1.records.toList.map field = r.records.toList.map field := by
  have hsize' : (r.sweep stop seeds).1.size ≤ Topology.maxFederates := by rwa [size_sweep]
  have hids : (r.sweep stop seeds).1.records.ids = r.records.ids :=
    congrArg FederateId.firstIds (size_sweep r stop seeds)
  rw [Roster.toList_eq_filterMap hsize, Roster.toList_eq_filterMap hsize', hids,
    List.map_filterMap, List.map_filterMap]
  exact List.filterMap_congr fun f _ => map_get?_sweep hfield f

theorem mem_ids_of_get? {record : FederateRecord} (h : r.get? f = some record) :
    f ∈ r.records.ids :=
  FederateId.mem_firstIds (Roster.index_lt_of_get? h)

theorem mem_connections_iff (h : r.size ≤ Topology.maxFederates) :
    c ∈ r.connections ↔ ∃ f, r.connection? f = some c := by
  rw [connections_eq_filterMap h, List.mem_filterMap]
  constructor
  · rintro ⟨f, -, hf⟩
    exact ⟨f, hf⟩
  · rintro ⟨f, hf⟩
    obtain ⟨record, hrecord, -⟩ := Option.bind_eq_some_iff.1 hf
    exact ⟨f, mem_ids_of_get? hrecord, hf⟩

theorem mem_connected_iff (h : r.size ≤ Topology.maxFederates)
    (hid : ∀ f record, r.get? f = some record → record.id = f) :
    f ∈ r.connected ↔ r.isConnected f := by
  unfold connected
  rw [Roster.toList_eq_filterMap h, List.mem_map]
  constructor
  · rintro ⟨record, hrecord, heq⟩
    obtain ⟨hmem, hconnected⟩ := List.mem_filter.1 hrecord
    obtain ⟨g, -, hg⟩ := List.mem_filterMap.1 hmem
    have hget : r.get? f = some record := by
      rw [← heq, hid g record hg]
      exact hg
    rwa [isConnected_of_get? hget]
  · intro hconnected
    obtain ⟨record, hf, hconnected⟩ := exists_of_isConnected hconnected
    refine ⟨record, List.mem_filter.2 ⟨?_, hconnected⟩, hid f record hf⟩
    exact List.mem_filterMap.2 ⟨f, mem_ids_of_get? hf, hf⟩

end Registry

namespace Coordinator

variable {s : Coordinator} {f g : FederateId} {c : ConnectionId}

theorem Consistent.connection?_injective (hs : s.Consistent)
    (hf : s.registry.connection? f = some c) (hg : s.registry.connection? g = some c) : f = g := by
  have hsession := ((hs.joined_iff c f).2 hf).symm.trans ((hs.joined_iff c g).2 hg)
  exact Session.joined.inj (Option.some.inj hsession)

theorem Consistent.nodup_connections (hs : s.Consistent)
    (hsize : s.registry.size ≤ Topology.maxFederates) : s.registry.connections.Nodup := by
  rw [Registry.connections_eq_filterMap hsize]
  refine List.Nodup.filterMap ?_ (FederateId.nodup_firstIds hsize)
  intro f g c hf hg
  exact hs.connection?_injective hf hg

end Coordinator

/-! ## Notices among actions -/

/-- What the coordinator says about stopping. -/
inductive StopNotice where
  | proposed (time : Int64)
  | agreed (time : Int64)
deriving DecidableEq

namespace Action

def notice? : Action → Option (ConnectionId × StopNotice)
  | send c (.stopRequest time) => some (c, .proposed time)
  | send c (.stopGranted time) => some (c, .agreed time)
  | _ => none

def notices (actions : List Action) : List (ConnectionId × StopNotice) := actions.filterMap notice?

@[simp] theorem notices_append (first second : List Action) :
    notices (first ++ second) = notices first ++ notices second :=
  List.filterMap_append

theorem notice?_eq_proposed_iff {action : Action} {c : ConnectionId} {time : Int64} :
    action.notice? = some (c, .proposed time) ↔ action = .send c (.stopRequest time) := by
  unfold notice?
  split <;> simp_all

theorem notice?_eq_agreed_iff {action : Action} {c : ConnectionId} {time : Int64} :
    action.notice? = some (c, .agreed time) ↔ action = .send c (.stopGranted time) := by
  unfold notice?
  split <;> simp_all

theorem mem_notices_agreed {actions : List Action} {c : ConnectionId} {time : Int64} :
    (c, .agreed time) ∈ notices actions ↔ .send c (.stopGranted time) ∈ actions := by
  unfold notices
  rw [List.mem_filterMap]
  constructor
  · rintro ⟨action, haction, hnotice⟩
    rw [← notice?_eq_agreed_iff.1 hnotice]
    exact haction
  · intro haction
    exact ⟨_, haction, rfl⟩

theorem count_agreed (actions : List Action) (c : ConnectionId) (time : Int64) :
    (notices actions).count (c, .agreed time) = actions.count (.send c (.stopGranted time)) := by
  unfold notices
  rw [List.count_filterMap, List.count]
  refine List.countP_congr fun action _ => ?_
  rw [beq_iff_eq, beq_iff_eq, notice?_eq_agreed_iff]

theorem SendsOnly.notices_eq_nil {P : Message → Prop} {actions : List Action}
    (h : SendsOnly P actions)
    (hP : ∀ time, ¬ P (.stopRequest time) ∧ ¬ P (.stopGranted time)) : notices actions = [] := by
  refine List.eq_nil_iff_forall_not_mem.2 fun ⟨c, notice⟩ hmem => ?_
  obtain ⟨action, haction, hnotice⟩ := List.mem_filterMap.1 hmem
  cases notice with
  | proposed time =>
    rw [notice?_eq_proposed_iff] at hnotice
    exact (hP time).1 (h c _ (hnotice ▸ haction))
  | agreed time =>
    rw [notice?_eq_agreed_iff] at hnotice
    exact (hP time).2 (h c _ (hnotice ▸ haction))

end Action

/-! ## Notices of an outcome -/

namespace StopOutcome

/-- What an outcome asks to be said, given who is joined where. -/
def notices (r : Registry) : StopOutcome → List (ConnectionId × StopNotice)
  | ignored | waiting => []
  | forward federates proposal =>
    (federates.filterMap r.connection?).map fun c => (c, .proposed proposal.time)
  | agreed tag => r.connections.map fun c => (c, .agreed tag.time)

theorem mem_notices_agreed_iff {r : Registry} {outcome : StopOutcome} {c : ConnectionId}
    {time : Int64} : (c, .agreed time) ∈ outcome.notices r ↔
      ∃ tag, outcome = .agreed tag ∧ tag.time = time ∧ c ∈ r.connections := by
  cases outcome with
  | ignored | waiting => simp [notices]
  | forward federates proposal => simp [notices]
  | agreed tag => simp [notices, and_comm]

theorem count_notices_agreed {r : Registry} {c : ConnectionId} (h : r.connections.Nodup)
    (hc : c ∈ r.connections) (tag : Tag) :
    ((agreed tag).notices r).count (c, .agreed tag.time) = 1 := by
  have hinjective : Function.Injective fun c : ConnectionId => (c, StopNotice.agreed tag.time) :=
    fun c c' heq => (Prod.mk.inj heq).1
  rw [← List.count_eq_one_of_mem h hc]
  exact List.count_map_of_injective _ _ hinjective c

theorem notices_congr {r r' : Registry} (h : r.SameMembers r')
    (hsize : r.size ≤ Topology.maxFederates) (outcome : StopOutcome) :
    outcome.notices r' = outcome.notices r := by
  have hconnection : r'.connection? = r.connection? := funext h.connection?
  cases outcome with
  | ignored | waiting => rfl
  | forward federates proposal =>
    unfold notices
    rw [hconnection]
  | agreed tag =>
    unfold notices
    rw [h.connections hsize]

end StopOutcome

namespace Coordinator

open FederatedTime.Action (notices)

theorem notices_settleStop (s : Coordinator) (result : StopNegotiation × StopOutcome) :
    notices (s.settleStop result).2 = result.2.notices s.registry := by
  obtain ⟨stop, outcome⟩ := result
  have hsend (f : FederateId) (message : Message) (a : StopNotice)
      (ha : ∀ c, (Action.send c message).notice? = some (c, a)) :
      notices (s.sendTo f message) = ((s.registry.connection? f).map fun c => (c, a)).toList := by
    unfold sendTo
    cases s.registry.connection? f <;> simp [notices, ha]
  cases outcome with
  | ignored | waiting => rfl
  | agreed tag =>
    unfold settleStop broadcast
    simp [notices, List.filterMap_map, StopOutcome.notices, Function.comp_def, Action.notice?]
  | forward federates proposal =>
    -- a federate that is not joined anywhere drops out on both sides
    have hforward : notices (federates.flatMap fun f =>
        s.sendTo f (.stopRequest proposal.time)) =
        (federates.filterMap s.registry.connection?).map fun c =>
          (c, .proposed proposal.time) := by
      induction federates with
      | nil => rfl
      | cons f federates ih =>
        rw [List.flatMap_cons, Action.notices_append, ih, hsend f _ _ fun _ => rfl,
          List.filterMap_cons]
        cases s.registry.connection? f <;> rfl
    exact hforward

end Coordinator

end FederatedTime
