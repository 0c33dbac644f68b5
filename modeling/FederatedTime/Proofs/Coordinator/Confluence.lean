import FederatedTime.Proofs.Coordinator.Propagation
import FederatedTime.Proofs.Topology.WellFormed

/-!
# What a propagation grants

A propagation reaches the least set of federates that holds the seeds and, with a federate to which
a grant is due, those downstream of it (`Registry.Affected`). It makes the grants that were due to
this set before it began, each once, and brings the states of its members up to date
(`Registry.Raises`). The set does not depend on how the seeds are listed, so neither does what the
propagation comes to (`Registry.raises_propagate`).
-/

namespace FederatedTime

namespace FederateRecord

/-- The record with `tag` as its last grant and the state of a joined federate that goes with it. -/
def granted (record : FederateRecord) (tag : Tag) : FederateRecord :=
  { record with
    lastGranted := tag
    state := if record.nextEvent ≠ .never ∧ record.nextEvent ≤ tag then .granted else .pending }

theorem isAllowed_iff {record : FederateRecord} :
    record.isAllowed ↔ record.nextEvent ≠ .never ∧ record.nextEvent ≤ record.lastGranted := by
  simp [isAllowed, ← Tag.isNever_eq_true]

theorem refresh_eq_granted {record : FederateRecord} (h : record.isConnected) :
    record.refresh = record.granted record.lastGranted := by
  unfold refresh granted
  simp only [if_pos h, isAllowed_iff]

end FederateRecord

namespace Registry

variable {r : Registry} {stop : Option Tag} {seeds seeds' : List FederateId} {f : FederateId}
variable {tag : Tag} {record : FederateRecord}

/-- A grant of `tag` is due to `f`: it is joined, and `tag` is its bound, cut down to `stop`, and
above its last grant. -/
structure Due (r : Registry) (stop : Option Tag) (f : FederateId) (tag : Tag) : Prop where
  isConnected : r.isConnected f = true
  bound : ∃ b, r.admissibleBound f = some b ∧ tag = b.clamp stop
  above : ∃ record, r.get? f = some record ∧ record.lastGranted < tag

/-- The federates in range among the seeds, and those downstream of an affected federate to which a
grant is due. -/
inductive Affected (r : Registry) (stop : Option Tag) (seeds : List FederateId) :
    FederateId → Prop
  | seed {f : FederateId} (hmem : f ∈ seeds) (hrange : f.index < r.size) : Affected r stop seeds f
  | downstream {u f : FederateId} {tag : Tag} (hu : Affected r stop seeds u)
      (hdue : r.Due stop u tag) (hf : f ∈ r.topology.downstream u) : Affected r stop seeds f

/-- What a change to the seeds makes of a registry, and the grants that go with it. -/
structure Raises (r : Registry) (stop : Option Tag) (seeds : List FederateId) (r' : Registry)
    (grants : List Grant) : Prop where
  topology_eq : r'.topology = r.topology
  size_eq : r'.size = r.size
  mem_grants_iff : ∀ f tag, ⟨f, tag⟩ ∈ grants ↔ r.Affected stop seeds f ∧ r.Due stop f tag
  nodup : (grants.map (·.federate)).Nodup
  /-- An affected federate has last been granted what was due to it. -/
  raised : ∀ f tag record, r.Affected stop seeds f → r.Due stop f tag →
    r.get? f = some record → r'.get? f = some (record.granted tag)
  /-- One to which nothing was due keeps its last grant, and its state is brought up to date. -/
  refreshed : ∀ f record, r.Affected stop seeds f → r.isConnected f = true →
    (∀ tag, ¬ r.Due stop f tag) →
    r.get? f = some record → r'.get? f = some (record.granted record.lastGranted)
  unchanged : ∀ f, ¬ (r.Affected stop seeds f ∧ r.isConnected f = true) → r'.get? f = r.get? f

theorem due_iff : r.Due stop f tag ↔ r.raise? stop f = some tag := by
  rw [raise?_eq_some_iff]
  constructor
  · rintro ⟨hconnected, hbound, record, hrecord, hlt⟩
    rw [isConnected_of_get? hrecord] at hconnected
    exact ⟨record, hrecord, hconnected, hlt, hbound⟩
  · rintro ⟨record, hrecord, hconnected, hlt, hbound⟩
    exact ⟨(isConnected_of_get? hrecord).trans hconnected, hbound, record, hrecord, hlt⟩

theorem mem_onward_iff {g : FederateId} : g ∈ r.onward stop f ↔
    (∃ tag, r.Due stop f tag) ∧ g ∈ r.topology.downstream f := by
  simp only [due_iff, ← Option.isSome_iff_exists]
  unfold onward
  split <;> simp [*]

/-- What a sweep concerns is the least set that is affected. -/
theorem mem_concerned_iff (hrange : ∀ u, ∀ f ∈ r.topology.downstream u, f.index < r.size) :
    f ∈ r.concerned stop seeds ↔ r.Affected stop seeds f := by
  constructor
  · refine fun h => Graph.forall_mem_reach (P := r.Affected stop seeds)
      (fun f hf hlt => .seed hf hlt) (fun u hu f hf => ?_) f h
    obtain ⟨⟨tag, hdue⟩, hf⟩ := mem_onward_iff.1 hf
    exact hu.downstream hdue hf
  · intro h
    induction h with
    | seed hmem hlt => exact Graph.mem_reach hlt hmem
    | downstream hu hdue hf ih =>
      exact Graph.mem_reach_of_mem_next ih (mem_onward_iff.2 ⟨⟨_, hdue⟩, hf⟩) (hrange _ _ hf)

theorem settle_eq_granted (granted : Option Tag) (h : record.isConnected) :
    settle granted record = record.granted (granted.getD record.lastGranted) :=
  FederateRecord.refresh_eq_granted h

theorem get?_sweep_of_affected (hrange : ∀ u, ∀ f ∈ r.topology.downstream u, f.index < r.size)
    (hf : r.Affected stop seeds f) (hconnected : r.isConnected f = true)
    (hrecord : r.get? f = some record) : (r.sweep stop seeds).1.get? f =
      some (record.granted ((r.raise? stop f).getD record.lastGranted)) := by
  rw [isConnected_of_get? hrecord] at hconnected
  rw [get?_sweep, if_pos ((mem_concerned_iff hrange).2 hf), hrecord, Option.map_some,
    settle_eq_granted _ hconnected]

theorem get?_sweep_of_not_connected (h : ¬ r.isConnected f) :
    (r.sweep stop seeds).1.get? f = r.get? f := by
  rw [get?_sweep, raise?_of_not_connected h]
  split
  · cases hrecord : r.get? f with
    | none => rfl
    | some record => exact congrArg some (settle_of_not_connected h hrecord)
  · rfl

theorem raises_sweep (hrange : ∀ u, ∀ f ∈ r.topology.downstream u, f.index < r.size) :
    r.Raises stop seeds (r.sweep stop seeds).1 (r.sweep stop seeds).2 where
  topology_eq := topology_sweep r stop seeds
  size_eq := size_sweep r stop seeds
  mem_grants_iff f tag := by rw [mem_grants_sweep, mem_concerned_iff hrange, due_iff]
  nodup := nodup_federates_sweep r stop seeds
  raised f tag record hf hdue hrecord := by
    rw [get?_sweep_of_affected hrange hf hdue.isConnected hrecord, due_iff.1 hdue,
      Option.getD_some]
  refreshed f record hf hconnected hnone hrecord := by
    have hraise : r.raise? stop f = none :=
      Option.eq_none_iff_forall_ne_some.2 fun tag htag => hnone tag (due_iff.2 htag)
    rw [get?_sweep_of_affected hrange hf hconnected hrecord, hraise, Option.getD_none]
  unchanged f hf := by
    by_cases hmem : f ∈ r.concerned stop seeds
    · have haffected := (mem_concerned_iff hrange).1 hmem
      exact get?_sweep_of_not_connected fun hconnected => hf ⟨haffected, hconnected⟩
    · rw [get?_sweep, if_neg hmem]

/-! ## Other lists of the same seeds -/

theorem Affected.of_mem_iff (hseeds : ∀ f, f ∈ seeds' ↔ f ∈ seeds) (h : r.Affected stop seeds f) :
    r.Affected stop seeds' f := by
  induction h with
  | seed hmem hlt => exact .seed ((hseeds _).2 hmem) hlt
  | downstream hu hdue hf ih => exact ih.downstream hdue hf

theorem Raises.of_mem_iff {r' : Registry} {grants : List Grant}
    (hseeds : ∀ f, f ∈ seeds' ↔ f ∈ seeds) (h : r.Raises stop seeds' r' grants) :
    r.Raises stop seeds r' grants := by
  have hiff : ∀ f, r.Affected stop seeds' f ↔ r.Affected stop seeds f := fun f =>
    ⟨.of_mem_iff fun f => (hseeds f).symm, .of_mem_iff hseeds⟩
  obtain ⟨htopology, hsize, hgrants, hnodup, hraised, hrefreshed, hunchanged⟩ := h
  simp only [hiff] at hgrants hraised hrefreshed hunchanged
  exact ⟨htopology, hsize, hgrants, hnodup, hraised, hrefreshed, hunchanged⟩

/-- What a change to the seeds makes of a registry is determined, and so are the grants but for
their order. -/
theorem Raises.unique {r₁ r₂ : Registry} {grants₁ grants₂ : List Grant} (hle : r.size ≤ 65536)
    (h₁ : r.Raises stop seeds r₁ grants₁) (h₂ : r.Raises stop seeds r₂ grants₂) :
    r₁ = r₂ ∧ grants₁.Perm grants₂ := by
  refine ⟨?_, ?_⟩
  · have hget : ∀ f, r₁.get? f = r₂.get? f := fun f => by
      by_cases hf : r.Affected stop seeds f ∧ r.isConnected f = true
      · obtain ⟨record, hrecord, -⟩ := exists_of_isConnected hf.2
        by_cases hdue : ∃ tag, r.Due stop f tag
        · obtain ⟨tag, hdue⟩ := hdue
          rw [h₁.raised f tag record hf.1 hdue hrecord, h₂.raised f tag record hf.1 hdue hrecord]
        · have hnone := not_exists.1 hdue
          rw [h₁.refreshed f record hf.1 hf.2 hnone hrecord,
            h₂.refreshed f record hf.1 hf.2 hnone hrecord]
      · rw [h₁.unchanged f hf, h₂.unchanged f hf]
    have hsize : r₁.size = r₂.size := h₁.size_eq.trans h₂.size_eq.symm
    have hle : r₁.size ≤ 65536 := h₁.size_eq.trans_le hle
    have hrecords : r₁.records = r₂.records := Roster.ext_get? hsize hle hget
    have htopology : r₁.topology = r₂.topology := h₁.topology_eq.trans h₂.topology_eq.symm
    cases r₁
    cases r₂
    exact congr (congrArg Registry.mk htopology) hrecords
  · refine (List.perm_ext_iff_of_nodup h₁.nodup.of_map h₂.nodup.of_map).2 fun grant => ?_
    exact (h₁.mem_grants_iff grant.federate grant.tag).trans
      (h₂.mem_grants_iff grant.federate grant.tag).symm

/-- A propagation over an accepted topology raises the last grants of the affected federates to
what was due to them, cycles or not, and comes to the same whatever the order and the repetitions
of the seeds. -/
theorem raises_propagate {p : Topology.Plan} (hbuild : p.build = .ok r.topology)
    (hsize : r.size = r.topology.size) (stop : Option Tag) (seeds : List FederateId) :
    r.Raises stop seeds (r.propagate stop seeds).1 (r.propagate stop seeds).2 ∧
    ∀ seeds' : List FederateId, (∀ f, f ∈ seeds' ↔ f ∈ seeds) →
      (r.propagate stop seeds').1 = (r.propagate stop seeds).1 ∧
      (r.propagate stop seeds').2.Perm (r.propagate stop seeds).2 := by
  have hwell := Topology.Plan.wellFormed_of_build hbuild
  have hraises : ∀ seeds, r.Raises stop seeds (r.propagate stop seeds).1
      (r.propagate stop seeds).2 := fun seeds => by
    rw [propagate_eq_sweep]
    exact raises_sweep fun u f hf => hsize ▸ hwell.downstream_lt hf
  refine ⟨hraises seeds, fun seeds' hseeds => ?_⟩
  exact ((hraises seeds').of_mem_iff hseeds).unique (hsize ▸ hwell.size_le) (hraises seeds)

namespace Ring

/-- Two federates feed each other, and the first one feeds itself as well. -/
def plan : Topology.Plan :=
  { federationId := "ring", size := 2,
    connections := [⟨⟨0⟩, ⟨1⟩, .zero⟩, ⟨⟨1⟩, ⟨0⟩, ⟨10⟩⟩, ⟨⟨0⟩, ⟨0⟩, ⟨5⟩⟩] }

/-- Both have joined: the first has completed 10 and goes on at 20, the second 5 and 30. -/
def registry : Registry where
  topology := plan.graph
  records := ⟨#[
    { id := ⟨0⟩, state := .pending, completed := .ofTime 10, nextEvent := .ofTime 20 },
    { id := ⟨1⟩, state := .pending, completed := .ofTime 5, nextEvent := .ofTime 30 }]⟩

theorem build_eq : plan.build = .ok registry.topology :=
  Topology.Plan.build_eq_ok_iff.2 ⟨rfl, rfl, by cbv, rfl⟩

end Ring

theorem raises_propagate_ring : Ring.plan.build = .ok Ring.registry.topology ∧
    Ring.registry.size = Ring.registry.topology.size ∧
    (Ring.registry.propagate (some (.ofTime 12)) [⟨0⟩, ⟨9⟩, ⟨0⟩]).2 =
      [⟨⟨0⟩, .ofTime 12⟩, ⟨⟨1⟩, .ofTime 10⟩] ∧
    (∀ f tag, ⟨f, tag⟩ ∈ (Ring.registry.propagate (some (.ofTime 12)) [⟨0⟩, ⟨9⟩, ⟨0⟩]).2 ↔
      Ring.registry.Affected (some (.ofTime 12)) [⟨0⟩, ⟨9⟩, ⟨0⟩] f ∧
      Ring.registry.Due (some (.ofTime 12)) f tag) ∧
    (Ring.registry.propagate (some (.ofTime 12)) [⟨9⟩, ⟨0⟩]).1 =
      (Ring.registry.propagate (some (.ofTime 12)) [⟨0⟩, ⟨9⟩, ⟨0⟩]).1 := by
  obtain ⟨hraises, hseeds⟩ :=
    raises_propagate Ring.build_eq (by decide) (some (.ofTime 12)) [⟨0⟩, ⟨9⟩, ⟨0⟩]
  refine ⟨Ring.build_eq, by decide, ?_, hraises.mem_grants_iff, (hseeds [⟨9⟩, ⟨0⟩] ?_).1⟩
  · rw [propagate_eq_sweep]
    decide +kernel
  · simp [or_comm]

end Registry

end FederatedTime
