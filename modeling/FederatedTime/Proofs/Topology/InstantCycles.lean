import FederatedTime.Proofs.Graph.Trail
import FederatedTime.Proofs.Topology.Representation

/-!
# Instant cycles

A plan that is sound otherwise is refused if and only if its instant edges close a cycle, and what
is reported is such a cycle (`Plan.exists_zeroDelayCycle_iff`). An edge is instant when the least
of the delays declared for it is zero.
-/

namespace FederatedTime.Topology.Plan

open FederatedTime.Graph (IsCycle)

/-- What `u` sends reaches `f` without delay. -/
def Instant (p : Plan) (u f : FederateId) : Prop := IsLeastDelay p.connections u f .zero

variable {p : Plan} {u f : FederateId} {cycle : List FederateId}

/-- The graph that is searched is that of the instant edges. -/
theorem Sound.edge_iff (h : p.Sound) :
    Graph.Edge p.graph.size p.graph.instantDownstream u f ↔ p.Instant u f := by
  unfold Graph.Edge Instant
  rw [h.linked.mem_instantDownstream_iff, h.represents.mem_upstream_iff, h.depicts.size_eq]
  exact and_iff_left_of_imp fun hleast => (h.fits _ hleast.mem).downstream_lt

theorem Sound.edge_eq (h : p.Sound) :
    Graph.Edge p.graph.size p.graph.instantDownstream = p.Instant :=
  funext₂ fun _ _ => propext h.edge_iff

theorem Sound.build_eq_zeroDelayCycle_iff (h : p.Sound) :
    p.build = .error (.zeroDelayCycle cycle) ↔
      Graph.findCycle p.graph.size p.graph.instantDownstream = some cycle := by
  rw [build_eq_error_iff]
  constructor
  · rintro (hfault | ⟨-, found, hfound, heq⟩)
    · exact absurd rfl (hfault.ne_zeroDelayCycle cycle)
    · obtain rfl := TopologyError.zeroDelayCycle.inj heq
      exact hfound
  · exact fun hfound => Or.inr ⟨h, cycle, hfound, rfl⟩

/-- A topology is built of a plan if and only if the plan is sound and its instant edges close no
cycle. -/
theorem exists_build_iff :
    (∃ t, p.build = .ok t) ↔ p.Sound ∧ ∀ f, ¬ Relation.TransGen p.Instant f f := by
  constructor
  · rintro ⟨t, h⟩
    have hsound := sound_of_build h
    obtain ⟨-, -, hnone, -⟩ := build_eq_ok_iff.1 h
    refine ⟨hsound, fun f hf => ?_⟩
    rw [← hsound.edge_eq] at hf
    obtain ⟨cycle, hcycle⟩ := Graph.exists_findCycle_iff.2 ⟨f, hf⟩
    rw [hnone] at hcycle
    cases hcycle
  · rintro ⟨hsound, hacyclic⟩
    obtain ⟨hlimits, hconnections⟩ := sound_iff.1 hsound
    refine ⟨p.graph, build_eq_ok_iff.2 ⟨hlimits, hconnections, ?_, rfl⟩⟩
    refine Option.eq_none_iff_forall_ne_some.2 fun cycle hcycle => ?_
    obtain ⟨f, hf⟩ := Graph.exists_findCycle_iff.1 ⟨cycle, hcycle⟩
    rw [hsound.edge_eq] at hf
    exact hacyclic f hf

/-- A plan that is sound otherwise is refused for an instant cycle if and only if a path of instant
edges comes back to where it began; the federates that are then named form such a cycle, and if it
is not refused its topology is built. -/
theorem exists_zeroDelayCycle_iff (h : p.Sound) :
    ((∃ cycle, p.build = .error (.zeroDelayCycle cycle)) ↔
      ∃ f, Relation.TransGen p.Instant f f) ∧
    (∀ cycle, p.build = .error (.zeroDelayCycle cycle) → IsCycle p.Instant cycle) ∧
    ((∀ cycle, p.build ≠ .error (.zeroDelayCycle cycle)) → p.build = .ok p.graph) := by
  simp only [ne_eq, h.build_eq_zeroDelayCycle_iff, ← h.edge_eq]
  refine ⟨Graph.exists_findCycle_iff, fun cycle => Graph.isCycle_of_findCycle, fun hnone => ?_⟩
  obtain ⟨hlimits, hconnections⟩ := sound_iff.1 h
  exact build_eq_ok_iff.2 ⟨hlimits, hconnections, Option.eq_none_iff_forall_ne_some.2 hnone, rfl⟩

/-- Three federates in a ring, where the edge back is first declared with a delay. -/
def tightened : Plan :=
  { federationId := "tightened", size := 3,
    connections := [⟨⟨0⟩, ⟨1⟩, .zero⟩, ⟨⟨2⟩, ⟨0⟩, ⟨7⟩⟩, ⟨⟨1⟩, ⟨2⟩, .zero⟩, ⟨⟨2⟩, ⟨0⟩, .zero⟩] }

theorem exists_zeroDelayCycle_iff_tightened : tightened.Sound ∧
    tightened.build = .error (.zeroDelayCycle [⟨0⟩, ⟨1⟩, ⟨2⟩]) ∧
    IsCycle tightened.Instant [⟨0⟩, ⟨1⟩, ⟨2⟩] := by
  have hsound : tightened.Sound := sound_iff.2 ⟨rfl, rfl⟩
  have hbuild : tightened.build = .error (.zeroDelayCycle [⟨0⟩, ⟨1⟩, ⟨2⟩]) :=
    hsound.build_eq_zeroDelayCycle_iff.2 (by cbv)
  exact ⟨hsound, hbuild, (exists_zeroDelayCycle_iff hsound).2.1 _ hbuild⟩

end FederatedTime.Topology.Plan
