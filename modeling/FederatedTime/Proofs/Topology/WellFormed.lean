import FederatedTime.Proofs.Graph.Cycle
import FederatedTime.Proofs.Time.Delay
import FederatedTime.Topology.Plan
import Mathlib.Data.List.Nodup

/-!
# Well-formed topologies

What every topology that `Plan.build` accepts has in common: `Topology.WellFormed`. The two sides of
an edge agree, no delay is negative, a federate depends on another one at one delay only, and the
instant edges alone lead nowhere for ever. `wellFounded_instantUpstream` turns the last of these
around: going from a federate to those that reach it without delay comes to an end as well.
-/

namespace FederatedTime

namespace Topology

/-! ## Adding a dependency -/

namespace Plan

variable {u : FederateId} {delay : Interval} {l : List Dependency}

theorem map_federate_addDependency : (addDependency u delay l).map (·.federate) =
    if u ∈ l.map (·.federate) then l.map (·.federate) else l.map (·.federate) ++ [u] := by
  induction l with
  | nil => rfl
  | cons v rest ih =>
    unfold addDependency
    by_cases hv : v.federate = u
    · simp [hv]
    · rw [if_neg hv, List.map_cons, ih]
      have hu : ¬ u = v.federate := Ne.symm hv
      by_cases hrest : u ∈ rest.map (·.federate)
      · simp [hrest]
      · simp [hrest, hu]

theorem mem_federates_addDependency {v : FederateId} :
    v ∈ (addDependency u delay l).map (·.federate) ↔ v = u ∨ v ∈ l.map (·.federate) := by
  rw [map_federate_addDependency]
  split
  · rename_i hu
    exact ⟨Or.inr, fun h => h.elim (fun h => h ▸ hu) id⟩
  · rw [List.mem_append, List.mem_singleton, or_comm]

theorem nodup_federates_addDependency (h : (l.map (·.federate)).Nodup) :
    ((addDependency u delay l).map (·.federate)).Nodup := by
  rw [map_federate_addDependency]
  split
  · exact h
  · rename_i hu
    exact h.append (List.nodup_singleton u) (List.disjoint_singleton.2 hu)

/-- Whatever holds of the delays so far and of the new one holds of all delays afterwards. -/
theorem delay_of_mem_addDependency {P : Interval → Prop} (hdelay : P delay)
    (hl : ∀ d ∈ l, P d.delay) : ∀ d ∈ addDependency u delay l, P d.delay := by
  induction l with
  | nil =>
    intro d hd
    rw [List.mem_singleton.1 hd]
    exact hdelay
  | cons v rest ih =>
    obtain ⟨hv, hrest⟩ := List.forall_mem_cons.1 hl
    unfold addDependency
    split
    · refine List.forall_mem_cons.2 ⟨?_, hrest⟩
      show P (v.delay.min delay)
      unfold Interval.min
      split
      · exact hv
      · exact hdelay
    · exact List.forall_mem_cons.2 ⟨hv, ih hrest⟩

end Plan

/-! ## The edges of a topology -/

/-- What the edges of a topology of `n` federates have in common, cycles aside. -/
structure Linked (n : Nat) (t : Topology) : Prop where
  size_dependencies : t.dependencies.size = n
  size_dependents : t.dependents.size = n
  upstream_lt : ∀ f, ∀ d ∈ t.upstream f, d.federate.index < n
  delay_nonneg : ∀ f, ∀ d ∈ t.upstream f, 0 ≤ d.delay.nanos.toInt
  nodup : ∀ f, ((t.upstream f).map (·.federate)).Nodup
  mem_downstream_iff : ∀ u f, f ∈ t.downstream u ↔ u ∈ (t.upstream f).map (·.federate)

/-- A connection that `checkConnection` lets pass. -/
structure Connection.Fits (n : Nat) (c : Connection) : Prop where
  upstream_lt : c.upstream.index < n
  downstream_lt : c.downstream.index < n
  delay_nonneg : 0 ≤ c.delay.nanos.toInt

variable {t : Topology} {n : Nat} {c : Connection}

theorem upstream_eq_nil {f : FederateId} (h : t.dependencies.size ≤ f.index) :
    t.upstream f = [] := by
  rw [upstream, Roster.getD, Roster.get?_eq_none_iff.2 h]
  rfl

theorem downstream_eq_nil {f : FederateId} (h : t.dependents.size ≤ f.index) :
    t.downstream f = [] := by
  rw [downstream, Roster.getD, Roster.get?_eq_none_iff.2 h]
  rfl

theorem upstream_connect (h : c.downstream.index < t.dependencies.size) (f : FederateId) :
    (Plan.connect t c).upstream f = if c.downstream = f
      then Plan.addDependency c.upstream c.delay (t.upstream f) else t.upstream f := by
  unfold upstream Plan.connect Roster.getD
  dsimp only
  rw [Roster.get?_modify]
  split
  · rename_i hf
    subst hf
    obtain ⟨l, hl⟩ := Roster.exists_get?_of_index_lt h
    rw [hl]
    rfl
  · rfl

theorem mem_downstream_connect (h : c.upstream.index < t.dependents.size) (u f : FederateId) :
    f ∈ (Plan.connect t c).downstream u ↔
      c.upstream = u ∧ f = c.downstream ∨ f ∈ t.downstream u := by
  unfold downstream Plan.connect Roster.getD
  dsimp only
  rw [Roster.get?_modify]
  split
  · rename_i hu
    subst hu
    obtain ⟨s, hs⟩ := Roster.exists_get?_of_index_lt h
    rw [hs]
    simp only [true_and]
    exact FederateSet.mem_insert
  · rename_i hu
    simp [hu]

theorem Linked.connect (h : Linked n t) (hc : c.Fits n) : Linked n (Plan.connect t c) := by
  have hdown : c.downstream.index < t.dependencies.size :=
    h.size_dependencies.symm ▸ hc.downstream_lt
  have hup : c.upstream.index < t.dependents.size := h.size_dependents.symm ▸ hc.upstream_lt
  refine ⟨?_, ?_, fun f d hd => ?_, fun f => ?_, fun f => ?_, fun u f => ?_⟩
  · exact (Roster.size_modify _ _ _).trans h.size_dependencies
  · exact (Roster.size_modify _ _ _).trans h.size_dependents
  · rw [upstream_connect hdown] at hd
    split at hd
    · have hmem := Plan.mem_federates_addDependency.1 (List.mem_map_of_mem hd)
      rcases hmem with hd' | hmem
      · exact hd' ▸ hc.upstream_lt
      · obtain ⟨d', hd', heq⟩ := List.mem_map.1 hmem
        exact heq ▸ h.upstream_lt f d' hd'
    · exact h.upstream_lt f d hd
  · rw [upstream_connect hdown]
    split
    · exact Plan.delay_of_mem_addDependency (P := fun delay => 0 ≤ delay.nanos.toInt)
        hc.delay_nonneg (h.delay_nonneg f)
    · exact h.delay_nonneg f
  · rw [upstream_connect hdown]
    split
    · exact Plan.nodup_federates_addDependency (h.nodup f)
    · exact h.nodup f
  · rw [mem_downstream_connect hup, upstream_connect hdown, h.mem_downstream_iff]
    split
    · rename_i hf
      rw [Plan.mem_federates_addDependency, eq_comm (a := u)]
      simp [hf]
    · rename_i hf
      have hf' : ¬ f = c.downstream := fun h => hf h.symm
      simp [hf']

theorem upstream_empty (federationId : String) (n : Nat) (f : FederateId) :
    upstream ⟨federationId, .replicate n [], .replicate n .empty⟩ f = [] := by
  rw [upstream, Roster.getD, Roster.get?_replicate]
  split <;> rfl

theorem linked_empty (federationId : String) (n : Nat) :
    Linked n ⟨federationId, .replicate n [], .replicate n .empty⟩ := by
  have hup := upstream_empty federationId n
  have hdown : ∀ f, downstream ⟨federationId, .replicate n [], .replicate n .empty⟩ f = [] := by
    intro f
    rw [downstream, Roster.getD, Roster.get?_replicate]
    split <;> rfl
  refine ⟨Roster.size_replicate _ _, Roster.size_replicate _ _, ?_, ?_, ?_, ?_⟩ <;>
    simp [hup, hdown]

theorem Linked.foldl_connect {cs : List Connection} (h : Linked n t) (hcs : ∀ c ∈ cs, c.Fits n) :
    Linked n (cs.foldl Plan.connect t) := by
  induction cs generalizing t with
  | nil => exact h
  | cons c cs ih =>
    obtain ⟨hc, hcs⟩ := List.forall_mem_cons.1 hcs
    exact ih (h.connect hc) hcs

theorem Linked.delay?_eq_some_iff (h : Linked n t) {u f : FederateId} {delay : Interval} :
    t.delay? u f = some delay ↔ ⟨u, delay⟩ ∈ t.upstream f := by
  unfold delay?
  rw [Option.map_eq_some_iff]
  constructor
  · rintro ⟨d, hfind, hdelay⟩
    have hu : d.federate = u := by simpa using List.find?_some hfind
    have hd : d = ⟨u, delay⟩ := by rw [← hu, ← hdelay]
    exact hd ▸ List.mem_of_find?_eq_some hfind
  · intro hmem
    have hsome : ((t.upstream f).find? (·.federate = u)).isSome :=
      List.find?_isSome.2 ⟨_, hmem, by simp⟩
    obtain ⟨d, hfind⟩ := Option.isSome_iff_exists.1 hsome
    have hu : d.federate = u := by simpa using List.find?_some hfind
    -- no federate stands twice among the dependencies, so this is the one
    have hd : d = ⟨u, delay⟩ :=
      List.inj_on_of_nodup_map (h.nodup f) (List.mem_of_find?_eq_some hfind) hmem hu
    exact ⟨d, hfind, by rw [hd]⟩

/-- An instant edge is a dependency without delay. -/
theorem Linked.mem_instantDownstream_iff (h : Linked n t) {u f : FederateId} :
    f ∈ t.instantDownstream u ↔ ⟨u, .zero⟩ ∈ t.upstream f := by
  rw [instantDownstream, List.mem_filter, h.mem_downstream_iff, decide_eq_true_eq,
    h.delay?_eq_some_iff]
  exact ⟨And.right, fun hmem => ⟨List.mem_map_of_mem hmem, hmem⟩⟩

/-- A topology is known by the dependencies and the dependents of each federate. -/
theorem Linked.ext {t' : Topology} (h : Linked n t) (h' : Linked n t') (hle : n ≤ maxFederates)
    (hid : t.federationId = t'.federationId) (hup : ∀ f, t.upstream f = t'.upstream f)
    (hdown : ∀ f, t.downstream f = t'.downstream f) : t = t' := by
  have hdependencies : t.dependencies = t'.dependencies :=
    Roster.ext_getD (h.size_dependencies.trans h'.size_dependencies.symm)
      (h.size_dependencies.trans_le hle) [] hup
  have hdependents : t.dependents = t'.dependents := by
    refine Roster.ext_getD (h.size_dependents.trans h'.size_dependents.symm)
      (h.size_dependents.trans_le hle) .empty fun f => ?_
    exact FederateSet.ext_toList (hdown f)
  cases t
  cases t'
  obtain rfl := hid
  obtain rfl := hdependencies
  obtain rfl := hdependents
  rfl

/-! ## Topologies of accepted plans -/

/-- What every topology has in common that is built from a plan. -/
structure WellFormed (t : Topology) : Prop extends Linked t.size t where
  size_le : t.size ≤ Topology.maxFederates
  terminates : ∀ f, f.index < t.size → Graph.Terminates t.size t.instantDownstream f

namespace Plan

theorem fits_of_checkConnection {u : Unit} (h : checkConnection n c = .ok u) : c.Fits n := by
  unfold checkConnection at h
  split_ifs at h with hup hdown hneg
  · exact ⟨by omega, by omega, Int.not_lt.1 fun hlt => hneg (Interval.isNegative_iff.2 hlt)⟩

theorem forall_of_forM_eq_ok {α ε : Type} {l : List α} {check : α → Except ε Unit} {u : Unit}
    (h : l.forM check = .ok u) : ∀ a ∈ l, check a = .ok () := by
  induction l with
  | nil => exact fun a ha => absurd ha List.not_mem_nil
  | cons a l ih =>
    change (check a >>= fun _ => l.forM check) = .ok u at h
    cases ha : check a with
    | error e =>
      rw [ha] at h
      cases h
    | ok v =>
      rw [ha] at h
      exact List.forall_mem_cons.2 ⟨ha, ih h⟩

/-- What `build` has checked when it accepts a plan. -/
theorem build_eq_ok_iff {p : Plan} : p.build = .ok t ↔
    p.checkLimits = .ok () ∧ p.connections.forM (checkConnection p.size) = .ok () ∧
      Graph.findCycle p.graph.size p.graph.instantDownstream = none ∧ p.graph = t := by
  unfold build
  dsimp only [bind, Except.bind]
  cases p.checkLimits with
  | error e => simp
  | ok u =>
    cases p.connections.forM (checkConnection p.size) with
    | error e => simp
    | ok v =>
      cases Graph.findCycle p.graph.size p.graph.instantDownstream with
      | some cycle =>
        show Except.error (TopologyError.zeroDelayCycle cycle) = .ok t ↔ _
        simp
      | none =>
        show Except.ok p.graph = .ok t ↔ _
        simp

theorem size_le_of_checkLimits {p : Plan} {u : Unit} (h : p.checkLimits = .ok u) :
    p.size ≤ maxFederates := by
  unfold checkLimits at h
  split_ifs at h with hzero hmany hlong
  · omega

theorem linked_of_build {p : Plan} (h : p.build = .ok t) : Linked p.size t := by
  obtain ⟨-, hconnections, -, rfl⟩ := build_eq_ok_iff.1 h
  have hfits : ∀ c ∈ p.connections, c.Fits p.size := fun c hc =>
    fits_of_checkConnection (forall_of_forM_eq_ok hconnections c hc)
  exact (linked_empty p.federationId p.size).foldl_connect hfits

theorem size_eq_of_build {p : Plan} (h : p.build = .ok t) : t.size = p.size :=
  (linked_of_build h).size_dependencies

theorem wellFormed_of_build {p : Plan} (h : p.build = .ok t) : t.WellFormed := by
  have hlinked := linked_of_build h
  have hsize := size_eq_of_build h
  obtain ⟨hlimits, -, hcycle, rfl⟩ := build_eq_ok_iff.1 h
  refine ⟨hsize ▸ hlinked, ?_, fun f hf => Graph.terminates_of_findCycle_eq_none hcycle hf⟩
  rw [hsize]
  exact size_le_of_checkLimits hlimits

theorem size_pos_of_build {p : Plan} (h : p.build = .ok t) : 0 < t.size := by
  obtain ⟨hlimits, -, -, -⟩ := build_eq_ok_iff.1 h
  rw [size_eq_of_build h]
  unfold checkLimits at hlimits
  split_ifs at hlimits with hzero
  all_goals omega

end Plan

/-- The federate `f` depends on `u`, at whatever delay. -/
def Feeds (t : Topology) (u f : FederateId) : Prop := ∃ d ∈ t.upstream f, d.federate = u

namespace WellFormed

theorem downstream_lt (h : t.WellFormed) {u f : FederateId} (hf : f ∈ t.downstream u) :
    f.index < t.size := by
  by_contra hle
  rw [h.mem_downstream_iff, upstream_eq_nil (Nat.le_of_not_lt hle)] at hf
  exact List.not_mem_nil hf

/-- There are finitely many federates, so without a path that goes on for ever along the instant
edges there is none against them either. -/
theorem wellFounded_instantUpstream (h : t.WellFormed) :
    WellFounded fun u f : FederateId => ⟨u, .zero⟩ ∈ t.upstream f := by
  have hall : ∀ f, Graph.Terminates t.size t.instantDownstream f := by
    intro f
    by_cases hf : f.index < t.size
    · exact h.terminates f hf
    · refine Graph.terminates_of_forall fun g hg _ => ?_
      have hnil : t.downstream f = [] :=
        downstream_eq_nil (h.size_dependents ▸ Nat.le_of_not_lt hf)
      rw [instantDownstream, hnil] at hg
      exact absurd hg List.not_mem_nil
  have hwf : WellFounded fun g f : FederateId => ⟨f, .zero⟩ ∈ t.upstream g := by
    refine Subrelation.wf ?_ (WellFounded.intro hall)
    intro g f hfg
    have hg : g ∈ t.instantDownstream f := h.mem_instantDownstream_iff.2 hfg
    exact ⟨hg, h.downstream_lt (List.mem_of_mem_filter hg)⟩
  exact Graph.wellFounded_swap hwf

/-- Something that completes no cycle of dependencies begins somewhere. -/
theorem exists_upstream_eq_nil (h : t.WellFormed) (hsize : 0 < t.size)
    (hacyclic : ∀ f, ¬ Relation.TransGen t.Feeds f f) :
    ∃ f, t.contains f ∧ t.upstream f = [] := by
  let before : FederateId → FederateId → Prop := Relation.TransGen t.Feeds
  have hirrefl : Std.Irrefl before := ⟨hacyclic⟩
  have htrans : IsTrans FederateId before := ⟨fun _ _ _ => Relation.TransGen.trans⟩
  have hwf : WellFounded before := Finite.wellFounded_of_trans_of_irrefl before
  have hfirst : t.contains (.ofNat 0) := decide_eq_true hsize
  obtain ⟨f, hf, hmin⟩ := hwf.has_min {f | t.contains f} ⟨.ofNat 0, hfirst⟩
  refine ⟨f, hf, List.eq_nil_iff_forall_not_mem.2 fun d hd => ?_⟩
  exact hmin d.federate (decide_eq_true (h.upstream_lt f d hd)) (.single ⟨d, hd, rfl⟩)

end WellFormed

end Topology

end FederatedTime
