import FederatedTime.Proofs.Coordinator.Sweep
import FederatedTime.Proofs.Topology.WellFormed

/-!
# What holds a federate back

A federate is held back by its own next event and by what it depends on, and by nothing more the
further these are (`Registry.Trails`). A dependency that has left holds nobody back: the bound is
the same without it (`Registry.admissibleBound_without`). Both together are
`Registry.admissibleBound_trails_and_releases`.
-/

namespace FederatedTime

/-- The topology in which `f` does not depend on any of the `gone`. -/
def Topology.without (t : Topology) (f : FederateId) (gone : List FederateId) : Topology :=
  { t with dependencies := t.dependencies.modify f (·.filter (·.federate ∉ gone)) }

theorem Topology.upstream_without (t : Topology) (f : FederateId) (gone : List FederateId) :
    (t.without f gone).upstream f = (t.upstream f).filter (·.federate ∉ gone) := by
  unfold upstream without Roster.getD
  dsimp only
  rw [Roster.get?_modify, if_pos rfl]
  cases t.dependencies.get? f <;> rfl

namespace Registry

/-- The registry in whose topology `f` does not depend on any of the `gone`. -/
def without (r : Registry) (f : FederateId) (gone : List FederateId) : Registry :=
  { r with topology := r.topology.without f gone }

/-- The registries are of one federation, and nothing that may hold `f` back is further in `r` than
it is in `r'`. -/
structure Trails (f : FederateId) (r r' : Registry) : Prop where
  topology_eq : r'.topology = r.topology
  size_eq : r'.size = r.size
  completed_le : ∀ g u u', r.get? g = some u → r'.get? g = some u' →
    u.effectiveCompleted ≤ u'.effectiveCompleted
  nextEvent_le : ∀ record record', r.get? f = some record → r'.get? f = some record' →
    record.nextEvent ≤ record'.nextEvent

variable {r r' : Registry} {f g : FederateId} {record : FederateRecord} {b : Tag}

theorem Trails.exists_get? (h : Trails f r r') (hg : r.get? g = some record) :
    ∃ record', r'.get? g = some record' := by
  have hsize : g.index < r'.size := h.size_eq ▸ Roster.index_lt_of_get? hg
  exact Roster.exists_get?_of_index_lt hsize

theorem Trails.admissibleBound_le (h : Trails f r r') (hwf : r.topology.WellFormed)
    (hb : r.admissibleBound f = some b) : ∃ b', r'.admissibleBound f = some b' ∧ b ≤ b' := by
  refine admissibleBound_mono h.topology_eq (hwf.delay_nonneg f) (fun record hf => ?_)
    (fun d _ u hu => ?_) hb
  · obtain ⟨record', hf'⟩ := h.exists_get? hf
    exact ⟨record', hf', h.nextEvent_le record record' hf hf'⟩
  · obtain ⟨u', hu'⟩ := h.exists_get? hu
    exact ⟨u', hu', h.completed_le _ u u' hu hu'⟩

/-! ## Dependencies that have left -/

/-- One that has left is not unknown, and what may arrive from it is later than everything. -/
theorem arrival?_of_hasLeft {d : Dependency} (h : r.hasLeft d.federate = true) :
    r.arrival? d = some .forever := by
  obtain ⟨u, hu, hleft⟩ : ∃ u, r.get? d.federate = some u ∧ u.state = .resigned := by
    unfold hasLeft flag at h
    cases hu : r.get? d.federate with
    | none =>
      rw [hu] at h
      cases h
    | some u =>
      rw [hu] at h
      exact ⟨u, rfl, of_decide_eq_true h⟩
  have hcompleted : u.effectiveCompleted = .forever := if_pos hleft
  refine arrival?_eq_some_iff.2 ⟨u, hu, ?_, ?_⟩
  · rw [hcompleted]
    decide
  · rw [hcompleted, Tag.delayed_forever]

/-- Whether an arrival is missing, and which is the least, does not depend on those that have
left, wherever they stand among the others. -/
theorem foldl_min_arrivals_filter {ds : List Dependency} {stays : Dependency → Bool}
    (h : ∀ d ∈ ds, stays d = false → r.hasLeft d.federate = true) (tag : Tag) :
    ((ds.filter stays).mapM r.arrival?).map (·.foldl min tag) =
      (ds.mapM r.arrival?).map (·.foldl min tag) := by
  induction ds generalizing tag with
  | nil => rfl
  | cons d ds ih =>
    obtain ⟨hd, hds⟩ := List.forall_mem_cons.1 h
    have hcons (arrival : Tag) (ds : List Dependency) :
        ((some arrival).bind fun a => (ds.mapM r.arrival?).bind fun rest =>
          some (a :: rest)).map (·.foldl min tag) =
            (ds.mapM r.arrival?).map (·.foldl min (min tag arrival)) := by
      cases ds.mapM r.arrival? <;> rfl
    cases hstays : stays d with
    | true =>
      rw [List.filter_cons_of_pos hstays, List.mapM_cons, List.mapM_cons]
      cases r.arrival? d with
      | none => rfl
      | some arrival => exact (hcons arrival _).trans ((ih hds _).trans (hcons arrival _).symm)
    | false =>
      rw [List.filter_cons_of_neg (by rw [hstays]; exact Bool.false_ne_true), List.mapM_cons,
        arrival?_of_hasLeft (hd hstays)]
      refine Eq.trans ?_ (hcons .forever ds).symm
      rw [ih hds, min_eq_left (Tag.le_forever tag)]

/-- A federate has the same bound without the dependencies that have left. -/
theorem admissibleBound_without {gone : List FederateId}
    (hgone : ∀ u ∈ gone, r.hasLeft u = true) (f : FederateId) :
    (r.without f gone).admissibleBound f = r.admissibleBound f := by
  cases hf : r.get? f with
  | none =>
    have hf' : (r.without f gone).get? f = none := hf
    unfold admissibleBound
    rw [hf, hf']
    rfl
  | some record =>
    have hf' : (r.without f gone).get? f = some record := hf
    by_cases hn : record.nextEvent = .never
    · unfold admissibleBound
      rw [hf, hf', Option.bind_eq_bind, Option.bind_eq_bind, Option.bind_some, Option.bind_some,
        if_pos (Tag.isNever_eq_true.2 hn), if_pos (Tag.isNever_eq_true.2 hn)]
    · have hup : (r.without f gone).topology.upstream f =
          (r.topology.upstream f).filter (·.federate ∉ gone) := r.topology.upstream_without f gone
      -- the records are those of `r`, so the arrivals are too
      have harrival : (r.without f gone).arrival? = r.arrival? := rfl
      rw [admissibleBound_eq hf' hn, admissibleBound_eq hf hn, hup, harrival]
      refine foldl_min_arrivals_filter (fun d _ hd => hgone d.federate ?_) record.nextEvent
      simpa using hd

/-- Where nothing that may hold a federate back is less far, its bound is there if it has been
there before, and is no lower; and in every registry its bound is the same whether or not it depends
on federates that have left. -/
theorem admissibleBound_trails_and_releases :
    (∀ p : Topology.Plan, ∀ r r' : Registry, ∀ f b, p.build = .ok r.topology → Trails f r r' →
      r.admissibleBound f = some b → ∃ b', r'.admissibleBound f = some b' ∧ b ≤ b') ∧
    ∀ r : Registry, ∀ f gone, (∀ u ∈ gone, r.hasLeft u = true) →
      (r.without f gone).admissibleBound f = r.admissibleBound f :=
  ⟨fun _ _ _ _ _ hbuild h => h.admissibleBound_le (Topology.Plan.wellFormed_of_build hbuild),
    fun _ f _ hgone => admissibleBound_without hgone f⟩

/-- Federate 2 depends on two others. -/
def forkPlan : Topology.Plan :=
  { federationId := "fork", size := 3,
    connections := [⟨⟨0⟩, ⟨2⟩, ⟨5⟩⟩, ⟨⟨1⟩, ⟨2⟩, ⟨3⟩⟩] }

/-- A registry of the fork in which federate 1 has left. -/
def forkRegistry (completed nextEvent : Tag) : Registry :=
  ⟨forkPlan.graph, ⟨#[{ id := ⟨0⟩, state := .pending, completed }, { id := ⟨1⟩, state := .resigned },
    { id := ⟨2⟩, state := .pending, nextEvent }]⟩⟩

/-- The bound goes from 15 to 30 when federate 0 completes 40, and does not need federate 1. -/
theorem admissibleBound_trails_and_releases_fork :
    (∃ b', (forkRegistry (.ofTime 40) (.ofTime 30)).admissibleBound ⟨2⟩ = some b' ∧
      Tag.ofTime 15 ≤ b') ∧
    ((forkRegistry (.ofTime 10) (.ofTime 20)).without ⟨2⟩ [⟨1⟩]).admissibleBound ⟨2⟩ =
      some (.ofTime 15) := by
  obtain ⟨hrises, hreleases⟩ := admissibleBound_trails_and_releases
  have hbuild : forkPlan.build = .ok forkPlan.graph :=
    Topology.Plan.build_eq_ok_iff.2 ⟨rfl, rfl, by cbv, rfl⟩
  have hbound : (forkRegistry (.ofTime 10) (.ofTime 20)).admissibleBound ⟨2⟩ =
      some (.ofTime 15) := by decide
  have htrails : Trails ⟨2⟩ (forkRegistry (.ofTime 10) (.ofTime 20))
      (forkRegistry (.ofTime 40) (.ofTime 30)) := by
    refine ⟨rfl, rfl, fun g u u' hu hu' => ?_, fun record record' hf hf' => ?_⟩
    · unfold get? Roster.get? at hu hu'
      generalize g.index = i at hu hu'
      rcases i with _ | _ | _ | i
      · obtain rfl := Option.some.inj hu
        obtain rfl := Option.some.inj hu'
        decide
      · obtain rfl := Option.some.inj hu
        obtain rfl := Option.some.inj hu'
        decide
      · obtain rfl := Option.some.inj hu
        obtain rfl := Option.some.inj hu'
        decide
      · cases hu
    · obtain rfl := Option.some.inj hf
      obtain rfl := Option.some.inj hf'
      decide
  refine ⟨hrises forkPlan _ _ _ _ hbuild htrails hbound, ?_⟩
  rw [hreleases _ ⟨2⟩ [⟨1⟩] (by decide), hbound]

end Registry

end FederatedTime
