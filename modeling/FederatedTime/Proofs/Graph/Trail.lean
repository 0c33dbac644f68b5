import FederatedTime.Proofs.Graph.Cycle
import Mathlib.Data.List.Chain

/-!
# The cycle that a walk meets

The other side of a walk that meets no cycle: what `findCycle` reports is a cycle of the graph, and
it reports one in every graph that has one (`exists_findCycle_iff`). The invariant is `Descends`:
the trail goes down along edges, through federates that are entered and all different, so an edge
from its deepest federate back to one of them closes a cycle.
-/

namespace FederatedTime.Graph

/-- The federates form a cycle: all are different, each has an edge to the next one, and the last
has one to the first. -/
structure IsCycle (edge : FederateId → FederateId → Prop) (fs : List FederateId) : Prop where
  ne_nil : fs ≠ []
  nodup : fs.Nodup
  next : fs.IsChain edge
  back : ∀ first ∈ fs.head?, ∀ last ∈ fs.getLast?, edge last first

/-- Where there is a cycle, a path comes back to where it began. -/
theorem IsCycle.exists_transGen {edge : FederateId → FederateId → Prop} {fs : List FederateId}
    (h : IsCycle edge fs) : ∃ f, Relation.TransGen edge f f := by
  obtain ⟨first, rest, rfl⟩ := List.exists_cons_of_ne_nil h.ne_nil
  have hpath := List.relationReflTransGen_of_exists_isChain_cons rest h.next rfl
  exact ⟨first, .tail' hpath (h.back first rfl _ (List.getLast?_eq_some_getLast _))⟩

variable {n : Nat} {next : FederateId → List FederateId} {marks : Roster Mark} {trail : Trail}
  {f g : FederateId} {rest fs : List FederateId}

/-! ## The way down a trail -/

/-- The trail goes down along the edges of the graph, and the entered federates are those on it. -/
structure Descends (n : Nat) (next : FederateId → List FederateId) (marks : Roster Mark)
    (trail : Trail) : Prop where
  size_eq : marks.size = n
  chain : (trail.map Prod.fst).IsChain fun g f => Edge n next f g
  rest_sub : ∀ entry ∈ trail, entry.2 ⊆ next entry.1
  nodup : (trail.map Prod.fst).Nodup
  entered_iff : ∀ f, marks.get? f = some .entered ↔ f ∈ trail.map Prod.fst

/-- After a walk that has met no cycle, no federate is entered. -/
theorem Explored.descends (h : Explored next marks []) : Descends marks.size next marks [] where
  size_eq := rfl
  chain := .nil
  rest_sub _ hentry := absurd hentry List.not_mem_nil
  nodup := .nil
  entered_iff f := ⟨h.on_trail f, fun hf => absurd hf List.not_mem_nil⟩

theorem Descends.close (h : Descends n next marks ((f, []) :: trail)) :
    Descends n next (marks.set f .closed) trail where
  size_eq := (Roster.size_set _ _ _).trans h.size_eq
  chain := h.chain.tail
  rest_sub entry hentry := h.rest_sub entry (List.mem_cons_of_mem _ hentry)
  nodup := (List.nodup_cons.1 h.nodup).2
  entered_iff g := by
    have hf : marks.get? f = some .entered := (h.entered_iff f).2 List.mem_cons_self
    by_cases hfg : f = g
    · subst hfg
      rw [Roster.get?_set_self (Roster.index_lt_of_get? hf)]
      exact iff_of_false (fun heq => by cases heq) (List.nodup_cons.1 h.nodup).1
    · rw [Roster.get?_set_ne hfg, h.entered_iff]
      exact List.mem_cons.trans (or_iff_right (Ne.symm hfg))

/-- Enter a federate to which there is an edge from the deepest one, if there is any. -/
theorem Descends.enter (h : Descends n next marks trail) (hg : marks.get? g = some .unseen)
    (hedge : ∀ f ∈ (trail.map Prod.fst).head?, g ∈ next f) :
    Descends n next (marks.set g .entered) ((g, next g) :: trail) where
  size_eq := (Roster.size_set _ _ _).trans h.size_eq
  chain := by
    have hlt : g.index < n := h.size_eq ▸ Roster.index_lt_of_get? hg
    exact h.chain.cons fun f hf => ⟨hedge f hf, hlt⟩
  rest_sub := List.forall_mem_cons.2 ⟨List.Subset.refl _, h.rest_sub⟩
  nodup := by
    refine List.nodup_cons.2 ⟨fun hmem => ?_, h.nodup⟩
    rw [(h.entered_iff g).2 hmem] at hg
    cases hg
  entered_iff f := by
    rw [List.map_cons, List.mem_cons]
    by_cases hgf : g = f
    · subst hgf
      exact iff_of_true (Roster.get?_set_self (Roster.index_lt_of_get? hg)) (Or.inl rfl)
    · rw [Roster.get?_set_ne hgf, h.entered_iff, or_iff_right (Ne.symm hgf)]

theorem Descends.skip (h : Descends n next marks ((f, g :: rest) :: trail)) :
    Descends n next marks ((f, rest) :: trail) where
  size_eq := h.size_eq
  chain := h.chain
  rest_sub := by
    obtain ⟨hf, htrail⟩ := List.forall_mem_cons.1 h.rest_sub
    exact List.forall_mem_cons.2 ⟨(List.cons_subset.1 hf).2, htrail⟩
  nodup := h.nodup
  entered_iff := h.entered_iff

/-- The cycle from `g` on is the part of the trail that ends with `g`, read from there. -/
theorem exists_cycleFrom_eq (hg : g ∈ trail.map Prod.fst) :
    ∃ inner, inner ++ [g] <+: trail.map Prod.fst ∧ trail.cycleFrom g = (inner ++ [g]).reverse := by
  obtain ⟨inner, outer, hsplit, hinner⟩ := List.eq_append_cons_of_mem hg
  have htake : (trail.map Prod.fst).takeWhile (· ≠ g) = inner := by
    have hne : ∀ f ∈ inner, decide (f ≠ g) = true := fun f hf =>
      decide_eq_true fun heq => hinner (heq ▸ hf)
    rw [hsplit, List.takeWhile_append_of_pos hne, List.takeWhile_cons_of_neg (by simp),
      List.append_nil]
  refine ⟨inner, ⟨outer, ?_⟩, ?_⟩
  · rw [hsplit, List.append_assoc]
    rfl
  · rw [List.reverse_append, ← htake]
    rfl

/-- An edge from the deepest federate back to one that is entered closes a cycle. -/
theorem Descends.isCycle (h : Descends n next marks ((f, rest) :: trail))
    (hg : marks.get? g = some .entered) (hedge : g ∈ next f) :
    IsCycle (Edge n next) (Trail.cycleFrom ((f, rest) :: trail) g) := by
  obtain ⟨inner, hprefix, hcycle⟩ := exists_cycleFrom_eq ((h.entered_iff g).1 hg)
  rw [hcycle]
  refine ⟨?_, ?_, ?_, fun first hfirst last hlast => ?_⟩
  · simp
  · exact List.nodup_reverse.2 (h.nodup.sublist hprefix.sublist)
  · exact List.isChain_reverse.2 <| List.IsChain.prefix h.chain hprefix
  · obtain rfl : g = first := by simpa using hfirst
    obtain rfl : f = last := by
      obtain ⟨outer, houter⟩ := hprefix
      rw [List.getLast?_reverse] at hlast
      have hhead := congrArg List.head? houter
      rw [List.head?_append, hlast] at hhead
      exact (Option.some.inj hhead).symm
    exact ⟨hedge, h.size_eq ▸ Roster.index_lt_of_get? hg⟩

/-! ## Whole walks -/

theorem isCycle_of_walk (h : Descends n next marks trail)
    (hwalk : walk next marks trail = .cycle fs) : IsCycle (Edge n next) fs := by
  fun_induction walk next marks trail with
  | case1 marks => cases hwalk
  | case2 marks f trail ih => exact ih h.close hwalk
  | case3 marks f g rest trail hg ih =>
    have hedge : g ∈ next f := h.rest_sub _ List.mem_cons_self List.mem_cons_self
    refine ih (h.skip.enter hg fun f' hf' => ?_) hwalk
    rwa [← Option.some.inj hf']
  | case4 marks f g rest trail hg =>
    obtain rfl := Walked.cycle.inj hwalk
    exact h.skip.isCycle hg (h.rest_sub _ List.mem_cons_self List.mem_cons_self)
  | case5 marks f g rest trail hg ih => exact ih h.skip hwalk
  | case6 marks f g rest trail hg ih => exact ih h.skip hwalk

theorem isCycle_of_findCycleFrom {roots : List FederateId} (h : Explored next marks [])
    (hsome : findCycleFrom next marks roots = some fs) : IsCycle (Edge marks.size next) fs := by
  induction roots generalizing marks with
  | nil => cases hsome
  | cons root roots ih =>
    unfold findCycleFrom at hsome
    split at hsome
    · rename_i hroot
      split at hsome
      · rename_i cycle hwalk
        obtain rfl := Option.some.inj hsome
        exact isCycle_of_walk (h.descends.enter hroot fun f hf => by cases hf) hwalk
      · rename_i marks' hwalk
        obtain ⟨hexplored, hsize, -⟩ := walk_marks hwalk (h.root hroot)
        rw [Roster.size_set] at hsize
        rw [← hsize]
        exact ih hexplored hsome
    · exact ih h hsome

/-- What is reported is a cycle. -/
theorem isCycle_of_findCycle (h : findCycle n next = some fs) : IsCycle (Edge n next) fs := by
  have hcycle := isCycle_of_findCycleFrom (explored_replicate n) h
  rwa [Roster.size_replicate] at hcycle

/-- A path that comes back to where it began goes on for ever. -/
theorem not_terminates_of_transGen (h : Relation.TransGen (Edge n next) f f) :
    ¬ Terminates n next f := by
  intro hf
  have hacc : Acc (Relation.TransGen fun g f => Edge n next f g) f := Acc.transGen hf
  clear hf
  induction hacc with
  | intro f _ ih => exact ih f (Relation.transGen_swap.2 h) h

/-- A cycle is reported if and only if there is one. -/
theorem exists_findCycle_iff :
    (∃ fs, findCycle n next = some fs) ↔ ∃ f, Relation.TransGen (Edge n next) f f := by
  constructor
  · rintro ⟨fs, hfs⟩
    exact (isCycle_of_findCycle hfs).exists_transGen
  · rintro ⟨f, hf⟩
    have hlt : f.index < n := by
      obtain ⟨before, -, hedge⟩ := Relation.TransGen.tail'_iff.1 hf
      exact hedge.2
    refine Option.ne_none_iff_exists'.1 fun hnone => ?_
    exact not_terminates_of_transGen hf (terminates_of_findCycle_eq_none hnone hlt)

end FederatedTime.Graph
