import FederatedTime.Graph.Cycle
import Mathlib.Data.Fintype.EquivFin
import Mathlib.Order.WellFounded

/-!
# Graphs in which the walk meets no cycle

If `findCycle` finds nothing, no path of the graph goes on for ever: every federate is accessible
along the edges (`acc_of_findCycle_eq_none`). The invariant of the walk is `Explored`: whatever has
been closed is accessible, and the successors of a federate on the trail that are not to be walked
any more are closed, but for the one that the trail goes on with.
-/

namespace FederatedTime.Graph

/-- There is an edge from `f` to `g` in the graph that `next` spans over the first `n` federates. -/
def Edge (n : Nat) (next : FederateId → List FederateId) (f g : FederateId) : Prop :=
  g ∈ next f ∧ g.index < n

/-- No path of the graph from `f` on goes on for ever. -/
def Terminates (n : Nat) (next : FederateId → List FederateId) (f : FederateId) : Prop :=
  Acc (fun g f => Edge n next f g) f

variable {next : FederateId → List FederateId} {marks : Roster Mark} {trail : Trail}
  {f g : FederateId}

theorem terminates_of_forall {n : Nat} (h : ∀ g ∈ next f, g.index < n → Terminates n next g) :
    Terminates n next f :=
  Acc.intro f fun g hg => h g hg.1 hg.2

/-! ## What has been walked -/

/-- The walk is done with `f`, or never was to walk it. -/
def Done (marks : Roster Mark) (f : FederateId) : Prop :=
  marks.get? f = none ∨ marks.get? f = some .closed

/-- Every successor of a federate on the trail is done, is still to be walked from there, or comes
next on the trail; `above` is what comes next after the first entry. -/
def Covered (next : FederateId → List FederateId) (marks : Roster Mark) :
    Option FederateId → Trail → Prop
  | _, [] => True
  | above, (f, rest) :: trail =>
    (∀ g ∈ next f, Done marks g ∨ g ∈ rest ∨ above = some g) ∧ Covered next marks (some f) trail

/-- What a walk knows of the graph. -/
structure Explored (next : FederateId → List FederateId) (marks : Roster Mark) (trail : Trail) :
    Prop where
  terminates : ∀ f, marks.get? f = some .closed → Terminates marks.size next f
  on_trail : ∀ f, marks.get? f = some .entered → f ∈ trail.map Prod.fst
  in_range : ∀ f ∈ trail.map Prod.fst, f.index < marks.size
  covered : Covered next marks none trail

theorem Covered.mono {marks' : Roster Mark} {above : Option FederateId}
    (h : Covered next marks above trail) (hdone : ∀ g, Done marks g → Done marks' g) :
    Covered next marks' above trail := by
  induction trail generalizing above with
  | nil => trivial
  | cons entry trail ih => exact ⟨fun g hg => (h.1 g hg).imp_left (hdone g), ih h.2⟩

/-- What the trail used to go on with has been closed. -/
theorem Covered.of_done (h : Covered next marks (some g) trail) (hg : Done marks g) :
    Covered next marks none trail := by
  cases trail with
  | nil => trivial
  | cons entry trail =>
    refine ⟨fun g' hg' => ?_, h.2⟩
    rcases h.1 g' hg' with hdone | hrest | habove
    · exact Or.inl hdone
    · exact Or.inr (Or.inl hrest)
    · obtain rfl := Option.some.inj habove
      exact Or.inl hg

theorem done_set_closed (h : Done marks g) : Done (marks.set f .closed) g := by
  by_cases hfg : f = g
  · subst hfg
    rcases h with h | h
    · exact Or.inl (by rw [Roster.get?_set, if_pos rfl, h]; rfl)
    · exact Or.inr (by rw [Roster.get?_set, if_pos rfl, h]; rfl)
  · unfold Done
    rwa [Roster.get?_set_ne hfg]

theorem done_set_of_unseen {mark : Mark} (hf : marks.get? f = some .unseen) (h : Done marks g) :
    Done (marks.set f mark) g := by
  have hfg : f ≠ g := by
    rintro rfl
    rcases h with h | h <;> rw [hf] at h <;> cases h
  unfold Done
  rwa [Roster.get?_set_ne hfg]

/-! ## The steps of a walk -/

theorem Explored.close (h : Explored next marks ((f, []) :: trail)) :
    Explored next (marks.set f .closed) trail where
  terminates g hg := by
    rw [Roster.size_set]
    by_cases hfg : f = g
    · subst hfg
      -- nothing is left to be walked from `f`, so all its successors are done
      refine terminates_of_forall fun g hg hlt => ?_
      rcases h.covered.1 g hg with (hnone | hclosed) | hrest | habove
      · exact absurd (Roster.get?_eq_none_iff.1 hnone) (by omega)
      · exact h.terminates g hclosed
      · cases hrest
      · cases habove
    · rw [Roster.get?_set_ne hfg] at hg
      exact h.terminates g hg
  on_trail g hg := by
    have hf : f.index < marks.size := h.in_range f List.mem_cons_self
    by_cases hfg : f = g
    · subst hfg
      rw [Roster.get?_set_self hf] at hg
      cases hg
    · rw [Roster.get?_set_ne hfg] at hg
      rcases List.mem_cons.1 (h.on_trail g hg) with rfl | hmem
      · exact absurd rfl hfg
      · exact hmem
  in_range g hg := by
    rw [Roster.size_set]
    exact h.in_range g (List.mem_cons_of_mem _ hg)
  covered := by
    have hf : f.index < marks.size := h.in_range f List.mem_cons_self
    exact (h.covered.2.mono fun g => done_set_closed).of_done (Or.inr (Roster.get?_set_self hf))

theorem terminates_set_entered (hg : marks.get? g = some .unseen)
    (h : ∀ f, marks.get? f = some .closed → Terminates marks.size next f)
    (hf : (marks.set g .entered).get? f = some .closed) :
    Terminates (marks.set g .entered).size next f := by
  have hne : g ≠ f := by
    rintro rfl
    rw [Roster.get?_set_self (Roster.index_lt_of_get? hg)] at hf
    cases hf
  rw [Roster.get?_set_ne hne] at hf
  rw [Roster.size_set]
  exact h f hf

theorem Explored.enter {rest : List FederateId} (h : Explored next marks ((f, g :: rest) :: trail))
    (hg : marks.get? g = some .unseen) :
    Explored next (marks.set g .entered) ((g, next g) :: (f, rest) :: trail) where
  terminates _ := terminates_set_entered hg h.terminates
  on_trail g' hg' := by
    by_cases hne : g = g'
    · exact hne ▸ List.mem_cons_self
    · rw [Roster.get?_set_ne hne] at hg'
      exact List.mem_cons_of_mem _ (h.on_trail g' hg')
  in_range g' hg' := by
    rw [Roster.size_set]
    rcases List.mem_cons.1 hg' with rfl | hmem
    · exact Roster.index_lt_of_get? hg
    · exact h.in_range g' hmem
  covered := by
    refine ⟨fun g' hg' => Or.inr (Or.inl hg'), fun g' hg' => ?_, ?_⟩
    · rcases h.covered.1 g' hg' with hdone | hrest | habove
      · exact Or.inl (done_set_of_unseen hg hdone)
      · rcases List.mem_cons.1 hrest with rfl | hrest
        · exact Or.inr (Or.inr rfl)
        · exact Or.inr (Or.inl hrest)
      · cases habove
    · exact h.covered.2.mono fun g' => done_set_of_unseen hg

theorem Explored.skip {rest : List FederateId} (h : Explored next marks ((f, g :: rest) :: trail))
    (hg : Done marks g) : Explored next marks ((f, rest) :: trail) where
  terminates := h.terminates
  on_trail := h.on_trail
  in_range := h.in_range
  covered := by
    refine ⟨fun g' hg' => ?_, h.covered.2⟩
    rcases h.covered.1 g' hg' with hdone | hrest | habove
    · exact Or.inl hdone
    · rcases List.mem_cons.1 hrest with rfl | hrest
      · exact Or.inl hg
      · exact Or.inr (Or.inl hrest)
    · cases habove

/-! ## Whole walks -/

/-- A federate that has been met stays met. -/
theorem set_ne_unseen {mark : Mark} (hmark : mark ≠ .unseen)
    (hg : marks.get? g ≠ some .unseen) : (marks.set f mark).get? g ≠ some .unseen := by
  by_cases hfg : f = g
  · subst hfg
    rw [Roster.get?_set, if_pos rfl]
    cases hold : marks.get? f with
    | none => exact fun h => by cases h
    | some old => exact fun h => hmark (Option.some.inj h)
  · rwa [Roster.get?_set_ne hfg]

theorem walk_marks {marks' : Roster Mark} (hwalk : walk next marks trail = .marks marks')
    (h : Explored next marks trail) :
    Explored next marks' [] ∧ marks'.size = marks.size ∧
      ∀ g, marks.get? g ≠ some .unseen → marks'.get? g ≠ some .unseen := by
  -- one case for each equation of `walk`; a cycle is met in the fourth, which leaves no marks
  fun_induction walk next marks trail with
  | case1 marks =>
    obtain rfl := Walked.marks.inj hwalk
    exact ⟨h, rfl, fun _ hg => hg⟩
  | case2 marks f trail ih =>
    obtain ⟨hexp, hsize, hmet⟩ := ih hwalk h.close
    rw [Roster.size_set] at hsize
    exact ⟨hexp, hsize, fun g hg => hmet g (set_ne_unseen (by decide) hg)⟩
  | case3 marks f g rest trail hg ih =>
    obtain ⟨hexp, hsize, hmet⟩ := ih hwalk (h.enter hg)
    rw [Roster.size_set] at hsize
    exact ⟨hexp, hsize, fun g' hg' => hmet g' (set_ne_unseen (by decide) hg')⟩
  | case4 marks f g rest trail hg => cases hwalk
  | case5 marks f g rest trail hg ih => exact ih hwalk (h.skip (Or.inr hg))
  | case6 marks f g rest trail hg ih => exact ih hwalk (h.skip (Or.inl hg))

theorem Explored.root (h : Explored next marks []) (hf : marks.get? f = some .unseen) :
    Explored next (marks.set f .entered) [(f, next f)] where
  terminates _ := terminates_set_entered hf h.terminates
  on_trail g hg := by
    by_cases hne : f = g
    · exact hne ▸ List.mem_cons_self
    · rw [Roster.get?_set_ne hne] at hg
      exact absurd (h.on_trail g hg) List.not_mem_nil
  in_range g hg := by
    rw [Roster.size_set, List.mem_singleton.1 hg]
    exact Roster.index_lt_of_get? hf
  covered := ⟨fun _ hg => Or.inr (Or.inl hg), trivial⟩

theorem Explored.terminates_of_met (h : Explored next marks []) (hf : f.index < marks.size)
    (hmet : marks.get? f ≠ some .unseen) : Terminates marks.size next f := by
  cases hmark : marks.get? f with
  | none => exact absurd (Roster.get?_eq_none_iff.1 hmark) (by omega)
  | some mark =>
    cases mark with
    | unseen => exact absurd hmark hmet
    | entered => exact absurd (h.on_trail f hmark) List.not_mem_nil
    | closed => exact h.terminates f hmark

theorem findCycleFrom_eq_none {roots : List FederateId}
    (hnone : findCycleFrom next marks roots = none) (h : Explored next marks [])
    (hf : f.index < marks.size) (hmet : f ∈ roots ∨ marks.get? f ≠ some .unseen) :
    Terminates marks.size next f := by
  -- a walk may meet `f` before its turn as a root comes, so the induction is on both at once
  induction roots generalizing marks with
  | nil => exact h.terminates_of_met hf (hmet.resolve_left List.not_mem_nil)
  | cons root roots ih =>
    unfold findCycleFrom at hnone
    split at hnone
    · rename_i hroot
      split at hnone
      · cases hnone
      · rename_i marks' hwalk
        obtain ⟨hexp, hsize, hstay⟩ := walk_marks hwalk (h.root hroot)
        rw [Roster.size_set] at hsize
        rw [← hsize] at hf ⊢
        refine ih hnone hexp hf ?_
        have hentered : (marks.set root .entered).get? root ≠ some .unseen := by
          rw [Roster.get?_set_self (Roster.index_lt_of_get? hroot)]
          exact fun h => by cases h
        rcases hmet with hmem | hmet
        · rcases List.mem_cons.1 hmem with rfl | hmem
          · exact Or.inr (hstay f hentered)
          · exact Or.inl hmem
        · exact Or.inr (hstay f (set_ne_unseen (by decide) hmet))
    · rename_i hroot
      refine ih hnone h hf ?_
      rcases hmet with hmem | hmet
      · rcases List.mem_cons.1 hmem with rfl | hmem
        · exact Or.inr hroot
        · exact Or.inl hmem
      · exact Or.inr hmet

theorem explored_replicate (n : Nat) : Explored next (.replicate n .unseen) [] := by
  have hunseen : ∀ f mark, (Roster.replicate n Mark.unseen).get? f = some mark →
      mark = .unseen := by
    intro f mark h
    rw [Roster.get?_replicate] at h
    split at h
    · exact (Option.some.inj h).symm
    · cases h
  refine ⟨fun f h => ?_, fun f h => ?_, fun f h => absurd h List.not_mem_nil, trivial⟩
  · cases hunseen f _ h
  · cases hunseen f _ h

/-- If no cycle is found, there is none: every path of the graph comes to an end. -/
theorem terminates_of_findCycle_eq_none {n : Nat} (hnone : findCycle n next = none)
    (hf : f.index < n) : Terminates n next f := by
  have hsize : (Roster.replicate n Mark.unseen).size = n := Roster.size_replicate n Mark.unseen
  have hf' : f.index < (Roster.replicate n Mark.unseen).size := by rwa [hsize]
  have h := findCycleFrom_eq_none hnone (explored_replicate n) hf'
    (Or.inl (FederateId.mem_firstIds hf))
  rwa [hsize] at h

/-! ## Paths against the edges -/

instance : Finite FederateId :=
  Finite.of_injective (fun f : FederateId => (⟨f.index, f.number.toNat_lt⟩ : Fin 65536))
    fun _ _ h => FederateId.index_injective (Fin.mk.inj h)

/-- Where no path goes on for ever in one direction, none does in the other, as there are only
finitely many federates. -/
theorem wellFounded_swap {edge : FederateId → FederateId → Prop} (h : WellFounded edge) :
    WellFounded fun f g => edge g f := by
  let before : FederateId → FederateId → Prop := Relation.TransGen fun f g => edge g f
  have hirrefl : Std.Irrefl before :=
    ⟨fun f hf => h.transGen.irrefl.irrefl f (Relation.transGen_swap.2 hf)⟩
  have htrans : IsTrans FederateId before := ⟨fun _ _ _ => Relation.TransGen.trans⟩
  have hwf : WellFounded before := Finite.wellFounded_of_trans_of_irrefl before
  exact Subrelation.wf (r := before) (fun hedge => Relation.TransGen.single hedge) hwf

end FederatedTime.Graph
