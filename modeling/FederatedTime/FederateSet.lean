import FederatedTime.Federate

/-!
# Sets of federates

A finite set of federates, kept as an ascending list so that equal sets are equal values and every
walk over a set goes in the order of the federates' numbers.
-/

namespace FederatedTime

/-- A finite set of federates. -/
structure FederateSet where
  toList : List FederateId
  ascending : toList.Pairwise (· < ·)
deriving DecidableEq

namespace FederateSet

def empty : FederateSet := ⟨[], .nil⟩

instance : Inhabited FederateSet := ⟨empty⟩

instance : Membership FederateId FederateSet := ⟨fun s f => f ∈ s.toList⟩

theorem ext_toList {s s' : FederateSet} (h : s.toList = s'.toList) : s = s' := by
  cases s
  cases s'
  obtain rfl := h
  rfl

instance (f : FederateId) (s : FederateSet) : Decidable (f ∈ s) :=
  inferInstanceAs (Decidable (f ∈ s.toList))

def isEmpty (s : FederateSet) : Bool := s.toList.isEmpty

/-! ## Insertion -/

/-- The ascending list with `f` in its place, unless it is there. -/
def insertInto (f : FederateId) : List FederateId → List FederateId
  | [] => [f]
  | g :: rest =>
    if f < g then f :: g :: rest
    else if f = g then g :: rest
    else g :: insertInto f rest

theorem mem_insertInto {f g : FederateId} {l : List FederateId} :
    g ∈ insertInto f l ↔ g = f ∨ g ∈ l := by
  induction l with
  | nil => simp [insertInto]
  | cons h rest ih =>
    unfold insertInto
    split
    · simp
    · split
      · simp_all
      · simp only [List.mem_cons, ih]
        grind

theorem ascending_insertInto {f : FederateId} {l : List FederateId} (h : l.Pairwise (· < ·)) :
    (insertInto f l).Pairwise (· < ·) := by
  induction l with
  | nil => simp [insertInto]
  | cons g rest ih =>
    obtain ⟨hg, hrest⟩ := List.pairwise_cons.1 h
    unfold insertInto
    split
    · rename_i hfg
      refine List.pairwise_cons.2 ⟨fun x hx => ?_, h⟩
      rcases List.mem_cons.1 hx with rfl | hx
      · exact hfg
      · exact Nat.lt_trans hfg (hg x hx)
    · split
      · exact h
      · rename_i hlt hne
        refine List.pairwise_cons.2 ⟨fun x hx => ?_, ih hrest⟩
        rcases mem_insertInto.1 hx with rfl | hx
        · have : x.index ≠ g.index := fun h => hne (FederateId.index_injective h)
          have : ¬ x.index < g.index := hlt
          show g.index < x.index
          omega
        · exact hg x hx

/-- The set with `f` added. -/
def insert (s : FederateSet) (f : FederateId) : FederateSet :=
  ⟨insertInto f s.toList, ascending_insertInto s.ascending⟩

/-- The set of the members of a list. -/
def ofList (l : List FederateId) : FederateSet := l.foldl insert empty

theorem mem_insert {s : FederateSet} {f g : FederateId} : g ∈ s.insert f ↔ g = f ∨ g ∈ s :=
  mem_insertInto

/-! ## Removal -/

/-- The set with `f` removed. -/
def erase (s : FederateSet) (f : FederateId) : FederateSet :=
  ⟨s.toList.filter (· ≠ f), s.ascending.filter _⟩

theorem mem_erase {s : FederateSet} {f g : FederateId} : g ∈ s.erase f ↔ g ∈ s ∧ g ≠ f := by
  show g ∈ s.toList.filter (· ≠ f) ↔ g ∈ s.toList ∧ g ≠ f
  simp

end FederateSet

end FederatedTime
