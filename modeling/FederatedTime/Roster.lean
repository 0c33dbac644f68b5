import FederatedTime.Federate

/-!
# Rosters

A roster keeps one entry for each configured federate. Reading outside of it gives nothing, and
writing outside of it changes nothing: `get?_modify` says so in one equation.
-/

namespace FederatedTime

/-- One entry per configured federate, in the order of their numbers. -/
structure Roster (α : Type) where
  entries : Array α
deriving DecidableEq

namespace Roster

variable {α : Type}

/-- A roster of `n` federates with the same entry for each. -/
def replicate (n : Nat) (a : α) : Roster α := ⟨Array.replicate n a⟩

/-- A roster of `n` federates with the entry that `a` gives each. -/
def tabulate (n : Nat) (a : FederateId → α) : Roster α :=
  ⟨Array.ofFn fun i : Fin n => a (.ofNat i)⟩

def size (r : Roster α) : Nat := r.entries.size

/-- The entry of `f`, if `f` is configured. -/
def get? (r : Roster α) (f : FederateId) : Option α := r.entries[f.index]?

/-- The entry of `f`, or `fallback` where `f` is not configured. -/
def getD (r : Roster α) (f : FederateId) (fallback : α) : α := (r.get? f).getD fallback

/-- The roster with the entry of `f` changed. -/
def modify (r : Roster α) (f : FederateId) (change : α → α) : Roster α :=
  ⟨r.entries.modify f.index change⟩

/-- The roster with the entry of `f` replaced. -/
def set (r : Roster α) (f : FederateId) (a : α) : Roster α :=
  ⟨r.entries.setIfInBounds f.index a⟩

/-- All entries in order. -/
def toList (r : Roster α) : List α := r.entries.toList

/-- All configured federates in order. -/
def ids (r : Roster α) : List FederateId := FederateId.firstIds r.size

theorem index_eq_iff {f g : FederateId} : f.index = g.index ↔ f = g :=
  ⟨FederateId.index_injective, fun h => congrArg _ h⟩

theorem get?_modify (r : Roster α) (f g : FederateId) (change : α → α) :
    (r.modify f change).get? g = if f = g then (r.get? g).map change else r.get? g := by
  simp only [get?, modify, Array.getElem?_modify, index_eq_iff]

theorem get?_set (r : Roster α) (f g : FederateId) (a : α) :
    (r.set f a).get? g = if f = g then (r.get? g).map fun _ => a else r.get? g := by
  simp only [get?, set, Array.getElem?_setIfInBounds, index_eq_iff]
  by_cases h : f = g
  · subst h
    by_cases hf : f.index < r.entries.size <;> simp [hf]
  · simp [h]

theorem modify_eq_self {r : Roster α} {f : FederateId} {change : α → α}
    (h : ∀ a, r.get? f = some a → change a = a) : r.modify f change = r := by
  refine congrArg mk (Array.ext_getElem? fun i => ?_)
  rw [Array.getElem?_modify]
  split
  · rename_i hi
    subst hi
    cases hf : r.entries[f.index]? with
    | none => rfl
    | some a => exact congrArg some (h a hf)
  · rfl

@[simp] theorem size_modify (r : Roster α) (f : FederateId) (change : α → α) :
    (r.modify f change).size = r.size := by
  simp [size, modify]

@[simp] theorem size_set (r : Roster α) (f : FederateId) (a : α) : (r.set f a).size = r.size := by
  simp [size, set]

theorem get?_eq_none_iff {r : Roster α} {f : FederateId} : r.get? f = none ↔ r.size ≤ f.index := by
  simp [get?, size]

theorem index_lt_of_get? {r : Roster α} {f : FederateId} {a : α} (h : r.get? f = some a) :
    f.index < r.size := by
  refine Nat.lt_of_not_le fun hle => ?_
  rw [get?_eq_none_iff.2 hle] at h
  cases h

theorem exists_get?_of_index_lt {r : Roster α} {f : FederateId} (h : f.index < r.size) :
    ∃ a, r.get? f = some a :=
  Option.ne_none_iff_exists'.1 fun hnone => absurd (get?_eq_none_iff.1 hnone) (by omega)

theorem mem_toList_of_get? {r : Roster α} {f : FederateId} {a : α} (h : r.get? f = some a) :
    a ∈ r.toList :=
  Array.mem_toList_iff.2 (Array.mem_of_getElem? h)

/-- The entries are those of the federates in order, as long as numbers tell the federates apart. -/
theorem toList_eq_filterMap {r : Roster α} (h : r.size ≤ 65536) :
    r.toList = r.ids.filterMap r.get? := by
  have hmap : r.ids.map r.get? = r.toList.map some := by
    refine List.ext_getElem (by simp [ids, FederateId.firstIds, toList, size]) ?_
    intro i hi _
    have hi : i < r.entries.size := by simpa [ids, FederateId.firstIds, size] using hi
    have hsize : r.entries.size ≤ 65536 := h
    have hindex : (FederateId.ofNat i).index = i := FederateId.index_ofNat (by omega)
    simp [ids, FederateId.firstIds, toList, get?, hindex, hi]
  calc r.toList = (r.toList.map some).filterMap id := by simp
    _ = r.ids.filterMap r.get? := by rw [← hmap, List.filterMap_map, Function.id_comp]

/-- A roster is known by its entries, as long as numbers tell the federates apart. -/
theorem ext_get? {r r' : Roster α} (hsize : r.size = r'.size) (hle : r.size ≤ 65536)
    (hget : ∀ f, r.get? f = r'.get? f) : r = r' := by
  have hlist : r.toList = r'.toList := by
    have hentry : r.get? = r'.get? := funext hget
    rw [toList_eq_filterMap hle, toList_eq_filterMap (hsize ▸ hle), ids, ids, hsize, hentry]
  cases r
  cases r'
  exact congrArg mk (Array.ext' hlist)

/-- A roster of a known size is known by what it reads with a fallback. -/
theorem ext_getD {r r' : Roster α} (hsize : r.size = r'.size) (hle : r.size ≤ 65536) (fallback : α)
    (hget : ∀ f, r.getD f fallback = r'.getD f fallback) : r = r' := by
  refine ext_get? hsize hle fun f => ?_
  by_cases hf : f.index < r.size
  · obtain ⟨a, ha⟩ := exists_get?_of_index_lt hf
    obtain ⟨a', ha'⟩ := exists_get?_of_index_lt (hsize ▸ hf)
    have heq := hget f
    rw [getD, getD, ha, ha'] at heq
    rw [ha, ha']
    exact congrArg some heq
  · rw [get?_eq_none_iff.2 (Nat.le_of_not_lt hf),
      get?_eq_none_iff.2 (hsize ▸ Nat.le_of_not_lt hf)]

theorem get?_set_self {r : Roster α} {f : FederateId} {a : α} (h : f.index < r.size) :
    (r.set f a).get? f = some a := by
  obtain ⟨old, hold⟩ := exists_get?_of_index_lt h
  rw [get?_set, if_pos rfl, hold]
  rfl

theorem get?_set_ne {r : Roster α} {f g : FederateId} {a : α} (h : f ≠ g) :
    (r.set f a).get? g = r.get? g := by
  rw [get?_set, if_neg h]

@[simp] theorem size_replicate (n : Nat) (a : α) : (replicate n a).size = n := by
  simp [size, replicate]

theorem get?_replicate (n : Nat) (a : α) (f : FederateId) :
    (replicate n a).get? f = if f.index < n then some a else none := by
  simp only [get?, replicate, Array.getElem?_replicate]

theorem toList_set (r : Roster α) (f : FederateId) (a : α) :
    (r.set f a).toList = r.toList.set f.index a := by
  simp [set, toList]

section Total

/-- The weights of all entries, added up. -/
def total (weight : α → Nat) (r : Roster α) : Nat :=
  r.toList.foldr (fun a rest => weight a + rest) 0

theorem foldr_weight_modify (weight : α → Nat) (change : α → α) {l : List α} {i : Nat} {a : α}
    (h : l[i]? = some a) :
    (l.modify i change).foldr (fun a rest => weight a + rest) 0 + weight a =
      l.foldr (fun a rest => weight a + rest) 0 + weight (change a) := by
  induction l generalizing i with
  | nil => cases h
  | cons b l ih =>
    cases i with
    | zero =>
      obtain rfl := Option.some.inj h
      simp only [List.modify_zero_cons, List.foldr_cons]
      omega
    | succ i =>
      have ih := ih (i := i) h
      simp only [List.modify_succ_cons, List.foldr_cons]
      omega

/-- Changing one entry moves the total by what the weight of that entry moves. -/
theorem total_modify {r : Roster α} {f : FederateId} {a : α} (h : r.get? f = some a)
    (weight : α → Nat) (change : α → α) :
    (r.modify f change).total weight + weight a = r.total weight + weight (change a) := by
  have hlist : r.toList[f.index]? = some a := by rw [toList, Array.getElem?_toList]; exact h
  unfold total modify toList
  rw [Array.toList_modify]
  exact foldr_weight_modify weight change hlist

end Total

section Count

variable [DecidableEq α]

/-- How many federates have the entry `a`. -/
def count (a : α) (r : Roster α) : Nat := r.toList.count a

/-- Replacing one entry `b` by another entry `c` takes one from the count of `b`. -/
theorem count_set_of_ne {r : Roster α} {f : FederateId} {b c : α} (h : r.get? f = some b)
    (hbc : b ≠ c) : (r.set f c).count b + 1 = r.count b := by
  obtain ⟨hf, hb⟩ := Array.getElem?_eq_some_iff.1 h
  have hf' : f.index < r.toList.length := by simpa [toList] using hf
  have hget : r.toList[f.index] = b := by simpa [toList] using hb
  have hpos : 0 < r.toList.count b :=
    List.count_pos_iff.2 (hget ▸ List.getElem_mem hf')
  have hcb : (c == b) = false := beq_false_of_ne (Ne.symm hbc)
  have hbb : (r.toList[f.index] == b) = true := beq_iff_eq.2 hget
  unfold count
  rw [toList_set, List.count_set hf', hcb, hbb]
  show r.toList.count b - 1 + 0 + 1 = r.toList.count b
  omega

/-- Writing an entry other than `b` never adds to the count of `b`. -/
theorem count_set_le {r : Roster α} {f : FederateId} {b c : α} (hbc : b ≠ c) :
    (r.set f c).count b ≤ r.count b := by
  unfold count
  rw [toList_set]
  by_cases hf : f.index < r.toList.length
  · have hcb : (c == b) = false := beq_false_of_ne (Ne.symm hbc)
    rw [List.count_set hf, hcb]
    exact Nat.sub_le _ _
  · exact Nat.le_of_eq (congrArg _ (List.set_eq_of_length_le (Nat.le_of_not_lt hf)))

end Count

end Roster

end FederatedTime
