import FederatedTime.Time.Tag
import Mathlib.Order.Bounds.Basic
import Mathlib.Order.MinMax

/-!
# The order of tags

Tags are linearly ordered, between `Tag.never` and `Tag.forever`. `lt_iff` and `le_iff` bring a
comparison down to integers.
-/

namespace FederatedTime

namespace Tag

theorem lt_iff {a b : Tag} : a < b ↔ a.time.toInt < b.time.toInt ∨
    a.time.toInt = b.time.toInt ∧ a.microstep.toNat < b.microstep.toNat := by
  show a.time < b.time ∨ a.time = b.time ∧ a.microstep < b.microstep ↔ _
  rw [Int64.lt_iff_toInt_lt, UInt32.lt_iff_toNat_lt, Int64.toInt_inj]

theorem le_iff {a b : Tag} : a ≤ b ↔ a.time.toInt < b.time.toInt ∨
    a.time.toInt = b.time.toInt ∧ a.microstep.toNat ≤ b.microstep.toNat := by
  show a.time < b.time ∨ a.time = b.time ∧ a.microstep ≤ b.microstep ↔ _
  rw [Int64.lt_iff_toInt_lt, UInt32.le_iff_toNat_le, Int64.toInt_inj]

theorem eq_iff {a b : Tag} : a = b ↔
    a.time.toInt = b.time.toInt ∧ a.microstep.toNat = b.microstep.toNat := by
  rw [Int64.toInt_inj, UInt32.toNat_inj]
  cases a; cases b
  rw [mk.injEq]

instance : LinearOrder Tag where
  le_refl a := le_iff.2 (by omega)
  le_trans a b c hab hbc := by
    rw [le_iff] at *
    omega
  lt_iff_le_not_ge a b := by
    rw [lt_iff, le_iff, le_iff]
    omega
  le_antisymm a b hab hba := by
    rw [le_iff] at hab hba
    exact eq_iff.2 (by omega)
  le_total a b := by
    rw [le_iff, le_iff]
    omega
  toDecidableLE := inferInstance
  toDecidableLT := inferInstance
  toDecidableEq := inferInstance

theorem never_le (a : Tag) : never ≤ a := by
  have h : Int64.minValue.toInt ≤ a.time.toInt := a.time.minValue_le_toInt
  rw [le_iff]
  show Int64.minValue.toInt < _ ∨ Int64.minValue.toInt = _ ∧ 0 ≤ _
  omega

theorem le_forever (a : Tag) : a ≤ forever := by
  have ht : a.time.toInt ≤ Int64.maxValue.toInt := a.time.toInt_le
  have hm : a.microstep.toNat < 4294967296 := a.microstep.toNat_lt
  rw [le_iff]
  show _ < Int64.maxValue.toInt ∨ _ = Int64.maxValue.toInt ∧ _ ≤ 4294967295
  omega

theorem never_lt_iff {a : Tag} : never < a ↔ a ≠ never :=
  ⟨ne_of_gt, fun h => lt_of_le_of_ne (never_le a) (Ne.symm h)⟩

theorem lt_forever_iff {a : Tag} : a < forever ↔ a ≠ forever :=
  ⟨ne_of_lt, fun h => lt_of_le_of_ne (le_forever a) h⟩

@[simp] theorem isNever_eq_true {a : Tag} : a.isNever = true ↔ a = never := beq_iff_eq

@[simp] theorem isForever_eq_true {a : Tag} : a.isForever = true ↔ a = forever := beq_iff_eq

/-! ## The bound of a clamped tag -/

theorem clamp_le_left (a : Tag) (bound : Option Tag) : a.clamp bound ≤ a := by
  cases bound with
  | none => exact le_refl a
  | some b => exact min_le_left a b

theorem clamp_le_of_mem {a b : Tag} {bound : Option Tag} (h : b ∈ bound) : a.clamp bound ≤ b := by
  cases h
  exact min_le_right a b

theorem clamp_eq_or (a : Tag) (bound : Option Tag) :
    a.clamp bound = a ∨ bound = some (a.clamp bound) := by
  cases bound with
  | none => exact Or.inl rfl
  | some b =>
    rcases le_total a b with h | h
    · exact Or.inl (min_eq_left h)
    · exact Or.inr (congrArg some (min_eq_right h).symm)

theorem lt_clamp_iff {a b : Tag} {bound : Option Tag} :
    a < b.clamp bound ↔ a < b ∧ ∀ stop ∈ bound, a < stop := by
  cases bound with
  | none => simp [clamp]
  | some stop => simp [clamp]

/-- Clamping is monotone in the tag, and a bound that was not there before only lowers it. -/
theorem clamp_mono {a b : Tag} {before after : Option Tag} (hab : a ≤ b)
    (hbound : before = none ∨ after = before) : a.clamp after ≤ b.clamp before := by
  rcases hbound with rfl | rfl
  · exact le_trans (clamp_le_left a after) hab
  · cases after with
    | none => exact hab
    | some stop => exact min_le_min_right stop hab

theorem isLeast_clamp {tags : Set Tag} {b : Tag} (h : IsLeast tags b) (stop : Option Tag) :
    IsLeast (tags ∪ {tag | stop = some tag}) (b.clamp stop) := by
  obtain ⟨hmem, hle⟩ := h
  refine ⟨?_, ?_⟩
  · rcases b.clamp_eq_or stop with heq | heq
    · rw [heq]
      exact Or.inl hmem
    · exact Or.inr heq
  · rintro tag (htag | htag)
    · exact (b.clamp_le_left stop).trans (hle htag)
    · exact clamp_le_of_mem htag

end Tag

end FederatedTime
