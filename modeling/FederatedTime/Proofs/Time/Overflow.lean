import FederatedTime.Proofs.Time.Delay

/-!
# Results that fit

A program that stops at a result that does not fit computes exact integers as far as it gets
(`Overflow.stops_fit_eq_some_iff`), and one that wraps around agrees with it that far
(`Overflow.Steady`). So a calculation is looked at where it stops, and what is found there holds of
every program.
-/

namespace FederatedTime

namespace Nanoseconds

/-- There is a count `i`. -/
def Fits (i : Int) : Prop := least ≤ i ∧ i ≤ greatest

instance (i : Int) : Decidable (Fits i) :=
  inferInstanceAs (Decidable (least ≤ i ∧ i ≤ greatest))

theorem fits_iff {i : Int} :
    Fits i ↔ -9223372036854775808 ≤ i ∧ i ≤ 9223372036854775807 := Iff.rfl

theorem fits_toInt (n : Int64) : Fits n.toInt := ⟨least_le_toInt n, toInt_le_greatest n⟩

theorem ofInt?_eq_some_iff {i : Int} {n : Int64} : ofInt? i = some n ↔ n.toInt = i := by
  refine ⟨toInt_of_ofInt?, ?_⟩
  rintro rfl
  exact (if_pos (fits_toInt n)).trans (congrArg some (Int64.ofInt_toInt n))

theorem ofInt?_eq_none_iff {i : Int} : ofInt? i = none ↔ ¬ Fits i := by
  unfold ofInt?
  split
  · exact iff_of_false nofun (not_not.2 ‹_›)
  · exact iff_of_true rfl ‹_›

/-- A count in range is nearest to itself. -/
theorem toInt_saturate {i : Int} (h : Fits i) : (saturate i).toInt = i := by
  rw [fits_iff] at h
  unfold saturate least greatest
  rw [Int64.toInt_ofInt_of_le (by omega) (by omega)]
  omega

namespace Overflow

variable {o : Overflow} {i : Int} {a b n : Int64}

theorem stops_fit_eq_some_iff : stops.fit i = some n ↔ n.toInt = i := ofInt?_eq_some_iff

theorem stops_fit_eq_none_iff : stops.fit i = none ↔ ¬ Fits i := ofInt?_eq_none_iff

theorem exists_stops_fit (h : Fits i) : ∃ n, stops.fit i = some n ∧ n.toInt = i := by
  cases hn : stops.fit i with
  | none => exact absurd h (stops_fit_eq_none_iff.1 hn)
  | some n => exact ⟨n, rfl, stops_fit_eq_some_iff.1 hn⟩

/-! ## Programs that agree -/

/-- Where a calculation does not stop, every program gets the same. -/
def Steady {α : Type} (calculation : Overflow → Option α) : Prop :=
  ∀ r, calculation .stops = some r → ∀ o, calculation o = some r

theorem steady_fit (i : Int) : Steady fun o => o.fit i := by
  intro n h o
  cases o with
  | stops => exact h
  | wraps =>
    rw [← stops_fit_eq_some_iff.1 h]
    exact congrArg some (Int64.ofInt_toInt n)

theorem steady_some {α : Type} (a : α) : Steady fun _ => some a := fun _ h _ => h

theorem Steady.bind {α β : Type} {first : Overflow → Option α} {next : α → Overflow → Option β}
    (hfirst : Steady first) (hnext : ∀ a, Steady (next a)) :
    Steady fun o => (first o).bind fun a => next a o := by
  intro r h o
  obtain ⟨a, ha, hr⟩ := Option.bind_eq_some_iff.1 h
  exact Option.bind_eq_some_iff.2 ⟨a, hfirst a ha o, hnext a r hr o⟩

theorem Steady.ite {α : Type} {p : Prop} [Decidable p] {yes no : Overflow → Option α}
    (hyes : Steady yes) (hno : Steady no) : Steady fun o => if p then yes o else no o := by
  by_cases h : p
  · simpa only [if_pos h] using hyes
  · simpa only [if_neg h] using hno

end Overflow

end Nanoseconds

end FederatedTime
