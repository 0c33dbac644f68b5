import FederatedTime.Proofs.Time.Order

/-!
# Tags along a delay

`Tag.delayed` by a delay that is not negative is monotone in the tag, and moves every tag but the
two distinguished ones strictly up unless the delay is zero. A sum beyond the last timestamp is
`Tag.forever`, so that none of this needs a bound on the timestamps.
-/

namespace FederatedTime

open Nanoseconds (greatest)

namespace Nanoseconds

theorem toInt_of_ofInt? {i : Int} {n : Int64} (h : ofInt? i = some n) : n.toInt = i := by
  unfold ofInt? at h
  split at h
  · rename_i hi
    obtain rfl := Option.some.inj h
    refine Int64.toInt_ofInt_of_le ?_ ?_
    · exact hi.1
    · exact Int.lt_of_le_of_lt hi.2 (by decide)
  · cases h

theorem toInt_le_greatest (n : Int64) : n.toInt ≤ greatest := n.toInt_le

theorem least_le_toInt (n : Int64) : least ≤ n.toInt := n.minValue_le_toInt

/-- A sum with a count that is not negative only fails to fit at the upper end. -/
theorem greatest_lt_of_ofInt?_eq_none {a d : Int64} (hd : 0 ≤ d.toInt)
    (h : ofInt? (a.toInt + d.toInt) = none) : greatest < a.toInt + d.toInt := by
  have ha := least_le_toInt a
  unfold ofInt? at h
  split at h
  · cases h
  · omega

end Nanoseconds

namespace Interval

theorem isZero_iff {d : Interval} : d.isZero = true ↔ d.nanos.toInt = 0 := by
  rw [isZero, beq_iff_eq, ← Int64.toInt_inj]
  rfl

theorem eq_zero_of_isZero {d : Interval} (h : d.isZero = true) : d = .zero := by
  cases d
  exact congrArg mk (beq_iff_eq.1 h)

theorem isNegative_iff {d : Interval} : d.isNegative = true ↔ d.nanos.toInt < 0 := by
  rw [isNegative, decide_eq_true_eq, Int64.lt_iff_toInt_lt]
  rfl

end Interval

namespace Tag

@[simp] theorem delayed_never (d : Interval) : never.delayed d = never := rfl

@[simp] theorem delayed_forever (d : Interval) : forever.delayed d = forever := rfl

theorem delayed_of_isZero {a : Tag} {d : Interval} (h : d.isZero = true) : a.delayed d = a := by
  simp [delayed, h]

/-- Where a tag that is not distinguished goes: up by the delay, or to `forever` once the sum has
no timestamp. -/
theorem delayed_cases {a : Tag} {d : Interval} (hd : 0 ≤ d.nanos.toInt) (hn : a ≠ never)
    (hf : a ≠ forever) :
    ((a.delayed d).time.toInt = a.time.toInt + d.nanos.toInt ∧
        (a.delayed d).microstep = a.microstep) ∨
      (greatest < a.time.toInt + d.nanos.toInt ∧ a.delayed d = forever) := by
  by_cases hz : d.isZero = true
  · rw [delayed_of_isZero hz, Interval.isZero_iff.1 hz]
    exact Or.inl ⟨by omega, rfl⟩
  · have hstay : ¬ (a.isNever || a.isForever || d.isZero) = true := by simp [hn, hf, hz]
    unfold delayed
    rw [if_neg hstay]
    split
    · rename_i time htime
      exact Or.inl ⟨Nanoseconds.toInt_of_ofInt? htime, rfl⟩
    · rename_i hnone
      exact Or.inr ⟨Nanoseconds.greatest_lt_of_ofInt?_eq_none hd hnone, rfl⟩

theorem delayed_mono {a b : Tag} {d : Interval} (hd : 0 ≤ d.nanos.toInt) (h : a ≤ b) :
    a.delayed d ≤ b.delayed d := by
  by_cases ha : a = never
  · rw [ha, delayed_never]
    exact never_le _
  by_cases hb : b = forever
  · rw [hb, delayed_forever]
    exact le_forever _
  have haf : a ≠ forever := lt_forever_iff.1 (lt_of_le_of_lt h (lt_forever_iff.2 hb))
  have hbn : b ≠ never := never_lt_iff.1 (lt_of_lt_of_le (never_lt_iff.2 ha) h)
  rcases delayed_cases hd hbn hb with ⟨hbt, hbm⟩ | ⟨-, hb'⟩
  · rw [le_iff] at h ⊢
    rcases delayed_cases hd ha haf with ⟨hat, ham⟩ | ⟨hover, -⟩
    · rw [hat, hbt, ham, hbm]
      omega
    · -- the later tag has a sum that fits, so the earlier one has one as well
      have := Nanoseconds.toInt_le_greatest (b.delayed d).time
      omega
  · rw [hb']
    exact le_forever _

theorem lt_delayed {a : Tag} {d : Interval} (hd : 0 < d.nanos.toInt) (hn : a ≠ never)
    (hf : a ≠ forever) : a < a.delayed d := by
  rcases delayed_cases (le_of_lt hd) hn hf with ⟨ht, -⟩ | ⟨-, h⟩
  · rw [lt_iff, ht]
    omega
  · rw [h]
    exact lt_forever_iff.2 hf

end Tag

end FederatedTime
