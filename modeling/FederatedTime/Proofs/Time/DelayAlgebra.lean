import FederatedTime.Proofs.Time.Delay

/-!
# The algebra of delays

Delays that are not negative act on the tags: they are monotone in the tag and in the delay, they
never lead down, and two of them one after the other are their sum (`Tag.delay_laws`). Distinct tags
stay distinct as long as one of them arrives before `Tag.forever`, where all sums end that have no
timestamp.
-/

namespace FederatedTime

open Nanoseconds (greatest)

namespace Tag

variable {a b : Tag} {d e sum : Interval}

/-- The two distinguished tags stay put. -/
theorem delayed_eq_self (h : a = never ∨ a = forever) (d : Interval) : a.delayed d = a := by
  rcases h with rfl | rfl
  · exact delayed_never d
  · exact delayed_forever d

theorem le_delayed (hd : 0 ≤ d.nanos.toInt) (a : Tag) : a ≤ a.delayed d := by
  by_cases hstays : a = never ∨ a = forever
  · rw [delayed_eq_self hstays]
  obtain ⟨hn, hf⟩ := not_or.1 hstays
  rcases delayed_cases hd hn hf with ⟨ht, hm⟩ | ⟨-, h⟩
  · rw [le_iff, ht, hm]
    omega
  · rw [h]
    exact le_forever a

/-- Only what is not known yet stays so. -/
theorem delayed_eq_never_iff (hd : 0 ≤ d.nanos.toInt) : a.delayed d = never ↔ a = never := by
  constructor
  · intro h
    exact le_antisymm ((le_delayed hd a).trans_eq h) (never_le a)
  · rintro rfl
    exact delayed_never d

theorem delayed_le_delayed (hd : 0 ≤ d.nanos.toInt) (hde : d.nanos.toInt ≤ e.nanos.toInt)
    (a : Tag) : a.delayed d ≤ a.delayed e := by
  by_cases hstays : a = never ∨ a = forever
  · rw [delayed_eq_self hstays, delayed_eq_self hstays]
  obtain ⟨hn, hf⟩ := not_or.1 hstays
  rcases delayed_cases (hd.trans hde) hn hf with ⟨het, hem⟩ | ⟨-, he⟩
  · rcases delayed_cases hd hn hf with ⟨hdt, hdm⟩ | ⟨hover, -⟩
    · rw [le_iff, hdt, het, hdm, hem]
      omega
    · -- the longer delay has a sum that fits, so the shorter one has one as well
      have := Nanoseconds.toInt_le_greatest (a.delayed e).time
      omega
  · rw [he]
    exact le_forever _

/-- Different tags are equally late only where both are too late for any timestamp. -/
theorem delayed_lt_delayed (hd : 0 ≤ d.nanos.toInt) (h : a < b) :
    a.delayed d < b.delayed d ∨ a.delayed d = forever ∧ b.delayed d = forever := by
  by_cases haf : a.delayed d = forever
  · refine Or.inr ⟨haf, le_antisymm (le_forever _) ?_⟩
    rw [← haf]
    exact delayed_mono hd h.le
  refine Or.inl ?_
  by_cases hb : b.delayed d = forever
  · rw [hb]
    exact lt_forever_iff.2 haf
  have hbn : b ≠ never := never_lt_iff.1 ((never_le a).trans_lt h)
  by_cases han : a = never
  · rw [han, delayed_never, never_lt_iff, Ne, delayed_eq_never_iff hd]
    exact hbn
  have hbf : b ≠ forever := by
    rintro rfl
    exact hb (delayed_forever d)
  obtain ⟨hat, ham⟩ := (delayed_cases hd han (lt_of_lt_of_le h (le_forever b)).ne).resolve_right
    fun hover => haf hover.2
  obtain ⟨hbt, hbm⟩ := (delayed_cases hd hbn hbf).resolve_right fun hover => hb hover.2
  rw [lt_iff] at h ⊢
  rw [hat, hbt, ham, hbm]
  omega

/-- Two delays one after the other are their sum. A tag that the first one takes to `forever` has
no sum with both of them that would fit either. -/
theorem delayed_delayed (hd : 0 ≤ d.nanos.toInt) (he : 0 ≤ e.nanos.toInt)
    (hsum : sum.nanos.toInt = d.nanos.toInt + e.nanos.toInt) (a : Tag) :
    (a.delayed d).delayed e = a.delayed sum := by
  by_cases hstays : a = never ∨ a = forever
  · rw [delayed_eq_self hstays d, delayed_eq_self hstays e, delayed_eq_self hstays sum]
  obtain ⟨hn, hf⟩ := not_or.1 hstays
  have hs : 0 ≤ sum.nanos.toInt := by omega
  by_cases hdf : a.delayed d = forever
  · have hle : a.delayed d ≤ a.delayed sum := delayed_le_delayed hd (by omega) a
    rw [hdf] at hle ⊢
    exact (le_antisymm (le_forever _) hle).symm
  obtain ⟨hdt, hdm⟩ := (delayed_cases hd hn hf).resolve_right fun hover => hdf hover.2
  have hdn : a.delayed d ≠ never := fun h => hn ((delayed_eq_never_iff hd).1 h)
  rcases delayed_cases he hdn hdf with ⟨het, hem⟩ | ⟨hover, h⟩
  · have hfits := Nanoseconds.toInt_le_greatest ((a.delayed d).delayed e).time
    obtain ⟨hst, hsm⟩ := (delayed_cases hs hn hf).resolve_right fun hover => by omega
    rw [eq_iff, het, hem, hst, hsm, hdt, hdm]
    omega
  · rw [h]
    rcases delayed_cases hs hn hf with ⟨hst, -⟩ | ⟨-, h'⟩
    · have := Nanoseconds.toInt_le_greatest (a.delayed sum).time
      omega
    · exact h'.symm

/-- The laws of delays that are not negative, at the two distinguished tags and up to the last
timestamp. -/
theorem delay_laws (hd : 0 ≤ d.nanos.toInt) (he : 0 ≤ e.nanos.toInt) (a b : Tag) :
    (a ≤ b → a.delayed d ≤ b.delayed d) ∧
    (d.nanos.toInt ≤ e.nanos.toInt → a.delayed d ≤ a.delayed e) ∧
    a ≤ a.delayed d ∧
    (0 < d.nanos.toInt → a ≠ never → a ≠ forever → a < a.delayed d) ∧
    (a.delayed d = never → a = never) ∧
    (a < b → a.delayed d < b.delayed d ∨ a.delayed d = forever ∧ b.delayed d = forever) ∧
    ∀ sum ∈ Nanoseconds.ofInt? (d.nanos.toInt + e.nanos.toInt),
      (a.delayed d).delayed e = a.delayed ⟨sum⟩ := by
  refine ⟨delayed_mono hd, fun hde => delayed_le_delayed hd hde a, le_delayed hd a, lt_delayed,
    (delayed_eq_never_iff hd).1, delayed_lt_delayed hd, fun sum hsum => ?_⟩
  exact delayed_delayed hd he (Nanoseconds.toInt_of_ofInt? hsum) a

/-- The first delay takes the earlier tag to the last timestamp but not to `forever`, the second
takes it there, and the later tag is there after the first one. -/
theorem delay_laws_late :
    let early : Tag := ⟨9223372036854775800, 3⟩
    let late : Tag := ⟨9223372036854775801, 0⟩
    early.delayed ⟨7⟩ < late.delayed ⟨7⟩ ∧ late.delayed ⟨7⟩ = forever ∧
      (early.delayed ⟨7⟩).delayed ⟨5⟩ = early.delayed ⟨12⟩ := by
  intro early late
  have hd : (0 : Int) ≤ (⟨7⟩ : Interval).nanos.toInt := by decide
  have he : (0 : Int) ≤ (⟨5⟩ : Interval).nanos.toInt := by decide
  obtain ⟨-, -, -, -, -, hstrict, hsum⟩ := delay_laws hd he early late
  have hlate : late.delayed ⟨7⟩ = forever := by decide
  refine ⟨(hstrict (by decide)).resolve_right fun hboth => ?_, hlate, hsum 12 (by decide)⟩
  exact absurd hboth.1 (by decide)

end Tag

end FederatedTime
