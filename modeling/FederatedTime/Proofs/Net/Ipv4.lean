import FederatedTime.Net.Ipv4
import Mathlib.Data.List.Basic
import Mathlib.Data.List.Induction

/-!
# Reading IPv4 addresses back

What `Ipv4.chars` writes, `Ipv4.ofChars?` reads back (`ofChars?_chars`), and it reads nothing else
(`ofChars?_eq_some_iff`). It all comes down to the decimal digits of an octet: they are digits,
there are at most three of them, the first is no zero unless it stands alone, and their value is the
octet. Digits of which that is true are those that their value is written in
(`toDigits_ofDigitChars`).
-/

namespace FederatedTime

/-! ## Decimal digits -/

namespace Text

theorem decimalDigit?_of_isDigit {c : Char} (h : c.isDigit) :
    decimalDigit? c = some (c.toNat - 48) := by
  have hrange : '0' ≤ c ∧ c ≤ '9' := by
    simpa [Char.isDigit, Char.le_def] using h
  rw [decimalDigit?, if_pos hrange]

theorem isDigit_of_isSome {c : Char} (h : (decimalDigit? c).isSome) : c.isDigit := by
  unfold decimalDigit? at h
  split at h
  · rename_i hrange
    simpa [Char.isDigit, Char.le_def] using hrange
  · cases h

theorem value_decimalDigit? {cs : List Char} (h : ∀ c ∈ cs, c.isDigit) :
    value 10 decimalDigit? cs = Nat.ofDigitChars 10 cs 0 := by
  rw [value, Nat.ofDigitChars_eq_foldl]
  refine List.foldl_ext _ _ 0 fun n c hc => ?_
  rw [decimalDigit?_of_isDigit (h c hc), Nat.mul_comm]
  rfl

/-- The digits at the front of a text end where something else begins. -/
theorem leadingDigits_append {digit? : Char → Option Nat} {front rest : List Char}
    (hfront : ∀ c ∈ front, (digit? c).isSome) (hrest : ∀ c ∈ rest.head?, digit? c = none) :
    leadingDigits digit? (front ++ rest) = front := by
  have hstop : rest.takeWhile (fun c => (digit? c).isSome) = [] := by
    cases rest with
    | nil => rfl
    | cons c rest => simp [hrest c rfl]
  rw [leadingDigits, List.takeWhile_append_of_pos hfront, hstop, List.append_nil]

end Text

theorem eq_zero_of_head?_toDigits {n : Nat} (h : (Nat.toDigits 10 n).head? = some '0') :
    n = 0 := by
  induction n using Nat.strongRecOn with
  | ind n ih =>
    rw [Nat.toDigits_eq_if (by decide)] at h
    split at h
    · rename_i hlt
      have hdigit : (Nat.digitChar n).toNat = 48 := congrArg Char.toNat (Option.some.inj h)
      rw [Nat.toNat_digitChar_of_lt_ten hlt] at hdigit
      omega
    · rename_i hge
      rw [List.head?_append_of_ne_nil _ Nat.toDigits_ne_nil] at h
      have := ih (n / 10) (by omega) h
      omega

theorem toNat_of_isDigit {c : Char} (h : c.isDigit) : 48 ≤ c.toNat ∧ c.toNat ≤ 57 := by
  simpa [Char.isDigit, UInt32.le_iff_toNat_le] using h

theorem digitChar_toNat_sub {c : Char} (h : c.isDigit) : Nat.digitChar (c.toNat - 48) = c := by
  have hrange := toNat_of_isDigit h
  apply Char.toNat_inj.1
  rw [Nat.toNat_digitChar_of_lt_ten (by omega)]
  omega

/-- Digits are those that their value is written in, unless a needless zero leads them. -/
theorem toDigits_ofDigitChars {cs : List Char} (hdigits : ∀ c ∈ cs, c.isDigit) (hne : cs ≠ [])
    (hzero : cs.head? = some '0' → cs.length = 1) :
    Nat.toDigits 10 (Nat.ofDigitChars 10 cs 0) = cs := by
  induction cs using List.reverseRecOn with
  | nil => exact absurd rfl hne
  | append_singleton front c ih =>
    have hc : c.isDigit := hdigits c (by simp)
    have hlast := digitChar_toNat_sub hc
    have hlt : c.toNat - 48 < 10 := by
      have hrange := toNat_of_isDigit hc
      omega
    rw [Nat.ofDigitChars_append, Nat.ofDigitChars_cons, Nat.ofDigitChars_nil,
      show '0'.toNat = 48 from rfl]
    by_cases hfront : front = []
    · subst hfront
      rw [Nat.ofDigitChars_nil, Nat.mul_zero, Nat.zero_add, List.nil_append,
        Nat.toDigits_of_lt_base hlt]
      exact congrArg (fun c => [c]) hlast
    · have hhead : front.head? ≠ some '0' := by
        intro hhead
        have hone := hzero (by rwa [List.head?_append_of_ne_nil _ hfront])
        have hpos := List.length_pos_of_ne_nil hfront
        simp only [List.length_append, List.length_singleton] at hone
        omega
      have hvalue := ih (fun c hc => hdigits c (by simp [hc])) hfront fun h => absurd h hhead
      have hpos : 0 < Nat.ofDigitChars 10 front 0 := by
        apply Nat.pos_of_ne_zero
        intro hvalue'
        rw [hvalue'] at hvalue
        apply hhead
        rw [← hvalue]
        rfl
      rw [← Nat.toDigits_append_toDigits (by decide) hpos hlt, hvalue,
        Nat.toDigits_of_lt_base hlt, hlast]

namespace Ipv4

theorem isDigit_of_mem_octetChars {o : UInt8} {c : Char} (h : c ∈ octetChars o) : c.isDigit :=
  Nat.isDigit_of_mem_toDigits (by decide) (by decide) h

theorem length_octetChars_le (o : UInt8) : (octetChars o).length ≤ 3 :=
  (Nat.length_toDigits_le_iff (by decide) (by decide)).2 (Nat.lt_trans o.toNat_lt (by decide))

theorem length_octetChars_of_head? {o : UInt8} (h : (octetChars o).head? = some '0') :
    (octetChars o).length = 1 := by
  have hzero : o.toNat = 0 := eq_zero_of_head?_toDigits h
  rw [octetChars, hzero]
  rfl

/-- An octet is read back from before anything but a digit. -/
theorem octet_octetChars (o : UInt8) {rest : List Char}
    (hrest : ∀ c ∈ rest.head?, Text.decimalDigit? c = none) :
    Net.octet (octetChars o ++ rest) = some (o, rest) := by
  have hdigits : Text.leadingDigits Text.decimalDigit? (octetChars o ++ rest) = octetChars o := by
    refine Text.leadingDigits_append (fun c hc => ?_) hrest
    rw [Text.decimalDigit?_of_isDigit (isDigit_of_mem_octetChars hc)]
    rfl
  have hvalue : Text.value 10 Text.decimalDigit? (octetChars o) = o.toNat := by
    rw [Text.value_decimalDigit? fun _ => isDigit_of_mem_octetChars]
    exact Nat.ofDigitChars_toDigits (by decide) (by decide)
  unfold Net.octet
  dsimp only
  rw [hdigits, hvalue, if_neg, List.drop_left, UInt8.ofNat_toNat]
  rintro (hempty | hlong | ⟨hzero, hlong⟩ | hlarge)
  · exact Nat.toDigits_ne_nil (List.isEmpty_iff.1 hempty)
  · exact absurd hlong (Nat.not_lt.2 (length_octetChars_le o))
  · rw [length_octetChars_of_head? hzero] at hlong
    exact absurd hlong (Nat.lt_irrefl 1)
  · have hlt := o.toNat_lt
    omega

theorem read_chars (ip : Ipv4) : read ip.chars = some (ip, []) := by
  have hpoint (rest : List Char) : ∀ c ∈ ('.' :: rest).head?, Text.decimalDigit? c = none := by
    rintro c ⟨⟩
    decide
  have hmark (rest : List Char) : Text.mark '.' ('.' :: rest) = some ((), rest) := rfl
  have hend : ∀ c ∈ ([] : List Char).head?, Text.decimalDigit? c = none := by
    intro c hc
    cases hc
  have hlast := octet_octetChars ip.d hend
  rw [List.append_nil] at hlast
  simp [read, chars, octet_octetChars _ (hpoint _), hmark, hlast]

theorem ofChars?_chars (ip : Ipv4) : ofChars? ip.chars = some ip := by
  rw [ofChars?, Text.whole, read_chars]

/-! ## The text of an address -/

/-- An octet is read from the digits that it is written in. -/
theorem octet_eq_some {cs rest : List Char} {o : UInt8} (h : Net.octet cs = some (o, rest)) :
    cs = octetChars o ++ rest := by
  unfold Net.octet at h
  dsimp only at h
  split at h
  · cases h
  · rename_i hfit
    simp only [not_or, not_and, Nat.not_lt] at hfit
    obtain ⟨hempty, -, hzero, hle⟩ := hfit
    obtain ⟨rfl, rfl⟩ := Prod.mk.inj (Option.some.inj h)
    have hdigits : ∀ c ∈ Text.leadingDigits Text.decimalDigit? cs, c.isDigit := by
      intro c hc
      exact Text.isDigit_of_isSome (List.all_eq_true.1 List.all_takeWhile c hc)
    have hchars : octetChars (UInt8.ofNat (Text.value 10 Text.decimalDigit?
        (Text.leadingDigits Text.decimalDigit? cs))) =
        Text.leadingDigits Text.decimalDigit? cs := by
      rw [octetChars, UInt8.toNat_ofNat_of_lt' (Nat.lt_succ_of_le hle),
        Text.value_decimalDigit? hdigits]
      apply toDigits_ofDigitChars hdigits
      · simpa using hempty
      · intro hhead
        have := hzero hhead
        have hpos := List.length_pos_of_ne_nil (by simpa using hempty)
        omega
    rw [hchars]
    exact (List.prefix_iff_eq_append.1 (List.takeWhile_prefix _)).symm

theorem mark_eq_some {c : Char} {cs rest : List Char} {u : Unit}
    (h : Text.mark c cs = some (u, rest)) : cs = c :: rest := by
  unfold Text.mark at h
  grind

theorem read_eq_some {cs rest : List Char} {ip : Ipv4} (h : read cs = some (ip, rest)) :
    cs = ip.chars ++ rest := by
  simp only [read, Option.bind_eq_bind, Option.bind_eq_some_iff, Prod.exists, Option.pure_def,
    Option.some.injEq, Prod.mk.injEq] at h
  obtain ⟨a, cs₁, ha, _, cs₂, h₁, b, cs₃, hb, _, cs₄, h₂, c, cs₅, hc, _, cs₆, h₃, d, cs₇, hd,
    rfl, rfl⟩ := h
  rw [octet_eq_some ha, mark_eq_some h₁, octet_eq_some hb, mark_eq_some h₂, octet_eq_some hc,
    mark_eq_some h₃, octet_eq_some hd]
  simp [chars]

/-- An address is read from no other text than the one it is written in. -/
theorem ofChars?_eq_some_iff {cs : List Char} {ip : Ipv4} :
    ofChars? cs = some ip ↔ cs = ip.chars := by
  constructor
  · intro h
    unfold ofChars? Text.whole at h
    split at h
    · rename_i ip' hread
      obtain rfl := Option.some.inj h
      rw [read_eq_some hread, List.append_nil]
    · cases h
  · rintro rfl
    exact ofChars?_chars ip

/-! ## What an address is made of -/

theorem mem_chars {ip : Ipv4} {c : Char} (h : c ∈ ip.chars) : c.isDigit ∨ c = '.' := by
  have hdigit {o : UInt8} (h : c ∈ octetChars o) : c.isDigit := isDigit_of_mem_octetChars h
  simp only [chars, List.mem_append, List.mem_cons] at h
  grind

theorem length_chars_le (ip : Ipv4) : ip.chars.length ≤ 15 := by
  have ha := length_octetChars_le ip.a
  have hb := length_octetChars_le ip.b
  have hc := length_octetChars_le ip.c
  have hd := length_octetChars_le ip.d
  simp only [chars, List.length_append, List.length_cons]
  omega

end Ipv4

end FederatedTime
