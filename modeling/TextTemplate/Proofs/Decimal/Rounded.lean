import TextTemplate.Binary64.Text
import TextTemplate.Proofs.Binary64.Closest
import TextTemplate.Proofs.Decimal.Digits
import TextTemplate.Proofs.Decimal.ReadBack
/-!
# The double of a decimal

- `Decimal.toBinary64_eq_round`: the short cuts for very large and very small decimals give the
  double that the exact quotient is rounded to; `Decimal.toBinary64_true`: a sign is only put before it.
- `WritesNumber`: the number that digits write, with a point among them or without.
- `WritesNumber.read?_eq`: such a text is always read as a number, namely as that one.
- `WritesNumber.eq_finite_or_infinite`: that number has no sign, and is not not-a-number.
-/

namespace TextTemplate

attribute [local instance] natPow

/-! ## Rounding -/

/-- A quotient from the overflow limit on becomes an infinity. -/
theorem nearest_of_overflow (negative : Bool) {num den : Nat} (hden : 0 < den)
    (h : overflowUnits * den ≤ num) : Binary64.nearest negative num den = .infinite negative := by
  have hround : overflowUnits ≤ roundUnits num den := le_roundUnits hden (isCoarse_two_pow _) h
  obtain ⟨m, hunits, -⟩ | ⟨-, hnearest⟩ := Binary64.nearest_cases negative num den
  · exact absurd m.representable.lt (Nat.not_lt.2 (hunits ▸ hround))
  · exact hnearest

/-- A quotient of less than half a unit becomes zero. -/
theorem nearest_of_small (negative : Bool) {num den : Nat} (h : 2 * num < den) :
    Binary64.nearest negative num den = .finite negative .zero := by
  have hnear : Magnitude.zero.Near num den := by
    have heven : Magnitude.zero.isEven = true := by decide
    have hlower : Magnitude.zero.lowerEnd = 0 := by decide
    have hupper : Magnitude.zero.upperEnd = 2 := by decide
    rw [Magnitude.Near, if_pos heven, hlower, hupper]
    omega
  exact Magnitude.nearest_of_near hnear (by omega) negative

/-- The short cuts for very large and very small decimals make no difference. -/
theorem Decimal.toBinary64_eq_round (d : Decimal) (negative : Bool) :
    d.toBinary64 negative = d.round negative := by
  have hdown := d.scaleDown_pos
  show _ = Binary64.nearest negative d.numerator d.scaleDown
  unfold toBinary64
  split
  · next hzero =>
    have hnumerator : d.numerator = Magnitude.zero.units * d.scaleDown := by
      rw [numerator, hzero, Nat.zero_mul, Nat.zero_mul]
      exact (Nat.zero_mul _).symm
    exact (Binary64.nearest_eq negative hdown hnumerator).symm
  split
  · next hdigits hlarge =>
    have hone : d.scaleDown = 1 := by
      rw [scaleDown, Int.toNat_of_nonpos (by omega), Nat.pow_zero]
    have hscale : 10 ^ (310 : Nat) ≤ d.digits * d.scaleUp :=
      Nat.le_trans (pow_le_scaleUp hlarge) (Nat.le_mul_of_pos_left _ (Nat.pos_of_ne_zero hdigits))
    have hnumerator := Nat.mul_le_mul_right unitsPerOne hscale
    have hlimit := overflowUnits_lt_numerator
    refine (nearest_of_overflow negative hdown ?_).symm
    rw [hone, Nat.mul_one, numerator]
    omega
  split
  · next hsmall => exact (nearest_of_small negative (two_mul_numerator_lt hsmall)).symm
  · rfl

/-- The number with the other sign has the same decimal. -/
theorem Decimal.toBinary64_true (d : Decimal) : d.toBinary64 true = (d.toBinary64 false).neg := by
  have hnearest : ∀ num den, Binary64.nearest true num den = (Binary64.nearest false num den).neg := by
    intro num den
    unfold Binary64.nearest
    split <;> rfl
  rw [toBinary64_eq_round, toBinary64_eq_round]
  exact hnearest ..

/-- A numeral without an exponent, as a quotient. -/
theorem Decimal.toBinary64_ofNumeral (whole fraction : List Char) :
    (ofNumeral whole fraction 0).toBinary64 false =
      .nearest false (Nat.ofDigitChars 10 (whole ++ fraction) 0 * unitsPerOne)
        (10 ^ fraction.length) := by
  have hup : (ofNumeral whole fraction 0).scaleUp = 1 := by
    rw [scaleUp, ofNumeral, Int.zero_sub, Int.toNat_neg_natCast, Nat.pow_zero]
  have hdown : (ofNumeral whole fraction 0).scaleDown = 10 ^ fraction.length := by
    rw [scaleDown, ofNumeral, Int.zero_sub, Int.neg_neg, Int.toNat_natCast]
  rw [toBinary64_eq_round, round, hup, hdown, Nat.mul_one]
  rfl

/-! ## Digits with at most one point -/

/-- The number that digits write, perhaps with a point behind the first of them: the double nearest
to it, where a unit is the smallest positive double. -/
inductive WritesNumber : List Char → Binary64 → Prop where
  | whole {digits : List Char} (hne : digits ≠ []) (hdigits : ∀ c ∈ digits, c.isDigit = true) :
      WritesNumber digits (.nearest false (Nat.ofDigitChars 10 digits 0 * unitsPerOne) 1)
  | pointed {digits fraction : List Char} (hne : digits ≠ [])
      (hdigits : ∀ c ∈ digits, c.isDigit = true) (hfraction : ∀ c ∈ fraction, c.isDigit = true) :
      WritesNumber (digits ++ '.' :: fraction)
        (.nearest false (Nat.ofDigitChars 10 (digits ++ fraction) 0 * unitsPerOne)
          (10 ^ fraction.length))

/-- A digit is the same in lower case. -/
theorem toLower_of_isDigit {c : Char} (h : c.isDigit = true) : c.toLower = c := by
  refine dif_neg ?_
  intro hupper
  simp only [Char.isDigit, Bool.and_eq_true, decide_eq_true_eq, UInt32.le_iff_toNat_le] at h hupper
  simp at h hupper
  omega

/-- What starts with a digit behind a sign is no name of infinity or not-a-number. -/
theorem read?_withSign (negative : Bool) {c : Char} {cs : List Char} (h : c.isDigit = true) :
    Binary64.read? (Binary64.withSign negative (c :: cs)) =
      (readUnsigned? (c :: cs)).map (Decimal.toBinary64 negative) := by
  have hother : ∀ d : Char, d.isDigit = false → c ≠ d := by
    rintro d hd rfl
    rw [h] at hd
    cases hd
  have hplus := hother '+' (by decide)
  have hminus := hother '-' (by decide)
  have hn := hother 'n' (by decide)
  have hi := hother 'i' (by decide)
  have hsign : splitSign (Binary64.withSign negative (c :: cs)) = (negative, c :: cs) := by
    cases negative <;> simp [Binary64.withSign, splitSign, splitMinus, hplus, hminus]
  simp [Binary64.read?, hsign, spells, toLower_of_isDigit h, hn, hi]

/-- A text that starts with a digit has no sign. -/
theorem read?_of_isDigit {c : Char} {cs : List Char} (h : c.isDigit = true) :
    Binary64.read? (c :: cs) = (readUnsigned? (c :: cs)).map (Decimal.toBinary64 false) :=
  read?_withSign false h

namespace WritesNumber

variable {cs : List Char} {n : Binary64}

/-- Digits with at most one point are always read as a number. -/
theorem read?_eq (h : WritesNumber cs n) : Binary64.read? cs = some n := by
  cases h with
  | @whole digits hne hdigits =>
    obtain ⟨c, more, rfl⟩ := List.exists_cons_of_ne_nil hne
    have hsplit : splitDigits (c :: more) = (c :: more, []) := by
      simpa using splitDigits_append hdigits .nil
    rw [read?_of_isDigit (hdigits c List.mem_cons_self), readUnsigned?, hsplit]
    show some ((Decimal.ofNumeral (c :: more) [] 0).toBinary64 false) = _
    rw [Decimal.toBinary64_ofNumeral, List.append_nil]
    rfl
  | @pointed digits fraction hne hdigits hfraction =>
    obtain ⟨c, more, rfl⟩ := List.exists_cons_of_ne_nil hne
    have hwhole : splitDigits (c :: more ++ '.' :: fraction) = (c :: more, '.' :: fraction) :=
      splitDigits_append hdigits (.cons (by decide))
    have hpoint : splitFraction ('.' :: fraction) = (some fraction, []) := by
      simpa using splitFraction_append hfraction .nil
    rw [List.cons_append] at hwhole ⊢
    rw [read?_of_isDigit (hdigits c List.mem_cons_self), readUnsigned?, hwhole]
    dsimp only
    rw [hpoint]
    show some ((Decimal.ofNumeral (c :: more) fraction 0).toBinary64 false) = _
    rw [Decimal.toBinary64_ofNumeral]

/-- Such a number is neither not-a-number nor negative. -/
theorem eq_finite_or_infinite (h : WritesNumber cs n) :
    (∃ m, n = .finite false m) ∨ n = .infinite false := by
  cases h with
  | whole => exact Binary64.nearest_unsigned ..
  | pointed => exact Binary64.nearest_unsigned ..

end WritesNumber
end TextTemplate
