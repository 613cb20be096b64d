import TextTemplate.Proofs.Decimal.Digits
import TextTemplate.Proofs.Decimal.ReadBack
import TextTemplate.Token.Basic
/-!
# Decimal expansions

Every double is a multiple of a power of one half, so that its decimal expansion ends.

- `fractionDigits`: the digits of a binary fraction, by long division.
- `Magnitude.expansion`: the exact decimal expansion of a magnitude, with a point before digits
  only.
- `numeralValue_expansion`: the expansion is read as the magnitude.
-/

namespace TextTemplate

attribute [local instance] natPow

/-- The digits of `rest / 2 ^ places`, a fraction below one. Each digit takes one factor of two out
of the denominator; the last one leaves nothing. -/
def fractionDigits : (places rest : Nat) → List Char
  | 0, _ => []
  | places + 1, rest =>
    if rest = 0 then []
    else
      Nat.digitChar (5 * rest / 2 ^ places) :: fractionDigits places (5 * rest % 2 ^ places)

/-- The digit that long division takes out. -/
theorem digit_lt_ten {places rest : Nat} (h : rest < 2 ^ (places + 1)) :
    5 * rest / 2 ^ places < 10 := by
  rw [Nat.div_lt_iff_lt_mul (Nat.two_pow_pos _)]
  rw [Nat.pow_succ] at h
  omega

theorem isDigit_of_mem_fractionDigits {places rest : Nat} (h : rest < 2 ^ places) {c : Char}
    (hc : c ∈ fractionDigits places rest) : c.isDigit = true := by
  induction places generalizing rest with
  | zero => exact nomatch hc
  | succ places ih =>
    rw [fractionDigits] at hc
    split at hc
    · exact nomatch hc
    · rcases List.mem_cons.1 hc with rfl | hmore
      · rw [Nat.isDigit_digitChar]
        exact decide_eq_true (digit_lt_ten h)
      · exact ih (Nat.mod_lt _ (Nat.two_pow_pos _)) hmore

/-- One step of a long division, where `p` is the denominator behind the digit `q`, `x` are the
following digits and `n` is the power of ten that they make up. -/
theorem divide_digit {p q r t n x : Nat} (hmore : x * p = r * n) (hparts : p * q + r = t) :
    (n * q + x) * (p * 2) = t * n * 2 := by
  rw [← Nat.mul_assoc, Nat.add_mul, hmore, Nat.mul_assoc n, Nat.mul_comm n, ← Nat.add_mul,
    Nat.mul_comm q, hparts]

/-- The digits stand for the whole fraction. -/
theorem ofDigitChars_fractionDigits {places rest : Nat} (h : rest < 2 ^ places) :
    Nat.ofDigitChars 10 (fractionDigits places rest) 0 * 2 ^ places
      = rest * 10 ^ (fractionDigits places rest).length := by
  induction places generalizing rest with
  | zero =>
    obtain rfl : rest = 0 := Nat.lt_one_iff.1 h
    rfl
  | succ places ih =>
    rw [fractionDigits]
    split
    · next hzero => rw [hzero, Nat.ofDigitChars_nil, Nat.zero_mul, Nat.zero_mul]
    · have hmore := ih (Nat.mod_lt (5 * rest) (Nat.two_pow_pos places))
      have hparts := Nat.div_add_mod (5 * rest) (2 ^ places)
      rw [Nat.ofDigitChars_cons_digitChar_of_lt_ten (digit_lt_ten h), Nat.mul_zero, Nat.zero_add,
        Nat.ofDigitChars_eq_ofDigitChars_zero, List.length_cons, Nat.pow_succ, Nat.pow_succ,
        divide_digit hmore hparts, Nat.mul_right_comm, Nat.mul_right_comm 5, Nat.mul_comm _ rest,
        Nat.mul_right_comm, Nat.mul_assoc]

namespace Magnitude

/-- The digits behind the point of a magnitude. -/
def fraction (m : Magnitude) : List Char := fractionDigits unitShift (m.units % unitsPerOne)

/-- The exact decimal expansion. A magnitude without a fraction has no point. -/
def expansion (m : Magnitude) : List Char :=
  Nat.toDigits 10 (m.units / unitsPerOne) ++ if m.fraction = [] then [] else '.' :: m.fraction

variable {m : Magnitude}

theorem isDigit_of_mem_fraction {c : Char} (hc : c ∈ m.fraction) : c.isDigit = true :=
  isDigit_of_mem_fractionDigits (Nat.mod_lt _ unitsPerOne_pos) hc

/-- The two parts of the expansion are the magnitude. -/
theorem ofNumeral_expansion :
    (Decimal.ofNumeral (Nat.toDigits 10 (m.units / unitsPerOne)) m.fraction 0).toBinary64 false
      = .finite false m := by
  have hfraction : Nat.ofDigitChars 10 m.fraction 0 * unitsPerOne
      = m.units % unitsPerOne * 10 ^ m.fraction.length :=
    ofDigitChars_fractionDigits (Nat.mod_lt _ unitsPerOne_pos)
  have hup : (Decimal.ofNumeral (Nat.toDigits 10 (m.units / unitsPerOne)) m.fraction 0).scaleUp
      = 1 := by
    rw [Decimal.scaleUp, Decimal.ofNumeral, Int.zero_sub, Int.toNat_neg_natCast, Nat.pow_zero]
  have hdown : (Decimal.ofNumeral (Nat.toDigits 10 (m.units / unitsPerOne)) m.fraction 0).scaleDown
      = 10 ^ m.fraction.length := by
    rw [Decimal.scaleDown, Decimal.ofNumeral, Int.zero_sub, Int.neg_neg, Int.toNat_natCast]
  refine Decimal.toBinary64_of_eq ?_ false
  rw [Decimal.numerator, hup, hdown, Nat.mul_one, Decimal.ofNumeral, Nat.ofDigitChars_append,
    Nat.ofDigitChars_ten_toDigits, Nat.ofDigitChars_eq_ofDigitChars_zero, Nat.add_mul, hfraction,
    Nat.mul_comm _ (10 ^ _), Nat.mul_assoc, ← Nat.mul_add, Nat.mul_comm (m.units / unitsPerOne),
    Nat.div_add_mod, Nat.mul_comm]

/-- The expansion is read as the magnitude. -/
theorem numeralValue_expansion : numeralValue m.expansion = .finite false m := by
  have hwhole : ∀ c ∈ Nat.toDigits 10 (m.units / unitsPerOne), c.isDigit = true :=
    fun c => isDigit_of_mem_toDigits
  have hvalue := ofNumeral_expansion (m := m)
  rw [expansion]
  split
  · next hnone =>
    rw [hnone] at hvalue
    rw [numeralValue, splitDigits_append hwhole .nil]
    exact hvalue
  · have hsplit : splitFraction ('.' :: (m.fraction ++ [])) = (some m.fraction, []) :=
      splitFraction_append (fun c => isDigit_of_mem_fraction) .nil
    rw [List.append_nil] at hsplit
    rw [numeralValue, splitDigits_append hwhole (.cons (by decide))]
    dsimp only
    rw [hsplit]
    exact hvalue

end Magnitude
end TextTemplate
