import TextTemplate.Binary64.Rounding
/-!
# Decimals

A decimal is a natural number of digits with a power of ten. Text is read into a decimal first and
then rounded to the nearest double.

* `Decimal`: the number `digits * 10 ^ exponent`.
* `Decimal.ofNumeral`: the decimal that a numeral with a fraction stands for.
* `Decimal.toBinary64`: the double nearest to a decimal.
-/
namespace TextTemplate

attribute [local instance] natPow

/-- The number `digits * 10 ^ exponent`. -/
structure Decimal where
  digits : Nat
  exponent : Int
deriving DecidableEq

namespace Decimal

/-- The decimal `whole.fraction * 10 ^ exponent`, where `whole` and `fraction` are runs of decimal
digits, and an empty run counts as zero. -/
def ofNumeral (whole fraction : List Char) (exponent : Int) : Decimal :=
  ⟨Nat.ofDigitChars 10 (whole ++ fraction) 0, exponent - fraction.length⟩

/-- The factor of a power of ten that stands in the numerator. -/
def scaleUp (d : Decimal) : Nat := 10 ^ d.exponent.toNat

/-- The factor of a power of ten that stands in the denominator. -/
def scaleDown (d : Decimal) : Nat := 10 ^ (-d.exponent).toNat

/-- The double nearest to the decimal, rounded from the exact quotient. -/
def round (negative : Bool) (d : Decimal) : Binary64 :=
  .nearest negative (d.digits * d.scaleUp * unitsPerOne) d.scaleDown

/-- The double nearest to the decimal. Decimals from `10 ^ 310` on are infinite, and those that
are below half a unit are zero, without a power of ten being computed: an exponent in a text may
be of any size. -/
def toBinary64 (negative : Bool) (d : Decimal) : Binary64 :=
  if d.digits = 0 then .finite negative .zero
  else if 310 ≤ d.exponent then .infinite negative
  else if (d.digits.log2 : Int) + 1076 ≤ 3 * -d.exponent then .finite negative .zero
  else d.round negative

end Decimal
end TextTemplate
