import TextTemplate.Binary64.Basic
/-!
# Rounding to the nearest double

The exact result of every operation is a quotient of two natural numbers of units. It is rounded
once, to the nearest double, and a value half way between two doubles goes to the one whose last
bit is zero.

* `divideToEven num den`: the integer nearest to `num / den`, halves to even.
* `roundUnits num den`: the nearest number of units with 53 significant bits.
* `Binary64.nearest`: the double nearest to a signed quotient.
-/
namespace TextTemplate

attribute [local instance] natPow

/-- The integer nearest to `num / den`; a half goes to the even neighbour. -/
def divideToEven (num den : Nat) : Nat :=
  let q := num / den
  let r := num % den
  if 2 * r < den then q
  else if den < 2 * r then q + 1
  else q + q % 2

theorem divideToEven_le (num den : Nat) : divideToEven num den ≤ num / den + 1 := by
  unfold divideToEven
  dsimp only
  split
  · omega
  · split <;> omega

/-- The position of the last bit that is kept of `num / den`: the leading 53 bits stay, and no bit
below the unit. -/
def keptBit (num den : Nat) : Nat := (num / den).log2 - 52

/-- The quotient `num / den`, rounded to 53 significant bits or to whole units. -/
def roundUnits (num den : Nat) : Nat :=
  divideToEven num (den * 2 ^ keptBit num den) * 2 ^ keptBit num den

theorem significand_le (num den : Nat) :
    divideToEven num (den * 2 ^ keptBit num den) ≤ 2 ^ (53 : Nat) := by
  refine Nat.le_trans (divideToEven_le ..) ?_
  rw [← Nat.div_div_eq_div_mul]
  suffices h : num / den / 2 ^ keptBit num den < 2 ^ (53 : Nat) by omega
  rw [Nat.div_lt_iff_lt_mul (Nat.two_pow_pos _), ← Nat.pow_add]
  refine Nat.lt_of_lt_of_le Nat.lt_log2_self ?_
  exact Nat.pow_le_pow_right (by omega) (by unfold keptBit; omega)

theorem representable_roundUnits {num den : Nat} (h : roundUnits num den < overflowUnits) :
    Representable (roundUnits num den) :=
  representable_mul_two_pow (significand_le num den) h

/-- The double nearest to the quotient `num / den` of units, with the given sign. A quotient that
rounds to `2 ^ 1024` or more becomes an infinity. -/
def Binary64.nearest (negative : Bool) (num den : Nat) : Binary64 :=
  if h : roundUnits num den < overflowUnits then
    .finite negative ⟨roundUnits num den, representable_roundUnits h⟩
  else
    .infinite negative

end TextTemplate
