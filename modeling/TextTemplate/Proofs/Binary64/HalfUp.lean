import Mathlib.Tactic.Linarith
import TextTemplate.Binary64.Bits
import TextTemplate.Proofs.Binary64.Exact
/-!
# Rounding to whole numbers, halves up

`Binary64.roundHalfUp` subtracts the floor, compares the difference with one half and adds one to
the floor, and the subtraction and the addition are rounded. The result is exact all the same. Where
the difference is below one half it is a double, so rounding does not lift it to one half; where it
is one half or more rounding does not take it below; and a double that is not whole is so small that
its floor and the next whole number are doubles.

- `unitsPerOne_dvd`, `natAbs_ediv_le`: large doubles are whole, and the others have a small floor.
- `units?_floor`: the floor is exact.
- `representable_emod`: the fraction above the floor is a double where it is below one half.
- `half_le_ofUnits`, `not_half_le_ofUnits`: the comparison with one half.
- `roundHalfUp_exact`: the floor of the value plus one half.
-/

namespace TextTemplate

attribute [local instance] natPow

variable {u : Int}

/-! ## Whole numbers and fractions -/

/-- From `2 ^ 52` on, doubles have no fraction. -/
theorem unitsPerOne_dvd (h : Representable u.natAbs)
    (hlarge : 2 ^ (52 : Nat) * unitsPerOne ≤ u.natAbs) : (unitsPerOne : Int) ∣ u := by
  rw [Int.natCast_dvd]
  rw [unitsPerOne] at hlarge ⊢
  exact IsCoarse.dvd_of_mul_le h.2 hlarge

theorem natAbs_ediv_le (h : u.natAbs < 2 ^ (52 : Nat) * unitsPerOne) :
    (u / unitsPerOne).natAbs ≤ 2 ^ (52 : Nat) := by
  have hpos := unitsPerOne_cast_pos
  have hlower : -2 ^ (52 : Nat) ≤ u / unitsPerOne := Int.le_ediv_of_mul_le hpos (by omega)
  have hupper : u / unitsPerOne < 2 ^ (52 : Nat) := Int.ediv_lt_of_lt_mul hpos (by omega)
  omega

/-- The floor of a double is a double. -/
theorem representable_floor (h : Representable u.natAbs) :
    Representable (u / unitsPerOne * unitsPerOne).natAbs := by
  rcases Nat.lt_or_ge u.natAbs (2 ^ (52 : Nat) * unitsPerOne) with hlt | hge
  · have hfloor := natAbs_ediv_le hlt
    exact representable_whole (by omega)
  · rwa [Int.ediv_mul_cancel (unitsPerOne_dvd h hge)]

/-- The whole part that is taken of a magnitude is the floor of the signed number. -/
theorem signed_ediv (s : Bool) (n : Nat) :
    signed s (if s then (n + (unitsPerOne - 1)) / unitsPerOne else n / unitsPerOne) =
      signed s n / unitsPerOne := by
  cases s with
  | false => exact Int.natCast_ediv n unitsPerOne
  | true =>
    have hpos := unitsPerOne_pos
    have hle := Nat.div_mul_le_self (n + (unitsPerOne - 1)) unitsPerOne
    have hlt := Nat.lt_div_mul_add (a := n + (unitsPerOne - 1)) hpos
    rw [if_pos rfl, signed, if_pos rfl, signed, if_pos rfl]
    generalize (n + (unitsPerOne - 1)) / unitsPerOne = whole at hle hlt ⊢
    refine ((Int.ediv_eq_iff_of_pos unitsPerOne_cast_pos).2 ?_).symm
    rw [Int.neg_mul, ← Int.natCast_mul]
    omega

/-- The floor of a quotient of units plus one half. -/
theorem floor_div_add_half {j : Int} (hlower : (2 * j - 1) * unitsPerOne ≤ 2 * u)
    (hupper : 2 * u < (2 * j + 1) * unitsPerOne) : ⌊(u : ℚ) / unitsPerOne + 1 / 2⌋ = j := by
  have hpos : (0 : ℚ) < unitsPerOne := Nat.cast_pos.2 unitsPerOne_pos
  have hlower' : (2 * (j : ℚ) - 1) * unitsPerOne ≤ 2 * u := by exact_mod_cast hlower
  have hupper' : 2 * (u : ℚ) < (2 * j + 1) * unitsPerOne := by exact_mod_cast hupper
  rw [Int.floor_eq_iff]
  constructor
  · have hdiv : (j : ℚ) - 1 / 2 ≤ u / unitsPerOne := by
      rw [le_div_iff₀ hpos]
      linarith
    linarith
  · have hdiv : (u : ℚ) / unitsPerOne < j + 1 / 2 := by
      rw [div_lt_iff₀ hpos]
      linarith
    linarith

/-- Half of one, in units. -/
def halfUnits : Nat := 2 ^ (unitShift - 1)

theorem halfUnits_mul_two : halfUnits * 2 = unitsPerOne := by
  rw [halfUnits, unitsPerOne, Nat.two_pow_pred_mul_two (by decide)]

theorem representable_halfUnits : Representable halfUnits := by
  rw [halfUnits]
  refine ⟨?_, isCoarse_two_pow _⟩
  rw [overflowUnits]
  exact Nat.pow_lt_pow_right (by decide) (by decide)

/-- A fraction below one half is a double: it is a multiple of the last bit of the number, if this
is one half or more, and otherwise the number itself. -/
theorem representable_emod (h : Representable u.natAbs)
    (hhalf : 2 * (u % unitsPerOne) < unitsPerOne) : Representable (u % unitsPerOne).natAbs := by
  have hpos := unitsPerOne_cast_pos
  have htwo := halfUnits_mul_two
  have hnonneg := Int.emod_nonneg u (Int.ne_of_gt hpos)
  rcases Nat.lt_or_ge u.natAbs halfUnits with hsmall | hlarge
  · rcases Int.lt_or_le u 0 with hneg | hpositive
    · have hmod : u % unitsPerOne = u + unitsPerOne := by
        rw [← Int.add_emod_right]
        exact Int.emod_eq_of_lt (by omega) (by omega)
      omega
    · rwa [Int.emod_eq_of_lt hpositive (by omega)]
  · obtain ⟨k, hk⟩ : ∃ k, unitShift - 1 = 52 + k := ⟨1021, rfl⟩
    have hfraction : (u % unitsPerOne).natAbs < halfUnits := by omega
    rw [halfUnits, hk] at hlarge hfraction
    unfold unitShift at hk
    refine representable_of_dvd ?_ hfraction (by unfold maxShift; omega)
    have hbit : ((2 ^ k : Nat) : Int) ∣ u := Int.natCast_dvd.2 (IsCoarse.dvd h.2 hlarge)
    have hone : ((2 ^ k : Nat) : Int) ∣ unitsPerOne :=
      Int.natCast_dvd_natCast.2 (Nat.pow_dvd_pow 2 (by unfold unitShift; omega))
    rw [← Int.natCast_dvd, Int.emod_def]
    exact Int.dvd_sub hbit (Dvd.dvd.mul_right hone _)

namespace Binary64

variable {x : Binary64}

/-- The floor of a double is exact. -/
theorem units?_floor (h : x.units? = some u) :
    x.floor.units? = some (u / unitsPerOne * unitsPerOne) := by
  have hfloor := representable_floor (representable_of_units? h)
  obtain ⟨s, m, rfl, rfl⟩ := exists_of_units? h
  rw [← signed_ediv, ← signed_mul, natAbs_signed] at hfloor
  rw [← signed_ediv, ← signed_mul, floor,
    nearest_eq (m := ⟨_, hfloor⟩) s Nat.one_pos (Nat.mul_one _).symm]
  rfl

/-! ## The comparison with one half -/

theorem units?_half : half.units? = some (halfUnits : Int) := by
  obtain ⟨m, hm⟩ : ∃ m : Magnitude, m.units = halfUnits := ⟨⟨_, representable_halfUnits⟩, rfl⟩
  have hunits : unitsPerOne = m.units * 2 := by rw [hm, halfUnits_mul_two]
  rw [half, nearest_eq false Nat.two_pos hunits, units?_finite_false, hm]

theorem units?_one : one.units? = some (unitsPerOne : Int) := by
  obtain ⟨m, hunits, heq⟩ := ofNat_eq_finite (i := 1) (by decide)
  rw [one, heq, units?_finite_false, hunits, Nat.one_mul]

theorem not_half_le_nan : half.le .nan = false := by
  rw [le, compareWith]
  cases half.order <;> rfl

/-- What is one half or more is not rounded below one half. -/
theorem half_le_ofUnits (negativeZero : Bool) (h : (halfUnits : Int) ≤ u) :
    half.le (ofUnits negativeZero u) = true := by
  have hpos : 0 < halfUnits := Nat.two_pow_pos _
  have hround : halfUnits ≤ roundUnits u.natAbs 1 := by
    refine le_roundUnits Nat.one_pos representable_halfUnits.2 ?_
    omega
  rw [ofUnits, if_neg (by omega), decide_eq_false (by omega)]
  obtain ⟨m, hunits, heq⟩ | ⟨-, heq⟩ := nearest_cases false u.natAbs 1
  · rw [heq, le_eq_decide (order_of_units? units?_half) (order_finite_false m), hunits,
      decide_eq_true_iff]
    exact Int.ofNat_le.2 hround
  · rw [heq, le_eq_decide (order_of_units? units?_half) order_infinite_false, decide_eq_true_iff]
    exact Int.ofNat_le.2 (Nat.le_of_lt representable_halfUnits.lt)

/-- A double below one half stays below one half. -/
theorem not_half_le_ofUnits (negativeZero : Bool) (hrep : Representable u.natAbs)
    (h : u < halfUnits) : half.le (ofUnits negativeZero u) = false := by
  rw [le_eq_decide (order_of_units? units?_half) (order_of_units? (units?_ofUnits _ hrep))]
  exact decide_eq_false (Int.not_le.2 h)

/-! ## The result -/

/-- The result has the units of the floor, or of the floor and one. -/
theorem units?_roundHalfUp (h : x.units? = some u) :
    x.roundHalfUp.units? = some (if 2 * (u % unitsPerOne) < unitsPerOne then
      u / unitsPerOne * unitsPerOne else (u / unitsPerOne + 1) * unitsPerOne) := by
  have hfloor := units?_floor h
  have hrep := representable_of_units? h
  obtain ⟨negativeZero, hsub⟩ := exists_add_eq h (units?_neg hfloor)
  have hfraction : u + -(u / unitsPerOne * unitsPerOne) = u % unitsPerOne := by
    rw [Int.emod_def, Int.mul_comm (unitsPerOne : Int)]
    rfl
  have htwo := halfUnits_mul_two
  rw [hfraction] at hsub
  rw [roundHalfUp, sub, hsub]
  by_cases hhalf : 2 * (u % unitsPerOne) < unitsPerOne
  · rw [not_half_le_ofUnits _ (representable_emod hrep hhalf) (by omega), if_pos hhalf]
    exact hfloor
  · rw [half_le_ofUnits _ (by omega), if_pos rfl, if_neg hhalf]
    -- a number with a fraction is small, and so its floor and the next whole number are exact
    have hsmall : u.natAbs < 2 ^ (52 : Nat) * unitsPerOne := by
      refine Nat.lt_of_not_le fun hlarge => hhalf ?_
      rw [Int.emod_eq_zero_of_dvd (unitsPerOne_dvd hrep hlarge)]
      exact unitsPerOne_cast_pos
    have hnext : (u / unitsPerOne + 1).natAbs ≤ 2 ^ (53 : Nat) := by
      have hle := natAbs_ediv_le hsmall
      omega
    obtain ⟨negativeZero', hadd⟩ := exists_add_eq hfloor units?_one
    have hsum : u / unitsPerOne * unitsPerOne + unitsPerOne
        = (u / unitsPerOne + 1) * unitsPerOne := by rw [Int.add_mul, Int.one_mul]
    rw [hadd, hsum]
    exact units?_ofUnits _ (representable_whole hnext)

end Binary64

/-- A finite double is rounded to the floor of its value plus one half, exactly. The infinities and
not-a-number stay as they are. -/
theorem roundHalfUp_exact (x : Binary64) :
    (x.isFinite = true → ∃ q : ℚ, x.value? = some q ∧
      x.roundHalfUp.value? = some ((⌊q + 1 / 2⌋ : Int) : ℚ)) ∧
    (x.isFinite = false → x.roundHalfUp = x) := by
  cases x with
  | nan =>
    refine ⟨nofun, fun _ => ?_⟩
    have hsub : Binary64.nan.sub Binary64.nan.floor = .nan := rfl
    rw [Binary64.roundHalfUp, hsub, Binary64.not_half_le_nan, if_neg Bool.false_ne_true]
    rfl
  | infinite s =>
    refine ⟨nofun, fun _ => ?_⟩
    have hsub : (Binary64.infinite s).sub (Binary64.infinite s).floor = .nan := by cases s <;> rfl
    rw [Binary64.roundHalfUp, hsub, Binary64.not_half_le_nan, if_neg Bool.false_ne_true]
    rfl
  | finite s m =>
    refine ⟨fun _ => ?_, nofun⟩
    have hunits : (Binary64.finite s m).units? = some (signed s m.units) := rfl
    generalize signed s m.units = u at hunits
    refine ⟨_, Binary64.value?_of_units? hunits, ?_⟩
    rw [Binary64.value?_eq_intCast_iff, Binary64.units?_roundHalfUp hunits]
    have hparts := Int.ediv_mul_add_emod u unitsPerOne
    have hnonneg := Int.emod_nonneg u (Int.ne_of_gt unitsPerOne_cast_pos)
    have hlt := Int.emod_lt_of_pos u unitsPerOne_cast_pos
    split
    · next hhalf =>
      rw [floor_div_add_half (j := u / unitsPerOne) (by linarith) (by linarith)]
    · next hhalf =>
      rw [floor_div_add_half (j := u / unitsPerOne + 1) (by linarith) (by linarith)]

/-- Adding one half first would round up to one here. -/
example : (Binary64.ofBits 0x3FDFFFFFFFFFFFFF).roundHalfUp = .zero := by decide +kernel

end TextTemplate
