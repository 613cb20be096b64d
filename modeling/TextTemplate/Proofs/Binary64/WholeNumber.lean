import TextTemplate.Binary64.Arithmetic
import TextTemplate.Proofs.Binary64.Closest
/-!
# Whole numbers as doubles

- `ofNat_eq_finite`: whole numbers up to `2 ^ 53` are doubles.
- `isInteger_ofNat`, `toNat_ofNat`, `not_ofNat_lt_zero`: what they are read as.
- `lt_eq_decide`, `le_eq_decide`, `not_infinite_lt`: comparisons by the places on the number line.
- `ofNat_le_ofNat_iff`: any whole number, also one that is no double, compares with them as it is.
-/

namespace TextTemplate

attribute [local instance] natPow

/-- A whole number with at most 53 bits is a double as it is. -/
theorem representable_mul_unitsPerOne {n : Nat} (h : n ≤ 2 ^ (53 : Nat)) :
    Representable (n * unitsPerOne) := by
  refine representable_mul_two_pow h ?_
  have hlimit : 2 ^ (53 : Nat) * 2 ^ unitShift < overflowUnits := by
    rw [← Nat.pow_add]
    exact Nat.pow_lt_pow_right (by decide) (by decide)
  exact Nat.lt_of_le_of_lt (Nat.mul_le_mul_right _ h) hlimit

/-- So it is on the grid that quotients are rounded to. -/
theorem isCoarse_mul_unitsPerOne {n : Nat} (h : n ≤ 2 ^ (53 : Nat)) : IsCoarse (n * unitsPerOne) :=
  (representable_mul_unitsPerOne h).2

namespace Binary64

variable {n i : Nat}

/-- A whole number up to `2 ^ 53` is a double. -/
theorem ofNat_eq_finite (h : i ≤ 2 ^ (53 : Nat)) :
    ∃ m : Magnitude, m.units = i * unitsPerOne ∧ ofNat i = .finite false m :=
  ⟨⟨_, representable_mul_unitsPerOne h⟩, rfl, nearest_eq false Nat.one_pos (Nat.mul_one _).symm⟩

/-- A position of an array that is small enough has no fraction. -/
theorem isInteger_ofNat (h : i < 2 ^ (53 : Nat)) : (ofNat i).isInteger = true := by
  obtain ⟨m, hunits, heq⟩ := ofNat_eq_finite (Nat.le_of_lt h)
  rw [heq, isInteger, Magnitude.isInteger, hunits, Nat.mul_mod_left]
  rfl

/-- It is read back as it was. -/
theorem toNat_ofNat (h : i < 2 ^ (53 : Nat)) : (ofNat i).toNat = i := by
  obtain ⟨m, hunits, heq⟩ := ofNat_eq_finite (Nat.le_of_lt h)
  rw [heq, toNat, hunits, Nat.mul_div_cancel i unitsPerOne_pos]

variable {x y : Binary64} {a b : Int}

/-- Doubles that have a place on the number line are compared by their places. -/
theorem lt_eq_decide (hx : x.order = some a) (hy : y.order = some b) : x.lt y = decide (a < b) := by
  rw [lt, compareWith, hx, hy]

theorem le_eq_decide (hx : x.order = some a) (hy : y.order = some b) : x.le y = decide (a ≤ b) := by
  rw [le, compareWith, hx, hy]

/-- A positive double stands at its number of units. -/
theorem order_finite_false (m : Magnitude) : (finite false m).order = some (m.units : Int) := by
  rw [order, signed, if_neg Bool.false_ne_true]

/-- Infinity stands where the units of finite doubles end. -/
theorem order_infinite_false : (infinite false).order = some (overflowUnits : Int) := by
  rw [order, signed, if_neg Bool.false_ne_true]

/-- Nothing is larger than infinity. -/
theorem not_infinite_lt (x : Binary64) : (infinite false).lt x = false := by
  cases x with
  | nan => rfl
  | infinite s =>
    refine decide_eq_false ?_
    rw [signed, if_neg Bool.false_ne_true, signed]
    split <;> omega
  | finite s m =>
    have hlt := m.representable.lt
    refine decide_eq_false ?_
    rw [signed, if_neg Bool.false_ne_true, signed]
    split <;> omega

/-- A whole number up to `2 ^ 53` has not been rounded. -/
theorem order_ofNat (h : i ≤ 2 ^ (53 : Nat)) :
    (ofNat i).order = some ((i * unitsPerOne : Nat) : Int) := by
  obtain ⟨m, hunits, heq⟩ := ofNat_eq_finite h
  rw [heq, order_finite_false, hunits]

/-- No whole number is negative. -/
theorem not_ofNat_lt_zero (h : i < 2 ^ (53 : Nat)) : (ofNat i).lt .zero = false := by
  rw [zero, lt_eq_decide (order_ofNat (Nat.le_of_lt h)) (order_finite_false .zero)]
  exact decide_eq_false (Int.not_lt.2 (Int.natCast_nonneg _))

/-- A larger whole number stays larger when it is rounded. -/
theorem exists_order_of_lt (h : i < 2 ^ (53 : Nat)) (hlt : i < n) :
    ∃ a : Nat, (ofNat n).order = some (a : Int) ∧ i * unitsPerOne < a := by
  -- the next whole number is a double, and rounding keeps the order of a number to a double
  have hnext : (i + 1) * unitsPerOne ≤ roundUnits (n * unitsPerOne) 1 := by
    refine le_roundUnits Nat.one_pos (isCoarse_mul_unitsPerOne h) ?_
    rw [Nat.mul_one]
    exact Nat.mul_le_mul_right _ hlt
  have hbelow : i * unitsPerOne < (i + 1) * unitsPerOne :=
    Nat.mul_lt_mul_of_pos_right (Nat.lt_succ_self i) unitsPerOne_pos
  obtain ⟨m, hunits, heq⟩ | ⟨-, heq⟩ := nearest_cases false (n * unitsPerOne) 1
  · refine ⟨m.units, by rw [ofNat, heq, order_finite_false], ?_⟩
    omega
  · exact ⟨overflowUnits, by rw [ofNat, heq, order_infinite_false],
      mul_two_pow_lt_overflowUnits h (by decide)⟩

/-- Whole numbers compare with those below `2 ^ 53` as they are. -/
theorem ofNat_le_ofNat_iff (h : i < 2 ^ (53 : Nat)) : (ofNat n).le (ofNat i) = true ↔ n ≤ i := by
  rcases Nat.lt_or_ge i n with hlt | hle
  · obtain ⟨units, horder, hunits⟩ := exists_order_of_lt h hlt
    rw [le_eq_decide horder (order_ofNat (Nat.le_of_lt h)), decide_eq_true_iff, Int.ofNat_le]
    omega
  · rw [le_eq_decide (order_ofNat (Nat.le_of_lt (Nat.lt_of_le_of_lt hle h)))
      (order_ofNat (Nat.le_of_lt h)), decide_eq_true_iff, Int.ofNat_le]
    exact ⟨fun _ => hle, fun _ => Nat.mul_le_mul_right _ hle⟩

end Binary64
end TextTemplate
