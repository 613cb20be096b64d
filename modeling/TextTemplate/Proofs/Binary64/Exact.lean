import Mathlib.Data.Rat.Floor
import TextTemplate.Proofs.Binary64.WholeNumber
/-!
# The exact value of a double

A finite double stands for a rational number, a whole number of units. Statements about what an
operation computes are made about rational numbers and proved about units.

- `Binary64.units?`, `Binary64.value?`: the signed units of a finite double, and its value.
- `value?_eq_some_iff`, `value?_eq_intCast_iff`: values in terms of units.
- `isInteger_iff`: the doubles that are whole numbers.
- `representable_whole`, `representable_of_dvd`: numbers of units that are doubles.
- `units?_ofUnits`: a result that is a double needs no rounding.
- `exists_add_eq`, `units?_neg`: sums and negations in units.
-/

namespace TextTemplate

attribute [local instance] natPow

theorem unitsPerOne_cast_pos : (0 : Int) < unitsPerOne := Int.natCast_pos.2 unitsPerOne_pos

/-- A whole number of at most 53 bits is a double. -/
theorem representable_whole {k : Int} (h : k.natAbs ≤ 2 ^ (53 : Nat)) :
    Representable (k * unitsPerOne).natAbs := by
  rw [Int.natAbs_mul, Int.natAbs_natCast]
  exact representable_mul_unitsPerOne h

/-- A multiple of a power of two is a double if it has at most 52 bits above that power. -/
theorem representable_of_dvd {n k : Nat} (hdvd : 2 ^ k ∣ n) (hlt : n < 2 ^ (52 + k))
    (hk : k ≤ maxShift) : Representable n := by
  obtain ⟨j, rfl⟩ := hdvd
  rw [Nat.add_comm 52, Nat.pow_add] at hlt
  have hbits : j < 2 ^ (52 : Nat) := Nat.lt_of_mul_lt_mul_left hlt
  rw [Nat.mul_comm]
  exact representable_mul_two_pow (by omega) (mul_two_pow_lt_overflowUnits (by omega) hk)

namespace Binary64

/-- The units of a finite double, with its sign. -/
def units? : Binary64 → Option Int
  | .finite s m => some (signed s m.units)
  | _ => none

/-- The number that a finite double stands for. -/
def value? (x : Binary64) : Option ℚ := x.units?.map fun u : Int => (u : ℚ) / unitsPerOne

variable {x : Binary64} {u : Int} {q : ℚ}

theorem units?_finite_false (m : Magnitude) : (finite false m).units? = some (m.units : Int) := rfl

/-- Only finite doubles have units. -/
theorem exists_of_units? (h : x.units? = some u) :
    ∃ s m, x = .finite s m ∧ signed s m.units = u := by
  cases x with
  | finite s m => exact ⟨s, m, rfl, Option.some.inj h⟩
  | nan | infinite => cases h

theorem representable_of_units? (h : x.units? = some u) : Representable u.natAbs := by
  obtain ⟨s, m, rfl, rfl⟩ := exists_of_units? h
  rw [natAbs_signed]
  exact m.representable

/-- The place of a finite double on the number line is its number of units. -/
theorem order_of_units? (h : x.units? = some u) : x.order = some u := by
  obtain ⟨s, m, rfl, rfl⟩ := exists_of_units? h
  rfl

theorem value?_eq_some_iff :
    x.value? = some q ↔ ∃ u, x.units? = some u ∧ (u : ℚ) / unitsPerOne = q := by
  rw [value?, Option.map_eq_some_iff]

theorem value?_of_units? (h : x.units? = some u) : x.value? = some ((u : ℚ) / unitsPerOne) :=
  value?_eq_some_iff.2 ⟨u, h, rfl⟩

/-- The doubles of a whole number have that many times the units of one. -/
theorem value?_eq_intCast_iff {k : Int} :
    x.value? = some (k : ℚ) ↔ x.units? = some (k * unitsPerOne) := by
  have hne : (unitsPerOne : ℚ) ≠ 0 := Nat.cast_ne_zero.2 (Nat.ne_of_gt unitsPerOne_pos)
  rw [value?_eq_some_iff]
  constructor
  · rintro ⟨u, hu, heq⟩
    rw [div_eq_iff hne] at heq
    have hunits : u = k * unitsPerOne := by exact_mod_cast heq
    rw [hu, hunits]
  · intro h
    refine ⟨_, h, ?_⟩
    rw [div_eq_iff hne]
    push_cast
    rfl

/-- A double without a fraction is a finite one whose value is a whole number. -/
theorem isInteger_iff : x.isInteger = true ↔ ∃ k : Int, x.value? = some (k : ℚ) := by
  simp only [value?_eq_intCast_iff]
  cases x with
  | nan | infinite => exact iff_of_false Bool.false_ne_true nofun
  | finite s m =>
    have hdvd := Int.natCast_dvd (m := unitsPerOne) (n := signed s m.units)
    rw [natAbs_signed, Nat.dvd_iff_mod_eq_zero] at hdvd
    rw [isInteger, Magnitude.isInteger, beq_iff_eq, ← hdvd, units?]
    simp only [Option.some.injEq, dvd_def, mul_comm (unitsPerOne : Int)]

/-- Units that a double has are not rounded. -/
theorem units?_ofUnits (negativeZero : Bool) (h : Representable u.natAbs) :
    (ofUnits negativeZero u).units? = some u := by
  unfold ofUnits
  split
  · next hzero =>
    rw [hzero, units?, signed]
    cases negativeZero <;> rfl
  · rw [nearest_eq (m := ⟨u.natAbs, h⟩) _ Nat.one_pos (Nat.mul_one _).symm, units?,
      signed_natAbs]

/-- The sum of finite doubles is their exact sum, rounded once. -/
theorem exists_add_eq {y : Binary64} {v : Int} (hx : x.units? = some u) (hy : y.units? = some v) :
    ∃ negativeZero, x.add y = ofUnits negativeZero (u + v) := by
  obtain ⟨s, m, rfl, rfl⟩ := exists_of_units? hx
  obtain ⟨t, n, rfl, rfl⟩ := exists_of_units? hy
  exact ⟨s && t, rfl⟩

theorem units?_neg (h : x.units? = some u) : x.neg.units? = some (-u) := by
  obtain ⟨s, m, rfl, rfl⟩ := exists_of_units? h
  rw [neg, units?, signed_not]

end Binary64
end TextTemplate
