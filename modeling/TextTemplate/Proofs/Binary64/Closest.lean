import Mathlib.Data.Nat.Dist
import TextTemplate.Proofs.Binary64.Nearest
/-!
# Rounding among the doubles

The numbers with at most 53 significant bits make up a grid, of which the finite doubles are the
part below the overflow limit. A quotient is rounded to a grid point that no other one is closer
than, and so rounding never passes over a grid point.

- `IsCoarse`: a number of units on the grid.
- `divideToEven_closest`, `le_divideToEven`, `divideToEven_le_of_le`: rounding to whole numbers.
- `roundUnits_closest`: no grid point is closer than the one that a quotient is rounded to.
- `le_roundUnits`, `roundUnits_le`: a quotient on one side of a grid point is not rounded to a
  number on the other side.
- `Binary64.nearest_closest`, `Binary64.nearest_eq`: the same for doubles.
-/

namespace TextTemplate

attribute [local instance] natPow

/-- A number of units with at most 53 significant bits. -/
def IsCoarse (x : Nat) : Prop := 2 ^ (x.log2 - 52) ∣ x

theorem Magnitude.isCoarse (m : Magnitude) : IsCoarse m.units := m.representable.2

theorem isCoarse_two_pow (k : Nat) : IsCoarse (2 ^ k) := by
  rw [IsCoarse, Nat.log2_two_pow]
  exact Nat.pow_dvd_pow 2 (Nat.sub_le k 52)

/-- From a power of two on, the grid has only multiples of the last bit that is kept there. -/
theorem IsCoarse.dvd {x k : Nat} (h : IsCoarse x) (hle : 2 ^ (52 + k) ≤ x) : 2 ^ k ∣ x := by
  have hne : x ≠ 0 := Nat.ne_of_gt (Nat.lt_of_lt_of_le (Nat.two_pow_pos _) hle)
  have hlog : 52 + k ≤ x.log2 := (Nat.le_log2 hne).2 hle
  exact Nat.dvd_trans (Nat.pow_dvd_pow 2 (by omega)) h

theorem IsCoarse.dvd_of_mul_le {x k : Nat} (h : IsCoarse x) (hle : 2 ^ (52 : Nat) * 2 ^ k ≤ x) :
    2 ^ k ∣ x := by
  rw [← Nat.pow_add] at hle
  exact h.dvd hle

/-! ## Whole numbers -/

section WholeNumbers

variable {num den : Nat}

/-- A quotient is rounded down if its remainder is at most one half, and up if it is at least that. -/
theorem divideToEven_cases (num den : Nat) :
    (divideToEven num den = num / den ∧ 2 * (num % den) ≤ den) ∨
      (divideToEven num den = num / den + 1 ∧ den ≤ 2 * (num % den)) := by
  unfold divideToEven
  dsimp only
  split
  · exact .inl ⟨rfl, by omega⟩
  · split
    · exact .inr ⟨rfl, by omega⟩
    · rcases Nat.mod_two_eq_zero_or_one (num / den) with heven | hodd
      · exact .inl ⟨by omega, by omega⟩
      · exact .inr ⟨by omega, by omega⟩

/-- No whole number is closer to a quotient than the one that it is rounded to. -/
theorem divideToEven_closest (num : Nat) (hden : 0 < den) (q : Nat) :
    Nat.dist (divideToEven num den * den) num ≤ Nat.dist (q * den) num := by
  have hparts : num / den * den + num % den = num := by
    rw [Nat.mul_comm]
    exact Nat.div_add_mod num den
  have hrest := Nat.mod_lt num hden
  -- another whole number is not above the quotient, or not below the next one
  have hside : q * den ≤ num / den * den ∨ num / den * den + den ≤ q * den := by
    rcases Nat.lt_or_ge (num / den) q with hlt | hle
    · have hnext := Nat.mul_le_mul_right den hlt
      rw [Nat.succ_mul] at hnext
      exact .inr hnext
    · exact .inl (Nat.mul_le_mul_right den hle)
  unfold Nat.dist
  obtain ⟨heq, hhalf⟩ | ⟨heq, hhalf⟩ := divideToEven_cases num den
  · rw [heq]
    omega
  · rw [heq, Nat.succ_mul]
    omega

theorem le_divideToEven {q : Nat} (hden : 0 < den) (h : q * den ≤ num) :
    q ≤ divideToEven num den := by
  have hle : q ≤ num / den := (Nat.le_div_iff_mul_le hden).2 h
  obtain ⟨heq, -⟩ | ⟨heq, -⟩ := divideToEven_cases num den <;> omega

theorem divideToEven_le_of_le {q : Nat} (hden : 0 < den) (h : num ≤ q * den) :
    divideToEven num den ≤ q := by
  rcases Nat.lt_or_eq_of_le h with hlt | rfl
  · have hdiv : num / den < q := (Nat.div_lt_iff_lt_mul hden).2 hlt
    exact Nat.le_trans (divideToEven_le num den) hdiv
  · have hclosest := divideToEven_closest (q * den) hden q
    rw [Nat.dist_self] at hclosest
    have hequal := Nat.eq_of_dist_eq_zero (Nat.le_zero.1 hclosest)
    exact Nat.le_of_eq (Nat.eq_of_mul_eq_mul_right hden hequal)

end WholeNumbers

/-! ## Doubles -/

section Doubles

variable {num den x : Nat}

/-- The leading bit of a quotient from which a bit is cut off. -/
theorem two_pow_le_of_keptBit {k : Nat} (hden : 0 < den) (hk : keptBit num den = k + 1) :
    2 ^ (52 + (k + 1)) * den ≤ num := by
  have hlog : 52 + (k + 1) = (num / den).log2 := by
    rw [keptBit] at hk
    omega
  have hne : num / den ≠ 0 := by
    intro hzero
    rw [hzero, Nat.log2_zero] at hlog
    omega
  rw [← Nat.le_div_iff_mul_le hden, hlog]
  exact Nat.log2_self_le hne

/-- A grid point is a multiple of the last bit that is kept of a quotient, unless it lies below the
leading bit of the quotient. -/
theorem IsCoarse.cases_keptBit (hx : IsCoarse x) (num : Nat) (hden : 0 < den) :
    (∃ y, x = y * 2 ^ keptBit num den) ∨
      ∃ y, x ≤ y * 2 ^ keptBit num den ∧ y * 2 ^ keptBit num den * den ≤ num := by
  cases hk : keptBit num den with
  | zero => exact .inl ⟨x, by rw [Nat.pow_zero, Nat.mul_one]⟩
  | succ k =>
    have hleading := two_pow_le_of_keptBit hden hk
    rcases Nat.lt_or_ge x (2 ^ (52 + (k + 1))) with hlt | hle
    · rw [Nat.pow_add] at hlt hleading
      exact .inr ⟨2 ^ (52 : Nat), Nat.le_of_lt hlt, hleading⟩
    · obtain ⟨y, rfl⟩ := hx.dvd hle
      exact .inl ⟨y, Nat.mul_comm ..⟩

/-- Multiples of the last bit that is kept, over the denominator. -/
theorem mul_step (y k den : Nat) : y * 2 ^ k * den = y * (den * 2 ^ k) := by
  rw [Nat.mul_assoc, Nat.mul_comm (2 ^ k)]

theorem step_pos (k : Nat) (hden : 0 < den) : 0 < den * 2 ^ k := Nat.mul_pos hden (Nat.two_pow_pos k)

/-- No grid point is closer to a quotient than the one that it is rounded to. -/
theorem roundUnits_closest (hden : 0 < den) (hx : IsCoarse x) :
    Nat.dist (roundUnits num den * den) num ≤ Nat.dist (x * den) num := by
  have hwhole := divideToEven_closest num (step_pos (keptBit num den) hden)
  rw [roundUnits, mul_step]
  obtain ⟨y, rfl⟩ | ⟨y, hle, hbelow⟩ := hx.cases_keptBit num hden
  · rw [mul_step]
    exact hwhole y
  · refine Nat.le_trans (hwhole y) ?_
    have hmul := Nat.mul_le_mul_right den hle
    rw [mul_step] at hmul hbelow
    unfold Nat.dist
    omega

/-- A quotient that is not below a grid point is not rounded to a number below it. -/
theorem le_roundUnits (hden : 0 < den) (hx : IsCoarse x) (h : x * den ≤ num) :
    x ≤ roundUnits num den := by
  have hround : ∀ y, y * 2 ^ keptBit num den * den ≤ num →
      y * 2 ^ keptBit num den ≤ roundUnits num den := by
    intro y hy
    refine Nat.mul_le_mul_right _ (le_divideToEven (step_pos _ hden) ?_)
    rwa [mul_step] at hy
  obtain ⟨y, rfl⟩ | ⟨y, hle, hbelow⟩ := hx.cases_keptBit num hden
  · exact hround y h
  · exact Nat.le_trans hle (hround y hbelow)

/-- A quotient that is not above a grid point is not rounded to a number above it. -/
theorem roundUnits_le (hden : 0 < den) (hx : IsCoarse x) (h : num ≤ x * den) :
    roundUnits num den ≤ x := by
  have hround : ∀ y, num ≤ y * 2 ^ keptBit num den * den →
      roundUnits num den ≤ y * 2 ^ keptBit num den := by
    intro y hy
    refine Nat.mul_le_mul_right _ (divideToEven_le_of_le (step_pos _ hden) ?_)
    rwa [mul_step] at hy
  obtain ⟨y, rfl⟩ | ⟨y, hle, hbelow⟩ := hx.cases_keptBit num hden
  · exact hround y h
  · -- then the quotient is the power of two of its leading bit
    have hequal : x = y * 2 ^ keptBit num den :=
      Nat.le_antisymm hle (Nat.le_of_mul_le_mul_right (Nat.le_trans hbelow h) hden)
    exact hequal ▸ hround y (hequal ▸ h)

/-- A grid point is rounded to itself. -/
theorem roundUnits_eq (hden : 0 < den) (hx : IsCoarse x) (h : num = x * den) :
    roundUnits num den = x :=
  Nat.le_antisymm (roundUnits_le hden hx (Nat.le_of_eq h))
    (le_roundUnits hden hx (Nat.le_of_eq h.symm))

end Doubles

namespace Binary64

/-- A quotient is rounded to a finite double or to an infinity. -/
theorem nearest_cases (negative : Bool) (num den : Nat) :
    (∃ m, m.units = roundUnits num den ∧ nearest negative num den = .finite negative m) ∨
      overflowUnits ≤ roundUnits num den ∧ nearest negative num den = .infinite negative := by
  unfold nearest
  split
  · exact .inl ⟨_, rfl, rfl⟩
  · next hlarge => exact .inr ⟨Nat.not_lt.1 hlarge, rfl⟩

/-- What is rounded without a sign is not negative, and no not-a-number. -/
theorem nearest_unsigned (num den : Nat) :
    (∃ m, nearest false num den = .finite false m) ∨ nearest false num den = .infinite false :=
  (nearest_cases false num den).imp (fun ⟨m, _, hm⟩ => ⟨m, hm⟩) And.right

/-- No finite double is closer to a quotient than the one that it is rounded to. -/
theorem nearest_closest {negative : Bool} {num den : Nat} {m : Magnitude} (hden : 0 < den)
    (h : nearest negative num den = .finite negative m) (other : Magnitude) :
    Nat.dist (m.units * den) num ≤ Nat.dist (other.units * den) num := by
  obtain ⟨m', hround, hnearest⟩ | ⟨-, hnearest⟩ := nearest_cases negative num den
  · cases hnearest.symm.trans h
    rw [hround]
    exact roundUnits_closest hden other.isCoarse
  · cases hnearest.symm.trans h

/-- A quotient that is a whole number of units on the grid below the overflow limit is a double. -/
theorem nearest_eq {num den : Nat} {m : Magnitude} (negative : Bool) (hden : 0 < den)
    (h : num = m.units * den) : nearest negative num den = .finite negative m := by
  have hround : roundUnits num den = m.units := roundUnits_eq hden m.isCoarse h
  obtain ⟨m', hunits, hnearest⟩ | ⟨hlarge, -⟩ := nearest_cases negative num den
  · rw [hnearest, Magnitude.ext (hunits.trans hround)]
  · exact absurd (hround ▸ hlarge) (Nat.not_le.2 m.representable.lt)

end Binary64
end TextTemplate
