import TextTemplate.Proofs.Binary64.Nearest
/-!
# Decimals that read back as a double

- `Decimal.toBinary64_of_near`: a decimal near a magnitude is read as that magnitude; the short cuts
  for very large and very small decimals are not taken.
- `Decimal.toBinary64_of_eq`: a decimal that is exactly a magnitude is read as it.
- `Magnitude.near_of_between`, `Magnitude.near_of_eq`: what lies near a magnitude.
- `Magnitude.near_shortest`: the shortest decimal of a magnitude lies near it.
-/

namespace TextTemplate

attribute [local instance] natPow

/-- The value of a decimal in units, as a numerator over `scaleDown`. -/
def Decimal.numerator (d : Decimal) : Nat := d.digits * d.scaleUp * unitsPerOne

namespace Magnitude

variable {m : Magnitude}

theorem spacing_le_units (hpos : 0 < m.units) : m.spacing ≤ m.units :=
  Nat.le_of_dvd hpos m.representable.2

/-- The half-way point below a magnitude is half a unit at least. -/
theorem two_le_lowerEnd (hpos : 0 < m.units) : 2 ≤ m.lowerEnd := by
  have hspacing := spacing_le_units hpos
  rw [lowerEnd]
  split <;> omega

theorem upperEnd_le (hpos : 0 < m.units) : m.upperEnd ≤ 6 * m.units := by
  have hspacing := spacing_le_units hpos
  rw [upperEnd]
  omega

theorem lowerEnd_lt (hpos : 0 < m.units) : m.lowerEnd < 4 * m.units := by
  have hspacing := spacing_pos (m := m)
  rw [lowerEnd]
  split <;> omega

theorem lt_upperEnd : 4 * m.units < m.upperEnd := by
  have hspacing := spacing_pos (m := m)
  rw [upperEnd]
  omega

/-- The half-way points themselves need not be looked at. -/
theorem near_of_between {num den : Nat} (hlower : m.lowerEnd * den < 4 * num)
    (hupper : 4 * num < m.upperEnd * den) : m.Near num den := by
  unfold Near
  split
  · exact ⟨Nat.le_of_lt hlower, Nat.le_of_lt hupper⟩
  · exact ⟨hlower, hupper⟩

/-- What is exactly the magnitude is near it. -/
theorem near_of_eq {num den : Nat} (hpos : 0 < m.units) (hden : 0 < den)
    (h : num = m.units * den) : m.Near num den := by
  rw [h]
  refine near_of_between ?_ ?_
  · rw [← Nat.mul_assoc]
    exact Nat.mul_lt_mul_of_pos_right (lowerEnd_lt hpos) hden
  · rw [← Nat.mul_assoc]
    exact Nat.mul_lt_mul_of_pos_right lt_upperEnd hden

end Magnitude

/-! ## Reading -/

namespace Decimal

variable {d : Decimal} {m : Magnitude}

theorem scaleDown_pos : 0 < d.scaleDown := Nat.pow_pos (by decide)

theorem pow_le_scaleUp {k : Nat} (h : (k : Int) ≤ d.exponent) : 10 ^ k ≤ d.scaleUp :=
  Nat.pow_le_pow_right (by decide) (by omega)

/-- From `10 ^ 310` on every decimal lies above all doubles. -/
theorem overflowUnits_lt_numerator : 6 * overflowUnits < 4 * (10 ^ (310 : Nat) * unitsPerOne) := by
  decide +kernel

/-- Zero is near no magnitude but zero. -/
theorem digits_ne_zero_of_near (hm : 0 < m.units) (h : m.Near d.numerator d.scaleDown) :
    d.digits ≠ 0 := by
  intro hzero
  have hlower := h.lower_le
  rw [numerator, hzero, Nat.zero_mul, Nat.zero_mul] at hlower
  have hpos := Nat.mul_pos (Nat.lt_of_lt_of_le Nat.two_pos (Magnitude.two_le_lowerEnd hm))
    (scaleDown_pos (d := d))
  omega

theorem exponent_lt_of_near (hm : 0 < m.units) (h : m.Near d.numerator d.scaleDown) :
    d.exponent < 310 := by
  refine Int.lt_of_not_ge ?_
  intro hexponent
  have hdigits := digits_ne_zero_of_near hm h
  have hscale := pow_le_scaleUp (k := 310) hexponent
  have hdown : d.scaleDown = 1 := by
    rw [scaleDown, Int.toNat_of_nonpos (by omega), Nat.pow_zero]
  have hnumerator : 10 ^ (310 : Nat) * unitsPerOne ≤ d.numerator := by
    refine Nat.mul_le_mul_right _ (Nat.le_trans hscale ?_)
    exact Nat.le_mul_of_pos_left _ (Nat.pos_of_ne_zero hdigits)
  have hupper := h.le_upper
  have hends := Magnitude.upperEnd_le hm
  have hunits := m.representable.lt
  have hlarge := overflowUnits_lt_numerator
  rw [hdown, Nat.mul_one] at hupper
  omega

/-- A decimal that is taken for zero lies below half a unit. -/
theorem two_mul_numerator_lt (h : (d.digits.log2 : Int) + 1076 ≤ 3 * -d.exponent) :
    2 * d.numerator < d.scaleDown := by
  have hup : d.scaleUp = 1 := by rw [scaleUp, Int.toNat_of_nonpos (by omega), Nat.pow_zero]
  have hdown : 2 ^ (3 * (-d.exponent).toNat) ≤ d.scaleDown := by
    rw [scaleDown, Nat.pow_mul]
    exact Nat.pow_le_pow_left (by decide) _
  have hdigits : d.digits < 2 ^ (d.digits.log2 + 1) := Nat.lt_log2_self
  have hplaces : d.digits.log2 + 1 + (unitShift + 1) ≤ 3 * (-d.exponent).toNat := by
    rw [unitShift]
    omega
  calc 2 * d.numerator = d.digits * 2 ^ (unitShift + 1) := by
        rw [numerator, hup, Nat.mul_one, unitsPerOne, Nat.pow_succ, Nat.mul_left_comm,
          Nat.mul_comm 2]
    _ < 2 ^ (d.digits.log2 + 1) * 2 ^ (unitShift + 1) :=
        Nat.mul_lt_mul_of_pos_right hdigits (Nat.two_pow_pos _)
    _ = 2 ^ (d.digits.log2 + 1 + (unitShift + 1)) := (Nat.pow_add ..).symm
    _ ≤ 2 ^ (3 * (-d.exponent).toNat) := Nat.pow_le_pow_right Nat.two_pos hplaces
    _ ≤ d.scaleDown := hdown

/-- A decimal near a magnitude is read as that magnitude. -/
theorem toBinary64_of_near (hm : 0 < m.units) (h : m.Near d.numerator d.scaleDown)
    (negative : Bool) : d.toBinary64 negative = .finite negative m := by
  have hexponent := exponent_lt_of_near hm h
  -- twice the scale is the least that four times the numerator can be
  have hlower : 2 * d.scaleDown ≤ 4 * d.numerator :=
    Nat.le_trans (Nat.mul_le_mul_right _ (Magnitude.two_le_lowerEnd hm)) h.lower_le
  have hscale := scaleDown_pos (d := d)
  have hdigits := digits_ne_zero_of_near hm h
  have hlarge : ¬ (d.digits.log2 : Int) + 1076 ≤ 3 * -d.exponent := by
    intro hsmall
    have hlt := two_mul_numerator_lt hsmall
    omega
  rw [toBinary64, if_neg hdigits, if_neg (Int.not_le.2 hexponent), if_neg hlarge, round]
  exact Magnitude.nearest_of_near h hscale negative

/-- A decimal that is exactly a magnitude is read as it. -/
theorem toBinary64_of_eq (h : d.numerator = m.units * d.scaleDown) (negative : Bool) :
    d.toBinary64 negative = .finite negative m := by
  rcases Nat.eq_zero_or_pos m.units with hzero | hpos
  · have hdigits : d.digits = 0 := by
      have hscale : 0 < d.scaleUp := Nat.pow_pos (by decide)
      rw [hzero, Nat.zero_mul, numerator] at h
      have hscaled := (Nat.mul_eq_zero.1 h).resolve_right (Nat.ne_of_gt unitsPerOne_pos)
      exact (Nat.mul_eq_zero.1 hscaled).resolve_right (Nat.ne_of_gt hscale)
    have hm : m = .zero := Magnitude.ext hzero
    rw [toBinary64, if_pos hdigits, hm]
  · exact toBinary64_of_near hpos (Magnitude.near_of_eq hpos scaleDown_pos h) negative

end Decimal

/-! ## Shortest decimals -/

namespace Magnitude

variable {m : Magnitude}

/-- The decimal near the magnitude that is tried on a grid, if there is one, lies near it. -/
theorem near_of_neighbour? {e : Int} {d : Decimal} (h : m.neighbour? e = some d) :
    m.Near d.numerator d.scaleDown := by
  have haccepts : ∀ d' : Decimal, m.accepts d' = true → m.Near d'.numerator d'.scaleDown :=
    fun d' => accepts_iff.1
  unfold neighbour? at h
  dsimp only at h
  split at h
  · next hbelow habove =>
    rw [← Option.some.inj h]
    split
    · exact haccepts _ hbelow
    · exact haccepts _ habove
  · next hbelow _ =>
    rw [← Option.some.inj h]
    exact haccepts _ hbelow
  · next _ habove =>
    rw [← Option.some.inj h]
    exact haccepts _ habove
  · exact nomatch h

/-- The exact decimal of a magnitude. -/
theorem numerator_exact : m.exact.numerator = m.units * m.exact.scaleDown := by
  have hup : m.exact.scaleUp = 1 := by
    rw [Decimal.scaleUp, exact, Int.toNat_neg_natCast, Nat.pow_zero]
  have hdown : m.exact.scaleDown = 5 ^ unitShift * unitsPerOne := by
    rw [Decimal.scaleDown, exact, Int.neg_neg, Int.toNat_natCast, unitsPerOne, ← Nat.mul_pow]
  rw [Decimal.numerator, hup, hdown, Nat.mul_one, ← Nat.mul_assoc, exact]

theorem near_search (hpos : 0 < m.units) (steps : Nat) :
    m.Near (m.search steps).numerator (m.search steps).scaleDown := by
  induction steps with
  | zero => exact near_of_eq hpos Decimal.scaleDown_pos numerator_exact
  | succ steps ih =>
    rw [search]
    cases hneighbour : m.neighbour? ((steps : Int) + 1 - unitShift) with
    | none => exact ih
    | some d => exact near_of_neighbour? hneighbour

/-- The shortest decimal of a magnitude lies near it. -/
theorem near_shortest (hpos : 0 < m.units) :
    m.Near m.shortest.numerator m.shortest.scaleDown := near_search hpos _

theorem digits_shortest_ne_zero (hpos : 0 < m.units) : m.shortest.digits ≠ 0 :=
  Decimal.digits_ne_zero_of_near hpos (near_shortest hpos)

end Magnitude
end TextTemplate
