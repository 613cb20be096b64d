import TextTemplate.Decimal.Shortest
/-!
# The numbers that round to a double

- `Magnitude.Near`: a quotient of units lies between the half-way points around a magnitude, or on
  one of them if the magnitude is even.
- `divideToEven_eq`, `keptBit_eq`: the two parts of a rounding, by the place of the quotient.
- `roundUnits_of_near`: such a quotient rounds to the magnitude.
-/

namespace TextTemplate

attribute [local instance] natPow

/-! ## The parts of a rounding -/

/-- The nearest integer to a quotient is the one that is at most one half away, and even if it is
exactly one half away. -/
theorem divideToEven_eq {num den q : Nat} (hden : 0 < den) (hlower : 2 * (q * den) ≤ 2 * num + den)
    (hupper : 2 * num ≤ 2 * (q * den) + den)
    (htie : 2 * (q * den) = 2 * num + den ∨ 2 * num = 2 * (q * den) + den → q % 2 = 0) :
    divideToEven num den = q := by
  rcases Nat.lt_or_ge num (q * den) with hbelow | habove
  · -- the quotient is one less than `q`, and its remainder at least one half
    obtain ⟨p, rfl⟩ : ∃ p, q = p + 1 :=
      Nat.exists_eq_succ_of_ne_zero (by rintro rfl; omega)
    rw [Nat.succ_mul p den] at hbelow hlower hupper htie
    obtain ⟨hdiv, hmod⟩ : num / den = p ∧ num % den = num - p * den := by
      rw [Nat.div_mod_unique hden, Nat.mul_comm den]
      omega
    unfold divideToEven
    rw [hdiv, hmod]
    dsimp only
    split
    · omega
    · split
      · rfl
      · have heven := htie (by omega)
        omega
  · obtain ⟨hdiv, hmod⟩ : num / den = q ∧ num % den = num - q * den := by
      rw [Nat.div_mod_unique hden, Nat.mul_comm den]
      omega
    unfold divideToEven
    rw [hdiv, hmod]
    dsimp only
    split
    · rfl
    · split
      · omega
      · have heven := htie (by omega)
        omega

/-- The last bit that is kept of a quotient with a leading bit above the 52nd. -/
theorem keptBit_eq {num den k : Nat} (hlower : 2 ^ (52 : Nat) * (den * 2 ^ k) ≤ num)
    (hupper : num < 2 ^ (53 : Nat) * (den * 2 ^ k)) : keptBit num den = k := by
  have hden : 0 < den := by
    rcases Nat.eq_zero_or_pos den with rfl | hpos
    · simp at hupper
    · exact hpos
  have hle : 2 ^ (52 + k) ≤ num / den := by
    rw [Nat.le_div_iff_mul_le hden, Nat.pow_add, Nat.mul_assoc, Nat.mul_comm (2 ^ k)]
    exact hlower
  have hlt : num / den < 2 ^ (52 + k + 1) := by
    rw [Nat.div_lt_iff_lt_mul hden, Nat.add_right_comm, Nat.pow_add, Nat.mul_assoc,
      Nat.mul_comm (2 ^ k)]
    exact hupper
  have hne : num / den ≠ 0 := Nat.ne_of_gt (Nat.lt_of_lt_of_le (Nat.two_pow_pos _) hle)
  have hlog : (num / den).log2 = 52 + k := (Nat.log2_eq_iff hne).2 ⟨hle, hlt⟩
  rw [keptBit, hlog]
  omega

/-- Small quotients are rounded to whole units. -/
theorem keptBit_eq_zero {num den : Nat} (hden : 0 < den) (h : num < 2 ^ (53 : Nat) * den) :
    keptBit num den = 0 := by
  have hlt : num / den < 2 ^ (53 : Nat) := by
    rwa [Nat.div_lt_iff_lt_mul hden]
  rcases Nat.eq_zero_or_pos (num / den) with hzero | hpos
  · rw [keptBit, hzero]
    rfl
  · have hlog : (num / den).log2 < 53 := (Nat.log2_lt (Nat.ne_of_gt hpos)).2 hlt
    rw [keptBit]
    omega

/-! ## Around a magnitude -/

namespace Magnitude

variable {m : Magnitude}

/-- The quotient `num / den` of units lies among the numbers that round to the magnitude. -/
def Near (m : Magnitude) (num den : Nat) : Prop :=
  if m.isEven then m.lowerEnd * den ≤ 4 * num ∧ 4 * num ≤ m.upperEnd * den
  else m.lowerEnd * den < 4 * num ∧ 4 * num < m.upperEnd * den

theorem Near.lower_le {num den : Nat} (h : m.Near num den) : m.lowerEnd * den ≤ 4 * num := by
  unfold Near at h
  split at h
  · exact h.1
  · exact Nat.le_of_lt h.1

theorem Near.le_upper {num den : Nat} (h : m.Near num den) : 4 * num ≤ m.upperEnd * den := by
  unfold Near at h
  split at h
  · exact h.2
  · exact Nat.le_of_lt h.2

/-- Only an even magnitude has the half-way points. -/
theorem Near.isEven_of_tie {num den : Nat} (h : m.Near num den)
    (htie : m.lowerEnd * den = 4 * num ∨ 4 * num = m.upperEnd * den) : m.isEven := by
  unfold Near at h
  split at h
  · assumption
  · omega

/-- A decimal is accepted iff it lies among the numbers that round to the magnitude. -/
theorem accepts_iff {d : Decimal} :
    m.accepts d ↔ m.Near (d.digits * d.scaleUp * unitsPerOne) d.scaleDown := by
  have hpoint : d.digits * d.scaleUp * (4 * unitsPerOne)
      = 4 * (d.digits * d.scaleUp * unitsPerOne) := Nat.mul_left_comm ..
  unfold accepts Near
  rw [hpoint]
  dsimp only
  split <;> simp

/-- The significand: the magnitude in steps to the next one. -/
def significand (m : Magnitude) : Nat := m.units / m.spacing

theorem spacing_pos : 0 < m.spacing := Nat.two_pow_pos _

theorem significand_mul_spacing : m.significand * m.spacing = m.units :=
  Nat.div_mul_cancel m.representable.2

theorem isEven_iff : m.isEven ↔ m.significand % 2 = 0 := by
  rw [isEven, significand, beq_iff_eq]

/-- A significand has at most 53 bits. -/
theorem significand_lt : m.significand < 2 ^ (53 : Nat) := by
  rw [significand, Nat.div_lt_iff_lt_mul spacing_pos, spacing, ← Nat.pow_add]
  refine Nat.lt_of_lt_of_le Nat.lt_log2_self ?_
  exact Nat.pow_le_pow_right Nat.two_pos (by omega)

/-- Where the doubles lie more than a unit apart, a significand has 53 bits. -/
theorem le_significand (h : 52 < m.units.log2) : 2 ^ (52 : Nat) ≤ m.significand := by
  have hne : m.units ≠ 0 := by
    intro hzero
    rw [hzero, Nat.log2_zero] at h
    omega
  rw [significand, Nat.le_div_iff_mul_le spacing_pos, spacing, ← Nat.pow_add,
    Nat.add_sub_cancel' (Nat.le_of_lt h)]
  exact Nat.log2_self_le hne

theorem spacing_eq_one (h : m.units.log2 ≤ 52) : m.spacing = 1 := by
  rw [spacing, Nat.sub_eq_zero_of_le h, Nat.pow_zero]

/-- Only above a power of two the half-way point below is closer. -/
theorem isBinadeStart_iff :
    m.isBinadeStart ↔ 52 < m.units.log2 ∧ m.significand = 2 ^ (52 : Nat) := by
  rw [isBinadeStart, Bool.and_eq_true, decide_eq_true_iff, beq_iff_eq]
  refine and_congr_right ?_
  intro hlog
  have hpow : 2 ^ m.units.log2 = 2 ^ (52 : Nat) * m.spacing := by
    rw [spacing, ← Nat.pow_add, Nat.add_sub_cancel' (Nat.le_of_lt hlog)]
  rw [hpow]
  constructor
  · intro hunits
    exact Nat.eq_of_mul_eq_mul_right spacing_pos (significand_mul_spacing.trans hunits)
  · intro hsignificand
    rw [← significand_mul_spacing, hsignificand]

/-- The half-way points in steps to the next magnitude; at the start of a binade the lower one is
closer. -/
theorem lowerEnd_mul_le (den : Nat) :
    4 * (m.significand * (den * m.spacing)) ≤ m.lowerEnd * den + 2 * (den * m.spacing) := by
  have hunits : m.significand * (den * m.spacing) = m.units * den := by
    rw [Nat.mul_left_comm, significand_mul_spacing, Nat.mul_comm]
  have hcomm : den * m.spacing = m.spacing * den := Nat.mul_comm ..
  rw [hunits, hcomm, lowerEnd, Nat.sub_mul, Nat.mul_assoc]
  split
  · omega
  · rw [Nat.mul_assoc]
    omega

theorem upperEnd_mul (den : Nat) :
    m.upperEnd * den = 4 * (m.significand * (den * m.spacing)) + 2 * (den * m.spacing) := by
  rw [upperEnd, Nat.add_mul, Nat.mul_left_comm m.significand, significand_mul_spacing,
    Nat.mul_assoc, Nat.mul_assoc, Nat.mul_comm den, Nat.mul_comm den]

theorem lowerEnd_mul_of_isBinadeStart (h : m.isBinadeStart) (den : Nat) :
    m.lowerEnd * den = 4 * (m.units * den) - m.spacing * den := by
  rw [lowerEnd, if_pos h, Nat.sub_mul, Nat.mul_assoc]

/-- In steps of the magnitude the nearest integer to a quotient near it is its significand. -/
theorem Near.divideToEven_eq {num den : Nat} (h : m.Near num den) (hden : 0 < den) :
    divideToEven num (den * m.spacing) = m.significand := by
  have hlower := Nat.le_trans (lowerEnd_mul_le (m := m) den) (Nat.add_le_add_right h.lower_le _)
  have hupper := h.le_upper
  have hends := lowerEnd_mul_le (m := m) den
  rw [upperEnd_mul] at hupper
  refine TextTemplate.divideToEven_eq (Nat.mul_pos hden spacing_pos) (by omega) (by omega) ?_
  intro htie
  refine isEven_iff.1 (h.isEven_of_tie ?_)
  have hlowerEnd := h.lower_le
  rw [upperEnd_mul]
  omega

/-- Where the doubles are whole units, a quotient near a magnitude rounds to it. -/
theorem roundUnits_of_near_small {num den : Nat} (h : m.Near num den) (hden : 0 < den)
    (hlog : m.units.log2 ≤ 52) : roundUnits num den = m.units := by
  have hspacing := spacing_eq_one hlog
  have hround := h.divideToEven_eq hden
  have hupper := h.le_upper
  have hlast := Nat.mul_le_mul_right den (significand_lt (m := m))
  rw [upperEnd_mul, hspacing, Nat.mul_one] at hupper
  rw [Nat.succ_mul m.significand] at hlast
  rw [hspacing, Nat.mul_one] at hround
  have hkept : keptBit num den = 0 := keptBit_eq_zero hden (by omega)
  rw [roundUnits, hkept, Nat.pow_zero, Nat.mul_one, Nat.mul_one, hround]
  have hunits := significand_mul_spacing (m := m)
  rwa [hspacing, Nat.mul_one] at hunits

/-- Below a power of two the bits that are kept reach one further down, and rounding goes up to the
power of two all the same. -/
theorem roundUnits_of_near_below {num den : Nat} (h : m.Near num den) (hden : 0 < den)
    (hbinade : m.isBinadeStart) (hbelow : num < m.units * den) : roundUnits num den = m.units := by
  obtain ⟨hlog, hsignificand⟩ := isBinadeStart_iff.1 hbinade
  obtain ⟨k, hk⟩ : ∃ k, m.units.log2 - 52 = k + 1 := Nat.exists_eq_succ_of_ne_zero (by omega)
  have hspacing : m.spacing = 2 ^ k * 2 := by rw [spacing, hk, Nat.pow_succ]
  have hunits : m.units = 2 ^ (53 : Nat) * 2 ^ k := by
    rw [← significand_mul_spacing, hsignificand, hspacing]
    omega
  have hnum := h.lower_le
  rw [lowerEnd_mul_of_isBinadeStart hbinade, hspacing, Nat.mul_right_comm,
    Nat.mul_comm (2 ^ k) den] at hnum
  rw [hunits, Nat.mul_assoc, Nat.mul_comm (2 ^ k) den] at hbelow hnum
  have hstep : 0 < den * 2 ^ k := Nat.mul_pos hden (Nat.two_pow_pos k)
  have hkept : keptBit num den = k := keptBit_eq (by omega) hbelow
  have hround : divideToEven num (den * 2 ^ k) = 2 ^ (53 : Nat) :=
    TextTemplate.divideToEven_eq hstep (by omega) (by omega) fun _ => by decide
  rw [roundUnits, hkept, hround, hunits]

/-- A quotient near a magnitude rounds to it. -/
theorem roundUnits_of_near {num den : Nat} (h : m.Near num den) (hden : 0 < den) :
    roundUnits num den = m.units := by
  rcases Nat.lt_or_ge 52 m.units.log2 with hlog | hlog
  · by_cases hbelow : m.isBinadeStart ∧ num < m.units * den
    · exact roundUnits_of_near_below h hden hbelow.1 hbelow.2
    · have hlower := Nat.le_trans (lowerEnd_mul_le den) (Nat.add_le_add_right h.lower_le _)
      have hupper := h.le_upper
      have hstep : 0 < den * m.spacing := Nat.mul_pos hden spacing_pos
      have hlast := Nat.mul_le_mul_right (den * m.spacing) (significand_lt (m := m))
      rw [upperEnd_mul] at hupper
      rw [Nat.succ_mul m.significand] at hlast
      -- the leading bit of the quotient is that of the magnitude
      have hfirst : 2 ^ (52 : Nat) * (den * m.spacing) ≤ num := by
        rcases Nat.lt_or_eq_of_le (le_significand hlog) with hlt | heq
        · have hsecond := Nat.mul_le_mul_right (den * m.spacing) hlt
          rw [Nat.succ_mul (2 ^ (52 : Nat))] at hsecond
          omega
        · have hge : m.units * den ≤ num :=
            Nat.le_of_not_lt fun hlt => hbelow ⟨isBinadeStart_iff.2 ⟨hlog, heq.symm⟩, hlt⟩
          rwa [← significand_mul_spacing, ← heq, Nat.mul_assoc, Nat.mul_comm m.spacing] at hge
      have hkept : keptBit num den = m.units.log2 - 52 := by
        refine keptBit_eq hfirst ?_
        show num < 2 ^ (53 : Nat) * (den * m.spacing)
        omega
      rw [roundUnits, hkept, ← spacing, h.divideToEven_eq hden, significand_mul_spacing]
  · exact roundUnits_of_near_small h hden hlog

/-- It rounds to a finite double with the sign that is asked for. -/
theorem nearest_of_near {num den : Nat} (h : m.Near num den) (hden : 0 < den) (negative : Bool) :
    Binary64.nearest negative num den = .finite negative m := by
  have hround := roundUnits_of_near h hden
  have hlt : roundUnits num den < overflowUnits := hround ▸ m.representable.lt
  rw [Binary64.nearest, dif_pos hlt]
  congr 1
  exact ext hround

end Magnitude
end TextTemplate
