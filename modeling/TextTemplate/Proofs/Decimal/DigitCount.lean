import TextTemplate.Proofs.Decimal.ReadBack
/-!
# How many digits a double needs

A grid of decimals misses a double only if its step is longer than the stretch of numbers that
round to the double, so that the double is at most `2 ^ 53` such steps. On the next finer grid it is
ten times as many, and that is still a number of at most 17 digits.

- `Magnitude.AtMost k e`: a magnitude is at most `k` steps of `10 ^ e`.
- `Magnitude.atMost_of_neighbour?_eq_none`: what a grid misses is at most `2 ^ 53` of its steps.
- `Magnitude.atMost_start`: the search starts at a power of ten above the magnitude.
- `Magnitude.digits_shortest_lt`: the shortest decimal has at most 17 digits.
-/

namespace TextTemplate

attribute [local instance] natPow

namespace Magnitude

variable {m : Magnitude} {k : Nat} {e : Int}

/-- The step of the grid of all multiples of `10 ^ e`, as units over `gridScale`. -/
def gridStep (e : Int) : Nat := unitsPerOne * 10 ^ e.toNat

/-- The denominator of `gridStep`. -/
def gridScale (e : Int) : Nat := 10 ^ (-e).toNat

/-- The magnitude is at most `k` steps of the grid. -/
def AtMost (m : Magnitude) (k : Nat) (e : Int) : Prop :=
  m.units * gridScale e ≤ k * gridStep e

theorem gridStep_pos (e : Int) : 0 < gridStep e :=
  Nat.mul_pos unitsPerOne_pos (Nat.pow_pos (by decide))

theorem gridScale_pos (e : Int) : 0 < gridScale e := Nat.pow_pos (by decide)

/-- The multiples of a grid, in units. -/
theorem numerator_grid (digits : Nat) (e : Int) :
    (⟨digits, e⟩ : Decimal).numerator = digits * gridStep e := by
  rw [Decimal.numerator, Decimal.scaleUp, gridStep, Nat.mul_assoc, Nat.mul_comm unitsPerOne]

/-- The two neighbours of a magnitude on a grid are tried, and nothing else. -/
theorem neighbour?_cases (m : Magnitude) (e : Int) :
    let below := m.units * gridScale e / gridStep e
    (∃ d, m.neighbour? e = some d ∧ (d = ⟨below, e⟩ ∨ d = ⟨below + 1, e⟩)) ∨
      m.neighbour? e = none ∧ ¬ m.Near (below * gridStep e) (gridScale e) ∧
        ¬ m.Near ((below + 1) * gridStep e) (gridScale e) := by
  intro below
  have hmissed : ∀ digits, m.accepts ⟨digits, e⟩ = false →
      ¬ m.Near (digits * gridStep e) (gridScale e) := by
    intro digits hfalse hnear
    rw [← numerator_grid] at hnear
    exact Bool.false_ne_true (hfalse.symm.trans (accepts_iff.2 hnear))
  have hbelow : below = m.units * 10 ^ (-e).toNat / (unitsPerOne * 10 ^ e.toNat) := rfl
  unfold neighbour?
  dsimp only
  rw [← hbelow]
  cases hb : m.accepts ⟨below, e⟩ <;> cases ha : m.accepts ⟨below + 1, e⟩
  · exact .inr ⟨rfl, hmissed _ hb, hmissed _ ha⟩
  · exact .inl ⟨_, rfl, .inr rfl⟩
  · exact .inl ⟨_, rfl, .inl rfl⟩
  · refine .inl ⟨_, rfl, ?_⟩
    split
    · exact .inl rfl
    · exact .inr rfl

/-! ## One grid -/

/-- What does not round to a magnitude and is no larger is below the numbers that do. -/
theorem le_lowerEnd_of_not_near {num den : Nat} (h : ¬ m.Near num den) (hden : 0 < den)
    (hle : num ≤ m.units * den) : 4 * num ≤ m.lowerEnd * den := by
  refine Nat.le_of_not_lt fun hlower => h (near_of_between hlower ?_)
  calc 4 * num ≤ 4 * (m.units * den) := Nat.mul_le_mul_left 4 hle
    _ = 4 * m.units * den := (Nat.mul_assoc ..).symm
    _ < m.upperEnd * den := Nat.mul_lt_mul_of_pos_right lt_upperEnd hden

/-- What does not round to a magnitude and is no smaller is above the numbers that do. -/
theorem upperEnd_le_of_not_near {num den : Nat} (h : ¬ m.Near num den) (hpos : 0 < m.units)
    (hden : 0 < den) (hle : m.units * den ≤ num) : m.upperEnd * den ≤ 4 * num := by
  refine Nat.le_of_not_lt fun hupper => h (near_of_between ?_ hupper)
  calc m.lowerEnd * den < 4 * m.units * den := Nat.mul_lt_mul_of_pos_right (lowerEnd_lt hpos) hden
    _ = 4 * (m.units * den) := Nat.mul_assoc ..
    _ ≤ 4 * num := Nat.mul_le_mul_left 4 hle

/-- All numbers that round to a magnitude lie between two neighbours on a grid that misses it. -/
theorem upperEnd_le_of_neighbour?_eq_none (hpos : 0 < m.units) (h : m.neighbour? e = none) :
    m.upperEnd * gridScale e ≤ m.lowerEnd * gridScale e + 4 * gridStep e := by
  rcases neighbour?_cases m e with ⟨d, hsome, -⟩ | ⟨-, hbelow, habove⟩
  · rw [h] at hsome
    cases hsome
  · have hlower := le_lowerEnd_of_not_near hbelow (gridScale_pos e) (Nat.div_mul_le_self ..)
    have hnext : m.units * gridScale e < (m.units * gridScale e / gridStep e + 1) * gridStep e :=
      (Nat.div_lt_iff_lt_mul (gridStep_pos e)).1 (Nat.lt_succ_self _)
    have hupper := upperEnd_le_of_not_near habove hpos (gridScale_pos e) (Nat.le_of_lt hnext)
    rw [Nat.add_one_mul (m.units * gridScale e / gridStep e)] at hupper
    omega

/-- A magnitude is at most `2 ^ 53` steps of a grid that misses it. -/
theorem atMost_of_neighbour?_eq_none (hpos : 0 < m.units) (h : m.neighbour? e = none) :
    m.AtMost (2 ^ (53 : Nat)) e := by
  have hgap := upperEnd_le_of_neighbour?_eq_none hpos h
  have hunits : m.units * gridScale e = m.significand * (m.spacing * gridScale e) := by
    rw [← Nat.mul_assoc, significand_mul_spacing]
  have hle : m.spacing * gridScale e ≤ m.units * gridScale e :=
    Nat.mul_le_mul_right _ (spacing_le_units hpos)
  rw [upperEnd, Nat.add_mul, Nat.mul_assoc, Nat.mul_assoc] at hgap
  rw [AtMost]
  by_cases hbinade : m.isBinadeStart
  · -- three quarters of the step to the next magnitude are no longer than a step of the grid
    rw [lowerEnd_mul_of_isBinadeStart hbinade] at hgap
    rw [hunits, (isBinadeStart_iff.1 hbinade).2] at hle hgap ⊢
    omega
  · have hspacing : m.spacing * gridScale e ≤ gridStep e := by
      rw [lowerEnd, if_neg hbinade, Nat.sub_mul, Nat.mul_assoc, Nat.mul_assoc] at hgap
      omega
    rw [hunits]
    exact Nat.mul_le_mul (Nat.le_of_lt significand_lt) hspacing

/-- A neighbour on a grid has hardly more digits than there are steps. -/
theorem digits_le_of_neighbour? {d : Decimal} (h : m.neighbour? e = some d) (hk : m.AtMost k e) :
    d.digits ≤ k + 1 := by
  rw [AtMost, Nat.mul_comm k] at hk
  have hbelow : m.units * gridScale e / gridStep e ≤ k := Nat.div_le_of_le_mul hk
  rcases neighbour?_cases m e with ⟨d', hsome, rfl | rfl⟩ | ⟨hnone, -⟩
  · cases h.symm.trans hsome
    exact Nat.le_succ_of_le hbelow
  · cases h.symm.trans hsome
    exact Nat.succ_le_succ hbelow
  · cases h.symm.trans hnone

/-- A step of the next finer grid is a tenth. -/
theorem AtMost.finer (h : m.AtMost k (e + 1)) : m.AtMost (10 * k) e := by
  have hscale : gridScale e * gridStep (e + 1) = 10 * (gridScale (e + 1) * gridStep e) := by
    have hexponents : (-e).toNat + (e + 1).toNat = (-(e + 1)).toNat + e.toNat + 1 := by omega
    have hpower := congrArg (fun n => 10 ^ n) hexponents
    rw [Nat.pow_succ, Nat.pow_add, Nat.pow_add] at hpower
    rw [gridScale, gridScale, gridStep, gridStep, Nat.mul_left_comm, hpower,
      Nat.mul_left_comm (10 ^ (-(e + 1)).toNat), Nat.mul_left_comm 10, Nat.mul_comm 10]
  refine Nat.le_of_mul_le_mul_right ?_ (gridStep_pos (e + 1))
  calc m.units * gridScale e * gridStep (e + 1)
      = 10 * gridStep e * (m.units * gridScale (e + 1)) := by
        rw [Nat.mul_assoc, hscale]
        ac_rfl
    _ ≤ 10 * gridStep e * (k * gridStep (e + 1)) := Nat.mul_le_mul_left _ h
    _ = 10 * k * gridStep e * gridStep (e + 1) := by ac_rfl

/-! ## The search -/

theorem digits_exact_le (h : m.AtMost k (-unitShift)) : m.exact.digits ≤ k := by
  have hscale : gridScale (-unitShift) = 5 ^ unitShift * unitsPerOne := by
    rw [gridScale, Int.neg_neg, Int.toNat_natCast, unitsPerOne, ← Nat.mul_pow]
  have hstep : gridStep (-unitShift) = unitsPerOne := by
    rw [gridStep, Int.toNat_neg_natCast, Nat.pow_zero, Nat.mul_one]
  rw [AtMost, hscale, hstep, ← Nat.mul_assoc] at h
  exact Nat.le_of_mul_le_mul_right h unitsPerOne_pos

/-- The grid before the one that is taken has missed the magnitude. -/
theorem digits_search_le (hpos : 0 < m.units) {steps : Nat}
    (h : m.AtMost (10 * 2 ^ (53 : Nat)) (steps - unitShift)) :
    (m.search steps).digits ≤ 10 * 2 ^ (53 : Nat) + 1 := by
  induction steps with
  | zero =>
    rw [Int.natCast_zero, Int.zero_sub] at h
    exact Nat.le_succ_of_le (digits_exact_le h)
  | succ steps ih =>
    rw [search]
    cases hneighbour : m.neighbour? ((steps : Int) + 1 - unitShift) with
    | none =>
      have hindex : (steps : Int) - unitShift + 1 = steps + 1 - unitShift := by omega
      exact ih (AtMost.finer (hindex ▸ atMost_of_neighbour?_eq_none hpos hneighbour))
    | some d => exact digits_le_of_neighbour? hneighbour h

/-- `0.30103` is near enough to the logarithm of two. -/
theorem two_pow_le_ten_pow {n : Nat} (h : n ≤ 2098) : 2 ^ n ≤ 10 ^ (n * 30103 / 100000 + 2) := by
  have hbase : 2 ^ (93 : Nat) ≤ 10 ^ (28 : Nat) := by decide
  have hexponent : 28 * n ≤ (n * 30103 / 100000 + 2) * 93 := by omega
  refine (Nat.pow_le_pow_iff_left (by decide : (93 : Nat) ≠ 0)).1 ?_
  calc (2 ^ n) ^ (93 : Nat) = (2 ^ (93 : Nat)) ^ n := Nat.pow_right_comm ..
    _ ≤ (10 ^ (28 : Nat)) ^ n := Nat.pow_le_pow_left hbase n
    _ = 10 ^ (28 * n) := (Nat.pow_mul ..).symm
    _ ≤ 10 ^ ((n * 30103 / 100000 + 2) * 93) := Nat.pow_le_pow_right (by decide) hexponent
    _ = (10 ^ (n * 30103 / 100000 + 2)) ^ (93 : Nat) := Nat.pow_mul ..

theorem log2_units_lt : m.units.log2 < 53 + maxShift := by
  rcases Nat.eq_zero_or_pos m.units with hzero | hpos
  · rw [hzero]
    decide
  · have hlt : m.units < 2 ^ (53 + maxShift) := m.representable.lt
    exact (Nat.log2_lt (Nat.ne_of_gt hpos)).2 hlt

/-- The search starts at a power of ten that is not far below the magnitude. -/
theorem atMost_start :
    m.AtMost 10 (((m.units.log2 + 1) * 30103 / 100000 + 752 : Nat) - unitShift) := by
  have hunits : m.units ≤ 10 ^ ((m.units.log2 + 1) * 30103 / 100000 + 2) :=
    Nat.le_trans (Nat.le_of_lt Nat.lt_log2_self) (two_pow_le_ten_pow log2_units_lt)
  obtain ⟨digits, hdigits, hone⟩ : ∃ n, n = 323 ∧ 10 ^ n ≤ unitsPerOne := ⟨_, rfl, by decide +kernel⟩
  generalize (m.units.log2 + 1) * 30103 / 100000 = k at hunits ⊢
  generalize he : ((k + 752 : Nat) - (unitShift : Int)) = e
  have hexponents : (-e).toNat + (k + 2) = digits + (e.toNat + 1) := by
    rw [unitShift] at he
    omega
  have hpower := congrArg (fun n => 10 ^ n) hexponents
  rw [Nat.pow_add, Nat.pow_add _ digits, Nat.pow_succ _ e.toNat] at hpower
  calc m.units * gridScale e ≤ 10 ^ (k + 2) * 10 ^ (-e).toNat := Nat.mul_le_mul_right _ hunits
    _ = 10 ^ digits * (10 ^ e.toNat * 10) := by rw [Nat.mul_comm, hpower]
    _ ≤ unitsPerOne * (10 ^ e.toNat * 10) := Nat.mul_le_mul_right _ hone
    _ = 10 * gridStep e := by rw [gridStep, ← Nat.mul_assoc, Nat.mul_comm 10]

/-- The shortest decimal has at most 17 digits. -/
theorem digits_shortest_lt (hpos : 0 < m.units) : m.shortest.digits < 10 ^ (17 : Nat) := by
  have hstart : m.AtMost (10 * 2 ^ (53 : Nat))
      (((m.units.log2 + 1) * 30103 / 100000 + 752 : Nat) - unitShift) :=
    Nat.le_trans atMost_start (Nat.mul_le_mul_right _ (by decide))
  have hdigits := digits_search_le hpos hstart
  exact Nat.lt_of_le_of_lt hdigits (by decide)

end Magnitude
end TextTemplate
