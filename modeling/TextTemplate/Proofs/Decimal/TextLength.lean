import TextTemplate.Binary64.Text
import TextTemplate.Proofs.Binary64.WholeNumber
import TextTemplate.Proofs.Decimal.DigitCount
/-!
# How long the text of a number is

A number has at most 17 digits. What the text has beside them is bounded by the thresholds: between
these there are few zeros, and beyond them an exponent of at most three digits.

- `Decimal.length_positional`, `Decimal.length_scientific_le`: the lengths of the two layouts.
- `Magnitude.length_positional_le`, `Magnitude.length_scientific_le`: the same for a shortest decimal.
- `Binary64.length_textChars_le`: the text of a number has at most 27 characters.
-/

namespace TextTemplate

attribute [local instance] natPow

namespace Decimal

/-- How many digits there are. -/
def digitCount (d : Decimal) : Nat := (Nat.toDigits 10 d.digits).length

theorem digitCount_le {d : Decimal} {k : Nat} (hk : 0 < k) (h : d.digits < 10 ^ k) :
    d.digitCount ≤ k :=
  (Nat.length_toDigits_le_iff (by decide) hk).2 h

theorem pow_digitCount_le {d : Decimal} (h : d.digits ≠ 0) : 10 ^ (d.digitCount - 1) ≤ d.digits := by
  rcases Nat.eq_zero_or_pos (d.digitCount - 1) with hone | hmore
  · rw [hone, Nat.pow_zero]
    exact Nat.pos_of_ne_zero h
  · refine Nat.le_of_not_lt fun hlt => ?_
    have hcount := digitCount_le hmore hlt
    omega

theorem length_positional (d : Decimal) :
    d.positional.length =
      if 0 ≤ d.exponent then d.digitCount + d.exponent.toNat
      else if (-d.exponent).toNat < d.digitCount then d.digitCount + 1
      else (-d.exponent).toNat + 2 := by
  unfold positional digitCount
  dsimp only
  split
  · rw [List.length_append, List.length_replicate]
  · split
    · rw [List.length_append, List.length_cons, List.length_take, List.length_drop]
      omega
    · rw [List.length_append, List.length_cons, List.length_cons, List.length_replicate]
      omega

theorem length_scientific_le (d : Decimal) {k : Nat} (hk : 0 < k)
    (h : d.leadingExponent.natAbs < 10 ^ k) : d.scientific.length ≤ d.digitCount + k + 3 := by
  have hexponent : (exponentText d.leadingExponent).length ≤ k + 2 := by
    have hdigits := (Nat.length_toDigits_le_iff (by decide) hk).2 h
    rw [exponentText, List.length_cons, List.length_cons]
    omega
  unfold scientific digitCount
  dsimp only
  rw [List.length_append]
  split
  · next hcons =>
    rw [hcons, List.length_cons, List.length_cons, List.length_cons, List.length_cons,
      List.length_cons]
    omega
  · omega

end Decimal

namespace Magnitude

variable {m : Magnitude} {num den : Nat}

/-- What rounds to a magnitude is at least half of it. -/
theorem Near.le_two_mul (hpos : 0 < m.units) (h : m.Near num den) : m.units * den ≤ 2 * num := by
  have hends : 2 * m.units ≤ m.lowerEnd := by
    have hspacing := spacing_le_units hpos
    rw [lowerEnd]
    split <;> omega
  have hlower := Nat.le_trans (Nat.mul_le_mul_right den hends) h.lower_le
  rw [Nat.mul_assoc] at hlower
  omega

/-- What rounds to a magnitude is at most one and a half of it. -/
theorem Near.two_mul_le (hpos : 0 < m.units) (h : m.Near num den) :
    2 * num ≤ 3 * (m.units * den) := by
  have hupper := Nat.le_trans h.le_upper (Nat.mul_le_mul_right den (upperEnd_le hpos))
  rw [Nat.mul_assoc] at hupper
  omega

/-- The digits of a shortest decimal with a fraction, and its places. -/
theorem places_le (hpos : 0 < m.units) (hexponent : m.shortest.exponent ≤ 0) :
    m.units * 10 ^ (-m.shortest.exponent).toNat ≤ 2 * 10 ^ (17 : Nat) * unitsPerOne := by
  have hnear := (near_shortest hpos).le_two_mul hpos
  have hup : m.shortest.scaleUp = 1 := by
    rw [Decimal.scaleUp, Int.toNat_of_nonpos hexponent, Nat.pow_zero]
  rw [Decimal.numerator, hup, Nat.mul_one, ← Nat.mul_assoc] at hnear
  refine Nat.le_trans hnear (Nat.mul_le_mul_right _ ?_)
  have hdigits := digits_shortest_lt hpos
  omega

theorem digitCount_shortest_le (hpos : 0 < m.units) : m.shortest.digitCount ≤ 17 :=
  Decimal.digitCount_le (by decide) (digits_shortest_lt hpos)

/-- Below `10 ^ 21` there are at most 22 digits before the point. -/
theorem digitCount_add_exponent_le (hpos : 0 < m.units)
    (hunits : m.units < 10 ^ (21 : Nat) * unitsPerOne) (hexponent : 0 ≤ m.shortest.exponent) :
    m.shortest.digitCount + m.shortest.exponent.toNat ≤ 22 := by
  have hnear := (near_shortest hpos).two_mul_le hpos
  have hdown : m.shortest.scaleDown = 1 := by
    rw [Decimal.scaleDown, Int.toNat_of_nonpos (by omega), Nat.pow_zero]
  rw [Decimal.numerator, hdown, Nat.mul_one] at hnear
  have hvalue : m.shortest.digits * m.shortest.scaleUp < 10 ^ (22 : Nat) := by
    refine Nat.lt_of_mul_lt_mul_right (a := unitsPerOne) ?_
    omega
  have hdigits := Decimal.pow_digitCount_le (digits_shortest_ne_zero hpos)
  have hpow : 10 ^ (m.shortest.digitCount - 1 + m.shortest.exponent.toNat) < 10 ^ (22 : Nat) := by
    rw [Nat.pow_add]
    exact Nat.lt_of_le_of_lt (Nat.mul_le_mul_right _ hdigits) hvalue
  have hlt := (Nat.pow_lt_pow_iff_right (by decide)).1 hpow
  omega

/-- From `10 ^ -7` on there are at most 24 digits behind the point. -/
theorem places_lt (hpos : 0 < m.units) (hunits : unitsPerOne ≤ 10 ^ (7 : Nat) * m.units)
    (hexponent : m.shortest.exponent ≤ 0) : (-m.shortest.exponent).toNat < 25 := by
  have hplaces := places_le hpos hexponent
  have hpow : 10 ^ (-m.shortest.exponent).toNat < 10 ^ (25 : Nat) := by
    refine Nat.lt_of_mul_lt_mul_left (a := unitsPerOne) ?_
    calc unitsPerOne * 10 ^ (-m.shortest.exponent).toNat
        ≤ 10 ^ (7 : Nat) * m.units * 10 ^ (-m.shortest.exponent).toNat :=
          Nat.mul_le_mul_right _ hunits
      _ = 10 ^ (7 : Nat) * (m.units * 10 ^ (-m.shortest.exponent).toNat) := Nat.mul_assoc ..
      _ ≤ 10 ^ (7 : Nat) * (2 * 10 ^ (17 : Nat) * unitsPerOne) := Nat.mul_le_mul_left _ hplaces
      _ < unitsPerOne * 10 ^ (25 : Nat) := by
        have hone := unitsPerOne_pos
        omega
  exact (Nat.pow_lt_pow_iff_right (by decide)).1 hpow

theorem length_positional_le (hpos : 0 < m.units)
    (hupper : m.units < 10 ^ (21 : Nat) * unitsPerOne)
    (hlower : unitsPerOne ≤ 10 ^ (7 : Nat) * m.units) : m.shortest.positional.length ≤ 26 := by
  have hcount := digitCount_shortest_le hpos
  rw [Decimal.length_positional]
  split
  · next hexponent =>
    have hwhole := digitCount_add_exponent_le hpos hupper hexponent
    omega
  · next hexponent =>
    have hplaces := places_lt hpos hlower (by omega)
    split <;> omega

/-- Even the smallest magnitude has less than 350 places. -/
theorem leadingExponent_natAbs_lt (hpos : 0 < m.units) :
    m.shortest.leadingExponent.natAbs < 10 ^ (3 : Nat) := by
  have hcount := digitCount_shortest_le hpos
  have hupper := Decimal.exponent_lt_of_near hpos (near_shortest hpos)
  obtain ⟨limit, hlimit, hone⟩ : ∃ n, n = 342 ∧ 2 * 10 ^ (17 : Nat) * unitsPerOne < 10 ^ n :=
    ⟨_, rfl, by decide +kernel⟩
  have hlower : m.shortest.exponent ≤ 0 → (-m.shortest.exponent).toNat < limit := by
    intro hexponent
    have hplaces := places_le hpos hexponent
    refine (Nat.pow_lt_pow_iff_right (by decide : 1 < 10)).1 (Nat.lt_of_le_of_lt ?_ hone)
    exact Nat.le_trans (Nat.le_mul_of_pos_left _ hpos) hplaces
  have hleading : m.shortest.leadingExponent
      = m.shortest.exponent + ((m.shortest.digitCount - 1 : Nat) : Int) := rfl
  rw [hleading]
  omega

theorem length_scientific_le (hpos : 0 < m.units) : m.shortest.scientific.length ≤ 23 := by
  have hcount := digitCount_shortest_le hpos
  have hlength := m.shortest.length_scientific_le (by decide) (leadingExponent_natAbs_lt hpos)
  omega

end Magnitude

namespace Binary64

/-- The thresholds, in units. -/
theorem units_of_isPositional {s : Bool} {m : Magnitude} (h : isPositional (.finite s m) = true) :
    unitsPerOne ≤ 10 ^ (7 : Nat) * m.units ∧ m.units < 10 ^ (21 : Nat) * unitsPerOne := by
  have hfrom : exponentFrom.order = some ((10 ^ (21 : Nat) * unitsPerOne : Nat) : Int) := by
    decide +kernel
  obtain ⟨lower, hbelow, hlower⟩ : ∃ n : Nat, exponentBelow.order = some (n : Int) ∧
      unitsPerOne ≤ 10 ^ (7 : Nat) * n :=
    ⟨roundUnits unitsPerOne (10 ^ (6 : Nat)), by decide +kernel, by decide +kernel⟩
  have horder := order_finite_false m
  rw [isPositional, abs, lt_eq_decide horder hfrom, le_eq_decide hbelow horder, Bool.and_eq_true,
    decide_eq_true_iff, decide_eq_true_iff, Int.ofNat_le, Int.ofNat_lt] at h
  exact ⟨Nat.le_trans hlower (Nat.mul_le_mul_left _ h.1), h.2⟩

theorem length_withSign_le (s : Bool) (cs : List Char) : (withSign s cs).length ≤ cs.length + 1 := by
  cases s
  · exact Nat.le_succ _
  · exact Nat.le_refl _

/-- The text of a number has at most 27 characters. -/
theorem length_textChars_le (n : Binary64) : n.textChars.length ≤ 27 := by
  cases n with
  | nan => decide
  | infinite s => cases s <;> decide
  | finite s m =>
    rw [textChars]
    split
    · decide
    · next hunits =>
      have hpos := Nat.pos_of_ne_zero hunits
      split
      · next hpositional =>
        obtain ⟨hlower, hupper⟩ := units_of_isPositional hpositional
        have hlength := Magnitude.length_positional_le hpos hupper hlower
        exact Nat.le_trans (length_withSign_le ..) (Nat.succ_le_succ hlength)
      · have hlength := Magnitude.length_scientific_le hpos
        exact Nat.le_trans (length_withSign_le ..) (by omega)

end Binary64
end TextTemplate
