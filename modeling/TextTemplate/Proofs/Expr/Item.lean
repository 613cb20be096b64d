import TextTemplate.Proofs.Binary64.Exact
import TextTemplate.Proofs.Expr.Eval
/-!
# Items of arrays

A position is a double, and so is the length that it is compared with. A length that is no double is
rounded, down or up, but rounding never passes over a double: a position that is below the rounded
length is below the length itself.

- `Binary64.InBounds`: the comparison of a position with a length.
- `lt_zero_iff`, `ofNat_le_of_le`, `ofNat_le_iff`: its two parts for a whole number.
- `InBounds.lt_length`, `inBounds_iff`: what it means, for any length and for those up to `2 ^ 53`.
- `item_exact`: the item or error for every position.
-/

namespace TextTemplate

attribute [local instance] natPow

namespace Binary64

/-- A position that is not negative and below a length, which is rounded to a double first. -/
def InBounds (n : Binary64) (length : Nat) : Prop :=
  n.lt .zero = false ∧ (ofNat length).le n = false

variable {n : Binary64} {k : Int} {length : Nat}

theorem order_of_value? (h : n.value? = some (k : ℚ)) : n.order = some (k * unitsPerOne) :=
  order_of_units? (value?_eq_intCast_iff.1 h)

theorem toNat_of_value? (h : n.value? = some (k : ℚ)) (hk : 0 ≤ k) : (n.toNat : Int) = k := by
  obtain ⟨s, m, rfl, hunits⟩ := exists_of_units? (value?_eq_intCast_iff.1 h)
  have hpos := unitsPerOne_cast_pos
  have hnonneg : 0 ≤ k * unitsPerOne := Int.mul_nonneg hk (Int.le_of_lt hpos)
  cases s with
  | false =>
    have hunits' : (m.units : Int) = k * unitsPerOne := hunits
    rw [toNat, Int.natCast_ediv, hunits', Int.mul_ediv_cancel k (Int.ne_of_gt hpos)]
  | true =>
    -- a whole number with a sign that is not negative is zero
    rw [signed, if_pos rfl] at hunits
    have hzero : k * unitsPerOne = 0 := by omega
    exact ((Int.mul_eq_zero.1 hzero).resolve_right (Int.ne_of_gt hpos)).symm

theorem lt_zero_iff (h : n.value? = some (k : ℚ)) : n.lt .zero = true ↔ k < 0 := by
  rw [zero, lt_eq_decide (order_of_value? h) (order_finite_false .zero), decide_eq_true_iff]
  show k * unitsPerOne < 0 ↔ k < 0
  refine ⟨fun hlt => Int.not_le.1 fun hle => ?_, fun hlt => ?_⟩
  · exact Int.not_le.2 hlt (Int.mul_nonneg hle (Int.le_of_lt unitsPerOne_cast_pos))
  · exact Int.mul_neg_of_neg_of_pos hlt unitsPerOne_cast_pos

/-- A length that is not above a whole double stays so when it is rounded. -/
theorem ofNat_le_of_le (h : n.value? = some (k : ℚ)) (hle : (length : Int) ≤ k) :
    (ofNat length).le n = true := by
  have horder := order_of_value? h
  obtain ⟨s, m, rfl, hunits⟩ := exists_of_units? (value?_eq_intCast_iff.1 h)
  have hbelow : (length * unitsPerOne : Int) ≤ k * unitsPerOne :=
    Int.mul_le_mul_of_nonneg_right hle (Int.le_of_lt unitsPerOne_cast_pos)
  have hmagnitude : length * unitsPerOne ≤ m.units := by
    rw [← natAbs_signed s m.units, hunits]
    omega
  have hround : roundUnits (length * unitsPerOne) 1 ≤ m.units :=
    roundUnits_le Nat.one_pos m.isCoarse (by rwa [Nat.mul_one])
  have hvalue : (m.units : Int) = k * unitsPerOne := by
    rw [← natAbs_signed s m.units, hunits]
    omega
  obtain ⟨m', hunits', heq⟩ | ⟨hlarge, -⟩ := nearest_cases false (length * unitsPerOne) 1
  · rw [ofNat, heq, le_eq_decide (order_finite_false m') horder, decide_eq_true_iff, ← hvalue,
      hunits', Int.ofNat_le]
    exact hround
  · exact absurd (Nat.le_trans hlarge hround) (Nat.not_le.2 m.representable.lt)

/-- Lengths up to `2 ^ 53` are compared as they are. -/
theorem ofNat_le_iff (h : n.value? = some (k : ℚ)) (hlength : length ≤ 2 ^ (53 : Nat)) :
    (ofNat length).le n = true ↔ (length : Int) ≤ k := by
  refine ⟨fun hle => ?_, ofNat_le_of_le h⟩
  rw [le_eq_decide (order_ofNat hlength) (order_of_value? h), decide_eq_true_iff,
    Int.natCast_mul] at hle
  exact Int.le_of_mul_le_mul_right hle unitsPerOne_cast_pos

theorem InBounds.nonneg (h : n.value? = some (k : ℚ)) (hbounds : n.InBounds length) : 0 ≤ k := by
  refine Int.not_lt.1 fun hlt => ?_
  exact Bool.false_ne_true (hbounds.1.symm.trans ((lt_zero_iff h).2 hlt))

/-- A position in bounds is below the length, also where the length is rounded up. -/
theorem InBounds.lt_length (h : n.value? = some (k : ℚ)) (hbounds : n.InBounds length) :
    k < length := by
  refine Int.not_le.1 fun hle => ?_
  exact Bool.false_ne_true (hbounds.2.symm.trans (ofNat_le_of_le h hle))

theorem inBounds_iff (h : n.value? = some (k : ℚ)) (hlength : length ≤ 2 ^ (53 : Nat)) :
    n.InBounds length ↔ 0 ≤ k ∧ k < length := by
  refine ⟨fun hbounds => ⟨hbounds.nonneg h, hbounds.lt_length h⟩, fun ⟨hnonneg, hlt⟩ => ?_⟩
  rw [InBounds, Bool.eq_false_iff, Bool.eq_false_iff, ne_eq, ne_eq, lt_zero_iff h,
    ofNat_le_iff h hlength]
  omega

end Binary64

namespace Value

variable {items : List Value} {n : Binary64} {k : Int}

/-- In bounds there is an item at the position, and it is the result. -/
theorem item_of_inBounds (h : n.value? = some (k : ℚ)) (hbounds : n.InBounds items.length) :
    k = n.toNat ∧ ∃ hlt : n.toNat < items.length,
      (array items).item (.number n) = .ok items[n.toNat] := by
  have hnat := Binary64.toNat_of_value? h (hbounds.nonneg h)
  have hlength := hbounds.lt_length h
  have hlt : n.toNat < items.length := by omega
  refine ⟨hnat.symm, hlt, ?_⟩
  rw [item_array, number?]
  dsimp only
  rw [if_pos (Binary64.isInteger_iff.2 ⟨k, h⟩), hbounds.1, hbounds.2, List.getElem?_eq_getElem hlt]
  rfl

theorem item_of_not_inBounds (h : n.value? = some (k : ℚ)) (hbounds : ¬ n.InBounds items.length) :
    (array items).item (.number n) = .error (.indexOutOfBounds n items.length) := by
  rw [item_array, number?]
  dsimp only
  rw [if_pos (Binary64.isInteger_iff.2 ⟨k, h⟩), if_pos]
  rw [Binary64.InBounds, ← Bool.or_eq_false_iff, Bool.not_eq_false] at hbounds
  exact hbounds

theorem item_of_not_whole {position : Value}
    (h : ∀ n, position = .number n → ∀ k : Int, n.value? ≠ some (k : ℚ)) :
    (array items).item position = .error (.invalidIndex position.summary) := by
  rw [item_array]
  cases position with
  | number n =>
    have hfraction : n.isInteger ≠ true := fun hwhole =>
      (Binary64.isInteger_iff.1 hwhole).elim (h n rfl)
    rw [number?]
    exact if_neg hfraction
  | null | boolean | string | array | object => rfl

end Value

/-- The item of an array at a position. For a whole number it is the one at that place, if there is
one and the length is at most `2 ^ 53`; the other whole numbers are out of bounds, and all other
positions are no positions. For lengths beyond, a whole number that passes the comparison with the
rounded length is the place of an item all the same. Other values than arrays have no items. -/
theorem item_exact (items : List Value) (position : Value) :
    (∀ n (k : Int), position = .number n → n.value? = some (k : ℚ) →
      (items.length ≤ 2 ^ 53 →
        (∀ (i : Nat) w, k = i → items[i]? = some w → (Value.array items).item position = .ok w) ∧
        (k < 0 ∨ items.length ≤ k →
          (Value.array items).item position = .error (.indexOutOfBounds n items.length))) ∧
      (n.InBounds items.length → k = n.toNat ∧ ∃ h : n.toNat < items.length,
        (Value.array items).item position = .ok items[n.toNat]) ∧
      (¬ n.InBounds items.length →
        (Value.array items).item position = .error (.indexOutOfBounds n items.length))) ∧
    ((∀ n, position = .number n → ∀ k : Int, n.value? ≠ some (k : ℚ)) →
      (Value.array items).item position = .error (.invalidIndex position.summary)) ∧
    ∀ v : Value, v.kind ≠ .array → v.item position = .error (.notIndexable v.kind) := by
  refine ⟨?_, Value.item_of_not_whole, fun v hv => Value.item_eq_error hv position⟩
  rintro n k rfl h
  refine ⟨fun hlength => ⟨?_, ?_⟩, Value.item_of_inBounds h, Value.item_of_not_inBounds h⟩
  · rintro i w rfl hitem
    obtain ⟨hi, hw⟩ := List.getElem?_eq_some_iff.1 hitem
    have hbounds := (Binary64.inBounds_iff h hlength).2 ⟨Int.natCast_nonneg i, by omega⟩
    obtain ⟨hnat, hlt, hresult⟩ := Value.item_of_inBounds h hbounds
    obtain rfl : i = n.toNat := by omega
    rw [hresult, hw]
  · intro hout
    refine Value.item_of_not_inBounds h fun hbounds => ?_
    have hin := (Binary64.inBounds_iff h hlength).1 hbounds
    omega

/-- A length that is rounded up, by one, and its last position. -/
theorem item_exact_rounded_length :
    let items := List.replicate (2 ^ 53 + 3) Value.null
    let n := Binary64.ofNat (2 ^ 53 + 2)
    n.value? = some ((2 ^ 53 + 2 : Int) : ℚ) ∧ n.InBounds items.length ∧
      Binary64.ofNat (2 ^ 53 + 3) = Binary64.ofNat (2 ^ 53 + 4) ∧
      (Value.array items).item (.number n) = .ok .null := by
  intro items n
  have hvalue : n.value? = some ((2 ^ 53 + 2 : Int) : ℚ) := by
    rw [Binary64.value?_eq_intCast_iff]
    decide +kernel
  have hbounds : n.InBounds items.length := by
    rw [List.length_replicate, Binary64.InBounds]
    decide +kernel
  obtain ⟨-, hlt, hitem⟩ := ((item_exact items (.number n)).1 n _ rfl hvalue).2.1 hbounds
  refine ⟨hvalue, hbounds, by decide +kernel, ?_⟩
  rw [hitem, List.getElem_replicate]

end TextTemplate
