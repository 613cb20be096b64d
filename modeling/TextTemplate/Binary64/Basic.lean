/-!
# Double-precision numbers

Every number of the expression language is an IEEE 754 double. A finite double is a sign and a
magnitude, and a magnitude is counted in *units* of `2 ^ -1074`, the smallest positive double, so
it is a natural number and all arithmetic on it is exact until it is rounded once.

* `Representable n`: a double has the magnitude of `n` units.
* `Magnitude`: a representable number of units.
* `Binary64`: not-a-number, the infinities and the finite doubles, two zeros among them.
* `Binary64.equals`, `Binary64.lt`, `Binary64.le`: the comparisons of IEEE 754, read off the
  integer `Binary64.order`. They are false as soon as one side is not a number.
-/
namespace TextTemplate

/-- Powers of natural numbers are those of the core library, also where there are other ones. -/
@[reducible] def natPow : Pow Nat Nat := instPowNat

attribute [local instance] natPow

/-- The unit is one, halved this many times. -/
def unitShift : Nat := 1074

/-- The number of units in one. -/
def unitsPerOne : Nat := 2 ^ unitShift

/-- How far the 53 significant bits of a double can be shifted up. -/
def maxShift : Nat := 2045

/-- The number of units in `2 ^ 1024`, the first power of two that is too large for a double. -/
def overflowUnits : Nat := 2 ^ (53 + maxShift)

/-- A magnitude of `n` units is a double when it stays below the overflow limit and has at most 53
significant bits: all bits below the leading 53 are zero. -/
def Representable (n : Nat) : Prop :=
  n < overflowUnits ∧ 2 ^ (n.log2 - 52) ∣ n

instance (n : Nat) : Decidable (Representable n) :=
  inferInstanceAs (Decidable (_ ∧ _))

theorem Representable.lt {n : Nat} (h : Representable n) : n < overflowUnits := h.1

theorem overflowUnits_pos : 0 < overflowUnits := Nat.two_pow_pos _

/-- Shifting a number of fewer than 54 bits by at most `maxShift` places does not overflow. -/
theorem mul_two_pow_lt_overflowUnits {m k : Nat} (hm : m < 2 ^ (53 : Nat)) (hk : k ≤ maxShift) :
    m * 2 ^ k < overflowUnits := by
  rw [overflowUnits, Nat.pow_add]
  exact Nat.mul_lt_mul_of_lt_of_le hm (Nat.pow_le_pow_right Nat.two_pos hk) (Nat.two_pow_pos _)

theorem unitsPerOne_pos : 0 < unitsPerOne := Nat.two_pow_pos _

theorem representable_zero : Representable 0 :=
  ⟨overflowUnits_pos, Nat.dvd_zero _⟩

/-- A number of at most 53 bits, shifted left, is representable if it does not overflow. -/
theorem representable_mul_two_pow {m k : Nat} (hm : m ≤ 2 ^ (53 : Nat))
    (hlt : m * 2 ^ k < overflowUnits) : Representable (m * 2 ^ k) := by
  refine ⟨hlt, ?_⟩
  rcases Nat.eq_zero_or_pos m with rfl | hpos
  · simp
  have hne : m * 2 ^ k ≠ 0 := Nat.mul_ne_zero (by omega) (Nat.pos_iff_ne_zero.1 (Nat.two_pow_pos k))
  rcases Nat.lt_or_eq_of_le hm with hm | rfl
  · have hlog : (m * 2 ^ k).log2 < 53 + k := by
      rw [Nat.log2_lt hne, Nat.pow_add]
      exact Nat.mul_lt_mul_of_pos_right hm (Nat.two_pow_pos k)
    exact Nat.dvd_mul_left_of_dvd (Nat.pow_dvd_pow 2 (by omega)) m
  · rw [← Nat.pow_add, Nat.log2_two_pow]
    exact Nat.pow_dvd_pow 2 (by omega)

/-- The magnitude of a finite double. -/
structure Magnitude where
  /-- How many times the smallest positive double it is. -/
  units : Nat
  representable : Representable units
deriving DecidableEq

namespace Magnitude

theorem ext {a b : Magnitude} (h : a.units = b.units) : a = b := by
  cases a; cases b; cases h; rfl

/-- The magnitude of both zeros. -/
def zero : Magnitude := ⟨0, representable_zero⟩

/-- A magnitude of one or more with no fraction, or zero. -/
def isInteger (m : Magnitude) : Bool := m.units % unitsPerOne == 0

end Magnitude

/-- A double. All payloads of not-a-number count as one value. -/
inductive Binary64 where
  | nan
  | infinite (negative : Bool)
  | finite (negative : Bool) (magnitude : Magnitude)
deriving DecidableEq

/-- The integer with sign `negative` and absolute value `n`. -/
def signed (negative : Bool) (n : Nat) : Int := if negative then -(n : Int) else n

theorem natAbs_signed (s : Bool) (n : Nat) : (signed s n).natAbs = n := by
  cases s
  · exact Int.natAbs_natCast n
  · exact (Int.natAbs_neg n).trans (Int.natAbs_natCast n)

theorem signed_natAbs (i : Int) : signed (decide (i < 0)) i.natAbs = i := by
  rw [signed]
  simp only [decide_eq_true_eq]
  split <;> omega

theorem signed_not (s : Bool) (n : Nat) : signed (!s) n = -signed s n := by
  cases s
  · rfl
  · exact (Int.neg_neg (n : Int)).symm

theorem signed_mul (s : Bool) (n k : Nat) : signed s (n * k) = signed s n * k := by
  cases s
  · exact Int.natCast_mul n k
  · rw [signed, if_pos rfl, signed, if_pos rfl, Int.natCast_mul, Int.neg_mul]

namespace Binary64

/-- Positive zero. -/
def zero : Binary64 := .finite false .zero

/-- Tells not-a-number from the rest. -/
def isNan : Binary64 → Bool
  | .nan => true
  | _ => false

/-- Tells the finite doubles from the rest. -/
def isFinite : Binary64 → Bool
  | .finite .. => true
  | _ => false

/-- A finite double without a fraction. -/
def isInteger : Binary64 → Bool
  | .finite _ m => m.isInteger
  | _ => false

/-- The same number with the other sign. -/
def neg : Binary64 → Binary64
  | .nan => .nan
  | .infinite s => .infinite (!s)
  | .finite s m => .finite (!s) m

/-- The same number without its sign. -/
def abs : Binary64 → Binary64
  | .nan => .nan
  | .infinite _ => .infinite false
  | .finite _ m => .finite false m

/-! ## Order -/

/-- Where a double stands on the number line, in units; an infinity stands at the overflow limit,
beyond every finite double, and not-a-number stands nowhere. -/
def order : Binary64 → Option Int
  | .nan => none
  | .infinite s => some (signed s overflowUnits)
  | .finite s m => some (signed s m.units)

/-- Compares two doubles by their places on the number line; false when one has none. -/
def compareWith (test : Int → Int → Bool) (x y : Binary64) : Bool :=
  match x.order, y.order with
  | some a, some b => test a b
  | _, _ => false

/-- Equality of numbers: the two zeros are equal, and not-a-number differs from itself. -/
def equals (x y : Binary64) : Bool := compareWith (fun a b => decide (a = b)) x y

/-- Strictly smaller. -/
def lt (x y : Binary64) : Bool := compareWith (fun a b => decide (a < b)) x y

/-- Smaller or equal. -/
def le (x y : Binary64) : Bool := compareWith (fun a b => decide (a ≤ b)) x y

end Binary64
end TextTemplate
