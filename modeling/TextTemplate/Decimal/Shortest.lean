import TextTemplate.Decimal.Basic
/-!
# Shortest decimals

A double is written with the fewest digits that read back as the same double, and of those with
the digits nearest to it; a tie goes to the larger.

All numbers that lie between the half-way points around a double round to it, the half-way points
themselves when its last significant bit is zero. A coarser power of ten leaves fewer digits, so
the search goes from coarse to fine and takes the first power that has a multiple in between.

* `Magnitude.accepts m d`: the decimal `d` reads back as `m`.
* `Magnitude.neighbour? m e`: a multiple of `10 ^ e` next to `m` that reads back, if there is one.
* `Magnitude.shortest m`: the shortest decimal of `m`.
-/
namespace TextTemplate

attribute [local instance] natPow
namespace Magnitude

/-- The distance, in units, to the next larger magnitude. -/
def spacing (m : Magnitude) : Nat := 2 ^ (m.units.log2 - 52)

/-- Whether the magnitude is a power of two below which the doubles lie closer than above. -/
def isBinadeStart (m : Magnitude) : Bool :=
  decide (52 < m.units.log2) && m.units == 2 ^ m.units.log2

/-- The half-way point to the next smaller magnitude, in quarters of a unit. -/
def lowerEnd (m : Magnitude) : Nat :=
  4 * m.units - (if m.isBinadeStart then m.spacing else 2 * m.spacing)

/-- The half-way point to the next larger magnitude, in quarters of a unit. -/
def upperEnd (m : Magnitude) : Nat := 4 * m.units + 2 * m.spacing

/-- Whether the last significant bit is zero. -/
def isEven (m : Magnitude) : Bool := m.units / m.spacing % 2 == 0

/-- Whether the decimal lies among the numbers that round to the magnitude. -/
def accepts (m : Magnitude) (d : Decimal) : Bool :=
  let point := d.digits * d.scaleUp * (4 * unitsPerOne)
  let lower := m.lowerEnd * d.scaleDown
  let upper := m.upperEnd * d.scaleDown
  if m.isEven then decide (lower ≤ point) && decide (point ≤ upper)
  else decide (lower < point) && decide (point < upper)

/-- The exact decimal of a magnitude: a unit is `5 ^ 1074 * 10 ^ -1074`. -/
def exact (m : Magnitude) : Decimal := ⟨m.units * 5 ^ unitShift, -unitShift⟩

/-- The multiple of `10 ^ e` nearest to the magnitude, of the two that enclose it and read back. -/
def neighbour? (m : Magnitude) (e : Int) : Option Decimal :=
  let num := m.units * 10 ^ (-e).toNat
  let den := unitsPerOne * 10 ^ e.toNat
  let below : Decimal := ⟨num / den, e⟩
  let above : Decimal := ⟨num / den + 1, e⟩
  match m.accepts below, m.accepts above with
  | true, true => some (if 2 * (num % den) < den then below else above)
  | true, false => some below
  | false, true => some above
  | false, false => none

/-- Tries the powers of ten from `10 ^ (steps - 1074)` down to `10 ^ -1074`. -/
def search (m : Magnitude) : (steps : Nat) → Decimal
  | 0 => m.exact
  | steps + 1 => (m.neighbour? ((steps : Int) + 1 - unitShift)).getD (m.search steps)

/-- The shortest decimal that reads back as the magnitude. The search starts at a power of ten
that is above the magnitude: `0.30103` is a little more than the logarithm of two. -/
def shortest (m : Magnitude) : Decimal :=
  m.search ((m.units.log2 + 1) * 30103 / 100000 + 752)

end Magnitude
end TextTemplate
