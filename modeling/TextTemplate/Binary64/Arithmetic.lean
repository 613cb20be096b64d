import TextTemplate.Binary64.Rounding
/-!
# Arithmetic on doubles

Each operation computes the exact result in units and rounds it once, as IEEE 754 asks. Division
by zero, an infinity less itself and the like give infinities and not-a-number, never an error.

* `add`, `sub`, `mul`, `div`: the four operations.
* `rem`: the exact remainder of a division whose quotient is cut toward zero; it has the sign of
  the dividend.
* `floor`, `ceil`, `roundHalfUp`, `toNat`: rounding to whole numbers.
* `minimum`, `maximum`: the extreme of a list, not-a-number if one member is.
-/
namespace TextTemplate
namespace Binary64

/-- A natural number, rounded to a double. -/
def ofNat (n : Nat) : Binary64 := nearest false (n * unitsPerOne) 1

/-- The double one. -/
def one : Binary64 := ofNat 1

/-- The double one half. -/
def half : Binary64 := nearest false unitsPerOne 2

/-- The double with a given signed number of units; `negativeZero` says which zero stands for
none. -/
def ofUnits (negativeZero : Bool) (units : Int) : Binary64 :=
  if units = 0 then .finite negativeZero .zero else nearest (decide (units < 0)) units.natAbs 1

/-- The sum. Two negative zeros make a negative zero; every other exact zero is positive. -/
def add : Binary64 → Binary64 → Binary64
  | .nan, _ => .nan
  | _, .nan => .nan
  | .infinite s, .infinite t => if s = t then .infinite s else .nan
  | .infinite s, .finite .. => .infinite s
  | .finite .., .infinite t => .infinite t
  | .finite s a, .finite t b => ofUnits (s && t) (signed s a.units + signed t b.units)

/-- The difference. -/
def sub (x y : Binary64) : Binary64 := x.add y.neg

/-- The product; the sign is negative when exactly one factor is, also for a zero. -/
def mul : Binary64 → Binary64 → Binary64
  | .nan, _ => .nan
  | _, .nan => .nan
  | .infinite s, .infinite t => .infinite (s ^^ t)
  | .infinite s, .finite t b => if b.units = 0 then .nan else .infinite (s ^^ t)
  | .finite s a, .infinite t => if a.units = 0 then .nan else .infinite (s ^^ t)
  | .finite s a, .finite t b => nearest (s ^^ t) (a.units * b.units) unitsPerOne

/-- The quotient. A number other than zero divided by zero is infinite. -/
def div : Binary64 → Binary64 → Binary64
  | .nan, _ => .nan
  | _, .nan => .nan
  | .infinite _, .infinite _ => .nan
  | .infinite s, .finite t _ => .infinite (s ^^ t)
  | .finite s _, .infinite t => .finite (s ^^ t) .zero
  | .finite s a, .finite t b =>
    if b.units = 0 then
      if a.units = 0 then .nan else .infinite (s ^^ t)
    else nearest (s ^^ t) (a.units * unitsPerOne) b.units

/-- The remainder. An infinite divisor leaves the dividend as it is; an infinite dividend or a
divisor of zero leaves nothing to compute. -/
def rem : Binary64 → Binary64 → Binary64
  | .nan, _ => .nan
  | _, .nan => .nan
  | .infinite _, _ => .nan
  | x, .infinite _ => x
  | .finite s a, .finite _ b => if b.units = 0 then .nan else nearest s (a.units % b.units) 1

/-! ## Whole numbers -/

/-- The largest whole number that is not above the argument; the zeros stay as they are. -/
def floor : Binary64 → Binary64
  | .finite s m =>
    let whole := if s then (m.units + (unitsPerOne - 1)) / unitsPerOne else m.units / unitsPerOne
    nearest s (whole * unitsPerOne) 1
  | x => x

/-- The smallest whole number that is not below the argument. -/
def ceil (x : Binary64) : Binary64 := x.neg.floor.neg

/-- The nearest whole number, halves toward positive infinity. The fraction is compared with one
half after a subtraction that rounds, and one is added where it is not smaller. -/
def roundHalfUp (n : Binary64) : Binary64 :=
  if half.le (n.sub n.floor) then n.floor.add one else n.floor

/-- The whole part of a positive number; zero for every other double. -/
def toNat : Binary64 → Nat
  | .finite false m => m.units / unitsPerOne
  | _ => 0

/-! ## Extremes -/

/-- The smaller of two numbers, the second if they are equal, as the two zeros are. -/
def min (x y : Binary64) : Binary64 := if x.lt y then x else y

/-- The larger of two numbers, the second if they are equal, as the two zeros are. -/
def max (x y : Binary64) : Binary64 := if y.lt x then x else y

/-- Combines the members of `first :: rest` from the left; one that is not a number makes the
result not a number. -/
def extreme (pick : Binary64 → Binary64 → Binary64) (first : Binary64) (rest : List Binary64) :
    Binary64 :=
  if (first :: rest).any isNan then .nan else rest.foldl pick first

/-- The smallest member of `first :: rest`. -/
def minimum (first : Binary64) (rest : List Binary64) : Binary64 := extreme min first rest

/-- The largest member of `first :: rest`. -/
def maximum (first : Binary64) (rest : List Binary64) : Binary64 := extreme max first rest

end Binary64
end TextTemplate
