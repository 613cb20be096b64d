import TextTemplate.Decimal.Basic
/-!
# Writing decimals

* `Decimal.positional`: digits with a point and without an exponent, as in `0.0025` and `1200`.
* `Decimal.scientific`: one digit before the point and an exponent with its sign, as in `2.5e-7`
  and `1e+21`.
-/
namespace TextTemplate
namespace Decimal

/-- The digits, with zeros up to the point where the exponent asks for them. -/
def positional (d : Decimal) : List Char :=
  let ds := Nat.toDigits 10 d.digits
  if 0 ≤ d.exponent then ds ++ List.replicate d.exponent.toNat '0'
  else
    let places := (-d.exponent).toNat
    if places < ds.length then
      ds.take (ds.length - places) ++ '.' :: ds.drop (ds.length - places)
    else '0' :: '.' :: List.replicate (places - ds.length) '0' ++ ds

/-- The exponent of the leading digit. -/
def leadingExponent (d : Decimal) : Int :=
  d.exponent + ((Nat.toDigits 10 d.digits).length - 1 : Nat)

/-- An exponent with its sign. -/
def exponentText (e : Int) : List Char :=
  'e' :: (if e < 0 then '-' else '+') :: Nat.toDigits 10 e.natAbs

/-- One digit, the others behind a point if there are any, and the exponent. -/
def scientific (d : Decimal) : List Char :=
  let mantissa :=
    match Nat.toDigits 10 d.digits with
    | lead :: next :: more => lead :: '.' :: next :: more
    | ds => ds
  mantissa ++ exponentText d.leadingExponent

end Decimal
end TextTemplate
