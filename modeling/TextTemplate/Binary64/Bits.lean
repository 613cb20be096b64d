import TextTemplate.Binary64.Rounding
/-!
# The interchange format of doubles

A double is stored in 64 bits: a sign bit, eleven bits of exponent and 52 bits of fraction.
Powers alone are computed on stored doubles, by the mathematical library of the platform; all
other arithmetic is exact and does not pass through here.

* `ofBits`, `toBits`: reading and writing the 64 bits.
* `pow`: the power.
-/
namespace TextTemplate

attribute [local instance] natPow
namespace Binary64

/-- The units of a finite double with the given exponent field and fraction. Below the exponent
one there is no hidden leading bit. -/
def storedUnits (exponent fraction : Nat) : Nat :=
  if exponent = 0 then fraction else (2 ^ (52 : Nat) + fraction) * 2 ^ (exponent - 1)

theorem representable_storedUnits {exponent fraction : Nat} (he : exponent < 2047)
    (hf : fraction < 2 ^ (52 : Nat)) : Representable (storedUnits exponent fraction) := by
  have hshift : exponent - 1 ≤ maxShift := by unfold maxShift; omega
  unfold storedUnits
  split
  · have h := representable_mul_two_pow (m := fraction) (k := 0) (by omega)
      (mul_two_pow_lt_overflowUnits (by omega) (Nat.zero_le _))
    simpa using h
  · exact representable_mul_two_pow (by omega) (mul_two_pow_lt_overflowUnits (by omega) hshift)

/-- Reads a stored double. -/
def ofBits (bits : UInt64) : Binary64 :=
  let negative := decide (2 ^ (63 : Nat) ≤ bits.toNat)
  let exponent := bits.toNat / 2 ^ (52 : Nat) % 2048
  let fraction := bits.toNat % 2 ^ (52 : Nat)
  if h : exponent < 2047 then
    .finite negative ⟨storedUnits exponent fraction,
      representable_storedUnits h (Nat.mod_lt _ (Nat.two_pow_pos 52))⟩
  else if fraction = 0 then .infinite negative
  else .nan

/-- The exponent field and the fraction of a magnitude, as one number: the next larger magnitude
has the next number. -/
def codeOf (m : Magnitude) : Nat :=
  if m.units < 2 ^ (52 : Nat) then m.units
  else
    let shift := m.units.log2 - 52
    (shift + 1) * 2 ^ (52 : Nat) + (m.units / 2 ^ shift - 2 ^ (52 : Nat))

/-- Stores a double. -/
def toBits (x : Binary64) : UInt64 :=
  let signBit (negative : Bool) : Nat := if negative then 2 ^ (63 : Nat) else 0
  match x with
  | .nan => UInt64.ofNat (2047 * 2 ^ (52 : Nat) + 2 ^ (51 : Nat))
  | .infinite s => UInt64.ofNat (signBit s + 2047 * 2 ^ (52 : Nat))
  | .finite s m => UInt64.ofNat (signBit s + codeOf m)

/-- The power `x ^ y`, as the platform computes it. -/
def pow (x y : Binary64) : Binary64 :=
  ofBits (Float.pow (Float.ofBits x.toBits) (Float.ofBits y.toBits)).toBits

end Binary64
end TextTemplate
