import ColumnLineage.Text.Digit

/-!
Floating-point numbers of sixty-four bits, by their bits. A magnitude is the number formed by all
bits but the sign; magnitudes stand in the order of the numbers they mean, the infinite one after
the finite ones. Rounding goes to the nearest number and from the middle to the even one.
-/

namespace ColumnLineage.Decimal

/-- A floating-point number of sixty-four bits. -/
structure Binary64 where
  bits : UInt64
  deriving DecidableEq

/-- A quotient rounded to the nearest number, from the middle to the even one. -/
def roundQuotient (num den : Nat) : Nat :=
  let quotient := num / den
  let rest := num % den
  if 2 * rest < den then quotient
  else if den < 2 * rest then quotient + 1
  else quotient + quotient % 2

namespace Binary64

/-- The weight of the leading bit of a significand, which numbers that are not too small leave
out. -/
def leadingBit : Nat := 0x10000000000000

/-- The weight of the sign. -/
def signBit : Nat := 0x8000000000000000

/-- The magnitude of infinity. -/
def infinity : Nat := 0x7FF * leadingBit

/-- The quotient of two numbers over a power of two, as numerator and denominator. -/
def scaledBy (num den : Nat) (exponent : Int) : Nat × Nat :=
  if 0 ≤ exponent then (num, den * Nat.pow 2 exponent.toNat)
  else (num * Nat.pow 2 (-exponent).toNat, den)

/-- The magnitude nearest to a quotient. -/
def nearest (num den : Nat) : Nat :=
  if num = 0 then 0
  else
    let guess : Int := (num.log2 : Int) - den.log2 - 52
    let (n, d) := scaledBy num den guess
    let exponent : Int := max (-1074) (if n / d < leadingBit then guess - 1 else guess)
    let (n, d) := scaledBy num den exponent
    min ((exponent + 1074).toNat * leadingBit + roundQuotient n d) infinity

/-- The finite number of a magnitude, as significand and power of two. -/
def parts (magnitude : Nat) : Nat × Int :=
  let biased : Nat := magnitude / leadingBit
  let fraction := magnitude % leadingBit
  if biased = 0 then (fraction, -1074) else (leadingBit + fraction, (biased : Int) - 1075)

/-- The finite number of a magnitude, as numerator and denominator. -/
def ratio (magnitude : Nat) : Nat × Nat :=
  let (significand, exponent) := parts magnitude
  if 0 ≤ exponent then (significand * Nat.pow 2 exponent.toNat, 1)
  else (significand, Nat.pow 2 (-exponent).toNat)

/-- The product of two finite magnitudes, rounded. -/
def product (a b : Nat) : Nat :=
  nearest ((ratio a).1 * (ratio b).1) ((ratio a).2 * (ratio b).2)

/-- The quotient of two finite magnitudes, rounded. -/
def quotient (a b : Nat) : Nat :=
  nearest ((ratio a).1 * (ratio b).2) ((ratio a).2 * (ratio b).1)

/-- The magnitude nearest to `digits` times a power of ten. Numbers far outside the range are not
written out. -/
def ofDecimal (digits : Nat) (exponent : Int) : Nat :=
  let size := (decimalDigits digits).length + exponent
  if digits = 0 ∨ size < -400 then 0
  else if 400 < size then infinity
  else if 0 ≤ exponent then nearest (digits * Nat.pow 10 exponent.toNat) 1
  else nearest digits (Nat.pow 10 (-exponent).toNat)

/-- The number with a sign and a magnitude. -/
def ofMagnitude (negative : Bool) (magnitude : Nat) : Binary64 :=
  ⟨(magnitude + if negative then signBit else 0).toUInt64⟩

/-- The number nearest to an integer. -/
def ofInt (n : Int) : Binary64 :=
  ofMagnitude (n < 0) (nearest n.natAbs 1)

/-- All bits but the sign. -/
def magnitude (x : Binary64) : Nat :=
  x.bits.toNat % signBit

/-- Whether the sign bit is set. -/
def isNegative (x : Binary64) : Bool :=
  signBit ≤ x.bits.toNat

/-- Whether a number is neither infinite nor undefined. -/
def isFinite (x : Binary64) : Bool :=
  x.magnitude < infinity

/-- Whether a number is undefined. -/
def isNaN (x : Binary64) : Bool :=
  infinity < x.magnitude

end Binary64

end ColumnLineage.Decimal
