import ColumnLineage.Decimal.Binary64

/-!
The shortest decimal text of a floating-point number: the fewest digits that read back as the same
number, and of those the ones nearest to it. Decimals of a given number of digits form a grid; where
one of them reads back, a neighbour of the number on that grid does.
-/

namespace ColumnLineage.Decimal

/-- A decimal number: digits times a power of ten. -/
structure Scientific where
  digits : Nat
  exponent : Int
  deriving DecidableEq

namespace Shortest

/-- Whether `digits * 10 ^ exponent` reads back as a magnitude. -/
def readsBack (magnitude : Nat) (digits : Nat) (exponent : Int) : Bool :=
  Binary64.ofDecimal digits exponent == magnitude

/-- A quotient over a power of ten, as numerator and denominator. -/
def scaledBy (num den : Nat) (exponent : Int) : Nat × Nat :=
  if 0 ≤ exponent then (num, den * Nat.pow 10 exponent.toNat)
  else (num * Nat.pow 10 (-exponent).toNat, den)

/-- The decimal on the grid of a power of ten that reads back as a magnitude: the nearer of the two
neighbours, the even one if both are equally near. -/
def onGrid? (magnitude : Nat) (exponent : Int) : Option Scientific :=
  let (num, den) := Binary64.ratio magnitude
  let (n, d) := scaledBy num den exponent
  let near := roundQuotient n d
  let below := n / d
  let far := if near = below then below + 1 else below
  if readsBack magnitude near exponent then some ⟨near, exponent⟩
  else if readsBack magnitude far exponent then some ⟨far, exponent⟩
  else none

/-- Looks for a decimal on one grid after another, each ten times finer than the one before. -/
def search (magnitude : Nat) : Nat → Int → Scientific
  | 0, exponent => ⟨0, exponent⟩
  | tries + 1, exponent =>
    match onGrid? magnitude exponent with
    | some found => found
    | none => search magnitude tries (exponent - 1)

/-- The power of ten of the first digit of a quotient, or one more. -/
def leadingExponent (num den : Nat) : Int :=
  ((decimalDigits num).length : Int) - (decimalDigits den).length

/-- The digits without the zeros at their end. -/
def withoutTrailingZeros : Nat → Scientific → Scientific
  | 0, x => x
  | tries + 1, x =>
    if x.digits ≠ 0 ∧ x.digits % 10 = 0 then
      withoutTrailingZeros tries ⟨x.digits / 10, x.exponent + 1⟩
    else x

/-- The shortest decimal that reads back as a finite magnitude. Seventeen digits always do, so the
search ends. -/
def ofMagnitude (magnitude : Nat) : Scientific :=
  if magnitude = 0 then ⟨0, 0⟩
  else
    let (num, den) := Binary64.ratio magnitude
    withoutTrailingZeros 400 (search magnitude 20 (leadingExponent num den))

end Shortest

/-- The text of a finite number. Digits are written out from a hundred-thousandth up to below
`10 ^ 16`, with at least one digit after the point; other numbers have an exponent with its sign. -/
def Binary64.text (x : Binary64) : Text :=
  let ⟨number, exponent⟩ := Shortest.ofMagnitude x.magnitude
  let digits := decimalDigits number
  let point : Int := digits.length + exponent
  let zeros := fun n => List.replicate n '0'
  let sign := if x.isNegative then ['-'] else []
  sign ++
    if number = 0 then ['0', '.', '0']
    else if 0 ≤ exponent ∧ point ≤ 16 then digits ++ zeros exponent.toNat ++ ['.', '0']
    else if 0 < point ∧ point ≤ 16 then
      digits.take point.toNat ++ '.' :: digits.drop point.toNat
    else if -5 < point ∧ point ≤ 0 then '0' :: '.' :: zeros (-point).toNat ++ digits
    else
      let mantissa :=
        match digits with
        | first :: second :: rest => first :: '.' :: second :: rest
        | one => one
      let power := point - 1
      mantissa ++ 'e' :: (if power < 0 then '-' else '+') :: decimalDigits power.natAbs

end ColumnLineage.Decimal
