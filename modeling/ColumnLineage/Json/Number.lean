import ColumnLineage.Data.Basic

/-!
JSON numbers. One without fraction and exponent is an integer where it fits into sixty-four bits
with or without a sign, and a floating-point number beyond. Floating-point numbers are read in two
roundings: the leading digits that fit into sixty-four bits are rounded, and so is their product
with a rounded power of ten; later digits only move the point. Minus zero is a floating-point
number.
-/

namespace ColumnLineage.Json.Number

open Decimal (Binary64)

/-- The parts of a written number. -/
structure Parts where
  negative : Bool
  whole : Text
  fraction : Text
  exponent : Option (Bool × Text)
  deriving DecidableEq

/-- A run of digits at the start of a text, at least one, and what follows it. -/
def readDigits? (s : Text) : Option (Text × Text) :=
  match s.takeWhile (isDigitIn 10) with
  | [] => none
  | digits => some (digits, s.dropWhile (isDigitIn 10))

/-- The digits before the point: no zero stands in front of others. -/
def readWhole? : Text → Option (Text × Text)
  | '0' :: s => some (['0'], s)
  | s => readDigits? s

/-- The digits after a point, none where there is no point. -/
def readFraction? : Text → Option (Text × Text)
  | '.' :: s => readDigits? s
  | s => some ([], s)

/-- The sign and the digits of the exponent, if there is one. -/
def readExponent? : Text → Option (Option (Bool × Text) × Text)
  | [] => some (none, [])
  | c :: s =>
    if c = 'e' ∨ c = 'E' then
      match s with
      | '-' :: s => (readDigits? s).map fun (digits, rest) => (some (true, digits), rest)
      | '+' :: s => (readDigits? s).map fun (digits, rest) => (some (false, digits), rest)
      | s => (readDigits? s).map fun (digits, rest) => (some (false, digits), rest)
    else some (none, c :: s)

/-- A number at the start of a text after its sign, and what follows it. -/
def readUnsigned? (negative : Bool) (s : Text) : Option (Parts × Text) :=
  match readWhole? s with
  | none => none
  | some (whole, s) =>
    match readFraction? s with
    | none => none
    | some (fraction, s) =>
      (readExponent? s).map fun (exponent, rest) => (⟨negative, whole, fraction, exponent⟩, rest)

/-- A number at the start of a text, and what follows it. -/
def read? : Text → Option (Parts × Text)
  | '-' :: s => readUnsigned? true s
  | s => readUnsigned? false s

/-- What a significand of sixty-four bits can hold. -/
def significandBound : Nat := 0x10000000000000000

/-- Takes digits into a significand until one would not fit. Gives the significand, how many digits
it took, and how many were left. -/
def takeDigits : Nat → Text → Nat × Nat × Nat
  | significand, [] => (significand, 0, 0)
  | significand, c :: digits =>
    let next := numberFrom 10 significand [c]
    if next < significandBound then
      let (result, taken, left) := takeDigits next digits
      (result, taken + 1, left)
    else (significand, 0, digits.length + 1)

/-- A magnitude times a power of ten, none where it grows beyond the finite numbers. -/
def scale? (magnitude : Nat) (exponent : Int) : Option Nat :=
  if h : exponent.natAbs ≤ 308 then
    let power := Binary64.nearest (Nat.pow 10 exponent.natAbs) 1
    if 0 ≤ exponent then
      let result := Binary64.product magnitude power
      if result < Binary64.infinity then some result else none
    else some (Binary64.quotient magnitude power)
  else if magnitude = 0 then some 0
  else if 0 ≤ exponent then none
  else scale? (Binary64.quotient magnitude (Binary64.nearest (Nat.pow 10 308) 1)) (exponent + 308)
termination_by exponent.natAbs
decreasing_by omega

/-- What an exponent has to stay below for its digits to be counted. -/
def exponentBound : Nat := 0x80000000

/-- The floating-point number that parts stand for, none where it is not finite. -/
def Parts.binary64? (parts : Parts) : Option Binary64 :=
  let (head, _, left) := takeDigits 0 parts.whole
  let (significand, taken) :=
    let (significand, taken, _) := takeDigits head parts.fraction
    (significand, taken)
  let shift : Int := (left : Int) - taken
  let magnitude := Binary64.nearest significand 1
  let result :=
    match parts.exponent with
    | none => scale? magnitude shift
    | some (negative, digits) =>
      let power := numberOf 10 digits
      if power < exponentBound then
        scale? magnitude (if negative then shift - power else shift + power)
      else if significand = 0 ∨ negative = true then some 0
      else none
  result.map (Binary64.ofMagnitude parts.negative)

/-- The size of the least integer of sixty-four bits. -/
def negativeBound : Nat := 0x8000000000000000

/-- The data that parts stand for. -/
def Parts.data (parts : Parts) : Data :=
  let n := numberOf 10 parts.whole
  if parts.fraction = [] ∧ parts.exponent = none ∧
      (if parts.negative then 0 < n ∧ n ≤ negativeBound else n < significandBound) then
    .integer (if parts.negative then -n else n)
  else
    match parts.binary64? with
    | some x => .float x
    | none => .unreadable

end ColumnLineage.Json.Number
