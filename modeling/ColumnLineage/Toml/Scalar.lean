import ColumnLineage.Data.Basic
import ColumnLineage.Toml.Spacing

/-!
Numbers and dates. Underscores may part the digits of a number, one between two digits. An integer
has to fit into sixty-four bits with sign; a floating-point number may be too small but not too
large, unless it is negative. Dates and times have to exist.
-/

namespace ColumnLineage.Toml

open Decimal (Binary64)

/-- Digits in a base at the start of a text, with single underscores between them, and what follows.
An underscore has to be followed by a digit. -/
def readMoreDigits? (base : Nat) : Text → Option (Text × Text)
  | [] => some ([], [])
  | [c] => if isDigitIn base c then some ([c], []) else if c = '_' then none else some ([], [c])
  | c :: d :: s =>
    if isDigitIn base c then
      (readMoreDigits? base (d :: s)).map fun (digits, rest) => (c :: digits, rest)
    else if c = '_' then
      if isDigitIn base d then readMoreDigits? base (d :: s) else none
    else some ([], c :: d :: s)

/-- At least one digit in a base, and what follows. -/
def readDigits? (base : Nat) (s : Text) : Option (Text × Text) :=
  match s with
  | c :: _ => if isDigitIn base c then readMoreDigits? base s else none
  | [] => none

/-- A sign at the start of a text, and what follows it. -/
def readSign : Text → Bool × Text
  | '-' :: s => (true, s)
  | '+' :: s => (false, s)
  | s => (false, s)

/-- Decimal digits that begin with no zero before others, and what follows. -/
def readWhole? : Text → Option (Text × Text)
  | '0' :: s => some (['0'], s)
  | s => readDigits? 10 s

/-- The exponent at the start of a text, if there is one, and what follows it. -/
def readExponent? : Text → Option (Option Int × Text)
  | [] => some (none, [])
  | c :: s =>
    if c = 'e' ∨ c = 'E' then
      let (negative, s) := readSign s
      (readDigits? 10 s).map fun (digits, rest) =>
        (some (if negative then -(numberOf 10 digits : Int) else numberOf 10 digits), rest)
    else some (none, c :: s)

/-- The floating-point number with a sign, digits and a power of ten, unless it is positive and too
large. -/
def float? (negative : Bool) (digits : Text) (exponent : Int) : Option Data :=
  let magnitude := Binary64.ofDecimal (numberOf 10 digits) exponent
  if negative = false ∧ magnitude = Binary64.infinity then none
  else some (.float (.ofMagnitude negative magnitude))

/-- What the size of a positive integer has to stay below. -/
def integerBound : Nat := 0x8000000000000000

/-- The integer with a sign and a size, if it fits. -/
def integer? (negative : Bool) (size : Nat) : Option Data :=
  if size < integerBound ∨ (negative = true ∧ size = integerBound) then
    some (.integer (if negative then -(size : Int) else size))
  else none

/-- The bits of an undefined number. -/
def undefined : Nat := 0x7FF8000000000000

/-- A floating-point number by name after its sign, and what follows it. -/
def readNamed? (negative : Bool) : Text → Option (Data × Text)
  | 'i' :: 'n' :: 'f' :: s => some (.float (.ofMagnitude negative Binary64.infinity), s)
  | 'n' :: 'a' :: 'n' :: s => some (.float (.ofMagnitude negative undefined), s)
  | _ => none

/-- An integer without sign in a base other than ten, after the mark of the base. -/
def readBased? (base : Nat) (s : Text) : Option (Data × Text) :=
  match readDigits? base s with
  | some (digits, rest) => (integer? false (numberOf base digits)).map (·, rest)
  | none => none

/-- A number in decimal digits after its sign, and what follows it. -/
def readDecimal? (negative : Bool) (s : Text) : Option (Data × Text) :=
  match readWhole? s with
  | none => none
  | some (whole, afterWhole) =>
    let fraction :=
      match afterWhole with
      | '.' :: s => (readDigits? 10 s).map fun (digits, rest) => (some digits, rest)
      | s => some (none, s)
    match fraction with
    | none => none
    | some (fraction, afterFraction) =>
      match readExponent? afterFraction with
      | none => none
      | some (exponent, rest) =>
        match fraction, exponent with
        | none, none => (integer? negative (numberOf 10 whole)).map (·, rest)
        | _, _ =>
          let digits := fraction.getD []
          (float? negative (whole ++ digits) (exponent.getD 0 - digits.length)).map (·, rest)

/-- A number at the start of a text, and what follows it. -/
def readNumber? (s : Text) : Option (Data × Text) :=
  match s with
  | '0' :: 'x' :: s => readBased? 16 s
  | '0' :: 'o' :: s => readBased? 8 s
  | '0' :: 'b' :: s => readBased? 2 s
  | s =>
    let (negative, s) := readSign s
    match readNamed? negative s with
    | some read => some read
    | none => readDecimal? negative s

/-- A number of exactly `n` digits between two bounds, and what follows it. -/
def readField? (n least most : Nat) (s : Text) : Option (Nat × Text) :=
  match number? 10 (s.take n) with
  | some value =>
    if (s.take n).length = n ∧ least ≤ value ∧ value ≤ most then some (value, s.drop n) else none
  | none => none

/-- What follows a character at the start of a text. -/
def after? (c : Char) : Text → Option Text
  | d :: s => if d = c then some s else none
  | [] => none

/-- Whether a year has a day more. -/
def isLeapYear (year : Nat) : Bool :=
  year % 4 = 0 && (year % 100 ≠ 0 || year % 400 = 0)

/-- How many days a month has. -/
def daysInMonth (year month : Nat) : Nat :=
  if month = 2 then if isLeapYear year then 29 else 28
  else if month = 4 ∨ month = 6 ∨ month = 9 ∨ month = 11 then 30
  else 31

/-- What follows a date at the start of a text. -/
def afterDate? (s : Text) : Option Text := do
  let (year, s) ← readField? 4 0 9999 s
  let s ← after? '-' s
  let (month, s) ← readField? 2 1 12 s
  let s ← after? '-' s
  let (_, s) ← readField? 2 1 (daysInMonth year month) s
  return s

/-- What follows a fraction of a second at the start of a text, or the text without one. A point has
to be followed by a digit. -/
def afterSecondFraction? : Text → Option Text
  | '.' :: s =>
    match s.takeWhile (isDigitIn 10) with
    | [] => none
    | _ => some (s.dropWhile (isDigitIn 10))
  | s => some s

/-- What follows a time of day at the start of a text. -/
def afterTime? (s : Text) : Option Text := do
  let (_, s) ← readField? 2 0 23 s
  let s ← after? ':' s
  let (_, s) ← readField? 2 0 59 s
  let s ← after? ':' s
  let (_, s) ← readField? 2 0 60 s
  afterSecondFraction? s

/-- What follows an offset from universal time at the start of a text, or the text without one. -/
def afterOffset? : Text → Option Text
  | [] => some []
  | c :: s =>
    if c = 'Z' ∨ c = 'z' then some s
    else if c = '+' ∨ c = '-' then do
      let (_, s) ← readField? 2 0 23 s
      let s ← after? ':' s
      let (_, s) ← readField? 2 0 59 s
      return s
    else some (c :: s)

/-- Whether a text goes on with a time of day after a date: a mark, an hour and a colon. -/
def beginsTime : Text → Bool
  | mark :: a :: b :: ':' :: _ =>
    (mark = 'T' || mark = 't' || mark = ' ') && (readField? 2 0 23 [a, b]).isSome
  | _ => false

/-- What follows a date, a time of day or both at the start of a text. -/
def afterMoment? (s : Text) : Option Text :=
  match afterDate? s with
  | some rest => if beginsTime rest then (afterTime? rest.tail).bind afterOffset? else some rest
  | none => afterTime? s

/-- The name of the one member that a date or time has as data. -/
def momentName : Text := "$__toml_private_datetime".toList

/-- Whether a text starts with a date or a time, by its digits and the mark after them. -/
def beginsMoment : Text → Bool
  | a :: b :: ':' :: _ => (readField? 2 0 23 [a, b]).isSome
  | a :: b :: c :: d :: '-' :: _ => (number? 10 [a, b, c, d]).isSome
  | _ => false

/-- A date, a time of day or both at the start of a text, as a record of its text, and what follows
it. -/
def readMoment? (s : Text) : Option (Data × Text) :=
  (afterMoment? s).map fun rest =>
    (.record [(momentName, .text (s.take (s.length - rest.length)))], rest)

/-- What a sign or a digit begins, and what follows it. -/
def readScalar? (s : Text) : Option (Data × Text) :=
  if beginsMoment s then readMoment? s else readNumber? s

end ColumnLineage.Toml
