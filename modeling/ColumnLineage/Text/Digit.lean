import ColumnLineage.Text.Basic

/-!
Digits and the numbers and characters that runs of digits stand for.
-/

namespace ColumnLineage

/-- The value of a character as a digit, letters counting on from ten. -/
def digitValue? (c : Char) : Option Nat :=
  if '0' ≤ c ∧ c ≤ '9' then some (c.toNat - '0'.toNat)
  else if 'a' ≤ c ∧ c ≤ 'z' then some (c.toNat - 'a'.toNat + 10)
  else if 'A' ≤ c ∧ c ≤ 'Z' then some (c.toNat - 'A'.toNat + 10)
  else none

/-- Whether a character is a digit in a base up to thirty-six. -/
def isDigitIn (base : Nat) (c : Char) : Bool :=
  match digitValue? c with
  | some d => d < base
  | none => false

/-- The number written by digits in a base, after a number already read. Characters that are no
digits count as zero. -/
def numberFrom (base : Nat) (start : Nat) (digits : Text) : Nat :=
  digits.foldl (fun n c => n * base + (digitValue? c).getD 0) start

/-- The number written by digits in a base. -/
def numberOf (base : Nat) (digits : Text) : Nat :=
  numberFrom base 0 digits

/-- The number that a whole text writes in a base, where it is a run of digits. -/
def number? (base : Nat) (s : Text) : Option Nat :=
  if s.isEmpty || !s.all (isDigitIn base) then none else some (numberOf base s)

/-- The character with a code point, where there is one. -/
def scalar? (n : Nat) : Option Char :=
  if n.isValidChar then some (Char.ofNat n) else none

/-- The digits of a number in decimal notation. -/
def decimalDigits (n : Nat) : Text :=
  Nat.toDigits 10 n

end ColumnLineage
