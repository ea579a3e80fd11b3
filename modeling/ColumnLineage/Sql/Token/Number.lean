import ColumnLineage.Sql.Token.Basic
import ColumnLineage.Text.Digit

/-!
Numbers: digits, a fraction, an exponent if it holds a digit, and the mark of a long number. A
point alone is no number, and `0x` begins hexadecimal digits, of which there may be none. Reading a
part splits the text in two and loses nothing.
-/

namespace ColumnLineage.Sql.Number

/-- The sign that a text may start with, and what follows it. -/
def readSign : Text → Text × Text
  | [] => ([], [])
  | c :: rest => if c = '+' ∨ c = '-' then ([c], rest) else ([], c :: rest)

/-- The fraction that a text starts with, and what follows it. -/
def readFraction : Text → Text × Text
  | [] => ([], [])
  | c :: rest =>
    if c = '.' then (c :: rest.takeWhile (isDigitIn 10), rest.dropWhile (isDigitIn 10))
    else ([], c :: rest)

/-- The exponent that a text starts with, and what follows it. Without a digit after the mark and
the sign there is none. -/
def readExponent : Text → Text × Text
  | [] => ([], [])
  | c :: rest =>
    let (sign, afterSign) := readSign rest
    let digits := afterSign.takeWhile (isDigitIn 10)
    if (c = 'e' ∨ c = 'E') ∧ digits ≠ [] then
      (c :: sign ++ digits, afterSign.dropWhile (isDigitIn 10))
    else ([], c :: rest)

/-- The mark of a long number, and what follows it. -/
def readLong : Text → Bool × Text
  | [] => (false, [])
  | c :: rest => if c = 'L' then (true, rest) else (false, c :: rest)

/-- The token that a digit or a point begins, and what follows it. -/
def read (s : Text) : Token × Text :=
  let whole := s.takeWhile (isDigitIn 10)
  let afterWhole := s.dropWhile (isDigitIn 10)
  if whole = ['0'] ∧ afterWhole.head? = some 'x' then
    (.literal .hexadecimal (afterWhole.tail.takeWhile (isDigitIn 16)),
      afterWhole.tail.dropWhile (isDigitIn 16))
  else
    let (fraction, afterFraction) := readFraction afterWhole
    if whole ++ fraction = ['.'] then (.symbol .period, afterFraction)
    else
      let (exponent, afterExponent) := readExponent afterFraction
      let (long, rest) := readLong afterExponent
      (.number (whole ++ fraction ++ exponent) long, rest)

theorem readSign_append (s : Text) : (readSign s).1 ++ (readSign s).2 = s := by
  fun_cases readSign s <;> simp [*]

theorem readFraction_append (s : Text) : (readFraction s).1 ++ (readFraction s).2 = s := by
  fun_cases readFraction s <;> simp [*, List.takeWhile_append_dropWhile]

theorem readExponent_append (s : Text) : (readExponent s).1 ++ (readExponent s).2 = s := by
  cases s with
  | nil => rfl
  | cons c rest =>
    have sign := readSign_append rest
    simp only [readExponent]
    split
    · simp only [List.cons_append, List.append_assoc, List.takeWhile_append_dropWhile, sign]
    · rfl

theorem suffix_of_readLong (s : Text) : (readLong s).2 <:+ s := by
  fun_cases readLong s <;> grind [readLong, List.suffix_cons_iff]

/-- A number takes at least the digit or the point that begins it. -/
theorem length_lt_of_read {c : Char} {s rest : Text} {token : Token}
    (start : isDigitIn 10 c = true ∨ c = '.') (h : read (c :: s) = (token, rest)) :
    rest.length < (c :: s).length := by
  have whole := congrArg List.length
    (List.takeWhile_append_dropWhile (p := isDigitIn 10) (l := c :: s))
  simp only [List.length_append] at whole
  simp only [read] at h
  split at h
  · rename_i hex
    have := (List.dropWhile_suffix (isDigitIn 16)
      (l := ((c :: s).dropWhile (isDigitIn 10)).tail)).length_le
    obtain ⟨_, rfl⟩ := Prod.mk.inj h
    simp only [hex.1, List.length_singleton] at whole
    grind
  · have fraction := congrArg List.length (readFraction_append ((c :: s).dropWhile (isDigitIn 10)))
    have exponent := congrArg List.length
      (readExponent_append (readFraction ((c :: s).dropWhile (isDigitIn 10))).2)
    have long := (suffix_of_readLong
      (readExponent (readFraction ((c :: s).dropWhile (isDigitIn 10))).2).2).length_le
    simp only [List.length_append] at fraction exponent
    have taken : 0 < ((c :: s).takeWhile (isDigitIn 10)).length +
        (readFraction ((c :: s).dropWhile (isDigitIn 10))).1.length := by
      by_cases digit : isDigitIn 10 c = true
      · rw [List.takeWhile_cons_of_pos digit, List.length_cons]
        omega
      · obtain rfl : c = '.' := by simpa [digit] using start
        have : isDigitIn 10 '.' = false := by decide
        simp [readFraction, this]
    split at h <;> (obtain ⟨_, rfl⟩ := Prod.mk.inj h; omega)

end ColumnLineage.Sql.Number
