import ColumnLineage.Sql.Token.Quoted
import ColumnLineage.Text.Digit

/-!
Constants whose value is written with code points. In the escaped form a backslash begins a control
character, a code point or a byte below 128, and nothing may stand for the character zero. In the
Unicode form a backslash begins four hexadecimal digits, or a plus sign and six.
-/

namespace ColumnLineage.Sql.Escape

open Quoted (keep keep_eq_some)

/-- The character with the code point that hexadecimal digits write. -/
def hexChar? (digits : Text) : Option Char :=
  (number? 16 digits).bind scalar?

/-- The same, where a plus sign may precede the digits. -/
def codePoint? : Text → Option Char
  | '+' :: digits => hexChar? digits
  | digits => hexChar? digits

/-- The character that exactly `n` characters stand for, and what follows them. -/
def readExactly? (n : Nat) (char? : Text → Option Char) (s : Text) : Option (Char × Text) :=
  if n ≤ s.length then (char? (s.take n)).map (·, s.drop n) else none

/-- The digits in a base that a text starts with, at most `n` of them, and what follows. -/
def upTo (base : Nat) : Nat → Text → Text × Text
  | n + 1, c :: s =>
    if isDigitIn base c then
      let (digits, rest) := upTo base n s
      (c :: digits, rest)
    else ([], c :: s)
  | _, s => ([], s)

/-- The character of a byte, which has to be below 128. -/
def ascii? (n : Nat) : Option Char :=
  if n ≤ 127 then some (Char.ofNat n) else none

/-- A hexadecimal byte of at most two digits. Without a digit it is the letter before it. -/
def readHexByte? (s : Text) : Option (Char × Text) :=
  match upTo 16 2 s with
  | ([], rest) => some ('x', rest)
  | (digits, rest) => (ascii? (numberOf 16 digits)).map (·, rest)

/-- The character that follows a backslash in the escaped form, or what it stands for. -/
def readEscaped? : Text → Option (Char × Text)
  | [] => none
  | 'b' :: s => some ('\x08', s)
  | 'f' :: s => some ('\x0c', s)
  | 'n' :: s => some ('\n', s)
  | 'r' :: s => some ('\r', s)
  | 't' :: s => some ('\t', s)
  | 'u' :: s => readExactly? 4 codePoint? s
  | 'U' :: s => readExactly? 8 codePoint? s
  | 'x' :: s => readHexByte? s
  | c :: s =>
    if isDigitIn 8 c then
      let (digits, rest) := upTo 8 2 s
      (ascii? (numberOf 8 (c :: digits) % 256)).map (·, rest)
    else some (c, s)

theorem suffix_of_upTo (base n : Nat) (s : Text) : (upTo base n s).2 <:+ s := by
  fun_induction upTo base n s <;> grind [List.suffix_cons_iff]

theorem suffix_of_readExactly? {n : Nat} {char? : Text → Option Char} {s rest : Text} {c : Char}
    (h : readExactly? n char? s = some (c, rest)) : rest <:+ s := by
  unfold readExactly? at h
  split at h
  · obtain ⟨_, _, same⟩ := Option.map_eq_some_iff.1 h
    cases same
    exact List.drop_suffix _ _
  · simp at h

theorem suffix_of_readEscaped? {s rest : Text} {c : Char}
    (h : readEscaped? s = some (c, rest)) : rest <:+ s := by
  fun_cases readEscaped? s with
  | case1 => simp [readEscaped?] at h
  | case7 s => exact (suffix_of_readExactly? h).trans (List.suffix_cons _ _)
  | case8 s => exact (suffix_of_readExactly? h).trans (List.suffix_cons _ _)
  | case9 s =>
    have := suffix_of_upTo 16 2 s
    simp only [readEscaped?, readHexByte?] at h
    split at h <;> grind [List.suffix_cons_iff, Option.map_eq_some_iff]
  | case10 c s =>
    have := suffix_of_upTo 8 2 s
    grind [List.suffix_cons_iff, readEscaped?, Option.map_eq_some_iff]
  | _ => grind [List.suffix_cons_iff, readEscaped?]

/-- A value in the escaped form up to its closing quote. -/
def readEscapedValue : Text → Option (Text × Text)
  | [] => none
  | '\'' :: '\'' :: rest => keep '\'' (readEscapedValue rest)
  | '\'' :: rest => some ([], rest)
  | '\\' :: rest =>
    match h : readEscaped? rest with
    | some (c, after) => if c = '\x00' then none else keep c (readEscapedValue after)
    | none => none
  | c :: rest => keep c (readEscapedValue rest)
termination_by s => s.length
decreasing_by
  · simp only [List.length_cons]; omega
  · have := (suffix_of_readEscaped? h).length_le
    simp only [List.length_cons]; omega
  · simp only [List.length_cons]; omega

/-- A value in the Unicode form up to its closing quote. -/
def readUnicodeValue : Text → Option (Text × Text)
  | [] => none
  | '\'' :: '\'' :: rest => keep '\'' (readUnicodeValue rest)
  | '\'' :: rest => some ([], rest)
  | '\\' :: '\\' :: rest => keep '\\' (readUnicodeValue rest)
  | '\\' :: '+' :: rest =>
    match h : readExactly? 6 hexChar? rest with
    | some (c, after) => keep c (readUnicodeValue after)
    | none => none
  | '\\' :: rest =>
    match h : readExactly? 4 hexChar? rest with
    | some (c, after) => keep c (readUnicodeValue after)
    | none => none
  | c :: rest => keep c (readUnicodeValue rest)
termination_by s => s.length
decreasing_by
  · simp only [List.length_cons]; omega
  · simp only [List.length_cons]; omega
  · have := (suffix_of_readExactly? h).length_le
    simp only [List.length_cons]; omega
  · have := (suffix_of_readExactly? h).length_le
    simp only [List.length_cons]; omega
  · simp only [List.length_cons]; omega

theorem suffix_of_readEscapedValue {s value rest : Text}
    (h : readEscapedValue s = some (value, rest)) : rest <:+ s := by
  fun_induction readEscapedValue s generalizing value with
  | case1 => simp at h
  | case2 r ih => grind [keep_eq_some, List.suffix_cons_iff]
  | case3 => grind [List.suffix_cons_iff]
  | case4 => simp at h
  | case5 r c after found _ ih =>
    obtain ⟨_, inner, rfl⟩ := keep_eq_some.1 h
    exact (ih inner).trans ((suffix_of_readEscaped? found).trans (List.suffix_cons _ _))
  | case6 => simp at h
  | case7 => grind [keep_eq_some, List.suffix_cons_iff]

theorem suffix_of_readUnicodeValue {s value rest : Text}
    (h : readUnicodeValue s = some (value, rest)) : rest <:+ s := by
  fun_induction readUnicodeValue s generalizing value with
  | case5 r c after found ih | case7 r c after _ _ found ih =>
    obtain ⟨_, inner, rfl⟩ := keep_eq_some.1 h
    have := (ih inner).trans (suffix_of_readExactly? found)
    grind [List.suffix_cons_iff]
  | _ => grind [keep_eq_some, List.suffix_cons_iff]

end ColumnLineage.Sql.Escape
