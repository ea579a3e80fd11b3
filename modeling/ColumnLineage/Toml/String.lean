import ColumnLineage.Toml.Spacing

/-!
Strings and keys. A string stands in quotes or in apostrophes, on one line or, between three of
them, on several; only those in quotes know escapes. A string on several lines may end with one or
two quotes of its own before the three that close it.
-/

namespace ColumnLineage.Toml

/-- Puts a text in front of a value that was read. -/
def keepAll (text : Text) : Option (Text × Text) → Option (Text × Text)
  | some (value, rest) => some (text ++ value, rest)
  | none => none

/-- The character that stands for itself or another one after a backslash. -/
def escaped? : Char → Option Char
  | 'b' => some '\x08'
  | 't' => some '\t'
  | 'n' => some '\n'
  | 'f' => some '\x0c'
  | 'r' => some '\r'
  | '"' => some '"'
  | '\\' => some '\\'
  | _ => none

/-- The character that a code point of exactly `n` hexadecimal digits stands for, and what follows
it. -/
def readCodePoint? (n : Nat) (s : Text) : Option (Char × Text) :=
  if n ≤ s.length then ((number? 16 (s.take n)).bind scalar?).map (·, s.drop n) else none

/-- What the text after a backslash stands for, and what follows it. -/
def readEscape? : Text → Option (Char × Text)
  | [] => none
  | 'u' :: s => readCodePoint? 4 s
  | 'U' :: s => readCodePoint? 8 s
  | c :: s => (escaped? c).map (·, s)

theorem readEscape?_shorter {s rest : Text} {c : Char} (h : readEscape? s = some (c, rest)) :
    rest.length < s.length := by
  have codePoint : ∀ {n : Nat} {s rest : Text} {c : Char},
      readCodePoint? n s = some (c, rest) → rest.length ≤ s.length := by
    intro n s rest c h
    unfold readCodePoint? at h
    split at h
    · obtain ⟨_, _, same⟩ := Option.map_eq_some_iff.1 h
      cases same
      simp
    · simp at h
  unfold readEscape? at h
  split at h
  · simp at h
  · exact Nat.lt_succ_of_le (codePoint h)
  · exact Nat.lt_succ_of_le (codePoint h)
  · obtain ⟨_, _, same⟩ := Option.map_eq_some_iff.1 h
    cases same
    simp

/-- A string on one line after its opening quote, and what follows its closing quote. -/
def readBasic : Text → Option (Text × Text)
  | [] => none
  | '"' :: s => some ([], s)
  | '\\' :: s =>
    match h : readEscape? s with
    | some (c, rest) => keepAll [c] (readBasic rest)
    | none => none
  | c :: s => if isCommentChar c then keepAll [c] (readBasic s) else none
termination_by s => s.length
decreasing_by
  · have := readEscape?_shorter h
    simp only [List.length_cons]; omega
  · simp only [List.length_cons]; omega

/-- A string on one line after its opening apostrophe, and what follows the closing one. -/
def readLiteral (s : Text) : Option (Text × Text) :=
  let isPart := fun c => isCommentChar c && c ≠ '\''
  match s.dropWhile isPart with
  | '\'' :: rest => some (s.takeWhile isPart, rest)
  | _ => none

/-- The text after spaces and line ends. -/
def skipBlankLines (s : Text) : Text :=
  match h : afterNewline? (skipSpace s) with
  | some rest => skipBlankLines rest
  | none => skipSpace s
termination_by s.length
decreasing_by
  have shorter := afterNewline?_shorter h
  have space := Text.length_dropWhile_le isSpace s
  unfold skipSpace at shorter
  omega

/-- What follows a backslash at the end of a line: the first character after it that is neither a
space nor a line end. -/
def afterLineJoin? (s : Text) : Option Text :=
  (afterNewline? (skipSpace s)).map skipBlankLines

/-- The quotes of its own that a run of quotes gives to a string on several lines, and whether the
run closes the string: three of them do, and up to two more before them are part of the string. -/
def quotesKept (run : Nat) : Nat × Bool :=
  if run < 3 then (run, false) else (min (run - 3) 2, true)

/-- A string on several lines between runs of a quote. In quotes a backslash escapes. The first
argument bounds the steps. -/
def readLines (quote : Char) : Nat → Text → Option (Text × Text)
  | 0, _ => none
  | _, [] => none
  | steps + 1, c :: s =>
    if c = quote then
      let run := ((c :: s).takeWhile (· = quote)).length
      let (kept, closes) := quotesKept run
      let text := List.replicate kept quote
      if closes then some (text, (c :: s).drop (kept + 3))
      else keepAll text (readLines quote steps ((c :: s).drop kept))
    else if c = '\\' ∧ quote = '"' then
      match afterLineJoin? s, readEscape? s with
      | some rest, _ => readLines quote steps rest
      | none, some (e, rest) => keepAll [e] (readLines quote steps rest)
      | none, none => none
    else
      match afterNewline? (c :: s) with
      | some rest => keepAll ['\n'] (readLines quote steps rest)
      | none => if isCommentChar c then keepAll [c] (readLines quote steps s) else none

/-- A string on several lines after its opening quotes. A line end right after them is left out. -/
def readMultiline (quote : Char) (s : Text) : Option (Text × Text) :=
  readLines quote (s.length + 1) ((afterNewline? s).getD s)

/-- A string at the start of a text, and what follows it. -/
def readString? : Text → Option (Text × Text)
  | '"' :: '"' :: '"' :: s => readMultiline '"' s
  | '\'' :: '\'' :: '\'' :: s => readMultiline '\'' s
  | '"' :: s => readBasic s
  | '\'' :: s => readLiteral s
  | _ => none

/-- Whether a character may stand in a key without quotes. -/
def isKeyChar (c : Char) : Bool :=
  isDigitIn 36 c || c = '-' || c = '_'

/-- One part of a key, and what follows it. -/
def readKeyPart? : Text → Option (Text × Text)
  | '"' :: s => readBasic s
  | '\'' :: s => readLiteral s
  | s =>
    match s.takeWhile isKeyChar with
    | [] => none
    | part => some (part, s.dropWhile isKeyChar)

/-- The parts of a key with periods between them and spaces around them, and what follows. The
first argument bounds their number. -/
def readKeyParts? : Nat → Text → Option (List Text × Text)
  | 0, _ => none
  | parts + 1, s =>
    match readKeyPart? (skipSpace s) with
    | none => none
    | some (part, rest) =>
      match skipSpace rest with
      | '.' :: rest => (readKeyParts? parts rest).map fun (others, rest) => (part :: others, rest)
      | rest => some ([part], rest)

/-- How many parts a key may have, and how deep lists and tables may stand in each other. -/
def depthLimit : Nat := 79

/-- A key at the start of a text, and what follows it. -/
def readKey? (s : Text) : Option (List Text × Text) :=
  readKeyParts? depthLimit s

end ColumnLineage.Toml
