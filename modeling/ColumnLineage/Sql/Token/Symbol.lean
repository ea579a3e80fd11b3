import ColumnLineage.Text.Basic

/-!
Symbols: punctuation and operators. Each has one rendering; `!=` is a second spelling of `<>`.
Reading takes the longest spelling that the text starts with.
-/

namespace ColumnLineage.Sql

/-- A punctuation mark or an operator. -/
inductive Symbol where
  | openParen | closeParen | openBracket | closeBracket | openBrace | closeBrace
  | comma | period | semicolon | backslash
  | colon | doubleColon | assignment
  | equals | doubleEquals | arrowRight | notEquals | less | lessEquals | greater | greaterEquals
  | spaceship | shiftLeft | shiftRight | arrowAt | atArrow | atQuestion
  | plus | minus | star | slash | doubleSlash | percent
  | arrow | longArrow | hashArrow | hashLongArrow | hashMinus | sharp
  | pipe | concat | squareRoot | cubeRoot
  | ampersand | overlap | caret | caretAt | atSign | doubleAt
  | exclamation | doubleExclamation | notTilde | notTildeStar | notDoubleTilde | notDoubleTildeStar
  | tilde | tildeStar | doubleTilde | doubleTildeStar
  deriving DecidableEq

namespace Symbol

/-- How a symbol is written. -/
def spelling : Symbol → String
  | openParen => "(" | closeParen => ")"
  | openBracket => "[" | closeBracket => "]"
  | openBrace => "\x7b" | closeBrace => "\x7d"
  | comma => "," | period => "." | semicolon => ";" | backslash => "\\"
  | colon => ":" | doubleColon => "::" | assignment => ":="
  | equals => "=" | doubleEquals => "==" | arrowRight => "=>"
  | notEquals => "<>" | less => "<" | lessEquals => "<="
  | greater => ">" | greaterEquals => ">=" | spaceship => "<=>"
  | shiftLeft => "<<" | shiftRight => ">>"
  | arrowAt => "<@" | atArrow => "@>" | atQuestion => "@?"
  | plus => "+" | minus => "-" | star => "*"
  | slash => "/" | doubleSlash => "//" | percent => "%"
  | arrow => "->" | longArrow => "->>"
  | hashArrow => "#>" | hashLongArrow => "#>>" | hashMinus => "#-" | sharp => "#"
  | pipe => "|" | concat => "||" | squareRoot => "|/" | cubeRoot => "||/"
  | ampersand => "&" | overlap => "&&" | caret => "^" | caretAt => "^@"
  | atSign => "@" | doubleAt => "@@"
  | exclamation => "!" | doubleExclamation => "!!"
  | notTilde => "!~" | notTildeStar => "!~*"
  | notDoubleTilde => "!~~" | notDoubleTildeStar => "!~~*"
  | tilde => "~" | tildeStar => "~*" | doubleTilde => "~~" | doubleTildeStar => "~~*"

/-- A symbol with the spelling it is written in. -/
def written (s : Symbol) : Text × Symbol := (s.spelling.toList, s)

/-- The spellings that reading knows, longer ones first. A lone `#` or `@` and the pair `@@` are
not among them: what follows decides whether they are symbols. -/
def readable : List (Text × Symbol) :=
  [notDoubleTildeStar].map written
  ++ [notTildeStar, notDoubleTilde, doubleTildeStar, spaceship, longArrow, hashLongArrow,
      cubeRoot].map written
  ++ ("!=".toList, notEquals)
  :: [doubleColon, assignment, doubleEquals, arrowRight, notEquals, lessEquals, greaterEquals,
      shiftLeft, shiftRight, arrowAt, atArrow, atQuestion, doubleSlash, arrow, hashArrow,
      hashMinus, concat, squareRoot, overlap, caretAt, doubleExclamation, notTilde, tildeStar,
      doubleTilde].map written
  ++ [openParen, closeParen, openBracket, closeBracket, openBrace, closeBrace, comma, period,
      semicolon, backslash, colon, equals, less, greater, plus, minus, star, slash, percent, pipe,
      ampersand, caret, exclamation, tilde].map written

/-- The symbol that a text starts with, by the first spelling of a list that fits, and what
follows it. -/
def readFrom? : List (Text × Symbol) → Text → Option (Symbol × Text)
  | [], _ => none
  | (spelling, symbol) :: others, s =>
    match Text.after? spelling s with
    | some rest => some (symbol, rest)
    | none => readFrom? others s

/-- The symbol with the longest spelling that a text starts with, and what follows it. -/
def read? (s : Text) : Option (Symbol × Text) :=
  readFrom? readable s

theorem exists_of_readFrom? {known : List (Text × Symbol)} {s : Text} {symbol : Symbol}
    {rest : Text} (h : readFrom? known s = some (symbol, rest)) :
    ∃ spelling, (spelling, symbol) ∈ known ∧ s = spelling ++ rest := by
  induction known with
  | nil => simp [readFrom?] at h
  | cons entry others ih =>
    obtain ⟨spelling, symbol'⟩ := entry
    simp only [readFrom?] at h
    split at h
    · rename_i after found
      obtain ⟨rfl, rfl⟩ : symbol' = symbol ∧ after = rest := by simpa using h
      exact ⟨spelling, by simp, Text.append_of_after? found⟩
    · obtain ⟨spelling', member, split⟩ := ih h
      exact ⟨spelling', by simp [member], split⟩

/-- Every spelling but one is the rendering of its symbol. -/
theorem spelling_of_mem_readable :
    ∀ entry ∈ readable, entry = ("!=".toList, notEquals) ∨ entry.1 = entry.2.spelling.toList := by
  decide

/-- A symbol that is read stands at the start of the text in one of its spellings. -/
theorem append_of_read? {s : Text} {symbol : Symbol} {rest : Text}
    (h : read? s = some (symbol, rest)) :
    (symbol = notEquals ∧ s = "!=".toList ++ rest) ∨ s = symbol.spelling.toList ++ rest := by
  obtain ⟨spelling, member, rfl⟩ := exists_of_readFrom? h
  rcases spelling_of_mem_readable _ member with same | same
  · obtain ⟨rfl, rfl⟩ := Prod.mk.inj same
    exact .inl ⟨rfl, rfl⟩
  · exact .inr (by rw [← same])

theorem spelling_length_pos (symbol : Symbol) : 0 < symbol.spelling.toList.length := by
  cases symbol <;> decide

theorem length_lt_of_read? {s : Text} {symbol : Symbol} {rest : Text}
    (h : read? s = some (symbol, rest)) : rest.length < s.length := by
  have := spelling_length_pos symbol
  rcases append_of_read? h with ⟨_, rfl⟩ | rfl
  · simp only [List.length_append]; exact Nat.lt_add_of_pos_left (by decide)
  · rw [List.length_append]; omega

end Symbol

end ColumnLineage.Sql
