import ColumnLineage.Sql.Token.Comment
import ColumnLineage.Sql.Token.Dollar
import ColumnLineage.Sql.Token.Escape
import ColumnLineage.Sql.Token.Number
import ColumnLineage.Text.Blank

/-!
Reading tokens from text. Each step takes one token from the front and leaves a shorter text; a
constant, a quoted word or a block comment that does not end makes the whole text unreadable.
-/

namespace ColumnLineage.Sql

namespace Literal

/-- What can open a constant, longer openings first, and the kind of constant. -/
def openings : List (Text × Literal) :=
  [("r'''", rawTripleSingle), ("R'''", rawTripleSingle),
   ("r\"\"\"", rawTripleDouble), ("R\"\"\"", rawTripleDouble),
   ("u&'", unicode), ("U&'", unicode),
   ("r'", rawSingle), ("R'", rawSingle), ("r\"", rawDouble), ("R\"", rawDouble),
   ("b'", byteSingle), ("B'", byteSingle), ("b\"", byteDouble), ("B\"", byteDouble),
   ("n'", national), ("N'", national), ("x'", hexadecimal), ("X'", hexadecimal),
   ("e'", escaped), ("E'", escaped), ("'", plain)].map fun (mark, kind) => (mark.toList, kind)

/-- The first of some openings that a text starts with, and what follows it. -/
def openedBy? : List (Text × Literal) → Text → Option (Literal × Text)
  | [], _ => none
  | (mark, kind) :: others, s =>
    match Text.after? mark s with
    | some body => some (kind, body)
    | none => openedBy? others s

/-- The kind of constant that a text starts with, and what follows its opening. -/
def opened? (s : Text) : Option (Literal × Text) :=
  openedBy? openings s

/-- The value of a constant after its opening, and what follows its closing. -/
def readValue? : Literal → Text → Option (Text × Text)
  | national | hexadecimal => Quoted.readBackslashed
  | escaped => Escape.readEscapedValue
  | unicode => Escape.readUnicodeValue
  | byteDouble | rawDouble => Quoted.readDoubled '"'
  | rawTripleSingle => Quoted.readTriple '\''
  | rawTripleDouble => Quoted.readTriple '"'
  | plain | byteSingle | rawSingle => Quoted.readDoubled '\''

theorem suffix_of_readValue? {kind : Literal} {s value rest : Text}
    (h : kind.readValue? s = some (value, rest)) : rest <:+ s := by
  cases kind <;> first
    | exact Quoted.suffix_of_readBackslashed h
    | exact Escape.suffix_of_readEscapedValue h
    | exact Escape.suffix_of_readUnicodeValue h
    | exact Quoted.suffix_of_readDoubled h
    | exact Quoted.suffix_of_readTriple h

theorem exists_of_openedBy? {known : List (Text × Literal)} {s body : Text} {kind : Literal}
    (h : openedBy? known s = some (kind, body)) :
    ∃ mark, (mark, kind) ∈ known ∧ s = mark ++ body := by
  induction known with
  | nil => simp [openedBy?] at h
  | cons entry others ih =>
    obtain ⟨mark, kind'⟩ := entry
    simp only [openedBy?] at h
    split at h
    · rename_i after found
      obtain ⟨rfl, rfl⟩ : kind' = kind ∧ after = body := by simpa using h
      exact ⟨mark, by simp, Text.append_of_after? found⟩
    · obtain ⟨mark', member, split⟩ := ih h
      exact ⟨mark', by simp [member], split⟩

theorem length_pos_of_mem_openings : ∀ entry ∈ openings, 0 < entry.1.length := by
  decide

end Literal

namespace Word

/-- Whether a character begins a word without quotes. -/
def isStart (c : Char) : Bool :=
  isAlphabetic c || c = '_'

/-- Whether a character continues a word without quotes. -/
def isPart (c : Char) : Bool :=
  isAlphabetic c || isDigitIn 10 c || c = '@' || c = '$' || c = '#' || c = '_'

/-- The word that begins with `start` and goes on in `s`, and what follows it. -/
def readAfter (start s : Text) : Token × Text :=
  (.word ⟨none, start ++ s.takeWhile isPart⟩, s.dropWhile isPart)

/-- A quoted word after its opening quote, and what follows its closing quote. -/
def readQuoted? (mark : QuoteMark) (s : Text) : Option (Token × Text) :=
  (Quoted.readDoubled mark.char s).map fun (value, rest) => (.word ⟨some mark, value⟩, rest)

/-- A word that begins with a mark, or the mark as a symbol where a space or nothing follows. The
first character after the mark belongs to the word whatever it is. -/
def readMarked (mark : Text) (symbol : Symbol) : Text → Token × Text
  | [] => (.symbol symbol, [])
  | c :: s => if c = ' ' then (.symbol symbol, c :: s) else readAfter (mark ++ [c]) s

end Word

namespace Token

/-- The token that a character `c` begins where it begins neither a constant, a number, a comment
nor a symbol that reading knows, and what follows it. -/
def readOther? (c : Char) (s : Text) : Option (Token × Text) :=
  if c = '#' then some (Word.readMarked [c] .sharp s)
  else if c = '@' then
    match s with
    | '@' :: s => some (Word.readMarked [c, c] .doubleAt s)
    | s => some (Word.readMarked [c] .atSign s)
  else if c = '?' then some (.placeholder (c :: s.takeWhile isNumeric), s.dropWhile isNumeric)
  else if c = '$' then Dollar.read? s
  else if Word.isStart c then some (Word.readAfter [c] s)
  else if isBlank c then some (.spacing .space, s)
  else some (.other c, s)

/-- The comment or symbol that a text starts with and what follows it, or what its first character
begins otherwise. -/
def readMark? (c : Char) (s : Text) : Option (Token × Text) :=
  match Text.after? ['-', '-'] (c :: s), Text.after? ['/', '*'] (c :: s) with
  | some body, _ =>
    let (text, rest) := Comment.readLine body
    some (.spacing (.lineComment text), rest)
  | none, some body =>
    (Comment.readBlock body).map fun (text, rest) => (.spacing (.blockComment text), rest)
  | none, none =>
    match Symbol.read? (c :: s) with
    | some (mark, rest) => some (.symbol mark, rest)
    | none => readOther? c s

/-- The first token of a text and what follows it. -/
def read? : Text → Option (Token × Text)
  | [] => none
  | ' ' :: s => some (.spacing .space, s)
  | '\t' :: s => some (.spacing .tab, s)
  | '\n' :: s => some (.spacing .newline, s)
  | '\r' :: '\n' :: s => some (.spacing .newline, s)
  | '\r' :: s => some (.spacing .newline, s)
  | c :: s =>
    match Literal.opened? (c :: s) with
    | some (kind, body) =>
      (kind.readValue? body).map fun (value, rest) => (.literal kind value, rest)
    | none =>
      if c = '"' then Word.readQuoted? .double s
      else if c = '\x60' then Word.readQuoted? .back s
      else if isDigitIn 10 c ∨ c = '.' then some (Number.read (c :: s))
      else readMark? c s

theorem suffix_of_readMarked {mark : Text} {symbol : Symbol} {s rest : Text} {token : Token}
    (h : Word.readMarked mark symbol s = (token, rest)) : rest <:+ s := by
  unfold Word.readMarked at h
  split at h
  · obtain ⟨_, rfl⟩ := Prod.mk.inj h
    exact List.suffix_rfl
  · split at h <;> obtain ⟨_, rfl⟩ := Prod.mk.inj h
    · exact List.suffix_rfl
    · exact (List.dropWhile_suffix _).trans (List.suffix_cons _ _)

theorem suffix_of_readOther? {c : Char} {s rest : Text} {token : Token}
    (h : readOther? c s = some (token, rest)) : rest <:+ s := by
  unfold readOther? at h
  repeat' split at h
  · exact suffix_of_readMarked (Option.some.inj h)
  · exact (suffix_of_readMarked (Option.some.inj h)).trans (List.suffix_cons _ _)
  · exact suffix_of_readMarked (Option.some.inj h)
  · obtain ⟨_, rfl⟩ := Prod.mk.inj (Option.some.inj h)
    exact List.dropWhile_suffix _
  · exact Dollar.suffix_of_read? h
  · obtain ⟨_, rfl⟩ := Prod.mk.inj (Option.some.inj h)
    exact List.dropWhile_suffix _
  all_goals
    obtain ⟨_, rfl⟩ := Prod.mk.inj (Option.some.inj h)
    exact List.suffix_rfl

theorem length_lt_of_readMark? {c : Char} {s rest : Text} {token : Token}
    (h : readMark? c s = some (token, rest)) : rest.length < (c :: s).length := by
  unfold readMark? at h
  split at h
  · rename_i body found
    have split := congrArg List.length (Text.append_of_after? found)
    have line := congrArg List.length (Comment.readLine_append body)
    obtain ⟨_, rfl⟩ := Prod.mk.inj (Option.some.inj h)
    simp only [List.length_append, List.length_cons, List.length_nil] at split line ⊢
    omega
  · rename_i body found
    have split := congrArg List.length (Text.append_of_after? found)
    obtain ⟨⟨_, _⟩, read, same⟩ := Option.map_eq_some_iff.1 h
    have := (Comment.suffix_of_readBlock read).length_le
    cases same
    simp only [List.length_append, List.length_cons, List.length_nil] at split ⊢
    omega
  · split at h
    · rename_i read
      cases Option.some.inj h
      exact Symbol.length_lt_of_read? read
    · exact Nat.lt_succ_of_le (suffix_of_readOther? h).length_le

/-- Every token takes a part of the text. -/
theorem length_lt_of_read? {s rest : Text} {token : Token} (h : read? s = some (token, rest)) :
    rest.length < s.length := by
  unfold read? at h
  split at h
  · simp at h
  · cases Option.some.inj h
    simp only [List.length_cons]; omega
  · cases Option.some.inj h
    simp only [List.length_cons]; omega
  · cases Option.some.inj h
    simp only [List.length_cons]; omega
  · cases Option.some.inj h
    simp only [List.length_cons]; omega
  · cases Option.some.inj h
    simp only [List.length_cons]; omega
  · split at h
    · rename_i kind body opening
      obtain ⟨mark, member, split⟩ := Literal.exists_of_openedBy? opening
      have positive := Literal.length_pos_of_mem_openings _ member
      obtain ⟨⟨_, _⟩, read, same⟩ := Option.map_eq_some_iff.1 h
      have := (Literal.suffix_of_readValue? read).length_le
      cases same
      rw [split, List.length_append]
      exact Nat.lt_of_le_of_lt this (Nat.lt_add_of_pos_left positive)
    · split at h
      · obtain ⟨⟨_, _⟩, read, same⟩ := Option.map_eq_some_iff.1 h
        cases same
        exact Nat.lt_succ_of_le (Quoted.suffix_of_readDoubled read).length_le
      · split at h
        · obtain ⟨⟨_, _⟩, read, same⟩ := Option.map_eq_some_iff.1 h
          cases same
          exact Nat.lt_succ_of_le (Quoted.suffix_of_readDoubled read).length_le
        · split at h
          · rename_i start
            exact Number.length_lt_of_read start (Option.some.inj h)
          · exact length_lt_of_readMark? h

/-- All tokens of a text, or nothing where it cannot be read to its end: `Tokenizer::tokenize`. -/
def readAll? (s : Text) : Option (List Token) :=
  if s.isEmpty then some []
  else
    match h : read? s with
    | none => none
    | some (token, rest) =>
      match readAll? rest with
      | none => none
      | some tokens => some (token :: tokens)
termination_by s.length
decreasing_by exact length_lt_of_read? h

end Token

end ColumnLineage.Sql
