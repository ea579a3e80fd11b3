import ColumnLineage.Sql.Token.Quoted

/-!
Comments. A line comment takes its line end with it. A block comment may hold others; the marks are
looked for in neighbouring characters, so one character can belong to two marks.
-/

namespace ColumnLineage.Sql.Comment

open Quoted (keep keep_eq_some)

/-- A text up to and with its first line end, and what follows it. -/
def readLine : Text → Text × Text
  | [] => ([], [])
  | c :: s =>
    if c = '\n' then ([c], s)
    else
      let (line, rest) := readLine s
      (c :: line, rest)

/-- The text of a block comment with the star that ends it, and what follows the comment. `level`
counts the comments inside that are open and `last` is the character before. -/
def readNested : Nat → Char → Text → Option (Text × Text)
  | _, _, [] => none
  | level, last, c :: s =>
    if last = '/' ∧ c = '*' then keep c (readNested (level + 1) c s)
    else if last = '*' ∧ c = '/' then
      match level with
      | 0 => some ([], s)
      | level + 1 => keep c (readNested level c s)
    else keep c (readNested level c s)

/-- The text of a block comment whose opening mark has been read, and what follows the comment. -/
def readBlock (s : Text) : Option (Text × Text) :=
  (readNested 0 ' ' s).map fun (text, rest) => (text.dropLast, rest)

theorem readLine_append (s : Text) : (readLine s).1 ++ (readLine s).2 = s := by
  fun_induction readLine s <;> simp_all

theorem suffix_of_readNested {level : Nat} {last : Char} {s text rest : Text}
    (h : readNested level last s = some (text, rest)) : rest <:+ s := by
  fun_induction readNested level last s generalizing text <;>
    grind [keep_eq_some, List.suffix_cons_iff]

theorem suffix_of_readBlock {s text rest : Text} (h : readBlock s = some (text, rest)) :
    rest <:+ s := by
  obtain ⟨⟨_, _⟩, read, same⟩ := Option.map_eq_some_iff.1 h
  cases same
  exact suffix_of_readNested read

end ColumnLineage.Sql.Comment
