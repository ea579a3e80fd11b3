import ColumnLineage.Text.Blank
import ColumnLineage.Text.Case
import ColumnLineage.Text.WordChar

/-!
Mentions of tables in raw text: an introducing phrase in any case, blanks, and a word. The scan goes
from left to right and resumes after each mention. It looks at text alone, so the phrase may end a
longer word or stand in a comment, a constant or a later statement.
-/

namespace ColumnLineage.Sql.TableMention

/-- The phrase before a table that is read from, in `FROM_PATTERN`. -/
def sourcePhrase : Text := "FROM".toList

/-- The phrase before the table that is created, in `CREATE_TABLE_PATTERN`. -/
def targetPhrase : Text := "CREATE TABLE".toList

/-- The word of a mention that a text starts with, and what follows it. -/
def read? (phrase s : Text) : Option (Text × Text) :=
  match Text.afterFolded? phrase s with
  | some (c :: rest) =>
    let afterBlanks := rest.dropWhile isBlank
    let word := afterBlanks.takeWhile isWordChar
    if isBlank c ∧ word ≠ [] then some (word, afterBlanks.dropWhile isWordChar) else none
  | _ => none

theorem length_lt_of_read? {phrase s word rest : Text} (h : read? phrase s = some (word, rest)) :
    rest.length < s.length := by
  unfold read? at h
  split at h
  · rename_i c after found
    have phraseLength := Text.length_of_afterFolded? found
    have blanks := Text.length_dropWhile_le isBlank after
    have tail := Text.length_dropWhile_le isWordChar (after.dropWhile isBlank)
    simp only at h
    split at h
    · obtain ⟨_, rfl⟩ := Prod.mk.inj (Option.some.inj h)
      simp only [List.length_cons] at phraseLength
      omega
    · simp at h
  · simp at h

/-- The words of all mentions in a text, in order. -/
def words (phrase : Text) : Text → List Text
  | [] => []
  | c :: s =>
    match h : read? phrase (c :: s) with
    | some (word, rest) => word :: words phrase rest
    | none => words phrase s
termination_by s => s.length
decreasing_by
  · exact length_lt_of_read? h
  · simp only [List.length_cons]; omega

/-- The table that a text says to create, the first if there are several:
`TableExtractor::target_table`. -/
def target? (sql : Text) : Option Text :=
  (words targetPhrase sql).head?

/-- The tables that a text mentions as sources, with repetitions:
`TableExtractor::source_tables`. -/
def sources (sql : Text) : List Text :=
  words sourcePhrase sql

end ColumnLineage.Sql.TableMention
