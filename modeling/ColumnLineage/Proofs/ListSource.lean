import ColumnLineage.Proofs.KeywordSpelling
import ColumnLineage.Proofs.SelectedItems
import ColumnLineage.Proofs.StatementWords
import ColumnLineage.Proofs.TableMentions

/-! The source of the columns against the `FROM` that ends their list. The list is found among tokens and the
source in the raw text, where a table mentioned before that `FROM` comes first: one of a nested query, of a
function that is written with the keyword, or of a comment. Where none is, the source is the word after it. -/

namespace ColumnLineage.ListSource
open KeywordSpelling (folds_of_from spelling_of_unquoted)
open Lineage (Column QueryLineage)
open SelectedItems (item_of_column)
open Sql
open SelectList (afterQuantifiers afterSelect? regionFrom)
open StatementWords (isBlank_foldCase)
open TableMention (sourcePhrase sources)
open TableMentions (Mention head?_words takeWhile_dropWhile)
open TextPieces

variable {sql letters w : Text} {before gap more : List Token} {keyword : Token}

/-- Every column has the first table that its text mentions as its source. -/
theorem sourceTable_of_column {column : Column} (member : column ∈ (QueryLineage.ofSql sql).columns) :
    column.sourceTable = (sources sql).head? := by
  obtain ⟨list, item, -, -, made⟩ := item_of_column member
  obtain ⟨name, -, rfl⟩ := Option.map_eq_some_iff.1 made
  rfl

private theorem endsSolid_of_folds {word : Text} (folds : letters.map foldCase = word)
    (solid : Text.EndsSolid word) : Text.EndsSolid letters := by
  obtain ⟨front, last, rfl, solid⟩ := solid
  obtain ⟨others, final, rfl, -, folded⟩ := List.map_eq_append_iff.1 folds
  obtain ⟨c, rfl, rfl⟩ := List.map_eq_singleton_iff.1 folded
  rw [isBlank_foldCase] at solid
  exact ⟨others, c, rfl, solid⟩

/-- The pieces of a keyword, white space and a word are a mention, of the word with the word characters
after it. -/
theorem mention_of_pieces {s : Text} {phrase word : Piece} {white after : List Piece}
    (pieces : Pieces s (phrase :: (white ++ word :: after))) (named : phrase.token.isAnyOf ["FROM"] = true)
    (apart : white ≠ []) (whites : ∀ piece ∈ white, isWhite piece.token = true)
    (unquoted : word.token = .word ⟨none, w⟩) (solid : ∀ c ∈ w, isWordChar c = true) :
    Mention sourcePhrase phrase.spelling (spelled white) (w ++ (spelled after).takeWhile isWordChar)
      ((spelled after).dropWhile isWordChar) := by
  have legible := pieces.legible
  have some := pieces.spelling_ne_nil
  refine ⟨folds_of_from (legible phrase (by simp)) named, ?_, ?_, ?_, ?_, ?_⟩
  · obtain ⟨first, more, rfl⟩ := List.exists_cons_of_ne_nil apart
    exact List.append_ne_nil_of_left_ne_nil (some first (by simp)) _
  · intro c member
    obtain ⟨piece, inside, spelling⟩ := List.mem_flatMap.1 member
    exact (legible piece (by simp [inside])).blank (whites piece inside) c spelling
  · have spelling := some word (by simp)
    rw [spelling_of_unquoted (legible word (by simp)) unquoted] at spelling
    exact List.append_ne_nil_of_left_ne_nil spelling _
  · exact List.forall_mem_append.2 ⟨solid, fun c member => List.mem_takeWhile_imp member⟩
  · exact takeWhile_dropWhile _ _

/-- The first table that a text mentions, where a word stands among its tokens after `FROM` and white space:
the first that is mentioned up to the keyword, or else that word, with the word characters after it. -/
theorem head?_sources_of_keyword
    (tokens : Statement.tokens sql = before ++ keyword :: (gap ++ .word ⟨none, w⟩ :: more))
    (named : keyword.isAnyOf ["FROM"] = true) (apart : gap ≠ [])
    (white : ∀ token ∈ gap, isWhite token = true) (solid : ∀ c ∈ w, isWordChar c = true) :
    ∃ first last, Pieces sql (first ++ last) ∧ first.map Piece.token = before ++ [keyword] ∧
      ∃ blanks back, spelled last = blanks ++ (w ++ back) ∧ (∀ c ∈ blanks, isBlank c = true) ∧
        (sources sql).head? =
          ((sources (spelled first)).head? <|> some (w ++ back.takeWhile isWordChar)) := by
  have member : keyword ∈ Statement.tokens sql := by simp [tokens]
  obtain ⟨run, pieces, same⟩ := exists_pieces_of_mem member
  rw [tokens] at same
  obtain ⟨opening, rest, rfl, rfl, restTokens⟩ := List.map_eq_append_iff.1 same
  obtain ⟨phrase, last, rfl, rfl, lastTokens⟩ := List.map_eq_cons_iff.1 restTokens
  obtain ⟨whites, others, rfl, rfl, othersTokens⟩ := List.map_eq_append_iff.1 lastTokens
  obtain ⟨word, after, rfl, unquoted, -⟩ := List.map_eq_cons_iff.1 othersTokens
  have mention := mention_of_pieces pieces.suffix named (by simpa using apart)
    (fun piece inside => white _ (List.mem_map_of_mem inside)) unquoted solid
  have wordSpelling : word.spelling = w := spelling_of_unquoted (pieces.legible word (by simp)) unquoted
  have phraseEnds : Text.EndsSolid phrase.spelling :=
    endsSolid_of_folds mention.folds ⟨"fro".toList, 'm', by decide +kernel, by decide⟩
  refine ⟨opening ++ [phrase], whites ++ word :: after, by simpa using pieces, by simp, spelled whites,
    spelled after, by simp [wordSpelling], mention.blank, ?_⟩
  have whole : sql = spelled opening ++ phrase.spelling ++ (spelled whites ++
      (w ++ (spelled after).takeWhile isWordChar ++ (spelled after).dropWhile isWordChar)) := by
    rw [← pieces.spelled_eq]
    simp [wordSpelling]
  have found := head?_words mention phraseEnds (spelled opening)
  rw [← whole] at found
  simpa [sources, spelled] using found

/-! ## The end of the list -/

/-- The tokens of a statement up to the end of its select list, and those from there on. -/
def ListEnds (statement before rest : List Token) : Prop :=
  statement = before ++ rest ∧ ∃ after, afterSelect? statement = some after ∧
    afterQuantifiers after = regionFrom 0 (afterQuantifiers after) ++ rest

/-- The source of the columns, where the list they are taken from ends with `FROM`, white space and a word.
It is the first table that the text mentions up to that `FROM`, in whatever place, or else that word, with the
word characters after it. -/
theorem sourceTable_of_listEnds
    (ends : ListEnds (Statement.first sql) before (keyword :: (gap ++ .word ⟨none, w⟩ :: more)))
    (named : keyword.isAnyOf ["FROM"] = true) (apart : gap ≠ [])
    (white : ∀ token ∈ gap, isWhite token = true) (solid : ∀ c ∈ w, isWordChar c = true) :
    ∃ first last, Pieces sql (first ++ last) ∧ first.map Piece.token = before ++ [keyword] ∧
      ∃ blanks back, spelled last = blanks ++ (w ++ back) ∧ (∀ c ∈ blanks, isBlank c = true) ∧
        ∀ column ∈ (QueryLineage.ofSql sql).columns, column.sourceTable =
          ((sources (spelled first)).head? <|> some (w ++ back.takeWhile isWordChar)) := by
  obtain ⟨others, whole⟩ : Statement.first sql <+: Statement.tokens sql := Statement.firstFrom_isPrefix 0 _
  have tokens : Statement.tokens sql = before ++ keyword :: (gap ++ .word ⟨none, w⟩ :: (more ++ others)) := by
    rw [← whole, ends.1]
    simp
  obtain ⟨first, last, pieces, start, blanks, back, after, blank, found⟩ :=
    head?_sources_of_keyword tokens named apart white solid
  refine ⟨first, last, pieces, start, blanks, back, after, blank, ?_⟩
  intro column member
  rw [sourceTable_of_column member, found]

private def nested : Text := "WITH x AS (SELECT a FROM t) SELECT b FROM x".toList

private def nestedStart : List Token :=
  (Statement.first nested).take 20

private def fromWord : Token := .word ⟨none, "FROM".toList⟩

private theorem nested_ends :
    ListEnds (Statement.first nested) nestedStart
      (fromWord :: ([.spacing .space] ++ [.word ⟨none, ['x']⟩])) :=
  ⟨by decide +kernel, (Statement.first nested).drop 17, by decide +kernel, by decide +kernel⟩

private theorem x_solid : ∀ c ∈ ['x'], isWordChar c = true :=
  List.forall_mem_singleton.2 (by decide +kernel)

/-- The keyword may stand in a nested query before. -/
theorem sourceTable_of_nested :
    ListEnds (Statement.first nested) nestedStart
        (fromWord :: ([.spacing .space] ++ [.word ⟨none, ['x']⟩])) ∧
      (QueryLineage.ofSql nested).columns ≠ [] ∧
      ∃ first last, Pieces nested (first ++ last) ∧ first.map Piece.token = nestedStart ++ [fromWord] ∧
        ∃ back : Text, ∀ column ∈ (QueryLineage.ofSql nested).columns, column.sourceTable =
          ((sources (spelled first)).head? <|> some (['x'] ++ back.takeWhile isWordChar)) := by
  obtain ⟨first, last, pieces, start, _, back, -, -, found⟩ := sourceTable_of_listEnds nested_ends
    (by decide +kernel) (List.cons_ne_nil _ _) (by decide) x_solid
  exact ⟨nested_ends, by decide +kernel, first, last, pieces, start, back, found⟩

/-- So the word after the list need not be the source. -/
theorem not_always_list_source :
    ¬ ∀ (sql : Text) (before gap more : List Token) (keyword : Token) (w : Text),
      ListEnds (Statement.first sql) before (keyword :: (gap ++ .word ⟨none, w⟩ :: more)) →
        keyword.isAnyOf ["FROM"] = true → gap ≠ [] → (∀ token ∈ gap, isWhite token = true) →
        (∀ c ∈ w, isWordChar c = true) →
          ∀ column ∈ (QueryLineage.ofSql sql).columns, column.sourceTable = some w := by
  intro always
  have others : ∃ column ∈ (QueryLineage.ofSql nested).columns, column.sourceTable ≠ some ['x'] := by
    decide +kernel
  obtain ⟨column, member, other⟩ := others
  exact other (always nested nestedStart [.spacing .space] [] fromWord ['x'] nested_ends (by decide +kernel)
    (List.cons_ne_nil _ _) (by decide) x_solid column member)

end ColumnLineage.ListSource
