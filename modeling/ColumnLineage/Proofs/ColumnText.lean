import ColumnLineage.Proofs.RenderedText
import ColumnLineage.Proofs.SelectedItems

/-! The texts of a column against its query. A definition and a source column are each taken from a run of
the pieces of the query, and each is the query's own text exactly if no piece of its run is altered. A text
with an altered piece need not occur in the query at all, and where it does that is by chance. -/

namespace ColumnLineage.ColumnText
open Sql
open Lineage (Column QueryLineage Tables)
open RenderedText
open SelectedItems
open TextPieces
open TokenSpelling (Altered)

/-- A run in which every piece is rendered as it is spelled. -/
def Unaltered (run : List Piece) : Prop :=
  ∀ piece ∈ run, ¬ Altered piece.token piece.spelling

/-! ## Runs of pieces for runs of tokens -/

private theorem exists_run_of_isInfix {run : List Piece} {tokens : List Token}
    (inside : tokens <:+: run.map Piece.token) :
    ∃ before part after, run = before ++ part ++ after ∧ part.map Piece.token = tokens := by
  obtain ⟨first, last, whole⟩ := inside
  obtain ⟨start, after, rfl, atStart, -⟩ := List.map_eq_append_iff.1 whole.symm
  obtain ⟨before, part, rfl, -, same⟩ := List.map_eq_append_iff.1 atStart
  exact ⟨before, part, after, rfl, same⟩

private theorem exists_run_of_isPrefix {run : List Piece} {tokens : List Token}
    (start : tokens <+: run.map Piece.token) :
    ∃ part rest, run = part ++ rest ∧ part.map Piece.token = tokens := by
  obtain ⟨last, whole⟩ := start
  obtain ⟨part, rest, rfl, same, -⟩ := List.map_eq_append_iff.1 whole.symm
  exact ⟨part, rest, rfl, same⟩

private theorem solid_of_trimmed {run : List Piece} (trimmed : Trimmed (run.map Piece.token)) :
    Solid run := by
  constructor
  · obtain ⟨token, tokens, whole, solid⟩ := trimmed.begins
    obtain ⟨first, more, rfl, rfl, -⟩ := List.map_eq_cons_iff.1 whole
    exact ⟨first, more, rfl, isWhite_eq_false solid⟩
  · obtain ⟨tokens, token, whole, solid⟩ := trimmed.ends
    obtain ⟨front, back, rfl, -, single⟩ := List.map_eq_append_iff.1 whole
    obtain ⟨last, rfl, rfl⟩ := List.map_eq_singleton_iff.1 single
    exact ⟨front, last, rfl, isWhite_eq_false solid⟩

/-- A run that begins with more than white space is a solid run with white space after it. -/
private theorem exists_solid {run : List Piece}
    (begins : ∃ first more, run = first :: more ∧ isWhite first.token = false) :
    ∃ source white, run = source ++ white ∧ Solid source ∧
      ∀ piece ∈ white, isWhite piece.token = true := by
  let blank : Piece → Bool := fun piece => isWhite piece.token
  have whole : run.rdropWhile blank ++ run.rtakeWhile blank = run :=
    List.rdropWhile_append_rtakeWhile
  obtain ⟨first, more, rfl, solid⟩ := begins
  have some : (first :: more).rdropWhile blank ≠ [] := by
    intro none
    have white : isWhite first.token = true := List.rdropWhile_eq_nil_iff.1 none first (by simp)
    rw [solid] at white
    cases white
  refine ⟨_, _, whole.symm, ⟨?_, ?_⟩, fun piece member => List.mem_rtakeWhile_imp (p := blank) member⟩
  · obtain ⟨head, rest, start⟩ := List.exists_cons_of_ne_nil some
    rw [start, List.cons_append] at whole
    obtain ⟨rfl, -⟩ := List.cons.inj whole
    exact ⟨head, rest, start, solid⟩
  · refine ⟨_, _, (List.dropLast_append_getLast some).symm, ?_⟩
    exact Bool.eq_false_iff.2 (List.rdropWhile_last_not blank (first :: more) some)

/-! ## Definitions and source columns -/

private theorem trim_ne_nil {s : Text} (begins : Text.BeginsSolid s) : Text.trim s ≠ [] := by
  rw [Text.trim, Text.trimStart_of_beginsSolid begins]
  exact begins.trimEnd.ne_nil

/-- A token that is not white space is rendered as some text, its own one exactly if it is not altered. -/
private theorem first_source {piece : Piece} (legible : piece.Legible)
    (solid : isWhite piece.token = false) :
    piece.token.render = rendered [piece] ∧ piece.token.render ≠ [] ∧
      (piece.token.render = spelled [piece] ↔ Unaltered [piece]) := by
  have alone : piece.token.render = rendered [piece] := by simp [rendered]
  refine ⟨alone, ?_, ?_⟩
  · exact (render_begins legible solid).ne_nil
  · rw [alone]
    exact rendered_eq_spelled_iff (by simpa using legible)

/-- A run that begins with more than white space is trimmed to the text of a run at its front. -/
private theorem run_source {run : List Piece} (legible : ∀ piece ∈ run, piece.Legible)
    (begins : ∃ first more, run = first :: more ∧ isWhite first.token = false) :
    ∃ source white, run = source ++ white ∧
      Text.trim (rendered run) = Text.trim (rendered source) ∧ Text.trim (rendered source) ≠ [] ∧
      (Text.trim (rendered source) = Text.trim (spelled source) ↔ Unaltered source) := by
  obtain ⟨source, white, rfl, solid, blank⟩ := exists_solid begins
  have legibleSource : ∀ piece ∈ source, piece.Legible :=
    fun piece member => legible piece (List.mem_append_left _ member)
  exact ⟨source, white, rfl, trim_rendered_append legible solid blank,
    trim_ne_nil (rendered_begins legibleSource solid), trim_rendered_eq_iff legibleSource solid⟩

/-- The first token of an expression that is solid at its start is its first significant one. -/
private theorem significant_head {first token : Token} {more others : List Token}
    (solid : first.isSpacing = false)
    (significant : Token.significant (first :: more) = token :: others) : token = first := by
  rw [Token.significant, List.filter_cons_of_pos (by simp [solid])] at significant
  exact (List.cons.inj significant).1.symm

/-- The text that an item reads from is taken from a run at its front, trimmed or as it is. -/
private theorem leadingText_source {item : SelectItem} {run : List Piece}
    (legible : ∀ piece ∈ run, piece.Legible) (same : run.map Piece.token = item.tokens)
    (trimmed : Trimmed item.tokens) :
    ∃ source rest cut, run = source ++ rest ∧ (cut = id ∨ cut = Text.trim) ∧
      item.leadingText = cut (rendered source) ∧ item.leadingText ≠ [] ∧
      (item.leadingText = cut (spelled source) ↔ Unaltered source) := by
  obtain ⟨start, token, member, -⟩ := expression_isPrefix trimmed
  rw [← same] at start
  obtain ⟨part, rest, rfl, expression⟩ := exists_run_of_isPrefix start
  have some : part ≠ [] := by
    rintro rfl
    rw [← expression] at member
    cases member
  obtain ⟨first, more, rfl⟩ := List.exists_cons_of_ne_nil some
  have solid : first.token.isSpacing = false := by
    obtain ⟨head, tokens, whole, solid⟩ := trimmed.begins
    rw [← same, List.map_append, List.map_cons, List.cons_append] at whole
    rwa [(List.cons.inj whole).1]
  have legiblePart : ∀ piece ∈ first :: more, piece.Legible :=
    fun piece member => legible piece (List.mem_append_left _ member)
  rcases leadingText_cases item with ⟨head, second, others, significant, leading⟩ | leading
  · rw [← expression, List.map_cons] at significant
    obtain rfl := significant_head solid significant
    obtain ⟨whole, full, plain⟩ := first_source (legiblePart first (by simp)) (isWhite_eq_false solid)
    rw [leading]
    exact ⟨[first], more ++ rest, id, by simp, .inl rfl, whole, full, plain⟩
  · obtain ⟨source, white, split, taken, full, plain⟩ :=
      run_source legiblePart ⟨first, more, rfl, isWhite_eq_false solid⟩
    have leading : item.leadingText = Text.trim (rendered source) := by
      rw [leading, SelectItem.expressionText, ← expression]
      exact taken
    rw [leading]
    exact ⟨source, white ++ rest, Text.trim, by rw [split, List.append_assoc], .inr rfl, rfl, full, plain⟩

private theorem column_of_ofItem? {tables : Tables} {item : SelectItem} {column : Column}
    (made : Column.ofItem? tables item = some column) (some : item.leadingText ≠ []) :
    column.definition = Text.trim (Token.renderAll item.tokens) ∧
      column.sourceColumn = item.leadingText := by
  obtain ⟨-, definition, -, source⟩ := parts_of_ofItem? made
  exact ⟨definition, source some⟩

/-- The definition of a column is taken from a run of the pieces of its query, and its source column from
a part at the front of that run. Each is the text that its run takes up in the query exactly if no piece
of the run is altered, and then it occurs in the query. -/
theorem column_texts {sql : Text} {column : Column}
    (member : column ∈ (QueryLineage.ofSql sql).columns) :
    ∃ before source rest after cut, Pieces sql (before ++ (source ++ rest) ++ after) ∧
      column.definition = Text.trim (rendered (source ++ rest)) ∧
      (cut = id ∨ cut = Text.trim) ∧ column.sourceColumn = cut (rendered source) ∧
      (column.definition = Text.trim (spelled (source ++ rest)) ↔ Unaltered (source ++ rest)) ∧
      (column.sourceColumn = cut (spelled source) ↔ Unaltered source) ∧
      (Unaltered (source ++ rest) → column.definition <:+: sql) ∧
      (Unaltered source → column.sourceColumn <:+: sql) := by
  obtain ⟨list, item, found, listed, made⟩ := item_of_column member
  obtain ⟨inText, trimmed⟩ := item_isInfix found listed
  obtain ⟨first, more, whole, -⟩ := trimmed.begins
  have held : first ∈ item.tokens := by simp [whole]
  obtain ⟨run, pieces, tokens⟩ := exists_pieces_of_mem (inText.subset held)
  rw [← tokens] at inText
  obtain ⟨before, part, after, rfl, same⟩ := exists_run_of_isInfix inText
  have legible : ∀ piece ∈ part, piece.Legible :=
    fun piece member => pieces.legible piece (by simp [member])
  have solid : Solid part := solid_of_trimmed (same ▸ trimmed)
  obtain ⟨source, rest, cut, rfl, cuts, leading, some, sourceIff⟩ :=
    leadingText_source legible same trimmed
  obtain ⟨definition, sourceColumn⟩ := column_of_ofItem? made some
  rw [← same] at definition
  rw [← sourceColumn] at leading sourceIff
  have definitionIff : column.definition = Text.trim (spelled (source ++ rest)) ↔
      Unaltered (source ++ rest) := definition ▸ trim_rendered_eq_iff legible solid
  have inQuery : spelled (source ++ rest) <:+: sql :=
    ⟨spelled before, spelled after, by simp only [← pieces.spelled_eq, spelled_append]⟩
  refine ⟨before, source, rest, after, cut, pieces, definition, cuts, leading, definitionIff, sourceIff,
    ?_, ?_⟩
  · intro plain
    rw [definitionIff.2 plain]
    exact (Text.trim_infix _).trans inQuery
  · intro plain
    rw [sourceIff.2 plain]
    have inItem : spelled source <:+: spelled (source ++ rest) := ⟨[], spelled rest, by simp⟩
    rcases cuts with rfl | rfl
    · exact inItem.trans inQuery
    · exact (Text.trim_infix _).trans (inItem.trans inQuery)

/-- The column of a query that spells inequality in the second way. -/
def inequality : Column :=
  { table := "t".toList
    name := "c".toList
    sourceTable := some "t".toList
    sourceColumn := "a <> b".toList
    definition := "a <> b AS c".toList
    transformed := true }

private theorem inequality_mem :
    inequality ∈ (QueryLineage.ofSql "SELECT a != b AS c FROM t".toList).columns := by
  decide +kernel

/-- The texts of that column are not the query's own, and a piece of its source is altered. -/
theorem column_texts_of_inequality :
    inequality ∈ (QueryLineage.ofSql "SELECT a != b AS c FROM t".toList).columns ∧
      ∃ before source rest after, ∃ cut : Text → Text,
        Pieces "SELECT a != b AS c FROM t".toList (before ++ (source ++ rest) ++ after) ∧
        inequality.definition = Text.trim (rendered (source ++ rest)) ∧
        inequality.sourceColumn = cut (rendered source) ∧
        inequality.sourceColumn ≠ cut (spelled source) ∧ ¬ Unaltered source := by
  obtain ⟨before, source, rest, after, cut, pieces, definition, -, taken, -, sourceIff, -, occurs⟩ :=
    column_texts inequality_mem
  have absent : ¬ inequality.sourceColumn <:+: "SELECT a != b AS c FROM t".toList := by
    decide +kernel
  have altered : ¬ Unaltered source := fun plain => absent (occurs plain)
  exact ⟨inequality_mem, before, source, rest, after, cut, pieces, definition, taken,
    fun own => altered (sourceIff.1 own), altered⟩

/-- So the texts of a column need not occur in its query. -/
theorem not_always_in_query :
    ¬ ∀ (sql : Text) (column : Column), column ∈ (QueryLineage.ofSql sql).columns →
      column.definition <:+: sql ∧ column.sourceColumn <:+: sql := by
  intro always
  exact absurd (always _ _ inequality_mem).1 (by decide +kernel)

end ColumnLineage.ColumnText
