import ColumnLineage.Proofs.KeywordSpelling
import ColumnLineage.Proofs.QueryContract
import ColumnLineage.Proofs.SelectedItems

/-! The gate against the select list. A list is read after a word whose capitals are `SELECT`, the gate looks
for letters that fold to it, and the two ways to disregard case could disagree. They do not for this word:
characters with several capitals hold pairs of letters that it lacks, and the dotless `i` a letter that it
lacks. So the gate admits every text with a column. -/

namespace ColumnLineage.SelectGate
open Description (Service)
open KeywordSpelling (folds_of_isAnyOf ligatures)
open Lineage (QueryLineage)
open QueryContract (columnsToDescribe_of_columns columnsToDescribe_of_no_columns process_of_accepted
  process_of_refused)
open Report (QueryReport columnsToDescribe looksLikeSql process)
open SelectedItems (afterSelect?_split item_of_column)
open Sql
open StatementWords (Spells forall_mem_of_all looksLikeSql_iff spells_trim_iff)
open TextPieces (exists_pieces_of_mem)

/-! ## The word before the list -/

/-- A token that spells a keyword folds to it where it stands, if the keyword has no ligature and no `I`. -/
theorem spells_of_isAnyOf {sql : Text} {token : Token} {word : String}
    (member : token ∈ Statement.tokens sql) (named : token.isAnyOf [word] = true)
    (apart : ∀ ligature ∈ ligatures, ¬ ligature <:+: word.toList) (dotted : 'I' ∉ word.toList) :
    Spells sql word.toList := by
  obtain ⟨run, pieces, tokens⟩ := exists_pieces_of_mem member
  rw [← tokens] at member
  obtain ⟨piece, inside, rfl⟩ := List.mem_map.1 member
  have folds := folds_of_isAnyOf (pieces.legible piece inside) named apart dotted
  obtain ⟨before, after, rfl⟩ := List.append_of_mem inside
  refine ⟨piece.spelling, ⟨TextPieces.spelled before, TextPieces.spelled after, ?_⟩, folds⟩
  rw [← pieces.spelled_eq]
  simp

/-- A text with a column spells `SELECT`. -/
theorem spells_select {sql : Text} (some : (QueryLineage.ofSql sql).columns ≠ []) :
    Spells sql "SELECT".toList := by
  obtain ⟨column, columns, list⟩ := List.exists_cons_of_ne_nil some
  have member : column ∈ (QueryLineage.ofSql sql).columns := by simp [list]
  obtain ⟨list, item, found, -⟩ := item_of_column member
  unfold SelectList.ofTokens? at found
  split at found
  · rename_i rest after
    obtain ⟨before, select, whole, named⟩ := afterSelect?_split after
    have inFirst : select ∈ Statement.first sql := by simp [whole]
    have inText : select ∈ Statement.tokens sql := (Statement.firstFrom_isPrefix 0 _).subset inFirst
    exact spells_of_isAnyOf inText named (by decide +kernel) (by decide +kernel)
  · cases found

private theorem select_solid : ∀ c ∈ "SELECT".toList, isBlank c = false :=
  forall_mem_of_all (by decide)

theorem looksLikeSql_of_spells_select {sql : Text} (select : Spells sql "SELECT".toList) :
    looksLikeSql sql = true :=
  (looksLikeSql_iff sql).2 (.inr (.inr select))

/-- A text with a column is accepted. -/
theorem columnsToDescribe_of_some {sql : Text} (some : (QueryLineage.ofSql sql).columns ≠ []) :
    columnsToDescribe sql = .ok (QueryLineage.ofSql sql).columns :=
  columnsToDescribe_of_columns (.inr (.inr (spells_select some))) some

/-- The first error is the answer only to texts that the gate does not let through. -/
theorem looksLikeSql_of_invalid {sql : Text} (service : Service State) (state : State)
    (refused : (process service sql state).1 = .error "Invalid or empty SQL query".toList) :
    looksLikeSql (Text.trim sql) = false := by
  cases passed : looksLikeSql (Text.trim sql) with
  | false => rfl
  | true =>
    have named := (looksLikeSql_iff _).1 passed
    by_cases none : (QueryLineage.ofSql (Text.trim sql)).columns = []
    · rw [process_of_refused service state (columnsToDescribe_of_no_columns named none)] at refused
      exact absurd (QueryReport.error.inj refused) (by decide)
    · obtain ⟨calls, last, -, -, reported, -⟩ :=
        process_of_accepted service state (columnsToDescribe_of_columns named none)
      rw [reported] at refused
      cases refused

/-- A text with a column passes the gate. So a text is called invalid only if no column can be read from
it, neither as it is nor without the blanks at its ends. -/
theorem gate_admits_columns (service : Service State) (sql : Text) (state : State) :
    ((QueryLineage.ofSql sql).columns ≠ [] → looksLikeSql sql = true) ∧
      ((process service sql state).1 = .error "Invalid or empty SQL query".toList →
        (QueryLineage.ofSql sql).columns = [] ∧
          (QueryLineage.ofSql (Text.trim sql)).columns = []) := by
  refine ⟨fun some => looksLikeSql_of_spells_select (spells_select some), ?_⟩
  intro refused
  have closed := looksLikeSql_of_invalid service state refused
  have silent : ¬ Spells (Text.trim sql) "SELECT".toList := by
    intro select
    rw [looksLikeSql_of_spells_select select] at closed
    cases closed
  constructor
  · by_cases none : (QueryLineage.ofSql sql).columns = []
    · exact none
    · exact absurd ((spells_trim_iff select_solid).2 (spells_select none)) silent
  · by_cases none : (QueryLineage.ofSql (Text.trim sql)).columns = []
    · exact none
    · exact absurd (spells_select none) silent

private def silentService : Service Unit where
  name := "silent"
  generate _ state := (.ok [], state)

/-- The word may begin with a long `s` and stand in parentheses. -/
theorem gate_admits_nested_long_s :
    (QueryLineage.ofSql "((ſeleCt a FROM t))".toList).columns ≠ [] ∧
      looksLikeSql "((ſeleCt a FROM t))".toList = true := by
  have some : (QueryLineage.ofSql "((ſeleCt a FROM t))".toList).columns ≠ [] := by decide +kernel
  exact ⟨some, (gate_admits_columns silentService _ ()).1 some⟩

end ColumnLineage.SelectGate
