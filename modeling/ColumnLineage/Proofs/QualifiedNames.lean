import ColumnLineage.Proofs.ListSource
import ColumnLineage.Proofs.MentionScan
import ColumnLineage.Proofs.QueryContract

/-! The tables that columns are named with. A table is called by word characters, whether a mention names it or
nothing does, and all columns of a query share one table and one source. A period is no word character, so the
first period of a qualified name ends its table, and what follows is the name of the column, whatever characters
that holds. -/

namespace ColumnLineage.QualifiedNames
open Description (Service)
open Lineage (Column QueryLineage Tables unknownTable)
open ListSource (sourceTable_of_column)
open MentionScan (Occurrence head?_words_eq_none_iff)
open QueryContract (columnsToDescribe_of_columns process_of_described process_of_refused)
open Report (ColumnReport QueryReport columnsToDescribe describeAll process)
open SelectedItems (item_of_column)
open Sql.TableMention (sourcePhrase sources target? targetPhrase words)
open StatementWords (forall_mem_of_all looksLikeSql_iff)
open TableMentions (mention_of_mem_words)

variable {phrase sql name table : Text} {column : Column} {report : ColumnReport}

/-! ## Names of tables -/

/-- What a table can be called: word characters, at least one. -/
structure TableName (name : Text) : Prop where
  some : name ≠ []
  solid : ∀ c ∈ name, isWordChar c = true

theorem tableName_of_mem_words (member : name ∈ words phrase sql) : TableName name := by
  obtain ⟨front, letters, blanks, rest, -, mention⟩ := mention_of_mem_words member
  exact ⟨mention.named, mention.solid⟩

theorem tableName_unknownTable : TableName unknownTable :=
  ⟨List.cons_ne_nil _ _, forall_mem_of_all (by decide +kernel)⟩

/-- The target is a mentioned table or the one for none. -/
theorem tableName_target (sql : Text) : TableName (Tables.ofSql sql).target := by
  unfold Tables.ofSql Tables.ofMentions
  cases created : target? sql with
  | some name => exact tableName_of_mem_words (List.mem_of_head? created)
  | none =>
    cases first : (sources sql).head? with
    | some name => exact tableName_of_mem_words (List.mem_of_head? first)
    | none => exact tableName_unknownTable

/-- Where no table is created, the first source is the target. -/
theorem target_of_uncreated (uncreated : IsEmpty (Occurrence targetPhrase sql)) :
    (Tables.ofSql sql).target = (sources sql).head?.getD unknownTable := by
  have none : target? sql = none := head?_words_eq_none_iff.2 uncreated
  unfold Tables.ofSql Tables.ofMentions
  rw [none]
  rfl

theorem table_of_column (member : column ∈ (QueryLineage.ofSql sql).columns) :
    column.table = (Tables.ofSql sql).target := by
  obtain ⟨list, item, -, -, made⟩ := item_of_column member
  obtain ⟨name, -, rfl⟩ := Option.map_eq_some_iff.1 made
  rfl

/-! ## Qualified names -/

/-- A qualified name parted at its first period, if it has one. -/
def parted? (qualified : Text) : Option (Text × Text) :=
  match qualified.dropWhile (· != '.') with
  | [] => none
  | _ :: name => some (qualified.takeWhile (· != '.'), name)

/-- No table is called with a period. -/
theorem TableName.no_period (named : TableName table) : ∀ c ∈ table, (c != '.') = true := by
  intro c member
  have period : isWordChar '.' = false := by decide +kernel
  rw [bne_iff_ne]
  rintro rfl
  rw [named.solid '.' member] at period
  cases period

/-- The first period of a qualified name is the one behind its table. -/
theorem parted?_qualified (named : TableName table) (name : Text) :
    parted? (table ++ '.' :: name) = some (table, name) := by
  have behind : (table ++ '.' :: name).dropWhile (· != '.') = '.' :: name := by
    rw [List.dropWhile_append_of_pos named.no_period]
    rfl
  have before : (table ++ '.' :: name).takeWhile (· != '.') = table := by
    rw [List.takeWhile_append_of_pos named.no_period]
    exact List.append_nil table
  rw [parted?, behind, before]

/-- A report names a column so that its table and its own name can be told from the qualified name, and no other
table and name have this qualified name. -/
structure Names (column : Column) (report : ColumnReport) : Prop where
  table : report.table = column.table
  parted : parted? report.name = some (column.table, column.name)
  unique : ∀ table name, TableName table → report.name = table ++ '.' :: name →
    table = column.table ∧ name = column.name

theorem names_ofColumn (named : TableName column.table) (outcome : Description.Outcome) :
    Names column (.ofColumn column outcome) where
  table := rfl
  parted := parted?_qualified named column.name
  unique table name other same := by
    have parted := parted?_qualified other name
    rw [← same] at parted
    exact Prod.mk.inj (Option.some.inj (parted.symm.trans (parted?_qualified named column.name)))

theorem names_describeAll (service : Service State) (sql : Text) {columns : List Column}
    (named : ∀ column ∈ columns, TableName column.table) (state : State) :
    List.Forall₂ Names columns (describeAll service sql columns state).1 := by
  induction columns generalizing state with
  | nil => exact .nil
  | cons column columns ih =>
    obtain ⟨first, others⟩ := List.forall_mem_cons.1 named
    exact .cons (names_ofColumn first _) (ih others _)

theorem parted_of_names {columns : List Column} {reports : List ColumnReport}
    (named : List.Forall₂ Names columns reports) :
    reports.map (parted? ·.name) = columns.map (some ∘ fun column => (column.table, column.name)) := by
  induction named with
  | nil => rfl
  | cons first _ ih => rw [List.map_cons, List.map_cons, first.parted, ih]; rfl

theorem columns_of_accepted {columns : List Column} (accepted : columnsToDescribe sql = .ok columns) :
    columns = (QueryLineage.ofSql sql).columns := by
  unfold columnsToDescribe at accepted
  split at accepted
  · split at accepted
    · cases accepted
    · exact (Except.ok.inj accepted).symm
  · cases accepted

/-- The reports of a success name the columns of the trimmed text, in their order. -/
theorem names_of_success {service : Service State} {state last : State} {s : Text} {reports : List ColumnReport}
    (processed : process service sql state = (.success s reports, last)) :
    s = Text.trim sql ∧ List.Forall₂ Names (QueryLineage.ofSql s).columns reports := by
  cases accepted : columnsToDescribe (Text.trim sql) with
  | error e =>
    rw [process_of_refused service state accepted] at processed
    cases processed
  | ok columns =>
    rw [process_of_described service state accepted rfl] at processed
    obtain ⟨success, -⟩ := Prod.mk.inj processed
    obtain ⟨rfl, rfl⟩ := QueryReport.success.inj success
    obtain rfl := columns_of_accepted accepted
    refine ⟨rfl, names_describeAll service _ (fun column member => ?_) state⟩
    rw [table_of_column member]
    exact tableName_target _

/-! ## Every run -/

/-- The lineage of a text, and what its report tells of it. All columns have the target as their table and the
first source as their source; the target and all sources are called by word characters. Where no table is created,
the columns have their source as their table, or the name for none where nothing is read either; and a column has
no source exactly if the text reads from no table. Whatever the service answers, each column of a success can be
told from its report: the text before the first period is its table, and the text behind it its name. -/
theorem lineage_consistent (sql : Text) :
    let lineage := QueryLineage.ofSql sql
    (∀ column ∈ lineage.columns,
      column.table = lineage.tables.target ∧ column.sourceTable = lineage.tables.sources.head?) ∧
    TableName lineage.tables.target ∧
    (∀ source ∈ lineage.tables.sources, TableName source) ∧
    (IsEmpty (Occurrence targetPhrase sql) → IsEmpty (Occurrence sourcePhrase sql) →
      lineage.tables.target = unknownTable) ∧
    (IsEmpty (Occurrence targetPhrase sql) → ∀ column ∈ lineage.columns, ∀ source,
      column.sourceTable = some source → column.table = source) ∧
    (∀ column ∈ lineage.columns, column.sourceTable = none ↔ IsEmpty (Occurrence sourcePhrase sql)) ∧
    ∀ (State : Type) (service : Service State) (state last : State) (s : Text) (reports : List ColumnReport),
      process service sql state = (.success s reports, last) →
        s = Text.trim sql ∧ List.Forall₂ Names (QueryLineage.ofSql s).columns reports := by
  intro lineage
  refine ⟨?_, tableName_target sql, ?_, ?_, ?_, ?_, ?_⟩
  · exact fun column member => ⟨table_of_column member, sourceTable_of_column member⟩
  · exact fun source member => tableName_of_mem_words member
  · intro uncreated unread
    have none : (sources sql).head? = none := head?_words_eq_none_iff.2 unread
    change (Tables.ofSql sql).target = unknownTable
    rw [target_of_uncreated uncreated, none]
    rfl
  · intro uncreated column member source sourced
    have first : (sources sql).head? = some source := (sourceTable_of_column member).symm.trans sourced
    rw [table_of_column member, target_of_uncreated uncreated, first]
    rfl
  · intro column member
    rw [sourceTable_of_column member]
    exact head?_words_eq_none_iff
  · exact fun State service state last s reports processed => names_of_success processed

/-- A query with periods in the names of its columns. -/
private def dotted : Text :=
  "SELECT \"a.b\", t.c AS \"..\" FROM t".toList

private def echo : Service Unit where
  name := "Echo"
  generate prompt state := (.ok prompt, state)

/-- The columns of such a query are told from their reports. -/
theorem dotted_names_parted :
    ∃ reports, process echo dotted () = (.success dotted reports, ()) ∧
      reports.map (parted? ·.name) =
        [some ("t".toList, "a.b".toList), some ("t".toList, "..".toList)] := by
  have trimmed : Text.trim dotted = dotted := by decide +kernel
  have columns : (QueryLineage.ofSql dotted).columns.map (fun column => (column.table, column.name)) =
      [("t".toList, "a.b".toList), ("t".toList, "..".toList)] := by
    decide +kernel
  have some : (QueryLineage.ofSql dotted).columns ≠ [] := by
    intro none
    rw [none] at columns
    cases columns
  have accepted : columnsToDescribe (Text.trim dotted) = .ok (QueryLineage.ofSql dotted).columns := by
    rw [trimmed]
    exact columnsToDescribe_of_columns ((looksLikeSql_iff dotted).1 (by decide +kernel)) some
  have processed := process_of_described echo () accepted rfl
  rw [trimmed] at processed
  obtain ⟨-, -, -, -, -, -, told⟩ := lineage_consistent dotted
  obtain ⟨-, named⟩ := told Unit echo () () dotted _ processed
  refine ⟨_, processed, ?_⟩
  rw [parted_of_names named, ← List.map_map, columns]
  rfl

end ColumnLineage.QualifiedNames
