import ColumnLineage.Lineage.Basic
import ColumnLineage.Sql.SelectList
import ColumnLineage.Sql.TableMention

/-!
The lineage of a query. Its columns are the named items of the select list of its first statement;
its tables are those that the whole text mentions.
-/

namespace ColumnLineage.Lineage

open Sql

/-- The tables that a text mentions: `TableExtractor::extract`. -/
def Tables.ofSql (sql : Text) : Tables :=
  Tables.ofMentions (TableMention.target? sql) (TableMention.sources sql)

/-- The column that an item of a select list makes, if the item has a name:
`ColumnExtractor::column_info`. -/
def Column.ofItem? (tables : Tables) (item : SelectItem) : Option Column :=
  item.name?.map fun name =>
    let source := if item.leadingText.isEmpty then name else item.leadingText
    Column.ofDefinition tables name source item.text

/-- The columns that the select list of some tokens makes. -/
def columnsOfTokens (tables : Tables) (tokens : List Token) : List Column :=
  match SelectList.ofTokens? tokens with
  | some list => list.items.filterMap (Column.ofItem? tables)
  | none => []

/-- The columns of a text among given tables: `ColumnExtractor::extract`. -/
def columnsOfSql (tables : Tables) (sql : Text) : List Column :=
  columnsOfTokens tables (Statement.first sql)

/-- The tables and the columns of a query: `QueryLineage`. -/
structure QueryLineage where
  tables : Tables
  columns : List Column
  deriving DecidableEq

/-- The lineage of a query: `LineageExtractor::extract`. -/
def QueryLineage.ofSql (sql : Text) : QueryLineage :=
  ⟨Tables.ofSql sql, columnsOfSql (Tables.ofSql sql) sql⟩

end ColumnLineage.Lineage
