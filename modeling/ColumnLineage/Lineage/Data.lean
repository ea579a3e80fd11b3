import ColumnLineage.Data.Basic
import ColumnLineage.Lineage.Basic

/-!
Lineage values as data. As a record the members may stand in any order among others; only the source
table may be left out or null. As a list they stand in the order of the names.
-/

namespace ColumnLineage.Lineage

/-- The names of the members of tables. -/
def Tables.names : List Text :=
  ["target_table", "source_tables"].map String.toList

/-- Tables as data. -/
def Tables.data (tables : Tables) : Data :=
  .record
    [("target_table".toList, .text tables.target),
     ("source_tables".toList, .list (tables.sources.map .text))]

/-- The tables that data hold. -/
def Tables.ofData? (d : Data) : Option Tables :=
  match d.fields? names (· = names.length) with
  | some [target, sources] => do
    return {
      target := ← Data.required? Data.text? target
      sources := ← Data.required? (Data.listOf? Data.text?) sources }
  | _ => none

/-- The names of the members of a column. -/
def Column.names : List Text :=
  ["table_name", "column_name", "source_table", "source_column", "full_definition",
   "has_transformation"].map String.toList

/-- A column as data. -/
def Column.data (column : Column) : Data :=
  .record
    [("table_name".toList, .text column.table),
     ("column_name".toList, .text column.name),
     ("source_table".toList, column.sourceTable.elim .null .text),
     ("source_column".toList, .text column.sourceColumn),
     ("full_definition".toList, .text column.definition),
     ("has_transformation".toList, .bool column.transformed)]

/-- The column that data hold. -/
def Column.ofData? (d : Data) : Option Column :=
  match d.fields? names (· = names.length) with
  | some [table, name, source, sourceColumn, definition, transformed] => do
    return {
      table := ← Data.required? Data.text? table
      name := ← Data.required? Data.text? name
      sourceTable := ← Data.default? none (Data.nullable? Data.text?) source
      sourceColumn := ← Data.required? Data.text? sourceColumn
      definition := ← Data.required? Data.text? definition
      transformed := ← Data.required? Data.bool? transformed }
  | _ => none

end ColumnLineage.Lineage
