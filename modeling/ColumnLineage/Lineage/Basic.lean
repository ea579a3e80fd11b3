import ColumnLineage.Text.Blank

/-!
Lineage values: the tables of a query and the columns it selects. Where nothing is created the first
source stands for the target, and every column has the first source as its source table.
-/

namespace ColumnLineage.Lineage

/-- The target table and the source tables of a query: `TableInfo`. -/
structure Tables where
  target : Text
  sources : List Text
  deriving DecidableEq

/-- The name of the target table where a query mentions no table: `UNKNOWN_TABLE`. -/
def unknownTable : Text := "unknown_table".toList

namespace Tables

/-- The tables of a query from the table it creates, if any, and the tables it reads:
`TableInfo::new`. -/
def ofMentions (target? : Option Text) (sources : List Text) : Tables :=
  ⟨(target? <|> sources.head?).getD unknownTable, sources⟩

/-- The table that columns are taken to come from: `TableInfo::primary_source`. -/
def primarySource? (tables : Tables) : Option Text :=
  tables.sources.head?

end Tables

/-- A selected column and where it comes from: `ColumnInfo`. -/
structure Column where
  table : Text
  name : Text
  sourceTable : Option Text
  sourceColumn : Text
  definition : Text
  transformed : Bool
  deriving DecidableEq

namespace Column

/-- A column among the tables of its query, as `ColumnInfo::new` makes it. It counts as transformed
unless its definition, without blanks at the ends, is its name. -/
def ofDefinition (tables : Tables) (name sourceColumn definition : Text) : Column :=
  { table := tables.target
    name := name
    sourceTable := tables.primarySource?
    sourceColumn := sourceColumn
    definition := Text.trim definition
    transformed := Text.trim definition != name }

/-- The name with its table before it: `ColumnInfo::qualified_name`. -/
def qualifiedName (column : Column) : Text :=
  column.table ++ '.' :: column.name

end Column

end ColumnLineage.Lineage
