import ColumnLineage.Data.Basic
import ColumnLineage.Description.Outcome

/-!
Reports on queries: either an error or the described columns of a query, in the order of its select
list. As data a report is a record; the report on a file has the name of the file before the rest.
-/

namespace ColumnLineage.Report

open Description (Outcome)
open Lineage (Column)

/-- A described column, `ColumnDescription`. Its name stands with its table before it. -/
structure ColumnReport where
  name : Text
  table : Text
  sourceTable : Option Text
  sourceColumn : Text
  transformed : Bool
  outcome : Outcome
  deriving DecidableEq

/-- The report on a query: `QueryResult`. -/
inductive QueryReport where
  | error (message : Text)
  | success (sql : Text) (columns : List ColumnReport)
  deriving DecidableEq

/-- The report on a file: `FileResult`. -/
structure FileReport where
  fileName : Text
  report : QueryReport
  deriving DecidableEq

/-- Why a query was not processed: `ProcessError`. -/
inductive QueryError where
  | invalidQuery
  | noColumns
  | pattern (reason : Text)
  | io (reason : Text)
  deriving DecidableEq

/-- The wording of an error. -/
def QueryError.message : QueryError → Text
  | invalidQuery => "Invalid or empty SQL query".toList
  | noColumns => "No columns found in query".toList
  | pattern reason => "Pattern error: ".toList ++ reason
  | io reason => "IO error: ".toList ++ reason

namespace ColumnReport

/-- The report on a column with an outcome: `ColumnDescription::new`. -/
def ofColumn (column : Column) (outcome : Outcome) : ColumnReport :=
  { name := column.qualifiedName
    table := column.table
    sourceTable := column.sourceTable
    sourceColumn := column.sourceColumn
    transformed := column.transformed
    outcome := outcome }

/-- A described column as data. A failure is its fixed text. -/
def data (c : ColumnReport) : Data :=
  .record
    [("column_name".toList, .text c.name),
     ("table_name".toList, .text c.table),
     ("source_table".toList, c.sourceTable.elim .null .text),
     ("source_column".toList, .text c.sourceColumn),
     ("has_transformation".toList, .bool c.transformed),
     ("description".toList, .text c.outcome.text)]

end ColumnReport

namespace QueryReport

/-- The report on a query that was not processed: `QueryResult::error`. -/
def ofError (e : QueryError) : QueryReport :=
  error e.message

/-- The message of an error: `QueryResult::error_message`. -/
def errorMessage? : QueryReport → Option Text
  | error message => some message
  | success _ _ => none

/-- The described columns, none in an error: `QueryResult::columns`. -/
def columns : QueryReport → List ColumnReport
  | error _ => []
  | success _ columns => columns

/-- The members of a report as data. -/
def members : QueryReport → List (Text × Data)
  | error message => [("error".toList, .text message)]
  | success sql columns =>
    [("sql_query".toList, .text sql), ("columns".toList, .list (columns.map ColumnReport.data))]

/-- A report as data, which `QueryResult::to_json` writes. -/
def data (report : QueryReport) : Data :=
  .record report.members

end QueryReport

/-- The report on a file as data. -/
def FileReport.data (report : FileReport) : Data :=
  .record (("file_name".toList, .text report.fileName) :: report.report.members)

end ColumnLineage.Report
