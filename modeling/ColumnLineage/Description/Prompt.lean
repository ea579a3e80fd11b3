import ColumnLineage.Lineage.Basic

/-!
The prompt that asks for the description of one column of a query.
-/

namespace ColumnLineage.Description

open Lineage (Column)

/-- What stands for the source table where there is none. -/
def noSourceTable : Text := "no source table".toList

/-- The lines about a column. -/
def promptContext (column : Column) : List Text :=
  ["This column is part of the table '".toList ++ column.table ++ "' and is sourced from '".toList
    ++ column.sourceTable.getD noSourceTable ++ "' if applicable.".toList,
   "Original column definition: ".toList ++ column.definition,
   "Source column: ".toList ++ column.sourceColumn,
   "Has transformation: ".toList ++ (if column.transformed then "true" else "false").toList]

/-- The lines that ask for the description of a column. -/
def promptRequest (column : Column) : List Text :=
  ["Generate a technical description for the column '".toList ++ column.qualifiedName
    ++ "' that includes:".toList,
   "1. The business purpose of this column".toList,
   "2. Where the data comes from (source table and column)".toList,
   ("3. Any transformations or filters applied, mention only if applied or else skip mentioning "
    ++ "anything about transformation").toList,
   ("4. Any relevant conditions or constraints, mention only if applied or else skip mentioning "
    ++ "anything about conditions and constraints").toList,
   [],
   ("Format as a single paragraph without any markdown or prefixes. Focus on being precise and "
    ++ "informative.").toList]

/-- The prompt for a column of a query: `build_prompt`. -/
def prompt (column : Column) (sql : Text) : Text :=
  Text.joinWith ['\n']
    (["Based on this SQL query:".toList, "\x60\x60\x60sql".toList, sql, "\x60\x60\x60".toList, [],
      "And this context:".toList]
      ++ promptContext column ++ [] :: promptRequest column)

end ColumnLineage.Description
