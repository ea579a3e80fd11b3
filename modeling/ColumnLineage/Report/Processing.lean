import ColumnLineage.Lineage.Extraction
import ColumnLineage.Report.Basic

/-!
Processing a query. A text without a statement word and a query without columns are refused before
any description is asked for; after that every column is described once, in order, and no failure
of the service stops the others.
-/

namespace ColumnLineage.Report

open Description (Service describe)
open Lineage (Column QueryLineage)

/-- The words of which a query has to hold one, as letters in a row and in any case:
`STATEMENT_KEYWORDS`. -/
def statementWords : List String := ["CREATE", "INSERT", "SELECT"]

/-- Whether a word, up to case folding, occurs in a text. -/
def mentionsFolded (word : Text) : Text → Bool
  | [] => word.isEmpty
  | c :: s => (Text.afterFolded? word (c :: s)).isSome || mentionsFolded word s

/-- Whether a text holds a statement word: `looks_like_sql`. -/
def looksLikeSql (sql : Text) : Bool :=
  statementWords.any fun word => mentionsFolded word.toList sql

/-- Describes columns one after another, handing the state of the service on. -/
def describeAll (service : Service State) (sql : Text) :
    List Column → State → List ColumnReport × State
  | [], state => ([], state)
  | column :: rest, state =>
    let (outcome, state) := describe service column sql state
    let (reports, state) := describeAll service sql rest state
    (.ofColumn column outcome :: reports, state)

/-- The columns of a trimmed query, or why it is refused: what `try_process` does before it asks for
any description. -/
def columnsToDescribe (sql : Text) : Except QueryError (List Column) :=
  if looksLikeSql sql then
    match (QueryLineage.ofSql sql).columns with
    | [] => .error .noColumns
    | columns => .ok columns
  else .error .invalidQuery

/-- The report on a query and the state of the service after it: `QueryProcessor::process`. -/
def process (service : Service State) (sql : Text) (state : State) : QueryReport × State :=
  let trimmed := Text.trim sql
  match columnsToDescribe trimmed with
  | .error e => (.ofError e, state)
  | .ok columns =>
    let (reports, state) := describeAll service trimmed columns state
    (.success trimmed reports, state)

end ColumnLineage.Report
