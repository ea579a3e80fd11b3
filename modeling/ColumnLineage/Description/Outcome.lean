import ColumnLineage.Description.Prompt
import ColumnLineage.Description.Service

/-!
Outcomes of asking for a description. A failure is an outcome too: it keeps its reason and is
written as one fixed text.
-/

namespace ColumnLineage.Description

open Lineage (Column)

/-- What came of asking for a description: `DescriptionOutcome`. -/
inductive Outcome where
  | generated (text : Text)
  | failed (reason : Text)
  deriving DecidableEq

/-- What is written in place of a description that could not be generated: `FAILED_DESCRIPTION`. -/
def failedText : Text := "Description generation failed.".toList

namespace Outcome

/-- The text that is written for an outcome: `DescriptionOutcome::text`. -/
def text : Outcome → Text
  | generated text => text
  | failed _ => failedText

/-- Whether a text was generated: `DescriptionOutcome::is_generated`. -/
def isGenerated : Outcome → Bool
  | generated _ => true
  | failed _ => false

/-- The outcome of an answer, as `describe_column` takes it: its text without blanks at the ends, or
the wording of the failure. -/
def ofAnswer : Except GenerationError Text → Outcome
  | .ok text => generated (Text.trim text)
  | .error e => failed e.message

end Outcome

/-- Asks a service once for the description of a column: `describe_column`. -/
def describe (service : Service State) (column : Column) (sql : Text) (state : State) :
    Outcome × State :=
  let (answer, after) := service.generate (prompt column sql) state
  (.ofAnswer answer, after)

end ColumnLineage.Description
