import ColumnLineage.Text.Digit

/-!
Services that generate text. A service may remember what it was asked: it is a function of the
prompt and of a state, which it passes on. Its failures are causes, each with one wording.
-/

namespace ColumnLineage.Description

/-- Why no text was generated: `GenerationError`. -/
inductive GenerationError where
  | missingCredential
  | network (reason : Text)
  | status (code : Nat) (body : Text)
  | invalidResponse (reason : Text)
  | client (reason : Text)
  deriving DecidableEq

/-- The wording of a failure. -/
def GenerationError.message : GenerationError → Text
  | missingCredential => "No API key configured".toList
  | network reason => "Network error: ".toList ++ reason
  | status code body =>
    "Service returned status ".toList ++ decimalDigits code ++ ": ".toList ++ body
  | invalidResponse reason => "Invalid response: ".toList ++ reason
  | client reason => "Client error: ".toList ++ reason

/-- A service that generates a text for a prompt: `DescriptionService`. -/
structure Service (State : Type) where
  name : String
  generate : Text → State → Except GenerationError Text × State

end ColumnLineage.Description
