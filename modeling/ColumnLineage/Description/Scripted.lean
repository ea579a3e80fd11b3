import ColumnLineage.Description.Service

/-!
A service that answers by a script, without a network: some prompts fail, some have a reply of their
own, and the rest get one reply. It remembers every prompt.
-/

namespace ColumnLineage.Description

/-- What a scripted service answers: the fields of `MockService` but for its prompts. -/
structure Script where
  defaultReply : Text
  replies : List (Text × Text)
  failures : List Text
  failAll : Bool
  deriving DecidableEq

/-- One step of writing a script: `with_reply`, `with_reply_for`, `with_failure_for` or
`with_failure`. -/
inductive ScriptStep where
  | reply (text : Text)
  | replyFor (needle text : Text)
  | failureFor (needle : Text)
  | failure
  deriving DecidableEq

namespace Script

/-- The script that gives one reply to all prompts: `MockService::new`. -/
def initial : Script :=
  ⟨"Mock column description.".toList, [], [], false⟩

/-- A script after one more step. A later reply to all other prompts replaces an earlier one, and
other steps add up. -/
def extend (script : Script) : ScriptStep → Script
  | .reply text => { script with defaultReply := text }
  | .replyFor needle text => { script with replies := script.replies ++ [(needle, text)] }
  | .failureFor needle => { script with failures := script.failures ++ [needle] }
  | .failure => { script with failAll := true }

/-- The script that some steps write. -/
def ofSteps (steps : List ScriptStep) : Script :=
  steps.foldl extend initial

/-- The failure that a script simulates. -/
def simulatedFailure : GenerationError :=
  .network "Simulated connection failure".toList

/-- The answer to a prompt, as `MockService::generate` gives it: a failure comes before a reply, and
the first reply that fits before the reply to all other prompts. -/
def answer (script : Script) (prompt : Text) : Except GenerationError Text :=
  if script.failAll || script.failures.any (Text.occursIn · prompt) then .error simulatedFailure
  else
    match script.replies.find? fun entry => Text.occursIn entry.1 prompt with
    | some entry => .ok entry.2
    | none => .ok script.defaultReply

/-- The service that answers by a script: `MockService`. Its state is the prompts it was given, in
order. -/
def service (script : Script) : Service (List Text) where
  name := "Mock"
  generate prompt prompts := (script.answer prompt, prompts ++ [prompt])

end Script

end ColumnLineage.Description
