import ColumnLineage.Report.Processing

/-! What a service is asked. A call is one prompt with the answer to it, and the calls of a run follow
one another: each is made in the state that the one before it left. A logged service keeps its calls
beside its state, so a program over services can be held to exactly what it asks. -/

namespace ColumnLineage.Description

/-- One prompt and the answer to it. -/
structure Call where
  prompt : Text
  answer : Except GenerationError Text

/-- What a call makes of the description it asks for: the generated text without blanks at its ends,
or the wording of the failure. -/
def Call.outcome (call : Call) : Outcome :=
  match call.answer with
  | .ok text => .generated (Text.trim text)
  | .error e => .failed e.message

namespace Service

/-- The calls, in their order, that lead a service from one state to another. -/
inductive Calls (service : Service State) : State → List Call → State → Prop where
  | done : Calls service state [] state
  | ask {call : Call} (answered : service.generate call.prompt state = (call.answer, middle))
      (more : Calls service middle calls last) : Calls service state (call :: calls) last

/-- A service beside the log of its calls, the latest last. -/
def logged (service : Service State) : Service (State × List Call) where
  name := service.name
  generate prompt s :=
    let (answer, after) := service.generate prompt s.1
    (answer, (after, s.2 ++ [⟨prompt, answer⟩]))

end Service

end ColumnLineage.Description

namespace ColumnLineage.ServiceCalls
open Description (Call Service describe prompt)
open Lineage (Column)
open Report (describeAll)

/-- Describing one column is one call with its prompt. -/
theorem describe_call (service : Service State) (column : Column) (sql : Text) (state : State) :
    ∃ call after, service.generate call.prompt state = (call.answer, after) ∧
      call.prompt = prompt column sql ∧
      describe service column sql state = (call.outcome, after) ∧
      ∀ log, describe service.logged column sql (state, log) =
        (call.outcome, (after, log ++ [call])) := by
  rcases asked : service.generate (prompt column sql) state with ⟨answer, after⟩
  refine ⟨⟨prompt column sql, answer⟩, after, asked, rfl, ?_, ?_⟩
  · simp only [describe, asked]
    cases answer <;> rfl
  · intro log
    simp only [describe, Service.logged, asked]
    cases answer <;> rfl

/-- Describing columns calls a service once for each of them, in their order and whatever it answers,
and reports each column with the outcome of its own call. -/
theorem describeAll_calls (service : Service State) (sql : Text) (columns : List Column)
    (state : State) :
    ∃ calls last, service.Calls state calls last ∧
      calls.map Call.prompt = columns.map (prompt · sql) ∧
      describeAll service sql columns state =
        (List.zipWith (fun column call => .ofColumn column call.outcome) columns calls, last) ∧
      ∀ log, describeAll service.logged sql columns (state, log) =
        (List.zipWith (fun column call => .ofColumn column call.outcome) columns calls,
          (last, log ++ calls)) := by
  induction columns generalizing state with
  | nil => exact ⟨[], state, .done, rfl, rfl, fun log => by simp [describeAll]⟩
  | cons column rest ih =>
    obtain ⟨call, middle, answered, asked, described, describedLogged⟩ :=
      describe_call service column sql state
    obtain ⟨calls, last, more, prompts, reported, reportedLogged⟩ := ih middle
    refine ⟨call :: calls, last, .ask answered more, ?_, ?_, ?_⟩
    · rw [List.map_cons, List.map_cons, asked, prompts]
    · simp only [describeAll, described, reported, List.zipWith_cons_cons]
    · intro log
      simp only [describeAll, describedLogged, reportedLogged, List.zipWith_cons_cons,
        List.append_assoc, List.singleton_append]

end ColumnLineage.ServiceCalls
