import ColumnLineage.Description.Scripted
import ColumnLineage.Proofs.QueryContract

/-! Sessions with a scripted service. The steps that write a script fix the answer to every prompt, and the service
keeps that answer whatever it was asked before: a session is a list of requests of which each has the reply that it
would have alone. The service records all prompts and no others, those that fail among them. -/

namespace ColumnLineage.Description

/-- The kinds of steps that write a script. -/
inductive ScriptStep.Kind where
  | reply
  | replyFor
  | failureFor
  | failure
  deriving DecidableEq

def ScriptStep.kind : ScriptStep → Kind
  | .reply _ => .reply
  | .replyFor _ _ => .replyFor
  | .failureFor _ => .failureFor
  | .failure => .failure

/-- The reply to all other prompts that a step sets. -/
def ScriptStep.reply? : ScriptStep → Option Text
  | .reply text => some text
  | _ => none

/-- The reply for prompts with a needle that a step adds, with the needle. -/
def ScriptStep.replyFor? : ScriptStep → Option (Text × Text)
  | .replyFor needle text => some (needle, text)
  | _ => none

/-- The needle of prompts that a step lets fail. -/
def ScriptStep.failureFor? : ScriptStep → Option Text
  | .failureFor needle => some needle
  | _ => none

/-- A prompt with the answer of a script to it. -/
def Script.call (script : Script) (prompt : Text) : Call :=
  ⟨prompt, script.answer prompt⟩

end ColumnLineage.Description

namespace ColumnLineage.ScriptedSessions
open Description (Call GenerationError Script ScriptStep Service prompt)
open Description.Script (initial ofSteps simulatedFailure)
open Description.ScriptStep (failureFor? replyFor? reply?)
open Lineage (Column)
open QueryContract (process_contract process_of_accepted process_of_refused)
open Report (ColumnReport QueryReport columnsToDescribe process)

variable {steps others front back : List ScriptStep} {needle text p : Text}

/-! ## The script of some steps -/

/-- Each part of a script is written by the steps of one kind, in their order. -/
theorem ofSteps_eq (steps : List ScriptStep) : ofSteps steps =
    { defaultReply := (steps.filterMap reply?).getLast?.getD initial.defaultReply
      replies := steps.filterMap replyFor?
      failures := steps.filterMap failureFor?
      failAll := steps.contains .failure } := by
  induction steps using List.reverseRecOn with
  | nil => rfl
  | append_singleton steps step ih =>
    have last : ofSteps (steps ++ [step]) = (ofSteps steps).extend step := by
      rw [ofSteps, List.foldl_append]
      rfl
    rw [last, ih]
    cases step <;> simp [Script.extend, reply?, replyFor?, failureFor?]

/-- Steps that are in the same order kind by kind write the same script, however the kinds are mixed. -/
theorem ofSteps_of_same_kinds
    (same : ∀ kind, steps.filter (·.kind = kind) = others.filter (·.kind = kind)) :
    ofSteps steps = ofSteps others := by
  -- Each part of a script is taken from the steps of one kind, so it is the same where these are.
  have taken {α : Type} (kind : ScriptStep.Kind) (part? : ScriptStep → Option α)
      (own : ∀ step, step.kind ≠ kind → part? step = none) :
      steps.filterMap part? = others.filterMap part? := by
    have only (list : List ScriptStep) : list.filterMap part? = (list.filter (·.kind = kind)).filterMap part? := by
      rw [List.filterMap_filter]
      refine List.filterMap_congr fun step _ => ?_
      by_cases of : step.kind = kind
      · simp [of]
      · simp [of, own step of]
    rw [only steps, same kind, ← only others]
  have failing (list : List ScriptStep) :
      list.contains .failure = (list.filter (·.kind = .failure)).contains .failure := by
    simp [ScriptStep.kind]
  rw [ofSteps_eq, ofSteps_eq, taken .reply reply? ?_, taken .replyFor replyFor? ?_, taken .failureFor failureFor? ?_,
    failing steps, same .failure, ← failing others]
  all_goals
    intro step other
    cases step <;> first | rfl | exact absurd rfl other

/-! ## The answer to a prompt -/

/-- Steps that let a prompt fail: one for all prompts, or one with a needle that occurs in it. -/
def Fails (steps : List ScriptStep) (p : Text) : Prop :=
  .failure ∈ steps ∨ ∃ needle, .failureFor needle ∈ steps ∧ needle <:+: p

/-- Steps of which none has a reply for a prompt in particular. -/
def Unscripted (steps : List ScriptStep) (p : Text) : Prop :=
  ∀ needle text, .replyFor needle text ∈ steps → ¬ needle <:+: p

/-- The answer that steps fix for a prompt: the failure if they let it fail, else the reply of the first step with a
needle in it, else the last reply to all other prompts, else the reply of a script without steps. -/
inductive Answers (steps : List ScriptStep) (p : Text) : Except GenerationError Text → Prop where
  | failure (fails : Fails steps p) : Answers steps p (.error (.network "Simulated connection failure".toList))
  | scripted {front back : List ScriptStep} {needle text : Text} (succeeds : ¬ Fails steps p)
      (placed : steps = front ++ .replyFor needle text :: back) (occurs : needle <:+: p)
      (first : Unscripted front p) : Answers steps p (.ok text)
  | other {front back : List ScriptStep} {text : Text} (succeeds : ¬ Fails steps p) (unscripted : Unscripted steps p)
      (placed : steps = front ++ .reply text :: back) (last : ∀ later, .reply later ∉ back) :
      Answers steps p (.ok text)
  | unset (succeeds : ¬ Fails steps p) (unscripted : Unscripted steps p) (none : ∀ text, .reply text ∉ steps) :
      Answers steps p (.ok "Mock column description.".toList)

theorem fails_iff (steps : List ScriptStep) (p : Text) :
    ((ofSteps steps).failAll || (ofSteps steps).failures.any (Text.occursIn · p)) = true ↔ Fails steps p := by
  have needles (needle : Text) : needle ∈ steps.filterMap failureFor? ↔ .failureFor needle ∈ steps := by
    rw [List.mem_filterMap]
    constructor
    · rintro ⟨step, inside, held⟩
      cases step <;> cases held
      exact inside
    · exact fun inside => ⟨_, inside, rfl⟩
  simp only [ofSteps_eq, Fails, Bool.or_eq_true, List.contains_iff_mem, List.any_eq_true, needles, Text.occursIn_iff]

/-- The reply for a prompt in particular that a step adds. -/
def fitting? (p : Text) : ScriptStep → Option Text
  | .replyFor needle text => if Text.occursIn needle p then some text else none
  | _ => none

theorem fitting?_eq_some_iff {step : ScriptStep} :
    fitting? p step = some text ↔ ∃ needle, step = .replyFor needle text ∧ needle <:+: p := by
  cases step with
  | replyFor needle reply =>
    simp only [fitting?, Option.ite_none_right_eq_some, Option.some.injEq, Text.occursIn_iff,
      ScriptStep.replyFor.injEq]
    constructor
    · rintro ⟨occurs, rfl⟩
      exact ⟨needle, ⟨rfl, rfl⟩, occurs⟩
    · rintro ⟨_, ⟨rfl, rfl⟩, occurs⟩
      exact ⟨occurs, rfl⟩
  | _ => simp [fitting?]

/-- No step has a reply for a prompt in particular where none fits it. -/
theorem unscripted_iff : Unscripted steps p ↔ ∀ step ∈ steps, fitting? p step = none := by
  simp only [Option.eq_none_iff_forall_ne_some, ne_eq, fitting?_eq_some_iff, not_exists, not_and]
  constructor
  · rintro unscripted step inside text needle rfl
    exact unscripted needle text inside
  · exact fun unscripted needle text inside => unscripted _ inside text needle rfl

/-- The first reply in a script that fits a prompt is that of the first step with one. -/
theorem find?_replies (steps : List ScriptStep) (p : Text) :
    ((steps.filterMap replyFor?).find? fun entry => Text.occursIn entry.1 p).map (·.2) =
      steps.findSome? (fitting? p) := by
  induction steps with
  | nil => rfl
  | cons step steps ih =>
    cases step with
    | replyFor needle text =>
      by_cases occurs : Text.occursIn needle p = true
      · simp [replyFor?, fitting?, occurs]
      · simpa [replyFor?, fitting?, occurs] using ih
    | _ => exact ih

theorem answer_of_fails (fails : Fails steps p) : (ofSteps steps).answer p = .error simulatedFailure := by
  rw [Script.answer, if_pos ((fails_iff steps p).2 fails)]

theorem answer_of_succeeds (succeeds : ¬ Fails steps p) :
    (ofSteps steps).answer p = .ok ((steps.findSome? (fitting? p)).getD (ofSteps steps).defaultReply) := by
  rw [Script.answer, if_neg (mt (fails_iff steps p).1 succeeds), ← find?_replies, ofSteps_eq]
  split
  · rename_i found
    simp [found]
  · rename_i missed
    simp [missed]

theorem answer_of_unscripted (succeeds : ¬ Fails steps p) (unscripted : Unscripted steps p) :
    (ofSteps steps).answer p = .ok (ofSteps steps).defaultReply := by
  rw [answer_of_succeeds succeeds, List.findSome?_eq_none_iff.2 (unscripted_iff.1 unscripted), Option.getD_none]

/-- No step sets a reply to all other prompts where none gives one. -/
theorem filterMap_reply?_eq_nil_iff : steps.filterMap reply? = [] ↔ ∀ text, .reply text ∉ steps := by
  rw [List.filterMap_eq_nil_iff]
  constructor
  · intro none text inside
    cases none _ inside
  · intro none step inside
    cases step with
    | reply text => exact absurd inside (none text)
    | _ => rfl

/-- The reply to all other prompts is the last that a step sets. -/
theorem defaultReply_of_last (last : ∀ later, .reply later ∉ back) :
    (ofSteps (front ++ .reply text :: back)).defaultReply = text := by
  simp [ofSteps_eq, reply?, filterMap_reply?_eq_nil_iff.2 last]

theorem defaultReply_of_none (none : ∀ text, .reply text ∉ steps) :
    (ofSteps steps).defaultReply = initial.defaultReply := by
  simp [ofSteps_eq, filterMap_reply?_eq_nil_iff.2 none]

/-- Where some step sets a reply to all other prompts, one is the last to do so. -/
theorem last_reply (steps : List ScriptStep) :
    (∃ front text back, steps = front ++ .reply text :: back ∧ ∀ later, .reply later ∉ back) ∨
      ∀ text, .reply text ∉ steps := by
  induction steps with
  | nil => exact .inr fun text => List.not_mem_nil
  | cons step steps ih =>
    rcases ih with ⟨front, text, back, rfl, last⟩ | none
    · exact .inl ⟨step :: front, text, back, rfl, last⟩
    · cases step with
      | reply text => exact .inl ⟨[], text, steps, rfl, none⟩
      | _ =>
        refine .inr fun text inside => ?_
        rcases List.mem_cons.1 inside with same | inside
        · cases same
        · exact none text inside

/-- Every prompt has the answer that the steps fix for it. -/
theorem answers_answer (steps : List ScriptStep) (p : Text) : Answers steps p ((ofSteps steps).answer p) := by
  by_cases fails : Fails steps p
  · rw [answer_of_fails fails]
    exact .failure fails
  rw [answer_of_succeeds fails]
  cases found : steps.findSome? (fitting? p) with
  | some text =>
    obtain ⟨front, step, back, placed, fits, first⟩ := List.findSome?_eq_some_iff.1 found
    obtain ⟨needle, rfl, occurs⟩ := fitting?_eq_some_iff.1 fits
    exact .scripted fails placed occurs (unscripted_iff.2 first)
  | none =>
    have unscripted := unscripted_iff.2 (List.findSome?_eq_none_iff.1 found)
    rcases last_reply steps with ⟨front, text, back, rfl, last⟩ | none
    · rw [Option.getD_none, defaultReply_of_last last]
      exact .other fails unscripted rfl last
    · rw [Option.getD_none, defaultReply_of_none none]
      exact .unset fails unscripted none

/-- A prompt has no second answer. -/
theorem Answers.answer_eq {a : Except GenerationError Text} (fixed : Answers steps p a) :
    (ofSteps steps).answer p = a := by
  cases fixed with
  | failure fails => exact answer_of_fails fails
  | scripted succeeds placed occurs first =>
    have found := List.findSome?_eq_some_iff.2
      ⟨_, _, _, placed, fitting?_eq_some_iff.2 ⟨_, rfl, occurs⟩, unscripted_iff.1 first⟩
    rw [answer_of_succeeds succeeds, found, Option.getD_some]
  | other succeeds unscripted placed last =>
    rw [answer_of_unscripted succeeds unscripted, placed, defaultReply_of_last last]
  | unset succeeds unscripted none =>
    rw [answer_of_unscripted succeeds unscripted, defaultReply_of_none none]
    rfl

theorem answer_iff {a : Except GenerationError Text} : (ofSteps steps).answer p = a ↔ Answers steps p a := by
  constructor
  · rintro rfl
    exact answers_answer steps p
  · exact Answers.answer_eq

/-! ## Sessions -/

/-- What a session asks for: the answer to a prompt, or the report on a query. -/
inductive Request where
  | generate (prompt : Text)
  | process (sql : Text)

inductive Reply where
  | answer (answer : Except GenerationError Text)
  | report (report : QueryReport)

/-- The reply of a service to a request, and its state after it. -/
def reply (service : Service State) : Request → State → Reply × State
  | .generate prompt, state =>
    let (answer, after) := service.generate prompt state
    (.answer answer, after)
  | .process sql, state =>
    let (report, after) := process service sql state
    (.report report, after)

/-- A session with one service, which goes on from each request to the next with the state that it has then. -/
def session (service : Service State) : List Request → State → List Reply × State
  | [], state => ([], state)
  | request :: requests, state =>
    let (first, middle) := reply service request state
    let (more, last) := session service requests middle
    (first :: more, last)

/-- The prompts that a request comes to. -/
def Request.prompts : Request → List Text
  | .generate prompt => [prompt]
  | .process sql =>
    match columnsToDescribe (Text.trim sql) with
    | .error _ => []
    | .ok columns => columns.map (prompt · (Text.trim sql))

/-- The reply to a request where each prompt has one answer. -/
def Request.reply (answer : Text → Except GenerationError Text) : Request → Reply
  | .generate prompt => .answer (answer prompt)
  | .process sql =>
    match columnsToDescribe (Text.trim sql) with
    | .error e => .report (.ofError e)
    | .ok columns => .report (.success (Text.trim sql)
        (columns.map fun column => .ofColumn column (.ofAnswer (answer (prompt column (Text.trim sql))))))

/-- A log of the calls changes neither what a request comes to nor the service. -/
theorem reply_logged (service : Service State) (request : Request) (state : State) (log : List Call) :
    reply service request state =
      ((reply service.logged request (state, log)).1, (reply service.logged request (state, log)).2.1) := by
  cases request with
  | generate p => rfl
  | process sql =>
    have same := (process_contract service sql state log).1
    simp only [reply, same]

theorem session_logged (service : Service State) (requests : List Request) (state : State) (log : List Call) :
    session service requests state =
      ((session service.logged requests (state, log)).1, (session service.logged requests (state, log)).2.1) := by
  induction requests generalizing state log with
  | nil => rfl
  | cons request requests ih =>
    simp only [session, reply_logged service request state log, ih _ (reply service.logged request (state, log)).2.2]

/-- A scripted service answers by its script in any state, and adds the prompts to those it has seen. -/
theorem calls_scripted {script : Script} {seen last : List Text} {calls : List Call}
    (called : script.service.Calls seen calls last) :
    calls = (calls.map Call.prompt).map script.call ∧ last = seen ++ calls.map Call.prompt := by
  induction called with
  | done => exact ⟨rfl, (List.append_nil _).symm⟩
  | @ask seen middle calls last call answered more ih =>
    obtain ⟨answer, rfl⟩ : script.answer call.prompt = call.answer ∧ seen ++ [call.prompt] = middle :=
      Prod.mk.inj answered
    obtain ⟨scripted, rfl⟩ := ih
    refine ⟨?_, by simp⟩
    rw [List.map_cons, List.map_cons, ← scripted, Script.call, answer]

/-- Columns with their calls by a script are the columns with the answers of the script. -/
theorem zipWith_scripted (script : Script) (columns : List Column) (sql : Text) :
    List.zipWith (fun column call => ColumnReport.ofColumn column (Call.outcome call)) columns
        ((columns.map (prompt · sql)).map script.call) =
      columns.map fun column => .ofColumn column (.ofAnswer (script.answer (prompt column sql))) := by
  have outcome (p : Text) : (script.call p).outcome = .ofAnswer (script.answer p) := by
    rw [Call.outcome, Script.call]
    cases script.answer p <;> rfl
  simp only [List.map_map, List.zipWith_map_right, List.zipWith_self, Function.comp_apply, outcome]

/-- A request gets the reply that the answers of the script make, and its prompts are recorded, whatever the service
was asked before. -/
theorem reply_scripted (script : Script) (request : Request) (seen : List Text) (log : List Call) :
    reply script.service.logged request (seen, log) =
      (request.reply script.answer, (seen ++ request.prompts, log ++ request.prompts.map script.call)) := by
  cases request with
  | generate p => rfl
  | process sql =>
    cases accepted : columnsToDescribe (Text.trim sql) with
    | error e =>
      have refused := process_of_refused script.service.logged (seen, log) accepted
      simp only [reply, refused, Request.reply, Request.prompts, accepted, List.map_nil, List.append_nil]
      rfl
    | ok columns =>
      obtain ⟨calls, last, called, prompts, -, logged⟩ := process_of_accepted script.service seen accepted
      -- The calls are known by their prompts: the script answers alike in every state.
      obtain ⟨scripted, rfl⟩ := calls_scripted called
      rw [prompts] at scripted logged
      simp only [reply, logged log, Request.reply, Request.prompts, accepted]
      rw [scripted, zipWith_scripted]

/-- So it goes on through a session. -/
theorem session_scripted (script : Script) (requests : List Request) (seen : List Text) (log : List Call) :
    session script.service.logged requests (seen, log) =
      (requests.map (Request.reply script.answer), (seen ++ requests.flatMap Request.prompts,
        log ++ (requests.flatMap Request.prompts).map script.call)) := by
  induction requests generalizing seen log with
  | nil => simp [session]
  | cons request requests ih =>
    simp only [session, reply_scripted, ih, List.map_cons, List.flatMap_cons, List.map_append, List.append_assoc]

/-- A session with a service that some steps script, from its start. The calls of the session are those of its
requests in their order, and the service records the prompts of all of them, those that it lets fail among them, so
that it counts the calls. Each request has the reply that the answers of the script make of it, without regard to what
went before it. The answer to a prompt is the one that the steps fix: a failure before any reply, and the first reply
with a needle that occurs before the last reply to all other prompts. Steps that are in the same order kind by kind
answer every prompt and every request alike. -/
theorem session_history_free (steps : List ScriptStep) (requests : List Request) :
    let script := ofSteps steps
    let sent := requests.flatMap Request.prompts
    let replies := requests.map (Request.reply script.answer)
    let done := session script.service.logged requests ([], [])
    session script.service requests [] = (replies, sent) ∧
      done = (replies, (sent, sent.map script.call)) ∧ done.2.1.length = done.2.2.length ∧
      (∀ p answer, script.answer p = answer ↔ Answers steps p answer) ∧
      ∀ others : List ScriptStep, (∀ kind, others.filter (·.kind = kind) = steps.filter (·.kind = kind)) →
        (∀ p, (ofSteps others).answer p = script.answer p) ∧
          session (ofSteps others).service requests [] = (replies, sent) := by
  intro script sent replies done
  have logged : done = (replies, (sent, sent.map script.call)) := session_scripted script requests [] []
  have bare : session script.service requests [] = (replies, sent) := by
    rw [session_logged script.service requests [] [], session_scripted]
    rfl
  refine ⟨bare, logged, by rw [logged, List.length_map], fun p answer => answer_iff, fun others same => ?_⟩
  rw [ofSteps_of_same_kinds same]
  exact ⟨fun p => rfl, bare⟩

/-- Overlapping needles, the empty one among them, keep their answers where a reply to all other prompts and a failure
move past them. -/
theorem moved_steps_answer_alike :
    let steps : List ScriptStep := [.reply "any".toList, .replyFor "total".toList "sum".toList,
      .failureFor "broken".toList, .replyFor [] "rest".toList]
    let moved : List ScriptStep := [.failureFor "broken".toList, .replyFor "total".toList "sum".toList,
      .replyFor [] "rest".toList, .reply "any".toList]
    let requests : List Request :=
      [.process "SELECT t.total FROM t".toList, .generate "broken total".toList, .generate []]
    (∀ kind, moved.filter (·.kind = kind) = steps.filter (·.kind = kind)) ∧
      (∀ p, (ofSteps moved).answer p = (ofSteps steps).answer p) ∧
      session (ofSteps moved).service requests [] = session (ofSteps steps).service requests [] := by
  intro steps moved requests
  have same (kind : ScriptStep.Kind) : moved.filter (·.kind = kind) = steps.filter (·.kind = kind) := by
    cases kind <;> rfl
  obtain ⟨bare, -, -, -, alike⟩ := session_history_free steps requests
  obtain ⟨answers, replies⟩ := alike moved same
  exact ⟨same, answers, replies.trans bare.symm⟩

end ColumnLineage.ScriptedSessions
