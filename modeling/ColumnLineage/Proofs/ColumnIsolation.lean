import ColumnLineage.Description.Inference
import ColumnLineage.Proofs.SelectGate

/-! Describing columns through a server. Each column is one request, and the response to it makes the
description of that column and of no other. Without a key nothing is sent. What is reported beside the
descriptions never depends on the server. -/

namespace ColumnLineage.ColumnIsolation
open Data (record)
open Description (Exchange GenerationError InferenceClient Outcome Response describe prompt)
open Description.InferenceClient (breaksOff path? readResponse request)
open Lineage (Column QueryLineage)
open QueryContract (process_of_described)
open Report (ColumnReport QueryReport describeAll process)
open SelectGate (columnsToDescribe_of_some)

variable {client : InferenceClient} {exchange : Exchange} {key path sql : Text} {columns : List Column}

/-- A client that can send its requests: it has a key that a header can hold, its address leads to the
server in reach, it has time to wait, and the clock can show the end of the wait. -/
structure Reaches (client : InferenceClient) (exchange : Exchange) (key path : Text) : Prop where
  holds : client.apiKey = some key
  leads : path? client.settings key exchange.server = some path
  waits : breaksOff client.settings key exchange.names exchange.clock = false

/-- A request takes the next response with it, whatever that is, and the client still reaches the
server. -/
theorem generate_of_reaches (reach : Reaches client exchange key path) (prompt : Text) :
    client.service.generate prompt exchange = (readResponse exchange.pending.head?,
      { exchange with
        pending := exchange.pending.tail
        sent := exchange.sent ++ [request client.settings key path prompt] }) := by
  change client.generate prompt exchange = _
  unfold InferenceClient.generate
  simp only [reach.holds, reach.waits, reach.leads, Bool.false_eq_true, if_false]

/-- Columns with the outcomes of the responses at their own places. -/
def answered (columns : List Column) (responses : List Response) : List ColumnReport :=
  columns.mapIdx fun i column => .ofColumn column (.ofAnswer (readResponse responses[i]?))

/-- Describing columns sends one request for each, in order, and the responses stay in step. -/
theorem describeAll_of_reaches (reach : Reaches client exchange key path) :
    describeAll client.service sql columns exchange = (answered columns exchange.pending,
      { exchange with
        pending := exchange.pending.drop columns.length
        sent := exchange.sent ++
          columns.map fun column => request client.settings key path (prompt column sql) }) := by
  induction columns generalizing exchange with
  | nil => simp [describeAll, answered]
  | cons column rest ih =>
    let middle : Exchange := { exchange with
      pending := exchange.pending.tail
      sent := exchange.sent ++ [request client.settings key path (prompt column sql)] }
    have described : describe client.service column sql exchange =
        (.ofAnswer (readResponse exchange.pending.head?), middle) := by
      rw [describe, generate_of_reaches reach]
    have reachMiddle : Reaches client middle key path := ⟨reach.holds, reach.leads, reach.waits⟩
    rw [describeAll, described]
    simp only [ih reachMiddle, middle, answered, List.mapIdx_cons, List.head?_eq_getElem?, List.getElem?_tail,
      List.drop_tail, List.length_cons, List.map_cons, List.append_assoc, List.singleton_append]

/-- Without a key every description fails for it, and the exchange stays as it is. -/
theorem describeAll_of_keyless (missing : client.apiKey = none) :
    describeAll client.service sql columns exchange =
      (columns.map (.ofColumn · (.failed "No API key configured".toList)), exchange) := by
  have failed (prompt : Text) :
      client.service.generate prompt exchange = (.error .missingCredential, exchange) := by
    change client.generate prompt exchange = _
    unfold InferenceClient.generate
    simp only [missing]
  induction columns with
  | nil => rfl
  | cons column rest ih =>
    have described : describe client.service column sql exchange =
        (.failed "No API key configured".toList, exchange) := by
      rw [describe, failed]
      rfl
    rw [describeAll, described]
    simp only [ih, List.map_cons]

/-- A report without its descriptions. -/
def hideOutcomes : QueryReport → QueryReport
  | .error message => .error message
  | .success sql columns => .success sql (columns.map fun column => { column with outcome := .failed [] })

theorem hideOutcomes_answered (sql : Text) (columns : List Column) (responses : List Response) :
    hideOutcomes (.success sql (answered columns responses)) =
      .success sql (columns.map (.ofColumn · (.failed []))) := by
  rw [hideOutcomes]
  refine congrArg (QueryReport.success sql) (List.ext_getElem? ?_)
  intro i
  simp only [answered, List.getElem?_map, List.getElem?_mapIdx, Option.map_map]
  rfl

/-- A changed response changes the description at its own place and no other. -/
theorem getElem?_answered {responses others : List Response} {i : Nat}
    (same : responses[i]? = others[i]?) :
    (answered columns responses)[i]? = (answered columns others)[i]? := by
  simp only [answered, List.getElem?_mapIdx, same]

theorem process_of_reaches (some : (QueryLineage.ofSql (Text.trim sql)).columns ≠ [])
    (reach : Reaches client exchange key path) :
    process client.service sql exchange =
      (.success (Text.trim sql)
          (answered (QueryLineage.ofSql (Text.trim sql)).columns exchange.pending),
        { exchange with
          pending := exchange.pending.drop (QueryLineage.ofSql (Text.trim sql)).columns.length
          sent := exchange.sent ++ (QueryLineage.ofSql (Text.trim sql)).columns.map fun column =>
            request client.settings key path (prompt column (Text.trim sql)) }) :=
  process_of_described _ _ (columnsToDescribe_of_some some) (describeAll_of_reaches reach)

theorem process_of_keyless (some : (QueryLineage.ofSql (Text.trim sql)).columns ≠ [])
    (missing : client.apiKey = none) :
    process client.service sql exchange =
      (.success (Text.trim sql) ((QueryLineage.ofSql (Text.trim sql)).columns.map
        (.ofColumn · (.failed "No API key configured".toList))), exchange) :=
  process_of_described _ _ (columnsToDescribe_of_some some) (describeAll_of_keyless missing)

/-- Processing a query with columns through a server. The requests are those for the columns, one for
each and in their order, whatever the responses are; the prompt is the input of its request. Each
description is made of the response at its own place, so another response at one place leaves the
descriptions at all others. A client without a key sends nothing and describes nothing. All of them report
the same beside the descriptions. -/
theorem columns_isolated (some : (QueryLineage.ofSql (Text.trim sql)).columns ≠ [])
    (reach : Reaches client exchange key path) :
    let s := Text.trim sql
    let columns := (QueryLineage.ofSql s).columns
    let common := QueryReport.success s (columns.map (.ofColumn · (.failed [])))
    let run responses := process client.service sql { exchange with pending := responses }
    (∀ responses, run responses = (.success s (answered columns responses),
      { exchange with
        pending := responses.drop columns.length
        sent := exchange.sent ++
          columns.map fun column => request client.settings key path (prompt column s) })) ∧
    (∃ parameters, ∀ prompt, (request client.settings key path prompt).body = Json.write (record
      [("inputs".toList, .text prompt), ("parameters".toList, parameters)])) ∧
    (∀ (responses others : List Response) (j : Nat), (∀ i, i ≠ j → responses[i]? = others[i]?) →
      ∀ i, i ≠ j → (run responses).1.columns[i]? = (run others).1.columns[i]?) ∧
    (∀ responses, hideOutcomes (run responses).1 = common) ∧
    ∀ (keyless : InferenceClient) (idle : Exchange), keyless.apiKey = none →
      process keyless.service sql idle =
          (.success s (columns.map (.ofColumn · (.failed "No API key configured".toList))), idle) ∧
        hideOutcomes (process keyless.service sql idle).1 = common := by
  intro s columns common run
  have reach (responses : List Response) : Reaches client { exchange with pending := responses } key path :=
    ⟨reach.holds, reach.leads, reach.waits⟩
  have reported (responses : List Response) :
      (run responses).1 = .success s (answered columns responses) :=
    congrArg Prod.fst (process_of_reaches some (reach responses))
  refine ⟨fun responses => process_of_reaches some (reach responses), ⟨_, fun prompt => rfl⟩, ?_, ?_, ?_⟩
  · intro responses others j same i apart
    rw [reported, reported]
    exact getElem?_answered (same i apart)
  · intro responses
    rw [reported]
    exact hideOutcomes_answered s columns responses
  · intro keyless idle missing
    have idled : process keyless.service sql idle = (_, idle) := process_of_keyless some missing
    refine ⟨idled, ?_⟩
    rw [idled, hideOutcomes, List.map_map]
    rfl

/-- A client of a server that is in reach. -/
def nearClient : InferenceClient :=
  ⟨{ Settings.initial with apiUrl := "http://near/generate".toList }, some "key".toList⟩

/-- The exchange with that server before the first request. -/
def nearExchange : Exchange :=
  .start (some "http://near".toList) 0 []

/-- Two columns and one response, which never comes: both requests are sent. -/
theorem columns_isolated_of_two :
    (QueryLineage.ofSql (Text.trim "SELECT a, b FROM t".toList)).columns ≠ [] ∧
      Reaches nearClient nearExchange "key".toList "/generate".toList ∧
      (process nearClient.service "SELECT a, b FROM t".toList
        { nearExchange with pending := [.dropped] }).2.sent.length = 2 := by
  have some : (QueryLineage.ofSql (Text.trim "SELECT a, b FROM t".toList)).columns ≠ [] := by
    decide +kernel
  have reach : Reaches nearClient nearExchange "key".toList "/generate".toList :=
    ⟨rfl, by decide +kernel, by decide +kernel⟩
  have sent := congrArg (fun run => run.2.sent.length) ((columns_isolated some reach).1 [.dropped])
  refine ⟨some, reach, sent.trans ?_⟩
  decide +kernel

end ColumnLineage.ColumnIsolation
