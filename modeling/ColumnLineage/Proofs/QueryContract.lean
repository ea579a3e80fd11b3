import ColumnLineage.Proofs.ServiceCalls
import ColumnLineage.Proofs.StatementWords

/-! What processing a query comes to, for every text and every service. The two gates stand before the
first call, and after them nothing that a service answers can stop, repeat or reorder a call. -/

namespace ColumnLineage.QueryContract
open Description (Call Service prompt)
open Lineage (QueryLineage)
open Report (ColumnReport QueryReport columnsToDescribe describeAll looksLikeSql process)
open ServiceCalls (describeAll_calls)
open StatementWords (Spells looksLikeSql_iff not_spells_nil)

/-- A text holds one of the words that begin a statement. -/
def NamesStatement (s : Text) : Prop :=
  Spells s "CREATE".toList ∨ Spells s "INSERT".toList ∨ Spells s "SELECT".toList

private theorem nonempty_of_names (named : NamesStatement s) : s ≠ [] := by
  rintro rfl
  rcases named with create | insert | select
  · exact not_spells_nil (by decide) create
  · exact not_spells_nil (by decide) insert
  · exact not_spells_nil (by decide) select

theorem columnsToDescribe_of_not_named (silent : ¬ NamesStatement s) :
    columnsToDescribe s = .error .invalidQuery := by
  have gate : ¬ looksLikeSql s = true := fun passed => silent ((looksLikeSql_iff s).1 passed)
  rw [columnsToDescribe, if_neg gate]

theorem columnsToDescribe_of_no_columns (named : NamesStatement s)
    (none : (QueryLineage.ofSql s).columns = []) : columnsToDescribe s = .error .noColumns := by
  rw [columnsToDescribe, if_pos ((looksLikeSql_iff s).2 named), none]

theorem columnsToDescribe_of_columns (named : NamesStatement s)
    (some : (QueryLineage.ofSql s).columns ≠ []) :
    columnsToDescribe s = .ok (QueryLineage.ofSql s).columns := by
  rw [columnsToDescribe, if_pos ((looksLikeSql_iff s).2 named)]
  split
  · contradiction
  · rfl

/-- A refused text is reported in the words of its error, and the service is left alone. -/
theorem process_of_refused (service : Service State) (state : State)
    (refused : columnsToDescribe (Text.trim sql) = .error e) :
    process service sql state = (.error e.message, state) := by
  rw [process, refused]
  rfl

/-- An accepted text is reported with the descriptions of its columns. -/
theorem process_of_described (service : Service State) (state : State)
    (accepted : columnsToDescribe (Text.trim sql) = .ok columns)
    (described : describeAll service (Text.trim sql) columns state = (reports, last)) :
    process service sql state = (.success (Text.trim sql) reports, last) := by
  rw [process, accepted]
  simp only [described]

/-- Each of these descriptions is made by one call. -/
theorem process_of_accepted (service : Service State) (state : State)
    (accepted : columnsToDescribe (Text.trim sql) = .ok columns) :
    ∃ calls last, service.Calls state calls last ∧
      calls.map Call.prompt = columns.map (prompt · (Text.trim sql)) ∧
      process service sql state = (.success (Text.trim sql)
        (List.zipWith (fun column call => .ofColumn column call.outcome) columns calls), last) ∧
      ∀ log, process service.logged sql (state, log) = (.success (Text.trim sql)
        (List.zipWith (fun column call => .ofColumn column call.outcome) columns calls),
          (last, log ++ calls)) := by
  obtain ⟨calls, last, called, prompts, reported, logged⟩ :=
    describeAll_calls service (Text.trim sql) columns state
  exact ⟨calls, last, called, prompts, process_of_described service state accepted reported,
    fun log => process_of_described service.logged (state, log) accepted (logged log)⟩

/-- Processing a query, with its calls kept in a log. A text that names no statement and a text without
columns are refused, each in its own words, and the service is not called. Any other text is reported
with one description for each of its columns, in their order: the service is called once for each, in
that order and whatever it answered before, and each description is made by the call for its column.
The log changes nothing for the service or the report. -/
theorem process_contract (service : Service State) (sql : Text) (state : State) (log : List Call) :
    let s := Text.trim sql
    let columns := (QueryLineage.ofSql s).columns
    let run := process service.logged sql (state, log)
    process service sql state = (run.1, run.2.1) ∧
      (s = [] ∨ ¬ NamesStatement s →
        run = (.error "Invalid or empty SQL query".toList, (state, log))) ∧
      (NamesStatement s → columns = [] →
        run = (.error "No columns found in query".toList, (state, log))) ∧
      (NamesStatement s → columns ≠ [] → ∃ calls last, service.Calls state calls last ∧
        calls.map Call.prompt = columns.map (prompt · s) ∧
        run = (.success s (List.zipWith (fun column call => .ofColumn column call.outcome)
          columns calls), (last, log ++ calls))) ∧
      ∀ message, run.1 = .error message →
        message = "Invalid or empty SQL query".toList ∨
          message = "No columns found in query".toList := by
  intro s columns run
  by_cases named : NamesStatement s
  · have full : ¬ (s = [] ∨ ¬ NamesStatement s) := by
      rintro (empty | unnamed)
      · exact nonempty_of_names named empty
      · exact unnamed named
    by_cases none : columns = []
    · have refused := columnsToDescribe_of_no_columns named none
      have bare := process_of_refused service state refused
      have kept : run = _ := process_of_refused service.logged (state, log) refused
      refine ⟨by rw [bare, kept], fun empty => absurd empty full, fun _ _ => kept,
        fun _ some => absurd none some, ?_⟩
      intro message told
      rw [kept] at told
      exact .inr (QueryReport.error.inj told).symm
    · have accepted := columnsToDescribe_of_columns named none
      obtain ⟨calls, last, called, prompts, bare, kept⟩ :=
        process_of_accepted service state accepted
      have kept : run = _ := kept log
      refine ⟨by rw [bare, kept], fun empty => absurd empty full, fun _ empty => absurd empty none,
        fun _ _ => ⟨calls, last, called, prompts, kept⟩, ?_⟩
      intro message told
      rw [kept] at told
      cases told
  · have refused := columnsToDescribe_of_not_named named
    have bare := process_of_refused service state refused
    have kept : run = _ := process_of_refused service.logged (state, log) refused
    refine ⟨by rw [bare, kept], fun _ => kept, fun names => absurd names named,
      fun names => absurd names named, ?_⟩
    intro message told
    rw [kept] at told
    exact .inl (QueryReport.error.inj told).symm

end ColumnLineage.QueryContract
