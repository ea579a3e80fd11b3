import ColumnLineage.Proofs.QueryContract
import ColumnLineage.Report.Batch

/-! Files processed one after another. The service goes from file to file in the state that the one before
left, and nothing else does: the reports on a list of files are those on its parts, each file makes its own
calls, and a file that cannot be read makes none and leaves no trace but its own report. -/

namespace ColumnLineage.FileBatch
open Description (Call Service)
open Files (Path ReadError Reader readText textOf)
open Files.Path (reportName)
open QueryContract (process_of_accepted process_of_refused)
open Report (FileReport columnsToDescribe process processFile processFiles)

variable {files : Reader} {path : Path} {e : ReadError}

/-! ## One file -/

/-- Processing a query makes some calls and reports the same whether or not they are logged. -/
theorem process_calls (service : Service State) (sql : Text) (state : State) :
    ∃ report calls last, service.Calls state calls last ∧
      process service sql state = (report, last) ∧
      ∀ log, process service.logged sql (state, log) = (report, (last, log ++ calls)) := by
  cases accepted : columnsToDescribe (Text.trim sql) with
  | error e =>
    refine ⟨.error e.message, [], state, .done, process_of_refused service state accepted, ?_⟩
    intro log
    rw [List.append_nil]
    exact process_of_refused service.logged (state, log) accepted
  | ok columns =>
    obtain ⟨calls, last, called, -, reported, logged⟩ := process_of_accepted service state accepted
    exact ⟨_, calls, last, called, reported, logged⟩

/-- A report is under the name of its file. -/
theorem fileName_processFile (service : Service State) (files : Reader) (path : Path) (state : State) :
    (processFile service files path state).1.fileName = reportName path := by
  unfold processFile
  split <;> rfl

/-- The report on a file that cannot be read. -/
def unreadable (path : Path) (e : ReadError) : FileReport :=
  ⟨reportName path, .error ("IO error: ".toList ++ e.message)⟩

/-- A file that cannot be read is reported for the reason, and the service is left alone. -/
theorem processFile_unreadable (service : Service State) (state : State)
    (failed : readText files path = .error e) :
    processFile service files path state = (unreadable path e, state) := by
  rw [processFile, failed]
  rfl

/-- A file makes the calls of its query, if it can be read, and no others. -/
theorem processFile_calls (service : Service State) (files : Reader) (path : Path) (state : State) :
    ∃ report calls last, service.Calls state calls last ∧
      processFile service files path state = (report, last) ∧
      ∀ log, processFile service.logged files path (state, log) = (report, (last, log ++ calls)) := by
  cases read : readText files path with
  | error e =>
    refine ⟨unreadable path e, [], state, .done, processFile_unreadable service state read, ?_⟩
    intro log
    rw [List.append_nil]
    exact processFile_unreadable service.logged (state, log) read
  | ok sql =>
    obtain ⟨report, calls, last, called, reported, logged⟩ := process_calls service sql state
    refine ⟨⟨reportName path, report⟩, calls, last, called, ?_, ?_⟩
    · rw [processFile, read]
      simp only [reported]
    · intro log
      rw [processFile, read]
      simp only [logged]

/-! ## Many files -/

/-- The reports on files are those on the first of them and then those on the rest, from the state in which
the first left the service. -/
theorem processFiles_append (service : Service State) (files : Reader) (first rest : List Path)
    (state : State) :
    processFiles service files (first ++ rest) state =
      let (reports, middle) := processFiles service files first state
      let (others, last) := processFiles service files rest middle
      (reports ++ others, last) := by
  induction first generalizing state with
  | nil => rfl
  | cons path first ih => simp only [List.cons_append, processFiles, ih]

/-- Each file has one report, under its name. -/
theorem fileNames_processFiles (service : Service State) (files : Reader) (paths : List Path)
    (state : State) :
    (processFiles service files paths state).1.map FileReport.fileName = paths.map reportName := by
  induction paths generalizing state with
  | nil => rfl
  | cons path paths ih => simp only [processFiles, List.map_cons, ih, fileName_processFile]

/-- A file among others: its path, the report on it and the calls that were made for it. -/
structure Visit where
  path : Path
  report : FileReport
  calls : List Call

/-- The visits, in their order, that lead a service from one state to another. Each visit is what processing
its file alone would be in the state that the one before left. -/
inductive Visits (service : Service State) (files : Reader) : State → List Visit → State → Prop where
  | done : Visits service files state [] state
  | file {visit : Visit}
      (called : service.Calls state visit.calls middle)
      (processed : processFile service.logged files visit.path (state, []) =
        (visit.report, (middle, visit.calls)))
      (more : Visits service files middle visits last) :
      Visits service files state (visit :: visits) last

/-- Files are visited one after another, and the calls are those of the visits. -/
theorem processFiles_visits (service : Service State) (files : Reader) (paths : List Path)
    (state : State) :
    ∃ visits last, Visits service files state visits last ∧ visits.map Visit.path = paths ∧
      processFiles service files paths state = (visits.map Visit.report, last) ∧
      ∀ log, processFiles service.logged files paths (state, log) =
        (visits.map Visit.report, (last, log ++ visits.flatMap Visit.calls)) := by
  induction paths generalizing state with
  | nil => exact ⟨[], state, .done, rfl, rfl, fun log => by simp [processFiles]⟩
  | cons path paths ih =>
    obtain ⟨report, calls, middle, called, reported, logged⟩ :=
      processFile_calls service files path state
    obtain ⟨visits, last, more, rfl, reports, loggedMore⟩ := ih middle
    let visit : Visit := ⟨path, report, calls⟩
    refine ⟨visit :: visits, last, .file called (logged []) more, rfl, ?_, ?_⟩
    · simp only [processFiles, reported, reports, visit, List.map_cons]
    · intro log
      simp only [processFiles, logged, loggedMore, visit, List.map_cons, List.flatMap_cons,
        List.append_assoc]

/-- A file that cannot be read puts its report among the others and does nothing else. -/
theorem processFiles_unreadable (service : Service State) (first rest : List Path) (state : State)
    (failed : readText files path = .error e) :
    processFiles service files (first ++ path :: rest) state =
      ((processFiles service files (first ++ rest) state).1.insertIdx first.length (unreadable path e),
        (processFiles service files (first ++ rest) state).2) := by
  induction first generalizing state with
  | nil => simp only [List.nil_append, processFiles, processFile_unreadable service state failed,
      List.length_nil, List.insertIdx_zero]
  | cons other first ih =>
    simp only [List.cons_append, processFiles, ih, List.length_cons, List.insertIdx_succ_cons]

/-- A file cannot be read if there are no bytes of it, and also if these are no text. -/
theorem readText_failures (files : Reader) (path : Path) :
    (∀ e, files path = .error e → readText files path = .error e) ∧
      ∀ bytes, files path = .ok bytes → Utf8.decode? bytes = none →
        readText files path = .error .invalidUtf8 := by
  constructor
  · intro e missing
    rw [readText, missing]
  · intro bytes held malformed
    rw [readText, held]
    simp only [textOf, malformed]

/-- Processing files. The reports on two lists of files are those on the first and then those on the second,
from the state in which the first left the service. Each file has one report, in the order of the paths and
under its own name, and the calls are those that the files make one by one. A file of which there are no bytes,
or none that are a text, is reported for that reason without a call; wherever it stands among the others, the
reports on them and all calls are those without it. -/
theorem files_compose (service : Service State) (files : Reader) (first rest : List Path) (state : State)
    (log : List Call) :
    (processFiles service files (first ++ rest) state =
      let (reports, middle) := processFiles service files first state
      let (others, last) := processFiles service files rest middle
      (reports ++ others, last)) ∧
    (processFiles service files first state).1.map FileReport.fileName = first.map reportName ∧
    (∃ visits last, Visits service files state visits last ∧ visits.map Visit.path = first ∧
      processFiles service files first state = (visits.map Visit.report, last) ∧
      processFiles service.logged files first (state, log) =
        (visits.map Visit.report, (last, log ++ visits.flatMap Visit.calls))) ∧
    ∀ path e, (files path = .error e ∨
        e = .invalidUtf8 ∧ ∃ bytes, files path = .ok bytes ∧ Utf8.decode? bytes = none) →
      let report : FileReport := ⟨reportName path, .error ("IO error: ".toList ++ e.message)⟩
      let without := processFiles service.logged files (first ++ rest) (state, log)
      processFile service.logged files path (state, log) = (report, (state, log)) ∧
        processFiles service.logged files (first ++ path :: rest) (state, log) =
          (without.1.insertIdx first.length report, without.2) := by
  refine ⟨processFiles_append service files first rest state,
    fileNames_processFiles service files first state, ?_, ?_⟩
  · obtain ⟨visits, last, visited, paths, reported, logged⟩ :=
      processFiles_visits service files first state
    exact ⟨visits, last, visited, paths, reported, logged log⟩
  · intro path e unread report without
    have failed : readText files path = .error e := by
      rcases unread with missing | ⟨rfl, bytes, held, malformed⟩
      · exact (readText_failures files path).1 e missing
      · exact (readText_failures files path).2 bytes held malformed
    exact ⟨processFile_unreadable service.logged (state, log) failed,
      processFiles_unreadable service.logged first rest (state, log) failed⟩

end ColumnLineage.FileBatch
