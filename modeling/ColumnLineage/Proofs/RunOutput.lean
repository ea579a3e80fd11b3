import ColumnLineage.Proofs.FileBatch
import ColumnLineage.Proofs.ReportLines
import ColumnLineage.Proofs.SelectGate

/-! What a run prints. Every line is one record, and there is one for each file or one in all; refused
arguments and settings are such lines too and send nothing. Two things break a run off before it has printed
anything: a variable that no environment can hold, and a wait for a response whose end the clock cannot
show. -/

namespace ColumnLineage.RunOutput
open CommandLine (Arguments Completion Invocation behindProxy brokenOffStatus defaultSettingsPath
  dotenvPaths lineOf lineOfFile loadSettings loadVariables processArguments queryText run)
open Data (record)
open Description (Exchange InferenceClient describe)
open Description.InferenceClient (breaksOff)
open FileBatch (fileName_processFile)
open Files (Path ReadError Reader firstFile?_eq_some_iff readText)
open Files.Path (reportName)
open Json (read?)
open Lineage (Column QueryLineage)
open QueryContract (process_of_described process_of_refused)
open Report (FileReport QueryReport columnsToDescribe describeAll process processFile processFiles)
open ReportLines (file_numberless query_numberless)
open SelectGate (columnsToDescribe_of_some)
open WrittenData (Printable read?_write write_printable)

variable {client : InferenceClient} {exchange middle last : Exchange} {sql line : Text} {path : Path}
  {lines : List Text} {invocation : Invocation} {arguments : Arguments} {settings : Settings}
  {environment : Settings.Environment}

/-! ## Lines -/

/-- A line that is one record: it holds no control character, and it is read as a record. -/
def RecordLine (line : Text) : Prop :=
  Printable line ∧ ∃ members, read? line = some (record members)

/-- A line that is the record of the file at a path: the name of the file comes first in it. -/
def FileLine (path : Path) (line : Text) : Prop :=
  Printable line ∧ ∃ members, read? line =
    some (record (("file_name".toList, .text (reportName path)) :: members))

theorem recordLine_lineOf (report : QueryReport) : RecordLine (lineOf report) :=
  ⟨write_printable (query_numberless report), _, read?_write (query_numberless report)⟩

theorem fileLine_lineOfFile {report : FileReport} (named : report.fileName = reportName path) :
    FileLine path (lineOfFile report) := by
  refine ⟨write_printable (file_numberless report), report.report.members, ?_⟩
  rw [← named]
  exact read?_write (file_numberless report)

theorem FileLine.recordLine (fileLine : FileLine path line) : RecordLine line := by
  obtain ⟨printable, members, told⟩ := fileLine
  exact ⟨printable, _, told⟩

/-- Lines as they are printed, each with a line end after it. -/
def printed (lines : List Text) : Text :=
  lines.flatMap (· ++ ['\n'])

/-- What is printed falls apart at its line ends into the lines. -/
theorem splitOn_printed (records : ∀ line ∈ lines, RecordLine line) :
    (printed lines).splitOn '\n' = lines ++ [[]] := by
  induction lines with
  | nil => rfl
  | cons line lines ih =>
    obtain ⟨head, others⟩ := List.forall_mem_cons.1 records
    have unbroken : '\n' ∉ line := fun member => absurd (head.1 _ member) (by decide)
    have whole : printed (line :: lines) = line ++ '\n' :: printed lines := by simp [printed]
    rw [whole, List.splitOn_append_cons_self, List.splitOn_eq_singleton unbroken, ih others,
      List.cons_append, List.nil_append, List.cons_append]

/-! ## Requests that break a run off -/

/-- A client with a key whose next request is well-formed, but waits longer than the clock can show. -/
def Stalls (client : InferenceClient) (exchange : Exchange) : Prop :=
  ∃ key, client.apiKey = some key ∧ breaksOff client.settings key exchange.names exchange.clock = true

/-- An exchange before and after a client has described some columns, or none. -/
structure Described (client : InferenceClient) (some : Prop) (before after : Exchange) : Prop where
  names : after.names = before.names
  clock : after.clock = before.clock
  brokenOff : after.brokenOff = true ↔ before.brokenOff = true ∨ some ∧ Stalls client before

theorem Described.none {some : Prop} (idle : ¬ some) : Described client some exchange exchange :=
  ⟨rfl, rfl, by simp [idle]⟩

/-- Describing columns does not change whether the client stalls. -/
theorem Described.stalls_iff {some : Prop} (described : Described client some exchange middle) :
    Stalls client middle ↔ Stalls client exchange := by
  rw [Stalls, described.names, described.clock, Stalls]

theorem Described.trans {first second : Prop} (before : Described client first exchange middle)
    (after : Described client second middle last) : Described client (first ∨ second) exchange last := by
  refine ⟨after.names.trans before.names, after.clock.trans before.clock, ?_⟩
  rw [after.brokenOff, before.brokenOff, before.stalls_iff, or_assoc, ← or_and_right]

/-- Each request leaves names and clock alone and breaks the run off exactly where the client stalls. -/
theorem describe_described (client : InferenceClient) (column : Column) (sql : Text) (exchange : Exchange) :
    Described client True exchange (describe client.service column sql exchange).2 := by
  change Described client True exchange (client.generate _ exchange).2
  unfold InferenceClient.generate
  split
  · rename_i keyless
    exact ⟨rfl, rfl, by simp [Stalls, keyless]⟩
  · rename_i key held
    have stalls : Stalls client exchange ↔
        breaksOff client.settings key exchange.names exchange.clock = true := by
      simp [Stalls, held]
    split
    · rename_i late
      exact ⟨rfl, rfl, by simp [stalls, late]⟩
    · rename_i inTime
      split <;> exact ⟨rfl, rfl, by simp [stalls, inTime]⟩

theorem describeAll_described (client : InferenceClient) (sql : Text) (columns : List Column)
    (exchange : Exchange) :
    Described client (columns ≠ []) exchange (describeAll client.service sql columns exchange).2 := by
  induction columns generalizing exchange with
  | nil => exact .none (by simp)
  | cons column columns ih =>
    have both := (describe_described client column sql exchange).trans (ih _)
    simp only [true_or] at both
    simpa [describeAll] using both

/-- A query has a column to describe. -/
def Asks (sql : Text) : Prop :=
  (QueryLineage.ofSql (Text.trim sql)).columns ≠ []

private theorem refused_of_not_asks (idle : ¬ Asks sql) :
    ∃ e, columnsToDescribe (Text.trim sql) = .error e := by
  unfold columnsToDescribe
  rw [not_not.1 idle]
  split
  · exact ⟨_, rfl⟩
  · exact ⟨_, rfl⟩

theorem process_described (client : InferenceClient) (sql : Text) (exchange : Exchange) :
    Described client (Asks sql) exchange (process client.service sql exchange).2 := by
  by_cases asks : Asks sql
  · have accepted := columnsToDescribe_of_some asks
    have described := describeAll_described client (Text.trim sql)
      (QueryLineage.ofSql (Text.trim sql)).columns exchange
    rwa [process_of_described client.service exchange accepted rfl]
  · obtain ⟨e, refused⟩ := refused_of_not_asks asks
    rw [process_of_refused client.service exchange refused]
    exact .none asks

theorem processFile_described (client : InferenceClient) (files : Reader) (path : Path)
    (exchange : Exchange) :
    Described client (∃ sql, readText files path = .ok sql ∧ Asks sql) exchange
      (processFile client.service files path exchange).2 := by
  unfold processFile
  cases read : readText files path with
  | error e => exact .none (by simp)
  | ok sql => simpa using process_described client sql exchange

theorem processFiles_described (client : InferenceClient) (files : Reader) (paths : List Path)
    (exchange : Exchange) :
    Described client (∃ path ∈ paths, ∃ sql, readText files path = .ok sql ∧ Asks sql) exchange
      (processFiles client.service files paths exchange).2 := by
  induction paths generalizing exchange with
  | nil => exact .none (by simp)
  | cons path paths ih =>
    have both := (processFile_described client files path exchange).trans (ih _)
    simpa only [processFiles, List.exists_mem_cons_iff] using both

/-- The queries of accepted arguments: those of the files that can be read, or else the one query if it can
be. -/
inductive Query (arguments : Arguments) (files : Reader) (input : Except ReadError Bytes) : Text → Prop where
  | file {path : Path} {sql : Text} (member : path ∈ arguments.files) (read : readText files path = .ok sql) :
      Query arguments files input sql
  | only {sql : Text} (none : arguments.files = []) (read : queryText arguments.sql input = .ok sql) :
      Query arguments files input sql

theorem processArguments_described (client : InferenceClient) (arguments : Arguments) (files : Reader)
    (input : Except ReadError Bytes) (exchange : Exchange) :
    Described client (∃ sql, Query arguments files input sql ∧ Asks sql) exchange
      (processArguments client arguments files input exchange).2 := by
  unfold processArguments
  split
  · rename_i none
    have single (sql : Text) : Query arguments files input sql ↔ queryText arguments.sql input = .ok sql := by
      refine ⟨?_, .only none⟩
      rintro (⟨member, -⟩ | ⟨-, read⟩)
      · simp [none] at member
      · exact read
    split
    · rename_i unread
      exact .none (by simp [single, unread])
    · rename_i sql read
      simpa [single, read] using process_described client sql exchange
  · rename_i some
    have listed (sql : Text) : Query arguments files input sql ↔
        ∃ path ∈ arguments.files, readText files path = .ok sql := by
      refine ⟨?_, fun ⟨path, member, read⟩ => .file member read⟩
      rintro (⟨member, read⟩ | ⟨none, -⟩)
      · exact ⟨_, member, read⟩
      · exact absurd none some
    have described := processFiles_described client files arguments.files exchange
    refine ⟨described.names, described.clock, described.brokenOff.trans ?_⟩
    have same : (∃ path ∈ arguments.files, ∃ sql, readText files path = .ok sql ∧ Asks sql) ↔
        ∃ sql, Query arguments files input sql ∧ Asks sql := by
      simp only [listed]
      tauto
    rw [same]

/-! ## Lines for arguments -/

theorem processFiles_lines (client : InferenceClient) (files : Reader) (paths : List Path)
    (exchange : Exchange) :
    List.Forall₂ FileLine paths
      ((processFiles client.service files paths exchange).1.map lineOfFile) := by
  induction paths generalizing exchange with
  | nil => exact .nil
  | cons path paths ih =>
    have named := fileName_processFile client.service files path exchange
    exact .cons (fileLine_lineOfFile named) (ih _)

private theorem recordLine_of_files {paths : List Path} {lines : List Text}
    (files : List.Forall₂ FileLine paths lines) :
    ∀ line ∈ lines, RecordLine line := by
  induction files with
  | nil => exact List.forall_mem_nil _
  | cons fileLine _ ih => exact List.forall_mem_cons.2 ⟨fileLine.recordLine, ih⟩

/-- Lines for accepted arguments: one record for each file, in their order, or else one record. -/
structure LinesFor (arguments : Arguments) (lines : List Text) : Prop where
  records : ∀ line ∈ lines, RecordLine line
  files : arguments.files ≠ [] → List.Forall₂ FileLine arguments.files lines
  single : arguments.files = [] → lines.length = 1

private theorem LinesFor.one {report : QueryReport} (none : arguments.files = []) :
    LinesFor arguments [lineOf report] :=
  ⟨List.forall_mem_singleton.2 (recordLine_lineOf report), fun some => absurd none some, fun _ => rfl⟩

theorem processArguments_lines (client : InferenceClient) (arguments : Arguments) (files : Reader)
    (input : Except ReadError Bytes) (exchange : Exchange) :
    LinesFor arguments (processArguments client arguments files input exchange).1 := by
  unfold processArguments
  split
  · rename_i none
    split
    · exact .one none
    · exact .one none
  · rename_i some
    have lines := processFiles_lines client files arguments.files exchange
    exact ⟨recordLine_of_files lines, fun _ => lines, fun none => absurd none some⟩

/-! ## Runs -/

/-- A run whose arguments are accepted and whose settings load. -/
structure Accepted (invocation : Invocation) (arguments : Arguments) (settings : Settings) : Prop where
  read : Arguments.read invocation.arguments = .ok arguments
  loaded : loadSettings invocation arguments.config = .ok settings

/-- The nearest file of variables holds one that no environment can hold. The directories before that of the
file are known to have no such file. -/
inductive HoldsImpossible (invocation : Invocation) : Prop where
  | nearest {before after : List Path} {path : Path} {content : Bytes}
      (places : dotenvPaths invocation.directories = before ++ path :: after)
      (isFile : invocation.standing path = .file)
      (passed : ∀ earlier ∈ before, invocation.standing earlier = .other ∨ invocation.standing earlier = .nothing)
      (held : invocation.files path = .ok content)
      (impossible : CommandLine.Dotenv.load invocation.environment content = .impossible)

theorem loadVariables_impossible_iff : loadVariables invocation = .impossible ↔ HoldsImpossible invocation := by
  unfold loadVariables
  constructor
  · intro impossible
    split at impossible
    · cases impossible
    · rename_i path found
      obtain ⟨before, after, places, isFile, passed⟩ := firstFile?_eq_some_iff.1 found
      split at impossible
      · rename_i content held
        exact .nearest places isFile passed held impossible
      · cases impossible
  · rintro ⟨places, isFile, passed, held, impossible⟩
    have found := firstFile?_eq_some_iff.2 ⟨_, _, places, isFile, passed⟩
    simp only [found, held, impossible]

theorem not_holdsImpossible (held : loadVariables invocation = .loaded environment) :
    ¬ HoldsImpossible invocation := by
  rw [← loadVariables_impossible_iff, held]
  exact nofun

/-- A run that is broken off before it prints anything: it finds a variable that no environment can hold, or it
has a column to describe and its client stalls. -/
inductive BreaksOff (invocation : Invocation) : Prop where
  | impossible {arguments : Arguments} (read : Arguments.read invocation.arguments = .ok arguments)
      (held : HoldsImpossible invocation)
  | stalled {arguments : Arguments} {settings : Settings} {environment : Settings.Environment} {sql : Text}
      (accepted : Accepted invocation arguments settings)
      (loaded : loadVariables invocation = .loaded environment)
      (stalls : Stalls ⟨settings, settings.apiKey? environment⟩ invocation.exchange)
      (query : Query arguments invocation.files invocation.input sql) (asks : Asks sql)

private theorem Accepted.unique {others : Arguments} {more : Settings}
    (accepted : Accepted invocation arguments settings) (again : Accepted invocation others more) :
    arguments = others :=
  Except.ok.inj (accepted.read.symm.trans again.read)

/-- No arguments are accepted with settings that load. -/
def Rejected (invocation : Invocation) : Prop :=
  ∀ arguments settings, ¬ Accepted invocation arguments settings

/-- A run with its variables and settings loaded processes its arguments, and nothing of what it comes to
counts if that broke it off. -/
private theorem run_of_accepted (accepted : Accepted invocation arguments settings)
    (loaded : loadVariables invocation = .loaded environment) :
    ∃ lines after, LinesFor arguments lines ∧
      Described ⟨settings, settings.apiKey? environment⟩
        (∃ sql, Query arguments invocation.files invocation.input sql ∧ Asks sql) invocation.exchange after ∧
      run invocation =
        if after.brokenOff then ⟨brokenOffStatus, [], after⟩ else ⟨0, lines, after⟩ := by
  let client : InferenceClient := ⟨settings, settings.apiKey? environment⟩
  let start := behindProxy environment settings invocation.exchange
  let done := processArguments client arguments invocation.files invocation.input start
  have described : Described client _ start done.2 := processArguments_described client arguments _ _ start
  have proxied : Described client False invocation.exchange start := by
    simp only [start, behindProxy]
    split
    · exact ⟨rfl, rfl, by simp⟩
    · exact .none not_false
  refine ⟨done.1, done.2, processArguments_lines client arguments _ _ start, ?_, ?_⟩
  · simpa only [false_or] using proxied.trans described
  · unfold run
    simp only [accepted.read, loaded, accepted.loaded]
    rfl

private theorem breaksOff_iff (accepted : Accepted invocation arguments settings)
    (held : loadVariables invocation = .loaded environment) :
    BreaksOff invocation ↔
      (∃ sql, Query arguments invocation.files invocation.input sql ∧ Asks sql) ∧
        Stalls ⟨settings, settings.apiKey? environment⟩ invocation.exchange := by
  constructor
  · rintro (⟨-, impossible⟩ | ⟨again, loaded, stalls, query, asks⟩)
    · exact absurd impossible (not_holdsImpossible held)
    · obtain rfl := accepted.unique again
      obtain rfl := Except.ok.inj (accepted.loaded.symm.trans again.loaded)
      rw [held] at loaded
      cases loaded
      exact ⟨⟨_, query, asks⟩, stalls⟩
  · rintro ⟨⟨sql, query, asks⟩, stalls⟩
    exact .stalled accepted held stalls query asks

/-- All that a run can come to which is not asked for the help or the version: it is broken off, it is rejected
with one record, or its arguments have their lines. -/
theorem run_cases (fresh : invocation.exchange.brokenOff = false)
    (noHelp : Arguments.read invocation.arguments ≠ .error .help)
    (noVersion : Arguments.read invocation.arguments ≠ .error .version) :
    (BreaksOff invocation ∧ ∃ after, run invocation = ⟨brokenOffStatus, [], after⟩ ∧
      (Rejected invocation → after = invocation.exchange)) ∨
    (¬ BreaksOff invocation ∧ Rejected invocation ∧
      ∃ report, run invocation = ⟨0, [lineOf report], invocation.exchange⟩) ∨
    (¬ BreaksOff invocation ∧ ∃ arguments settings, Accepted invocation arguments settings ∧
      ∃ lines after, LinesFor arguments lines ∧ run invocation = ⟨0, lines, after⟩) := by
  cases read : Arguments.read invocation.arguments with
  | error stop =>
    cases stop with
    | help => exact absurd read noHelp
    | version => exact absurd read noVersion
    | refused e =>
      have unread (arguments) : ¬ Arguments.read invocation.arguments = .ok arguments := by
        simp [read]
      refine .inr (.inl ⟨?_, fun arguments _ accepted => unread arguments accepted.read, .error e.message, ?_⟩)
      · rintro (⟨accepted, -⟩ | ⟨accepted, -⟩)
        · exact unread _ accepted
        · exact unread _ accepted.read
      · simp only [run, read]
  | ok arguments =>
    cases held : loadVariables invocation with
    | impossible =>
      have broken : run invocation = ⟨brokenOffStatus, [], invocation.exchange⟩ := by
        simp only [run, read, held]
      exact .inl ⟨.impossible read (loadVariables_impossible_iff.1 held), _, broken, fun _ => rfl⟩
    | loaded environment =>
      cases loaded : loadSettings invocation arguments.config with
      | error e =>
        have rejected : Rejected invocation := by
          rintro others settings ⟨again, accepted⟩
          obtain rfl := Except.ok.inj (read.symm.trans again)
          rw [loaded] at accepted
          cases accepted
        refine .inr (.inl ⟨?_, rejected, .error e.message, by simp only [run, read, held, loaded]⟩)
        rintro (⟨-, impossible⟩ | ⟨accepted, -⟩)
        · exact not_holdsImpossible held impossible
        · exact rejected _ _ accepted
      | ok settings =>
        have accepted : Accepted invocation arguments settings := ⟨read, loaded⟩
        obtain ⟨lines, after, linesFor, described, ran⟩ := run_of_accepted accepted held
        have breaks : after.brokenOff = true ↔ BreaksOff invocation := by
          simp [described.brokenOff, fresh, breaksOff_iff accepted held]
        by_cases broken : after.brokenOff = true
        · rw [if_pos broken] at ran
          exact .inl ⟨breaks.1 broken, after, ran, fun rejected => absurd accepted (rejected _ _)⟩
        · rw [if_neg broken] at ran
          exact .inr (.inr ⟨fun broke => broken (breaks.2 broke), arguments, settings, accepted, lines, after,
            linesFor, ran⟩)

/-- What a run that is not broken off prints: lines that are records, one for each file in the order of the
files if the arguments name any and the settings load, and otherwise a single one. -/
structure Prints (invocation : Invocation) (done : Completion) : Prop where
  status : done.status = 0
  parts : (printed done.lines).splitOn '\n' = done.lines ++ [[]]
  records : ∀ line ∈ done.lines, RecordLine line
  files : ∀ arguments settings, Accepted invocation arguments settings → arguments.files ≠ [] →
    List.Forall₂ FileLine arguments.files done.lines
  single : (∀ arguments settings, Accepted invocation arguments settings → arguments.files = []) →
    done.lines.length = 1

/-- A run that accepts nothing prints the record of its error. -/
private theorem Prints.rejected {report : QueryReport} {after : Exchange}
    (rejected : Rejected invocation) :
    Prints invocation ⟨0, [lineOf report], after⟩ := by
  have records : ∀ line ∈ [lineOf report], RecordLine line :=
    List.forall_mem_singleton.2 (recordLine_lineOf report)
  exact ⟨rfl, splitOn_printed records, records,
    fun arguments settings accepted => absurd accepted (rejected arguments settings), fun _ => rfl⟩

private theorem Prints.accepted {after : Exchange} (accepted : Accepted invocation arguments settings)
    (printed : LinesFor arguments lines) : Prints invocation ⟨0, lines, after⟩ := by
  refine ⟨rfl, splitOn_printed printed.records, printed.records, ?_, ?_⟩
  · rintro others more again some
    obtain rfl := accepted.unique again
    exact printed.files some
  · intro none
    exact printed.single (none arguments settings accepted)

/-- A run on two files of which the first is missing and the second has a name that is no text. -/
private def twoFiles : Invocation :=
  { arguments := ["-f", "no/such.sql"].map (Utf8.encode ·.toList) ++ [Utf8.encode "--file=".toList ++ [0xFF, 0x0A]]
    environment := []
    files := fun path => if path = [0xFF, 0x0A] then .ok [0x53] else .error .notFound
    standing := fun _ => .nothing
    directories := []
    input := .ok []
    exchange := .start none 0 [] }

private theorem twoFiles_accepted :
    Accepted twoFiles ⟨none, [Utf8.encode "no/such.sql".toList, [0xFF, 0x0A]], none, false⟩ Settings.initial :=
  ⟨by decide +kernel, by rfl⟩

/-- A run on a query with settings that let it wait for longer than the clock can show. -/
private def endlessWait : Invocation :=
  { arguments := [Utf8.encode "SELECT a FROM t".toList]
    environment := [("HUGGINGFACE_API_KEY".toList, "k".toList)]
    files := fun _ => .ok (Utf8.encode "[service]\nrequest_timeout_secs = 9223372036854775807\n".toList)
    standing := fun path => if path = defaultSettingsPath then .file else .nothing
    directories := [Utf8.encode "/".toList]
    input := .ok []
    exchange := .start none 1 [] }

end ColumnLineage.RunOutput
