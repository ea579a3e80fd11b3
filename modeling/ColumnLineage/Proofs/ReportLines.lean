import ColumnLineage.CommandLine.Run
import ColumnLineage.Proofs.WrittenData

/-! The lines of reports. A line is read back as the members of its report, and it tells reports apart as
far as their descriptions are written: all failures are written alike, and nothing else is. -/

namespace ColumnLineage.Report
open Description (Outcome)

/-- A described column as far as it is written: a failure is no more than its fixed text. -/
def ColumnReport.asWritten (c : ColumnReport) : ColumnReport :=
  { c with outcome := .generated c.outcome.text }

/-- A report as far as its descriptions are written. -/
def QueryReport.asWritten : QueryReport → QueryReport
  | error message => error message
  | success sql columns => success sql (columns.map ColumnReport.asWritten)

/-- The report on a file as far as its descriptions are written. -/
def FileReport.asWritten (report : FileReport) : FileReport :=
  { report with report := report.report.asWritten }

end ColumnLineage.Report

namespace ColumnLineage.ReportLines
open CommandLine (lineOf lineOfFile)
open Data (list record text)
open Json (read? write)
open Report (ColumnReport FileReport QueryReport)
open WrittenData (Numberless Printable read?_write write_inj write_printable)

/-! ## Reports hold no numbers -/

private theorem column_numberless (c : ColumnReport) : Numberless c.data := by
  refine .record ?_
  simp only [List.forall_mem_cons]
  exact ⟨.text _, .text _, .optionalText c.sourceTable, .text _, .bool _, .text _, List.forall_mem_nil _⟩

private theorem members_numberless (report : QueryReport) : ∀ m ∈ report.members, Numberless m.2 := by
  cases report with
  | error message => exact List.forall_mem_cons.2 ⟨.text message, List.forall_mem_nil _⟩
  | success sql columns =>
    have described : Numberless (list (columns.map ColumnReport.data)) :=
      .list (List.forall_mem_map.2 fun c _ => column_numberless c)
    exact List.forall_mem_cons.2 ⟨.text sql, List.forall_mem_cons.2 ⟨described, List.forall_mem_nil _⟩⟩

theorem query_numberless (report : QueryReport) : Numberless report.data :=
  .record (members_numberless report)

theorem file_numberless (report : FileReport) : Numberless report.data :=
  .record (List.forall_mem_cons.2 ⟨.text report.fileName, members_numberless report.report⟩)

/-! ## Data tell reports apart as far as they are written -/

private theorem source_data_inj (source other : Option Text) :
    source.elim Data.null text = other.elim Data.null text ↔ source = other := by
  cases source <;> cases other <;> simp

private theorem column_data_inj (c d : ColumnReport) : c.data = d.data ↔ c.asWritten = d.asWritten := by
  cases c
  cases d
  simp [ColumnReport.data, ColumnReport.asWritten, source_data_inj]

private theorem columns_data_inj (columns others : List ColumnReport) :
    columns.map ColumnReport.data = others.map ColumnReport.data ↔
      columns.map ColumnReport.asWritten = others.map ColumnReport.asWritten := by
  induction columns generalizing others with
  | nil => simp
  | cons c columns ih =>
    cases others with
    | nil => simp
    | cons d others => simp [column_data_inj, ih]

private theorem members_inj (report other : QueryReport) :
    report.members = other.members ↔ report.asWritten = other.asWritten := by
  cases report with
  | error message =>
    cases other <;> simp [QueryReport.members, QueryReport.asWritten]
  | success sql columns =>
    cases other with
    | error message => simp [QueryReport.members, QueryReport.asWritten]
    | success sql others =>
      simp [QueryReport.members, QueryReport.asWritten, columns_data_inj]

theorem query_data_inj (report other : QueryReport) :
    report.data = other.data ↔ report.asWritten = other.asWritten := by
  rw [QueryReport.data, QueryReport.data, Data.record.injEq, members_inj]

theorem file_data_inj (report other : FileReport) :
    report.data = other.data ↔ report.asWritten = other.asWritten := by
  cases report
  cases other
  simp [FileReport.data, FileReport.asWritten, members_inj]

/-! ## The lines -/

/-- What the lines of reports say. Two of them are equal exactly if the reports are equal as far as they
are written. Read back, the line of an error holds its message and nothing else, and that of a success the
query and its described columns; the line of a file has the name of the file before these. No line holds a
character below the space. -/
theorem lines_tell :
    (∀ report other, lineOf report = lineOf other ↔ report.asWritten = other.asWritten) ∧
    (∀ report other, lineOfFile report = lineOfFile other ↔ report.asWritten = other.asWritten) ∧
    (∀ message, read? (lineOf (.error message)) = some (record [("error".toList, text message)])) ∧
    (∀ sql columns, read? (lineOf (.success sql columns)) = some (record
      [("sql_query".toList, text sql), ("columns".toList, list (columns.map ColumnReport.data))])) ∧
    (∀ name message, read? (lineOfFile ⟨name, .error message⟩) = some (record
      [("file_name".toList, text name), ("error".toList, text message)])) ∧
    (∀ name sql columns, read? (lineOfFile ⟨name, .success sql columns⟩) = some (record
      [("file_name".toList, text name), ("sql_query".toList, text sql),
        ("columns".toList, list (columns.map ColumnReport.data))])) ∧
    (∀ report, Printable (lineOf report)) ∧
    ∀ report, Printable (lineOfFile report) := by
  refine ⟨?_, ?_, ?_, ?_, ?_, ?_, ?_, ?_⟩
  · intro report other
    exact (write_inj (query_numberless report) (query_numberless other)).trans (query_data_inj report other)
  · intro report other
    exact (write_inj (file_numberless report) (file_numberless other)).trans (file_data_inj report other)
  · exact fun message => read?_write (query_numberless (.error message))
  · exact fun sql columns => read?_write (query_numberless (.success sql columns))
  · exact fun name message => read?_write (file_numberless ⟨name, .error message⟩)
  · exact fun name sql columns => read?_write (file_numberless ⟨name, .success sql columns⟩)
  · exact fun report => write_printable (query_numberless report)
  · exact fun report => write_printable (file_numberless report)

end ColumnLineage.ReportLines
