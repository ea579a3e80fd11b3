import ColumnLineage.Files.Reader
import ColumnLineage.Report.Processing

/-!
Processing files. Each file holds one query and has a report of its own; a file that cannot be read
is reported and asks the service nothing.
-/

namespace ColumnLineage.Report

open Description (Service)
open Files (Path Reader readText)

/-- The report on the file at a path and the state of the service after it, as `process_file` makes
it. -/
def processFile (service : Service State) (files : Reader) (path : Path) (state : State) :
    FileReport × State :=
  let fileName := path.reportName
  match readText files path with
  | .error e => (⟨fileName, .ofError (.io e.message)⟩, state)
  | .ok sql =>
    let (report, state) := process service sql state
    (⟨fileName, report⟩, state)

/-- The reports on the files at some paths, in order, and the state of the service after them, as
`process_files` makes them. -/
def processFiles (service : Service State) (files : Reader) :
    List Path → State → List FileReport × State
  | [], state => ([], state)
  | path :: rest, state =>
    let (report, state) := processFile service files path state
    let (reports, state) := processFiles service files rest state
    (report :: reports, state)

end ColumnLineage.Report
