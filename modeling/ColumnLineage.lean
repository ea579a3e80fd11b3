import ColumnLineage.Description.Scripted
import ColumnLineage.Files.Tree
import ColumnLineage.Lineage.Data
import ColumnLineage.Main
import ColumnLineage.Proofs.QueryContract
import ColumnLineage.Proofs.RenderedText
import ColumnLineage.Proofs.SelectedItems
import ColumnLineage.Proofs.ColumnText
import ColumnLineage.Proofs.SelectGate
import ColumnLineage.Proofs.ColumnIsolation
import ColumnLineage.Proofs.ReportLines
import ColumnLineage.Proofs.FileBatch
import ColumnLineage.Proofs.RunOutput
import ColumnLineage.Proofs.SelectListParts
import ColumnLineage.Proofs.ImplicitAlias
import ColumnLineage.Proofs.StatementSequence
import ColumnLineage.Proofs.MentionPlaces
import ColumnLineage.Proofs.ListSource
import ColumnLineage.Proofs.KeywordOperators
import ColumnLineage.Proofs.BracketedItems
import ColumnLineage.Proofs.Transformation
import ColumnLineage.Proofs.ListContext
import ColumnLineage.Proofs.ListConcatenation
import ColumnLineage.Proofs.MentionScan
import ColumnLineage.Proofs.CreatedTable
import ColumnLineage.Proofs.ListPositions
import ColumnLineage.Proofs.QualifiedNames
import ColumnLineage.Proofs.ItemPositions
import ColumnLineage.Proofs.GeneratedTexts
import ColumnLineage.Proofs.SettingsOverride
import ColumnLineage.Proofs.LineageRecords
import ColumnLineage.Proofs.LeadingComment
import ColumnLineage.Proofs.ScriptedSessions
