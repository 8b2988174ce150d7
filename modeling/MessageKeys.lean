import MessageKeys.Main
import MessageKeys.Proofs.StringOrder
import MessageKeys.Proofs.Traversal
import MessageKeys.Proofs.Collection
import MessageKeys.Proofs.FileAccess
import MessageKeys.Proofs.JsonText
import MessageKeys.Proofs.ReportFiles
import MessageKeys.Proofs.Runs
import MessageKeys.Proofs.ReportedKeys
import MessageKeys.Proofs.PathSteps
import MessageKeys.Proofs.Totals
import MessageKeys.Proofs.LinkFree
import MessageKeys.Proofs.Changes
import MessageKeys.Proofs.Footprint
import MessageKeys.Proofs.Trees
import MessageKeys.Proofs.Scanning
import MessageKeys.Proofs.Expansion
import MessageKeys.Proofs.Rerun
import MessageKeys.Proofs.EscapedText
import MessageKeys.Proofs.Parsing
import MessageKeys.Proofs.CallKeys
import MessageKeys.Proofs.Labels
import MessageKeys.Proofs.Merging
import MessageKeys.Proofs.Agreement
import MessageKeys.Proofs.FreshSettings
import MessageKeys.Proofs.MarkupText
import MessageKeys.Proofs.MarkupParsing
import MessageKeys.Proofs.ElementKeys
import MessageKeys.Proofs.FoundFiles
import MessageKeys.Proofs.Spelling
import MessageKeys.Proofs.PatternSpelling
import MessageKeys.Proofs.ScannedPaths
import MessageKeys.Proofs.Grouping
import MessageKeys.Proofs.KnownKeys
import MessageKeys.Proofs.SettingsSearch
import MessageKeys.Proofs.IssueOrder
import MessageKeys.Proofs.ShownOrder
import MessageKeys.Proofs.CodeUnitKeys
import MessageKeys.Proofs.Positions
import MessageKeys.Proofs.LosslessReports
import MessageKeys.Proofs.NumberText
import MessageKeys.Proofs.Colors
import MessageKeys.Proofs.WrittenOptions
import MessageKeys.Proofs.TestPaths
import MessageKeys.Proofs.ReportLines
import MessageKeys.Proofs.ResolvedPaths
import MessageKeys.Terminal.ColumnTable
import MessageKeys.Terminal.Width
