import TemplateTidy.Main
import TemplateTidy.Proofs.Command.Status
import TemplateTidy.Proofs.Files.Discovery
import TemplateTidy.Proofs.Layout.BetweenTags
import TemplateTidy.Proofs.Layout.BlankLines
import TemplateTidy.Proofs.Layout.Comments
import TemplateTidy.Proofs.Layout.Format
import TemplateTidy.Proofs.Layout.Joining
import TemplateTidy.Proofs.Layout.KeptLines
import TemplateTidy.Proofs.Layout.LineStarts
import TemplateTidy.Proofs.Layout.OwnLines
import TemplateTidy.Proofs.Layout.SingleTags
import TemplateTidy.Proofs.Layout.StyleSheets
import TemplateTidy.Proofs.Lint.Pairing
import TemplateTidy.Proofs.Report.Statistics
