import ScriptCell.Main
import ScriptCell.Command.Directory
import ScriptCell.Store
import ScriptCell.Timing.Program
import ScriptCell.Proofs.Binary.Order
import ScriptCell.Proofs.Value.Equality
import ScriptCell.Proofs.Value.Arith
import ScriptCell.Proofs.Value.Index
import ScriptCell.Proofs.Line.Words
import ScriptCell.Proofs.Session.Reply
import ScriptCell.Proofs.Batch
import ScriptCell.Proofs.FrontEnds
import ScriptCell.Proofs.Session.History
import ScriptCell.Proofs.Binary.Nearest
import ScriptCell.Proofs.Binary.Narrow
import ScriptCell.Proofs.Decimal.Reading
import ScriptCell.Proofs.Decimal.Shortest
import ScriptCell.Proofs.Decimal.Grammar
import ScriptCell.Proofs.Decimal.Layout
import ScriptCell.Proofs.Value.View
import ScriptCell.Proofs.Line.Operand
import ScriptCell.Proofs.Host
import ScriptCell.Proofs.Line.Grammar
import ScriptCell.Proofs.Line.Expression
import ScriptCell.Proofs.Binary.Extremes
import ScriptCell.Proofs.Timing.Extremes
import ScriptCell.Proofs.Binary.RoundingError
import ScriptCell.Proofs.Timing.Average
import ScriptCell.Proofs.Binary.Same
import ScriptCell.Proofs.Value.Interchange
import ScriptCell.Proofs.Batch.Entries
import ScriptCell.Proofs.ExitCode
import ScriptCell.Proofs.Value.Chain
import ScriptCell.Proofs.Store
import ScriptCell.Proofs.Text.Quoted
import ScriptCell.Proofs.Line.Literal
import ScriptCell.Proofs.Line.Rendering
import ScriptCell.Proofs.Line.Diagnosis
import ScriptCell.Proofs.Value.Order
import ScriptCell.Proofs.Value.PartialOrder
import ScriptCell.Proofs.Value.Convert
import ScriptCell.Proofs.Line.Failure
import ScriptCell.Proofs.Line.Pieces
import ScriptCell.Proofs.Line.Substitution
import ScriptCell.Proofs.Binary.Rounded
import ScriptCell.Proofs.Value.TextNumber
import ScriptCell.Proofs.Value.Remainder
import ScriptCell.Proofs.Decimal.Whole
import ScriptCell.Proofs.Value.Identities
import ScriptCell.Proofs.Host.Integer
import ScriptCell.Proofs.Timing.Measure
import ScriptCell.Proofs.Timing.Selection
import ScriptCell.Proofs.Json.Grammar
import ScriptCell.Proofs.Json.Reader
import ScriptCell.Proofs.Timing.Json
import ScriptCell.Proofs.Timing.Report
