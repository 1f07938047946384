import HouseStyle.Comment.Basic
import HouseStyle.Comment.Blocks
import HouseStyle.Comment.Trailing
import HouseStyle.Edit.Indent
import HouseStyle.Edit.Replacement
import HouseStyle.Edit.Settle
import HouseStyle.Evidence.Accumulator
import HouseStyle.Evidence.Constructs
import HouseStyle.Evidence.Counter
import HouseStyle.Evidence.Extract
import HouseStyle.Evidence.Functions
import HouseStyle.Evidence.Imports
import HouseStyle.Evidence.Lines
import HouseStyle.Evidence.Signals
import HouseStyle.Evidence.Vote
import HouseStyle.Expression
import HouseStyle.Failure
import HouseStyle.Learning.Command
import HouseStyle.Learning.Learn
import HouseStyle.Learning.Path
import HouseStyle.Learning.Settings
import HouseStyle.Logging.Loggers
import HouseStyle.Logging.Record
import HouseStyle.Naming
import HouseStyle.Number.Basic
import HouseStyle.Number.Double
import HouseStyle.Number.Reader
import HouseStyle.Number.Shortest
import HouseStyle.Profile
import HouseStyle.Proofs.Comment.Framing
import HouseStyle.Proofs.Comment.Groups
import HouseStyle.Proofs.Comment.Neighbours
import HouseStyle.Proofs.Edit.Columns
import HouseStyle.Proofs.Edit.Displacement
import HouseStyle.Proofs.Edit.Iteration
import HouseStyle.Proofs.Edit.Piecewise
import HouseStyle.Proofs.Edit.Selection
import HouseStyle.Proofs.Edit.Stepwise
import HouseStyle.Proofs.Edit.TimeToRest
import HouseStyle.Proofs.Evidence.Accumulator
import HouseStyle.Proofs.Evidence.Aggregation
import HouseStyle.Proofs.Evidence.Coherence
import HouseStyle.Proofs.Evidence.Origins
import HouseStyle.Proofs.Evidence.Parts
import HouseStyle.Proofs.Evidence.Tally
import HouseStyle.Proofs.Learning.Documents
import HouseStyle.Proofs.Learning.FileOrder
import HouseStyle.Proofs.Learning.TestPaths
import HouseStyle.Proofs.Naming
import HouseStyle.Proofs.Number.Representable
import HouseStyle.Proofs.Number.Rounding
import HouseStyle.Proofs.Restyle.ArgumentLeaves
import HouseStyle.Proofs.Restyle.BareText
import HouseStyle.Proofs.Restyle.CallArguments
import HouseStyle.Proofs.Restyle.ChainTwins
import HouseStyle.Proofs.Restyle.Clean
import HouseStyle.Proofs.Restyle.Context
import HouseStyle.Proofs.Restyle.ContinuationLines
import HouseStyle.Proofs.Restyle.DeclarationCommas
import HouseStyle.Proofs.Restyle.Dedent
import HouseStyle.Proofs.Restyle.Idempotence
import HouseStyle.Proofs.Restyle.Ink
import HouseStyle.Proofs.Restyle.LineIndents
import HouseStyle.Proofs.Restyle.MemberChains
import HouseStyle.Proofs.Restyle.OutermostCalls
import HouseStyle.Proofs.Restyle.Pairing
import HouseStyle.Proofs.Restyle.Progress
import HouseStyle.Proofs.Restyle.ReplayedBreaks
import HouseStyle.Proofs.Restyle.SafeOnly
import HouseStyle.Proofs.Restyle.Separators
import HouseStyle.Proofs.Restyle.SingleLineIf
import HouseStyle.Proofs.Restyle.SinglePass
import HouseStyle.Proofs.Restyle.SingleSpaces
import HouseStyle.Proofs.Restyle.SwitchBreaks
import HouseStyle.Proofs.Restyle.Ternaries
import HouseStyle.Proofs.Restyle.TernaryLayouts
import HouseStyle.Proofs.Restyle.TopDown
import HouseStyle.Proofs.Restyle.TrailingComments
import HouseStyle.Proofs.Restyle.Untouched
import HouseStyle.Proofs.Restyle.WithinLines
import HouseStyle.Proofs.Rule.Augmentation
import HouseStyle.Proofs.Rule.Candidate
import HouseStyle.Proofs.Rule.Floors
import HouseStyle.Proofs.Rule.FromFiles
import HouseStyle.Proofs.Rule.Idempotence
import HouseStyle.Proofs.Rule.IndentUnit
import HouseStyle.Proofs.Rule.Inference
import HouseStyle.Proofs.Rule.Overflow
import HouseStyle.Proofs.Text.Ink
import HouseStyle.Proofs.Text.Lines
import HouseStyle.Proofs.Text.Parts
import HouseStyle.Proofs.Text.Reindented
import HouseStyle.Proofs.Text.RoundTrip
import HouseStyle.Proofs.Tree.CanonicalText
import HouseStyle.Proofs.Tree.Carried
import HouseStyle.Proofs.Tree.Gaps
import HouseStyle.Proofs.Tree.Leaves
import HouseStyle.Proofs.Tree.LineFeeds
import HouseStyle.Proofs.Tree.Offsets
import HouseStyle.Proofs.Tree.Preorder
import HouseStyle.Proofs.Tree.Queues
import HouseStyle.Proofs.Tree.Rows
import HouseStyle.Proofs.Tree.Shape
import HouseStyle.Proofs.Tree.TokenLoop
import HouseStyle.Proofs.Tree.Twins
import HouseStyle.Proofs.Tree.Walk
import HouseStyle.Proofs.Tree.WellFormed
import HouseStyle.Proofs.Value.Regular
import HouseStyle.Restyle.CallArguments
import HouseStyle.Restyle.Context
import HouseStyle.Restyle.DeclarationCommas
import HouseStyle.Restyle.MemberChains
import HouseStyle.Restyle.Pipeline
import HouseStyle.Restyle.SingleLineIf
import HouseStyle.Restyle.SwitchBreaks
import HouseStyle.Restyle.Ternaries
import HouseStyle.Restyle.TrailingComments
import HouseStyle.Rule.Basic
import HouseStyle.Rule.Dimension
import HouseStyle.Rule.Inference
import HouseStyle.Rule.Suggestion
import HouseStyle.Rule.Thresholds
import HouseStyle.Text.Basic
import HouseStyle.Text.Blank
import HouseStyle.Text.Digit
import HouseStyle.Text.Lowercase
import HouseStyle.Text.Printable
import HouseStyle.Text.Quoted
import HouseStyle.Text.Utf8
import HouseStyle.Text.Word
import HouseStyle.Tree.Node
import HouseStyle.Tree.Parser
import HouseStyle.Tree.Sha256
import HouseStyle.Tree.Signature
import HouseStyle.Tree.Source
import HouseStyle.Value.Basic
import HouseStyle.Value.Json
import HouseStyle.Value.Literal
