import Transclude.CodeBlock
import Transclude.CommandLine
import Transclude.Decimal.Shortest
import Transclude.Directive
import Transclude.Excerpt
import Transclude.Failure
import Transclude.Glob
import Transclude.Glob.Name
import Transclude.Grammar
import Transclude.Import
import Transclude.LineRange
import Transclude.Main
import Transclude.Markdown.Block
import Transclude.Markdown.Definition
import Transclude.Markdown.Fence
import Transclude.Markdown.Html
import Transclude.Markdown.Line
import Transclude.Markdown.Start
import Transclude.Marker
import Transclude.Metadata
import Transclude.Notice
import Transclude.Options
import Transclude.Path
import Transclude.Program
import Transclude.Proofs.Closing
import Transclude.Proofs.CodeBlock
import Transclude.Proofs.Cursor
import Transclude.Proofs.Directive
import Transclude.Proofs.Documents
import Transclude.Proofs.Enclosure
import Transclude.Proofs.Excerpt
import Transclude.Proofs.FileToken
import Transclude.Proofs.Frame
import Transclude.Proofs.Glob
import Transclude.Proofs.Import.Again
import Transclude.Proofs.Import.Agreement
import Transclude.Proofs.Import.Causes
import Transclude.Proofs.Import.Failures
import Transclude.Proofs.Import.Frame
import Transclude.Proofs.Import.Outcome
import Transclude.Proofs.Import.Reads
import Transclude.Proofs.Import.Similar
import Transclude.Proofs.Import.Strategies
import Transclude.Proofs.LineRange
import Transclude.Proofs.Lists
import Transclude.Proofs.Markdown.Body
import Transclude.Proofs.Markdown.Carry
import Transclude.Proofs.Markdown.Column
import Transclude.Proofs.Markdown.Container
import Transclude.Proofs.Markdown.Cut
import Transclude.Proofs.Markdown.Document
import Transclude.Proofs.Markdown.Edit
import Transclude.Proofs.Markdown.Fence
import Transclude.Proofs.Markdown.Item
import Transclude.Proofs.Markdown.Lapse
import Transclude.Proofs.Markdown.Local
import Transclude.Proofs.Markdown.Nesting
import Transclude.Proofs.Markdown.Opening
import Transclude.Proofs.Markdown.Returns
import Transclude.Proofs.Markdown.Sequence
import Transclude.Proofs.Markdown.Shift
import Transclude.Proofs.Markdown.Site
import Transclude.Proofs.Markdown.Span
import Transclude.Proofs.Markdown.Start
import Transclude.Proofs.Marker
import Transclude.Proofs.Marker.Index
import Transclude.Proofs.Marker.Search
import Transclude.Proofs.Metadata
import Transclude.Proofs.Mirror
import Transclude.Proofs.Options
import Transclude.Proofs.OptionsFile
import Transclude.Proofs.Patches
import Transclude.Proofs.Path
import Transclude.Proofs.Positions
import Transclude.Proofs.Refill
import Transclude.Proofs.Replacement
import Transclude.Proofs.Replacement.Fit
import Transclude.Proofs.Request
import Transclude.Proofs.Rewriting
import Transclude.Proofs.RootToken
import Transclude.Proofs.RoundTrip
import Transclude.Proofs.Run
import Transclude.Proofs.Sandbox
import Transclude.Proofs.Settings
import Transclude.Proofs.Settled
import Transclude.Proofs.Shown
import Transclude.Proofs.Suffix
import Transclude.Proofs.Table
import Transclude.Proofs.Template
import Transclude.Proofs.Text.Pieces
import Transclude.Proofs.Text.Runs
import Transclude.Proofs.World
import Transclude.Proofs.Writing
import Transclude.Proofs.Yaml.Cell
import Transclude.Proofs.Yaml.Node
import Transclude.Proofs.Yaml.Scalar
import Transclude.Proofs.Yaml.Token
import Transclude.Proofs.Yaml.Value
import Transclude.Replacement
import Transclude.Request
import Transclude.Run
import Transclude.Sandbox
import Transclude.Settings
import Transclude.Table
import Transclude.Template
import Transclude.Text.Basic
import Transclude.Text.Blank
import Transclude.Text.CodePoint
import Transclude.Text.Dedent
import Transclude.Text.Digit
import Transclude.Text.Printable
import Transclude.Text.Quoted
import Transclude.Text.Utf8
import Transclude.Text.WordChar
import Transclude.World
import Transclude.Yaml.Cell
import Transclude.Yaml.Moment
import Transclude.Yaml.Node
import Transclude.Yaml.Number
import Transclude.Yaml.Scalar
import Transclude.Yaml.Tag
import Transclude.Yaml.Token
import Transclude.Yaml.Value
