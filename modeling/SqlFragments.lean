import SqlFragments.Calendar.Date
import SqlFragments.Calendar.Instant
import SqlFragments.Calendar.Zone
import SqlFragments.Config
import SqlFragments.Failure
import SqlFragments.Fragment.Build
import SqlFragments.Identifier.Basic
import SqlFragments.Identifier.Dialect
import SqlFragments.Journal.Level
import SqlFragments.Journal.Message
import SqlFragments.Journal.Record
import SqlFragments.Journal.Registry
import SqlFragments.Journal.Setup
import SqlFragments.Json
import SqlFragments.Literal.Basic
import SqlFragments.Literal.OfValue
import SqlFragments.Number.Decimal
import SqlFragments.Number.Double
import SqlFragments.Number.Places
import SqlFragments.Number.Round
import SqlFragments.Number.Sum
import SqlFragments.Outcome
import SqlFragments.Proofs.Calendar.Day
import SqlFragments.Proofs.Calendar.Face
import SqlFragments.Proofs.Calendar.Offset
import SqlFragments.Proofs.Calendar.OffsetText
import SqlFragments.Proofs.Calendar.Search
import SqlFragments.Proofs.Config.Document
import SqlFragments.Proofs.Config.Sections
import SqlFragments.Proofs.Config.Timezone
import SqlFragments.Proofs.Config.ZoneFile
import SqlFragments.Proofs.Identifier.Scan
import SqlFragments.Proofs.Identifier.Standard
import SqlFragments.Proofs.Identifier.Tight
import SqlFragments.Proofs.Journal.Format
import SqlFragments.Proofs.Journal.Registry
import SqlFragments.Proofs.Journal.Written
import SqlFragments.Proofs.Literal.Clock
import SqlFragments.Proofs.Literal.Exact
import SqlFragments.Proofs.Literal.Scan
import SqlFragments.Proofs.Literal.Sign
import SqlFragments.Proofs.Literal.Standing
import SqlFragments.Proofs.Literal.Tight
import SqlFragments.Proofs.Number.Nearest
import SqlFragments.Proofs.Number.Notation
import SqlFragments.Proofs.Number.Plain
import SqlFragments.Proofs.Number.Reading
import SqlFragments.Proofs.Number.Rounding
import SqlFragments.Proofs.Number.Shortest
import SqlFragments.Proofs.Number.Sign
import SqlFragments.Proofs.Outcome
import SqlFragments.Proofs.Render.Agreement
import SqlFragments.Proofs.Render.Announced
import SqlFragments.Proofs.Render.Apart
import SqlFragments.Proofs.Render.Avoids
import SqlFragments.Proofs.Render.Bindings
import SqlFragments.Proofs.Render.Built
import SqlFragments.Proofs.Render.Chain
import SqlFragments.Proofs.Render.Clause
import SqlFragments.Proofs.Render.Clocks
import SqlFragments.Proofs.Render.ColumnList
import SqlFragments.Proofs.Render.Comparison
import SqlFragments.Proofs.Render.Compose
import SqlFragments.Proofs.Render.Congruence
import SqlFragments.Proofs.Render.Dashes
import SqlFragments.Proofs.Render.Dedent
import SqlFragments.Proofs.Render.Handing
import SqlFragments.Proofs.Render.Independence
import SqlFragments.Proofs.Render.Inlines
import SqlFragments.Proofs.Render.Leaf
import SqlFragments.Proofs.Render.Limit
import SqlFragments.Proofs.Render.Lines
import SqlFragments.Proofs.Render.Marked
import SqlFragments.Proofs.Render.Nodes
import SqlFragments.Proofs.Render.Once
import SqlFragments.Proofs.Render.Options
import SqlFragments.Proofs.Render.Overrun
import SqlFragments.Proofs.Render.Preorder
import SqlFragments.Proofs.Render.Promotion
import SqlFragments.Proofs.Render.Quoted
import SqlFragments.Proofs.Render.Reindent
import SqlFragments.Proofs.Render.Row
import SqlFragments.Proofs.Render.Slots
import SqlFragments.Proofs.Render.Splice
import SqlFragments.Proofs.Render.Steps
import SqlFragments.Proofs.Render.Suppression
import SqlFragments.Proofs.Render.Totality
import SqlFragments.Proofs.Render.Transcript
import SqlFragments.Proofs.Render.Walk
import SqlFragments.Proofs.Render.Without
import SqlFragments.Proofs.Session.Beside
import SqlFragments.Proofs.Session.Book
import SqlFragments.Proofs.Session.Call
import SqlFragments.Proofs.Session.Captured
import SqlFragments.Proofs.Session.Consult
import SqlFragments.Proofs.Session.Discerns
import SqlFragments.Proofs.Session.Isolation
import SqlFragments.Proofs.Session.Logging
import SqlFragments.Proofs.Session.Memory
import SqlFragments.Proofs.Session.Nested
import SqlFragments.Proofs.Session.Reply
import SqlFragments.Proofs.Session.Simulation
import SqlFragments.Proofs.Session.Snapshot
import SqlFragments.Proofs.Session.Steady
import SqlFragments.Proofs.Session.Template
import SqlFragments.Proofs.Session.Trace
import SqlFragments.Proofs.Session.Transparency
import SqlFragments.Proofs.Text.Columns
import SqlFragments.Proofs.Text.Dedent
import SqlFragments.Proofs.Text.Firm
import SqlFragments.Proofs.Text.Indent
import SqlFragments.Proofs.Text.Joined
import SqlFragments.Proofs.Text.Numeral
import SqlFragments.Proofs.Text.Placeholder
import SqlFragments.Proofs.Text.Reindent
import SqlFragments.Proofs.Text.Split
import SqlFragments.Proofs.Text.Stencil
import SqlFragments.Proofs.Text.Tight
import SqlFragments.Proofs.Value.Apart
import SqlFragments.Proofs.Value.Change
import SqlFragments.Proofs.Yaml.Resolution
import SqlFragments.Proofs.Yaml.Word
import SqlFragments.Render.Compose
import SqlFragments.Render.Context
import SqlFragments.Render.Dialect
import SqlFragments.Render.Evaluate
import SqlFragments.Render.Options
import SqlFragments.Render.Recorder
import SqlFragments.Session.Basic
import SqlFragments.Session.Step
import SqlFragments.Text.Base64
import SqlFragments.Text.Blank
import SqlFragments.Text.Digit
import SqlFragments.Text.Hex
import SqlFragments.Text.Indent
import SqlFragments.Text.Printable
import SqlFragments.Text.Quoted
import SqlFragments.Value.Basic
import SqlFragments.Value.Change
import SqlFragments.Value.Dict
import SqlFragments.Value.Display
import SqlFragments.Value.Equality
import SqlFragments.Value.Sum
import SqlFragments.Yaml.Block
import SqlFragments.Yaml.Cursor
import SqlFragments.Yaml.Document
import SqlFragments.Yaml.Node
import SqlFragments.Yaml.Plain
import SqlFragments.Yaml.Property
import SqlFragments.Yaml.Quoted
import SqlFragments.Yaml.Scalar
import SqlFragments.Yaml.Tag
import SqlFragments.Yaml.Token
