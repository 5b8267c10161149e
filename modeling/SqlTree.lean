import SqlTree.Decimal
import SqlTree.Binary64
import SqlTree.Binary64.Text
import SqlTree.Text.Front
import SqlTree.Hex
import SqlTree.Calendar
import SqlTree.Calendar.Text
import SqlTree.DataType
import SqlTree.DataType.Tag
import SqlTree.Value
import SqlTree.Parameter
import SqlTree.Operator
import SqlTree.Clause
import SqlTree.Clause.Equality
import SqlTree.Statement.Kind
import SqlTree.Error
import SqlTree.Clause.Check
import SqlTree.Section
import SqlTree.Statement
import SqlTree.Draft.Select
import SqlTree.Draft
import SqlTree.Dialect
import SqlTree.Dialect.Limit
import SqlTree.Dialect.Catalogue
import SqlTree.Clause.Names
import SqlTree.Rendering.Pass
import SqlTree.Rendering.Binding
import SqlTree.Rendering.Clause
import SqlTree.Rendering
import SqlTree.Keyed
import SqlTree.Json
import SqlTree.Document
import SqlTree.Document.Text
import SqlTree.Document.Encoding
import SqlTree.Document.Decoding
import SqlTree.Text.Quoted
import SqlTree.Dialect.Description
import SqlTree.Toml
import SqlTree.Toml.Scalar
import SqlTree.Toml.Reader
import SqlTree.Config
import SqlTree.Proofs.Clause.Induction
import SqlTree.Proofs.Rendering.Piece
import SqlTree.Proofs.Rendering.Agreement
import SqlTree.Proofs.Rendering.Play
import SqlTree.Proofs.Clause.Likeness
import SqlTree.Proofs.Rendering.Likeness
import SqlTree.Proofs.Rendering.Blindness
import SqlTree.Proofs.Rendering.Collect
import SqlTree.Proofs.Rendering.Occurrence
import SqlTree.Proofs.Rendering.Ledger
import SqlTree.Proofs.Scanning.Scan
import SqlTree.Proofs.Scanning.Legible
import SqlTree.Proofs.Scanning.Readable
import SqlTree.Proofs.Scanning.Clause
import SqlTree.Proofs.Scanning.Query
import SqlTree.Proofs.Clause.Operands
import SqlTree.Proofs.Section.Push
import SqlTree.Proofs.Statement.Built
import SqlTree.Proofs.DataType.Tag
import SqlTree.Proofs.Document.Attribute
import SqlTree.Proofs.Text.Calendar
import SqlTree.Proofs.Text.Bytes
import SqlTree.Proofs.Binary64.Rounding
import SqlTree.Proofs.Binary64.Text
import SqlTree.Proofs.Document.Word
import SqlTree.Proofs.Document.Sharing
import SqlTree.Proofs.Document.Clause
import SqlTree.Proofs.Document.Section
import SqlTree.Proofs.Document.Select
import SqlTree.Proofs.Document.Statement
import SqlTree.Proofs.Document.Query
import SqlTree.Proofs.Statement.Equality
import SqlTree.Proofs.Document.RoundTrip
import SqlTree.Proofs.Rendering.Outcome
import SqlTree.Proofs.Document.Outcome
import SqlTree.Proofs.Statement.Given
import SqlTree.Proofs.Rendering.Generated
import SqlTree.Proofs.Rendering.Parameters
import SqlTree.Proofs.Rendering.Refusal
import SqlTree.Proofs.Rendering.Registering
import SqlTree.Proofs.Document.Kept
import SqlTree.Proofs.Rendering.Distinct
import SqlTree.Proofs.Grouping.Token
import SqlTree.Proofs.Grouping.Condition
import SqlTree.Proofs.Grouping.Layout
import SqlTree.Proofs.Grouping.ReadBack
import SqlTree.Proofs.Grouping.Mark
import SqlTree.Proofs.Grouping.Placed
import SqlTree.Proofs.Grouping.Written
import SqlTree.Proofs.Grouping.Rendered
import SqlTree.Proofs.Document.Accounted
import SqlTree.Proofs.Section.Atomic
import SqlTree.Proofs.Section.Edit
import SqlTree.Proofs.Section.Refill
import SqlTree.Proofs.Statement.Recordable
import SqlTree.Proofs.Document.Learned
import SqlTree.Proofs.Document.Renumbered
import SqlTree.Proofs.Document.Normal
import SqlTree.Proofs.Json.Quoted
import SqlTree.Proofs.Json.Written
import SqlTree.Proofs.Document.Ordered
import SqlTree.Proofs.Document.JsonText
import SqlTree.Proofs.Document.Chain
import SqlTree.Proofs.Rendering.Fault
import SqlTree.Proofs.Statement.Composed
import SqlTree.Proofs.Statement.Place
import SqlTree.Proofs.Statement.Sound
import SqlTree.Proofs.Statement.Admitted
import SqlTree.Proofs.Document.Obeyed
import SqlTree.Proofs.Rendering.Readings
import SqlTree.Proofs.Rendering.Splice
import SqlTree.Proofs.Rendering.Staging
import SqlTree.Proofs.Statement.Roles
import SqlTree.Proofs.Rendering.First
import SqlTree.Proofs.Rendering.Positional
import SqlTree.Proofs.Rendering.Script
import SqlTree.Proofs.Rendering.Added
import SqlTree.Proofs.Statement.Order
import SqlTree.Proofs.Grouping.Calculation
import SqlTree.Proofs.Grouping.Arithmetic
import SqlTree.Proofs.Grouping.Concatenation
import SqlTree.Proofs.Rendering.Failing
import SqlTree.Proofs.Rendering.Receiver
import SqlTree.Proofs.Rendering.Numbering
import SqlTree.Proofs.Clause.Equal
import SqlTree.Proofs.Rendering.Shared
import SqlTree.Proofs.Document.Blame
import SqlTree.Proofs.Document.Located
import SqlTree.Proofs.Limit.Written
import SqlTree.Proofs.Limit.Columns
import SqlTree.Proofs.Rendering.Block
