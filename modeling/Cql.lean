import Cql.Cell.Encoding
import Cql.Cell.Grammar
import Cql.ColumnType.Holds
import Cql.ColumnType.Induction
import Cql.Cursor
import Cql.Cursor.Calls
import Cql.Cursor.Told
import Cql.Query.History
import Cql.Query.Inlined
import Cql.Session.Record
import Cql.Value.Hash
import Cql.Value.Induction
import Cql.Value.Literal
import Cql.Host.Induction
import Cql.Proofs.Collections
import Cql.Proofs.History
import Cql.Proofs.Placeholders
import Cql.Proofs.Word
import Cql.Proofs.Reader
import Cql.Proofs.Grammar
import Cql.Proofs.Writer
import Cql.Proofs.RoundTrip
import Cql.Proofs.Parameters
import Cql.Proofs.Fetching
import Cql.Proofs.Told
import Cql.Proofs.Paging
import Cql.Proofs.Ending
import Cql.Cursor.Failures
import Cql.Proofs.Retrying
import Cql.Proofs.Delivery
import Cql.Query.Clauses
import Cql.Proofs.Clauses
import Cql.Query.Assignments
import Cql.Query.Demands
import Cql.Proofs.Assignments
import Cql.Proofs.Demands
import Cql.Proofs.Binding
import Cql.Proofs.Extensional
import Cql.Batch.Calls
import Cql.Session.Script
import Cql.Proofs.Script
import Cql.Proofs.Batches
import Cql.Host.Fitting
import Cql.Host.Conversion
import Cql.Proofs.Spelling
import Cql.Proofs.Order
import Cql.Proofs.Places
import Cql.Proofs.ReadBack
import Cql.Value.Within
import Cql.ColumnType.Parts
import Cql.Cell.Growth
import Cql.Proofs.Composed
import Cql.Proofs.Framing
import Cql.Proofs.Growth
import Cql.Proofs.Nodes
import Cql.Proofs.Conversion
import Cql.Proofs.Calendar
import Cql.Proofs.Hashing
import Cql.Row.Cells
import Cql.Proofs.Rows
import Cql.Cursor.FirstCells
import Cql.Proofs.FirstCells
import Cql.Result.Views
import Cql.Proofs.Results
import Cql.Cursor.Streams
import Cql.Proofs.Streams
import Cql.Host.Exact
import Cql.Proofs.Exact
import Cql.Value.Legible
import Cql.Proofs.Decimals
import Cql.Proofs.Alphabets
import Cql.Proofs.Literals
import Cql.Value.Enclosed
import Cql.Proofs.Enclosure
import Cql.Proofs.Settings
