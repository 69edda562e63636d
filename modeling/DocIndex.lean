import DocIndex.Analysis.Analyzer
import DocIndex.Analysis.Segmenter
import DocIndex.Analysis.Stem
import DocIndex.Analysis.Token
import DocIndex.Boundary
import DocIndex.Command
import DocIndex.Decimal.Digits
import DocIndex.Decimal.Layout
import DocIndex.Decimal.Nearest
import DocIndex.Decimal.Scale
import DocIndex.Decimal.Shortest
import DocIndex.Document.Typed
import DocIndex.Document.Value
import DocIndex.Index.Demands
import DocIndex.Index.Directory
import DocIndex.Index.Error
import DocIndex.Index.Handle
import DocIndex.Json.Cursor
import DocIndex.Json.Fault
import DocIndex.Json.Literal
import DocIndex.Json.Mismatch
import DocIndex.Json.Reader
import DocIndex.Json.Stream
import DocIndex.Json.Value
import DocIndex.Json.Writer
import DocIndex.Main
import DocIndex.Proofs.Boundary
import DocIndex.Proofs.Command
import DocIndex.Proofs.Decimal.Binary
import DocIndex.Proofs.Decimal.Exact
import DocIndex.Proofs.Decimal.Finite
import DocIndex.Proofs.Decimal.Interval
import DocIndex.Proofs.Decimal.Order
import DocIndex.Proofs.Decimal.Overflow
import DocIndex.Proofs.Decimal.ReadingBack
import DocIndex.Proofs.Decimal.Rounding
import DocIndex.Proofs.Decimal.Shortest
import DocIndex.Proofs.Document.Row
import DocIndex.Proofs.Document.Translation
import DocIndex.Proofs.InOrder
import DocIndex.Proofs.Index.Directory
import DocIndex.Proofs.Index.Exporting
import DocIndex.Proofs.Index.History
import DocIndex.Proofs.Index.Refusal
import DocIndex.Proofs.Index.Reimporting
import DocIndex.Proofs.Index.Reopening
import DocIndex.Proofs.Index.Replacing
import DocIndex.Proofs.Index.Retrying
import DocIndex.Proofs.Index.Rows
import DocIndex.Proofs.Index.Session
import DocIndex.Proofs.Index.Undoing
import DocIndex.Proofs.Index.World
import DocIndex.Proofs.Index.Writers
import DocIndex.Proofs.Json.Cursor
import DocIndex.Proofs.Json.Decoding
import DocIndex.Proofs.Json.Floats
import DocIndex.Proofs.Json.Literal
import DocIndex.Proofs.Json.Members
import DocIndex.Proofs.Json.NumberLiteral
import DocIndex.Proofs.Json.ObjectText
import DocIndex.Proofs.Json.Outline
import DocIndex.Proofs.Json.Parts
import DocIndex.Proofs.Json.Printing
import DocIndex.Proofs.Json.Proper
import DocIndex.Proofs.Json.Reading
import DocIndex.Proofs.Json.Rereading
import DocIndex.Proofs.Json.ShortFloats
import DocIndex.Proofs.Lookup
import DocIndex.Proofs.Query.ClausePaging
import DocIndex.Proofs.Query.Clauses
import DocIndex.Proofs.Query.Encoding
import DocIndex.Proofs.Query.IntegerLiterals
import DocIndex.Proofs.Query.Places
import DocIndex.Proofs.Query.Requests
import DocIndex.Proofs.Query.Rules
import DocIndex.Proofs.Query.TagFaults
import DocIndex.Proofs.Query.Tags
import DocIndex.Proofs.Query.Typing
import DocIndex.Proofs.Registry
import DocIndex.Proofs.Schema.Fields
import DocIndex.Proofs.Schema.Handles
import DocIndex.Proofs.Schema.Tables
import DocIndex.Proofs.Schema.Text
import DocIndex.Proofs.Schema.Validity
import DocIndex.Proofs.Search.Beginnings
import DocIndex.Proofs.Search.Boolean
import DocIndex.Proofs.Search.Floats
import DocIndex.Proofs.Search.Fuzzy
import DocIndex.Proofs.Search.Paging
import DocIndex.Proofs.Search.Phrases
import DocIndex.Proofs.Search.Ranges
import DocIndex.Proofs.Search.Running
import DocIndex.Proofs.Search.Terms
import DocIndex.Proofs.Search.Values
import DocIndex.Proofs.Storage.Directories
import DocIndex.Proofs.Storage.Files
import DocIndex.Proofs.Storage.Places
import DocIndex.Proofs.Text.Bytes
import DocIndex.Proofs.Text.Edits
import DocIndex.Proofs.Text.Words
import DocIndex.Query.Decode
import DocIndex.Query.Definition
import DocIndex.Query.Encode
import DocIndex.Query.Error
import DocIndex.Query.Plan
import DocIndex.Query.Request
import DocIndex.Registry
import DocIndex.Schema.Compiled
import DocIndex.Schema.Definition
import DocIndex.Schema.Tables
import DocIndex.Schema.Text
import DocIndex.Search.Criterion
import DocIndex.Search.Entry
import DocIndex.Search.Page
import DocIndex.Search.Phrase
import DocIndex.Search.Range
import DocIndex.Search.Ranking
import DocIndex.Search.Score
import DocIndex.Search.Sought
import DocIndex.Settings
import DocIndex.Storage.Files
import DocIndex.Storage.Stored
import DocIndex.Text.Edits
import DocIndex.Text.Lower
import DocIndex.Text.Quoted
import DocIndex.Text.Words
import DocIndex.TextQuery.Expr
import DocIndex.TextQuery.Grammar
import DocIndex.TextQuery.Meaning
import DocIndex.TextQuery.Number
import DocIndex.Toml.Reader
import DocIndex.Toml.Scalar
import DocIndex.Toml.Table
import DocIndex.Unicode.Alphabetic
import DocIndex.Unicode.Cased
import DocIndex.Unicode.Classes
import DocIndex.Unicode.LowerCase
import DocIndex.Unicode.Numeric
import DocIndex.Unicode.Visible
import DocIndex.Word
