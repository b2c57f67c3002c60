import LiteSql.Calendar.Date
import LiteSql.Calendar.DateTime
import LiteSql.Calendar.Scan
import LiteSql.Calendar.Time
import LiteSql.ColumnType
import LiteSql.Command.Arguments
import LiteSql.Command.Reading
import LiteSql.Command.Run
import LiteSql.Command.Style
import LiteSql.Error
import LiteSql.Expr
import LiteSql.Json.Basic
import LiteSql.Json.Form
import LiteSql.Json.Printer
import LiteSql.Json.Reader
import LiteSql.Literal
import LiteSql.Main
import LiteSql.Name
import LiteSql.Number.Decimal
import LiteSql.Number.Double
import LiteSql.Number.Scaling
import LiteSql.Number.Shortest
import LiteSql.Operation
import LiteSql.Proofs.Accounting
import LiteSql.Proofs.Batch
import LiteSql.Proofs.Binding
import LiteSql.Proofs.BulkShape
import LiteSql.Proofs.CalmExpr
import LiteSql.Proofs.ChangeShape
import LiteSql.Proofs.Comment
import LiteSql.Proofs.Containment
import LiteSql.Proofs.FirstError
import LiteSql.Proofs.FloatText
import LiteSql.Proofs.Handles
import LiteSql.Proofs.Hint
import LiteSql.Proofs.JsonForm
import LiteSql.Proofs.LiteralReader
import LiteSql.Proofs.Malformed
import LiteSql.Proofs.NearestDouble
import LiteSql.Proofs.Nesting
import LiteSql.Proofs.Nodes
import LiteSql.Proofs.Numerals
import LiteSql.Proofs.Operand
import LiteSql.Proofs.Outcome
import LiteSql.Proofs.Outline
import LiteSql.Proofs.Phrases
import LiteSql.Proofs.Preview
import LiteSql.Proofs.PrimaryKey
import LiteSql.Proofs.Quoting
import LiteSql.Proofs.ReadBack
import LiteSql.Proofs.Reader
import LiteSql.Proofs.ReaderForms
import LiteSql.Proofs.Refusal
import LiteSql.Proofs.Replacement
import LiteSql.Proofs.Rounding
import LiteSql.Proofs.RowReader
import LiteSql.Proofs.RowSplitting
import LiteSql.Proofs.RowText
import LiteSql.Proofs.ScalarText
import LiteSql.Proofs.Scanning
import LiteSql.Proofs.SelectForm
import LiteSql.Proofs.Shape
import LiteSql.Proofs.ShortestDecimal
import LiteSql.Proofs.Shorthand
import LiteSql.Proofs.Signs
import LiteSql.Proofs.Splicing
import LiteSql.Proofs.Splitting
import LiteSql.Proofs.TableReader
import LiteSql.Proofs.Tokens
import LiteSql.Proofs.TreeForm
import LiteSql.Proofs.TreeValues
import LiteSql.Proofs.VisibleText
import LiteSql.Query
import LiteSql.Returning
import LiteSql.Schema
import LiteSql.Settings
import LiteSql.Statement.Bulk
import LiteSql.Statement.Change
import LiteSql.Statement.Expr
import LiteSql.Statement.Names
import LiteSql.Statement.Params
import LiteSql.Statement.Row
import LiteSql.Statement.Select
import LiteSql.Statement.Splice
import LiteSql.Text.Blank
import LiteSql.Text.Digits
import LiteSql.Text.Quoted
import LiteSql.Text.UpperCase
import LiteSql.Toml.Basic
import LiteSql.Toml.Reader
import LiteSql.Toml.Scalar
import LiteSql.Tree.ColumnType
import LiteSql.Tree.Expr
import LiteSql.Tree.Hint
import LiteSql.Tree.Query
import LiteSql.Tree.Schema
import LiteSql.Tree.Value
import LiteSql.Value
