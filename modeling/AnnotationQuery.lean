import AnnotationQuery.CommandLine.Arguments
import AnnotationQuery.CommandLine.Outcome
import AnnotationQuery.CommandLine.Run
import AnnotationQuery.Compile
import AnnotationQuery.Diagnostic
import AnnotationQuery.Dictionary
import AnnotationQuery.Document.Json.Reader
import AnnotationQuery.Document.Json.Writer
import AnnotationQuery.Document.Node
import AnnotationQuery.Document.Record
import AnnotationQuery.Document.Toml.Reader
import AnnotationQuery.Document.Toml.Scalar
import AnnotationQuery.Document.Toml.Table
import AnnotationQuery.Document.Toml.Text
import AnnotationQuery.Expr
import AnnotationQuery.Fault
import AnnotationQuery.Host
import AnnotationQuery.Host.Directory
import AnnotationQuery.Layer
import AnnotationQuery.Main
import AnnotationQuery.Number.Shortest
import AnnotationQuery.Number.Text
import AnnotationQuery.Operand
import AnnotationQuery.Parse.Basic
import AnnotationQuery.Parse.Filter
import AnnotationQuery.Parse.Operand
import AnnotationQuery.Parse.Order
import AnnotationQuery.Proofs.Compile.Clause
import AnnotationQuery.Proofs.Compile.Complete
import AnnotationQuery.Proofs.Compile.Composition
import AnnotationQuery.Proofs.Compile.Connectives
import AnnotationQuery.Proofs.Compile.Extension
import AnnotationQuery.Proofs.Compile.FailFast
import AnnotationQuery.Proofs.Compile.Layout
import AnnotationQuery.Proofs.Compile.Literals
import AnnotationQuery.Proofs.Compile.Naming
import AnnotationQuery.Proofs.Compile.Operand
import AnnotationQuery.Proofs.Compile.Ordering
import AnnotationQuery.Proofs.Compile.Placeholder
import AnnotationQuery.Proofs.Compile.Pointing
import AnnotationQuery.Proofs.Compile.Recovery
import AnnotationQuery.Proofs.Compile.Splice
import AnnotationQuery.Proofs.Document.Json
import AnnotationQuery.Proofs.Parse.Accepted
import AnnotationQuery.Proofs.Parse.Calculus
import AnnotationQuery.Proofs.Parse.Confined
import AnnotationQuery.Proofs.Parse.Derived
import AnnotationQuery.Proofs.Parse.Extend
import AnnotationQuery.Proofs.Parse.Filter
import AnnotationQuery.Proofs.Parse.Grammar
import AnnotationQuery.Proofs.Parse.Hulls
import AnnotationQuery.Proofs.Parse.Language
import AnnotationQuery.Proofs.Parse.Nesting
import AnnotationQuery.Proofs.Parse.OrderList
import AnnotationQuery.Proofs.Parse.Outcome
import AnnotationQuery.Proofs.Parse.Parentheses
import AnnotationQuery.Proofs.Parse.Place
import AnnotationQuery.Proofs.Parse.Placeless
import AnnotationQuery.Proofs.Parse.Printed
import AnnotationQuery.Proofs.Parse.Runs
import AnnotationQuery.Proofs.Parse.SourceOrder
import AnnotationQuery.Proofs.Parse.Texts
import AnnotationQuery.Proofs.Parse.Watch
import AnnotationQuery.Proofs.Schema.Build
import AnnotationQuery.Proofs.Schema.Document
import AnnotationQuery.Proofs.Settings.Expansion
import AnnotationQuery.Proofs.Sql.Enclosure
import AnnotationQuery.Proofs.Sql.Identifier
import AnnotationQuery.Proofs.Sql.Placeholder
import AnnotationQuery.Proofs.Sql.Scan
import AnnotationQuery.Proofs.Sql.Split
import AnnotationQuery.Proofs.Storage.Distinct
import AnnotationQuery.Proofs.Storage.Fragment
import AnnotationQuery.Proofs.Text.Blank
import AnnotationQuery.Proofs.Text.Quoted
import AnnotationQuery.Proofs.Token.Laid
import AnnotationQuery.Proofs.Token.Layout
import AnnotationQuery.Proofs.Token.Lexer
import AnnotationQuery.Proofs.Token.Lossless
import AnnotationQuery.Proofs.Token.Spelling
import AnnotationQuery.Root
import AnnotationQuery.Schema
import AnnotationQuery.Schema.Document
import AnnotationQuery.Settings
import AnnotationQuery.Settings.Reference
import AnnotationQuery.Sql.Document
import AnnotationQuery.Sql.Identifier
import AnnotationQuery.Sql.Query
import AnnotationQuery.Sql.Scan
import AnnotationQuery.Storage.Category
import AnnotationQuery.Storage.Fragment
import AnnotationQuery.Text.Alphanumeric
import AnnotationQuery.Text.Blank
import AnnotationQuery.Text.Boundaries
import AnnotationQuery.Text.Identifier
import AnnotationQuery.Text.Position
import AnnotationQuery.Text.Quoted
import AnnotationQuery.Text.Span
import AnnotationQuery.Token
import AnnotationQuery.Token.Lexer
