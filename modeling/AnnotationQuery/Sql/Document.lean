import AnnotationQuery.Document.Node
import AnnotationQuery.Number.Text
import AnnotationQuery.Sql.Query

/-!
# Statements in documents

A statement is written as a record of its SQL and the list of its parameters, each
as the number or text that it is. What is no finite number is null.
-/

namespace AnnotationQuery.Sql

/-- A parameter as a part of a document. -/
def Parameter.node : Parameter → Node
  | .int n => .whole n
  | .float x =>
    match Number.text? x with
    | some written => .real written
    | none => .null
  | .text s => .text s

/-- A statement as a record. -/
def Query.node (q : Query) : Node :=
  .fields [("sql", .text q.sql), ("parameters", .items (q.parameters.map Parameter.node))]

end AnnotationQuery.Sql
