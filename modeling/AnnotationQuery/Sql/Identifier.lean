/-!
# Names in SQL

An identifier is quoted with backticks, and a backtick inside it is written
twice. The table of an annotation layer is named after the layer's number; a
negative number puts a minus sign into the name, which then has to be quoted.
-/

namespace AnnotationQuery.Sql

/-- The characters with every backtick written twice. -/
def doubleBackticks : List Char → List Char
  | [] => []
  | c :: cs => if c = '\x60' then c :: c :: doubleBackticks cs else c :: doubleBackticks cs

/-- An identifier between backticks. -/
def quoteIdentifier (name : String) : String :=
  "`" ++ String.ofList (doubleBackticks name.toList) ++ "`"

/-- The table that holds the annotations of one layer. -/
structure LayerTable where
  layerId : Int
deriving DecidableEq, Repr

namespace LayerTable

/-- The name of the table. -/
def name (t : LayerTable) : String :=
  "annotation_layer_" ++ t.layerId.repr

/-- The table as it stands in SQL. -/
def sql (t : LayerTable) : String :=
  if t.layerId < 0 then quoteIdentifier t.name else t.name

end LayerTable

end AnnotationQuery.Sql
