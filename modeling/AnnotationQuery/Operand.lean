import AnnotationQuery.Text.Quoted
import AnnotationQuery.Text.Span

/-!
# Operands

What a condition compares and an order list sorts by: the row's own id, label and
ordinal, a function of an annotation layer, a literal, or a name that the
compiler will refuse. `Operand.text` writes an operand in one canonical form,
whatever form it was read from: `graph.label` and `my("graph").label` are both
written `my('graph').label`.

A list of operands is not an operand. It stands only on the right side of a
comparison, so it is the other kind of `Comparand`.
-/

namespace AnnotationQuery

/-- What can be asked of an annotation layer. -/
inductive LayerFunction where
  /-- The label of the first annotation. -/
  | label
  /-- The id of the first annotation. -/
  | id
  /-- The number of annotations. -/
  | count
  /-- The labels of all annotations. -/
  | labels
  /-- Who made the annotations. -/
  | annotators
deriving DecidableEq, Repr

namespace LayerFunction

/-- The function's name. -/
def name : LayerFunction → String
  | label => "label"
  | id => "id"
  | count => "length"
  | labels => "labels"
  | annotators => "annotators"

/-- Whether the function gives many values. -/
def isSet : LayerFunction → Bool
  | labels | annotators => true
  | label | id | count => false

/-- The function applied to a layer, as written in a query. -/
def apply (f : LayerFunction) (layerId : String) : String :=
  let layer := "(" ++ Text.quote layerId ++ ")"
  match f with
  | label => "my" ++ layer ++ ".label"
  | id => "my" ++ layer ++ ".id"
  | count => "list" ++ layer ++ ".length"
  | labels => "labels" ++ layer
  | annotators => "annotators" ++ layer

end LayerFunction

/-- A value written out in the query. -/
inductive Literal where
  | string (value : String)
  /-- A number, kept as written. -/
  | number (written : String)
deriving DecidableEq, Repr

/-- The literal in single quotes, or the number as written. -/
def Literal.text : Literal → String
  | string value => Text.quote value
  | number written => written

/-- One value, or one set of values, that a query speaks of. -/
inductive Operand where
  /-- The id of the row. -/
  | id
  /-- The label of the row. -/
  | label
  /-- The place of the row among its siblings. -/
  | ordinal
  /-- A function of an annotation layer. -/
  | layer (function : LayerFunction) (layerId : Spanned String)
  | literal (value : Literal)
  /-- A bare name with no meaning of its own. -/
  | identifier (name : String)
  /-- A part of something by name, other than a layer's label or id. -/
  | member (object part : Spanned String)
deriving DecidableEq, Repr

namespace Operand

/-- The operand in its canonical form. -/
def text : Operand → String
  | id => "id"
  | label => "label"
  | ordinal => "ordinal"
  | layer function layerId => function.apply layerId.value
  | literal value => value.text
  | identifier name => name
  | member object part => object.value ++ "." ++ part.value

/-- Whether the operand gives many values. -/
def isSet : Operand → Bool
  | layer function _ => function.isSet
  | _ => false

end Operand

/-- The right side of a comparison. -/
inductive Comparand where
  | one (operand : Operand)
  | list (items : List (Spanned Operand))
deriving DecidableEq, Repr

namespace Comparand

/-- The comparand in its canonical form. -/
def text : Comparand → String
  | one operand => operand.text
  | list items => "(" ++ ", ".intercalate (items.map fun i => i.value.text) ++ ")"

/-- Whether the comparand gives many values. -/
def isSet : Comparand → Bool
  | one operand => operand.isSet
  | list _ => true

end Comparand

end AnnotationQuery
