import AnnotationQuery.Root
import AnnotationQuery.Text.Span

/-!
# Faults

What is wrong with a query. A fault has a cause, the clause that it was found in
and its place in that clause's text. A rejected query comes with all its faults,
those of the filter first.
-/

namespace AnnotationQuery

/-- The part of a query that a fault is in. -/
inductive Clause where
  | filter
  | order
deriving DecidableEq, Repr

/-- The clause's name. -/
def Clause.name : Clause → String
  | filter => "filter"
  | order => "order"

/-- Why a part of a query has no meaning. -/
inductive Cause where
  /-- The schema has no such layer. -/
  | unknownLayer (operand layerId : String)
  /-- The place that holds the layer cannot answer this. -/
  | unsupportedFunction (operand layerId category : String) (root : Root)
  /-- The layer is stored nowhere. -/
  | unmappedLayer (operand layerId : String)
  /-- The operand means nothing for these rows. -/
  | unsupportedOperand (operand : String) (root : Root)
  /-- One value stands where a set is needed, or a set where one value is. -/
  | misplaced (operand expected : String)
  /-- The text could not be read. -/
  | malformed (message : String)
deriving DecidableEq, Repr

/-- The wording of a cause. -/
def Cause.message : Cause → String
  | unknownLayer operand _ => "Invalid layer: " ++ operand
  | unsupportedFunction operand layerId category root =>
    operand ++ ": not supported for " ++ category ++ " layer '" ++ layerId ++ "' on " ++
      root.name ++ " queries"
  | unmappedLayer operand layerId =>
    operand ++ ": layer '" ++ layerId ++ "' has no storage mapping"
  | unsupportedOperand operand root =>
    operand ++ ": not supported on " ++ root.name ++ " queries"
  | misplaced operand expected => operand ++ ": expected " ++ expected
  | malformed message => message

/-- One thing that is wrong with a query. -/
structure Fault where
  cause : Cause
  clause : Clause
  span : Span
deriving DecidableEq, Repr

namespace Fault

/-- The wording without the place. -/
def message (f : Fault) : String :=
  f.cause.message

/-- The wording with the place. -/
def text (f : Fault) : String :=
  f.message ++ " (in " ++ f.clause.name ++ " at " ++ f.span.text ++ ")"

end Fault

/-- A query that was refused: its texts and all its faults. -/
structure Rejection where
  expression : String
  order : Option String
  faults : List Fault
deriving DecidableEq, Repr

namespace Rejection

/-- The text that the faults of a clause point into. -/
def sourceOf (r : Rejection) : Clause → String
  | .filter => r.expression
  | .order => r.order.getD ""

/-- All faults in one line. -/
def message (r : Rejection) : String :=
  match r.faults with
  | [f] => f.message
  | fs => fs.length.repr ++ " errors: " ++ "; ".intercalate (fs.map Fault.message)

end Rejection

end AnnotationQuery
