import AnnotationQuery.Operand

/-!
# Conditions and order terms

The tree of a filter. Every node carries the span from its first to its last
token. Parentheses are kept as `group`, because the SQL that is written for a
condition follows the text and adds none of its own. `malformed` stands for a
part that could not be read.
-/

namespace AnnotationQuery

/-- How two values are compared. -/
inductive Comparison where
  | eq
  | ne
  | lt
  | gt
  | le
  | ge
  | matching
  | notMatching
  | isIn
  | notIn
deriving DecidableEq, Repr

namespace Comparison

/-- The comparison as written in a query. -/
def text : Comparison → String
  | eq => "="
  | ne => "<>"
  | lt => "<"
  | gt => ">"
  | le => "<="
  | ge => ">="
  | matching => "MATCHES"
  | notMatching => "NOT MATCHES"
  | isIn => "IN"
  | notIn => "NOT IN"

/-- The comparison as written in SQL. -/
def sql : Comparison → String
  | matching => "REGEXP"
  | notMatching => "NOT REGEXP"
  | c => c.text

/-- Whether the right side must be a set of values. -/
def takesSet : Comparison → Bool
  | isIn | notIn => true
  | _ => false

end Comparison

/-- A condition on a row. -/
inductive Expr where
  | operand (span : Span) (value : Spanned Operand)
  | compare (span : Span) (lhs : Spanned Operand) (op : Spanned Comparison)
      (rhs : Spanned Comparand)
  | not (span : Span) (inner : Expr)
  | group (span : Span) (inner : Expr)
  | and (span : Span) (lhs rhs : Expr)
  | or (span : Span) (lhs rhs : Expr)
  /-- A part that could not be read. -/
  | malformed (span : Span)
deriving DecidableEq, Repr

namespace Expr

/-- The span of the topmost node. -/
def span : Expr → Span
  | operand s _ | compare s _ _ _ | not s _ | group s _ | and s _ _ | or s _ _ | malformed s => s

/-- Both conditions; the span covers the two. -/
def both (lhs rhs : Expr) : Expr :=
  and (lhs.span.hull rhs.span) lhs rhs

/-- Either condition; the span covers the two. -/
def either (lhs rhs : Expr) : Expr :=
  or (lhs.span.hull rhs.span) lhs rhs

/-- Whether the topmost connective is `OR`. -/
def isDisjunction : Expr → Bool
  | or _ _ _ => true
  | _ => false

/-- Whether the topmost node is a pair of parentheses. -/
def isGroup : Expr → Bool
  | group _ _ => true
  | _ => false

end Expr

/-- One key that rows are sorted by. -/
structure OrderTerm where
  operand : Spanned Operand
  descending : Bool
deriving DecidableEq, Repr

end AnnotationQuery
