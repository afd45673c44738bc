import AnnotationQuery.Parse.Filter

/-!
# Reading order lists

An order list is operands with an optional direction, separated by commas. The
longest well-formed front part is taken; what follows it is reported once.
-/

namespace AnnotationQuery.Parse

open AnnotationQuery.Parse.Parser

/-- A direction; `true` is descending. -/
def direction : Parser Bool :=
  (do keyword .asc; return false) <|> (do keyword .desc; return true)

/-- An operand with an optional direction. -/
def orderTerm : Parser OrderTerm := do
  let key ← operand
  let descending ← optional direction
  return ⟨key, descending.getD false⟩

/-- Order terms separated by commas, or none. -/
def orderTerms : Parser (List OrderTerm) := do
  let terms ← optional (separatedBy orderTerm (symbol .comma))
  return terms.getD []

/-- Reads an order list. A blank one has no terms. -/
def order (source : String) : Reading (List OrderTerm) :=
  readSource orderTerms source

end AnnotationQuery.Parse
