import AnnotationQuery.Sql.Scan

/-!
# Statements

A statement is put together from clauses: what to select and from where, a
compiled filter, a raw condition that must hold as well, the sort keys and a raw
limit. The raw parts are passed through; the only thing done to them is that
blanks around them go, and that a blank one counts as absent.

The raw condition is joined to the filter by `AND`. So that it constrains all of
the filter, a filter whose top connective is `OR` gets parentheses, and so does
the raw condition unless it has them already.
-/

namespace AnnotationQuery.Sql

/-- A value for a placeholder. -/
inductive Parameter where
  | int (value : Int)
  | float (value : Float)
  | text (value : String)

/-- A statement and the values for its placeholders, in order. -/
structure Query where
  sql : String
  parameters : List Parameter

namespace Query

/-- The number of placeholders in the statement. -/
def placeholderCount (q : Query) : Nat :=
  Sql.placeholderCount q.sql

/-- Whether every placeholder has exactly one value. -/
def isAligned (q : Query) : Bool :=
  q.placeholderCount == q.parameters.length

end Query

/-- A compiled condition. -/
structure Condition where
  sql : String
  /-- Whether its top connective is `OR`. -/
  disjunction : Bool
deriving DecidableEq, Repr

/-- The text in parentheses. -/
def parenthesize (sql : String) : String :=
  "(" ++ sql ++ ")"

/-- The clauses of a statement. -/
structure Clauses where
  select : String
  source : String
  filter : Option Condition := none
  extraWhere : Option String := none
  orderBy : List String := []
  limit : Option String := none
  parameters : List Parameter := []

namespace Clauses

/-- With this filter. A blank one is no filter. -/
def withFilter (c : Clauses) (filter : Condition) : Clauses :=
  { c with filter := if Text.isBlankText filter.sql then none else some filter }

/-- With this raw condition, if it is there and not blank. -/
def withExtraWhere (c : Clauses) (sql : Option String) : Clauses :=
  { c with extraWhere := sql.bind Text.nonBlank? }

/-- With further sort keys. -/
def withOrder (c : Clauses) (terms : List String) : Clauses :=
  { c with orderBy := c.orderBy ++ terms }

/-- With this raw limit, if it is there and not blank. -/
def withLimit (c : Clauses) (sql : Option String) : Clauses :=
  { c with limit := sql.bind Text.nonBlank? }

/-- With one more placeholder value. -/
def withParameter (c : Clauses) (p : Parameter) : Clauses :=
  { c with parameters := c.parameters ++ [p] }

/-- The filter as one side of a conjunction. -/
def conjunct (filter : Condition) : String :=
  if filter.disjunction then parenthesize filter.sql else filter.sql

/-- The raw condition as one side of a conjunction. -/
def enclose (extra : String) : String :=
  if isEnclosed extra then extra else parenthesize extra

/-- The body of the `WHERE` clause, if there is one. -/
def whereBody? (c : Clauses) : Option String :=
  match c.filter, c.extraWhere with
  | some filter, some extra => some (conjunct filter ++ " AND " ++ enclose extra)
  | some filter, none => some filter.sql
  | none, some extra => some extra
  | none, none => none

/-- The body of the `ORDER BY` clause, if there is one. -/
def orderBody? (c : Clauses) : Option String :=
  if c.orderBy.isEmpty then none else some (", ".intercalate c.orderBy)

/-- A clause after its introduction, if there is one. -/
def clause (introduction : String) : Option String → String
  | some body => introduction ++ body
  | none => ""

/-- The whole statement. -/
def query (c : Clauses) : Query :=
  { sql := "SELECT " ++ c.select ++ " FROM " ++ c.source ++ clause " WHERE " c.whereBody? ++
      clause " ORDER BY " c.orderBody? ++ clause " " c.limit
    parameters := c.parameters }

end Clauses

end AnnotationQuery.Sql
