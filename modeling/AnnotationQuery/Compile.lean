import AnnotationQuery.Fault
import AnnotationQuery.Parse.Order
import AnnotationQuery.Schema
import AnnotationQuery.Sql.Query
import AnnotationQuery.Storage.Fragment

/-!
# From query text to SQL

Compiling follows the tree: connectives, groups and comparisons are written as
they stand, and each operand is replaced by its SQL. No parentheses are added
except around what `NOT` denies.

Whether an operand is admissible depends on the operand and on its position alone.
Three rules say so: `scalarSql?` where one value is needed, `setSql?` on the right
of `IN`, `itemSql?` inside a list. An inadmissible operand does not end the
compilation. It becomes a fault, a stand-in takes its place, and the walk goes on,
so a rejection names everything that is wrong. `Draft` carries what is written and
the faults so far; a draft with faults is never used.
-/

namespace AnnotationQuery

/-- Something written, and what was wrong on the way. -/
structure Draft (α : Type) where
  value : α
  faults : List Fault

namespace Draft

instance : Monad Draft where
  pure a := ⟨a, []⟩
  bind d f := ⟨(f d.value).value, d.faults ++ (f d.value).faults⟩

end Draft

/-- What a clause is compiled for. -/
structure Context where
  schema : Schema
  root : Root
  clause : Clause

namespace Context

/-! ## Admissible operands -/

/-- The SQL for a function of a layer. -/
def layerSql? (cx : Context) (function : LayerFunction) (layerId : String) : Except Cause String :=
  let operand := function.apply layerId
  match cx.schema.layer? layerId with
  | none => .error (.unknownLayer operand layerId)
  | some _ =>
    match cx.schema.category? layerId with
    | none => .error (.unmappedLayer operand layerId)
    | some category =>
      match category.fragment? cx.root function with
      | none => .error (.unsupportedFunction operand layerId category.name cx.root)
      | some sql => .ok sql

/-- The cause for an operand that means nothing for these rows. -/
def unsupported (cx : Context) (o : Operand) : Cause :=
  .unsupportedOperand o.text cx.root

/-- The SQL of an operand where one value is needed. -/
def scalarSql? (cx : Context) (o : Operand) : Except Cause String :=
  match o with
  | .id | .label => .ok cx.root.idColumn
  | .ordinal =>
    match cx.root.ordinalColumn? with
    | some column => .ok column
    | none => .error (cx.unsupported o)
  | .literal value => .ok value.text
  | .layer function layerId =>
    if function.isSet then .error (.misplaced o.text "a single value")
    else cx.layerSql? function layerId.value
  | .identifier _ | .member _ _ => .error (cx.unsupported o)

/-- The SQL of an operand where a set of values is needed. -/
def setSql? (cx : Context) (o : Operand) : Except Cause String :=
  match o with
  | .layer function layerId =>
    if function.isSet then cx.layerSql? function layerId.value
    else .error (.misplaced o.text "a list or a set of labels")
  | _ => .error (.misplaced o.text "a list or a set of labels")

/-- The SQL of an item of a list. -/
def itemSql? (cx : Context) (o : Operand) : Except Cause String :=
  match o with
  | .literal value => .ok value.text
  | _ => .error (cx.unsupported o)

/-! ## Drafts -/

/-- Writes what a rule gives, or a stand-in for what it refuses. -/
def settle (cx : Context) (span : Span) (standIn : String) : Except Cause String → Draft String
  | .ok sql => ⟨sql, []⟩
  | .error cause => ⟨standIn, [⟨cause, cx.clause, span⟩]⟩

/-- The stand-in for one value. -/
def noValue : String := "NULL"

/-- The stand-in for a set of values. -/
def noSet : String := "(SELECT NULL)"

/-- An operand where one value is needed. -/
def scalar (cx : Context) (o : Spanned Operand) : Draft String :=
  cx.settle o.span noValue (cx.scalarSql? o.value)

/-- A comparand where one value is needed. -/
def scalarComparand (cx : Context) (c : Spanned Comparand) : Draft String :=
  match c.value with
  | .one o => cx.scalar ⟨o, c.span⟩
  | .list _ => cx.settle c.span noValue (.error (.misplaced c.value.text "a single value"))

/-- An item of a list. -/
def listItem (cx : Context) (o : Spanned Operand) : Draft String := do
  let sql ← cx.settle o.span noValue (cx.itemSql? o.value)
  return " " ++ sql

/-- A comparand where a set of values is needed. -/
def setComparand (cx : Context) (c : Spanned Comparand) : Draft String :=
  match c.value with
  | .one o => cx.settle c.span noSet (cx.setSql? o)
  | .list items => do
    let items ← items.mapM cx.listItem
    return "(" ++ ",".intercalate items ++ ")"

/-- The right side of a comparison, by what the comparison needs there. -/
def rightSide (cx : Context) (op : Comparison) (c : Spanned Comparand) : Draft String :=
  if op.takesSet then cx.setComparand c else cx.scalarComparand c

/-- A condition. -/
def condition (cx : Context) : Expr → Draft String
  | .and _ lhs rhs => do
    let l ← cx.condition lhs
    let r ← cx.condition rhs
    return l ++ " AND " ++ r
  | .or _ lhs rhs => do
    let l ← cx.condition lhs
    let r ← cx.condition rhs
    return l ++ " OR " ++ r
  | .group _ inner => do
    let x ← cx.condition inner
    return "(" ++ x ++ ")"
  | .not _ inner => do
    let x ← cx.condition inner
    return if inner.isGroup then "NOT " ++ x else "NOT (" ++ x ++ ")"
  | .compare _ lhs op rhs => do
    let l ← cx.scalar lhs
    let r ← cx.rightSide op.value rhs
    return l ++ " " ++ op.value.sql ++ " " ++ r
  | .operand _ o => cx.scalar o
  | .malformed _ => ⟨noValue, []⟩

/-- A sort key. -/
def orderTerm (cx : Context) (t : OrderTerm) : Draft String := do
  let key ← cx.scalar t.operand
  return if t.descending then key ++ " DESC" else key

/-! ## Clauses -/

/-- The faults of text that could not be read. -/
def malformed (cx : Context) (ds : List Diagnostic) : List Fault :=
  ds.map fun d => ⟨.malformed d.message, cx.clause, d.span⟩

/-- A filter from its condition. No condition is written as nothing. -/
def filterOf (cx : Context) : Option Expr → Draft Sql.Condition
  | none => ⟨⟨"", false⟩, []⟩
  | some e => do
    let sql ← cx.condition e
    return ⟨sql, e.isDisjunction⟩

/-- A filter. -/
def filter (cx : Context) (source : String) : Draft Sql.Condition :=
  let reading := Parse.filter source
  let draft := cx.filterOf reading.output.join
  ⟨draft.value, cx.malformed reading.diagnostics ++ draft.faults⟩

/-- An order list from its sort keys. Without a list, rows are sorted by what identifies them. -/
def orderOf (cx : Context) : Option (List OrderTerm) → Draft (List String)
  | none => ⟨[cx.root.idColumn], []⟩
  | some keys => keys.mapM cx.orderTerm

/-- An order list. A blank one is like none. -/
def order (cx : Context) (source : Option String) : Draft (List String) :=
  match source.filter fun s => !Text.isBlankText s with
  | none => cx.orderOf none
  | some s =>
    let reading := Parse.order s
    let draft := cx.orderOf (some (reading.output.getD []))
    ⟨draft.value, cx.malformed reading.diagnostics ++ draft.faults⟩

end Context

/-- A query to be compiled: a filter and an order list in the query language, and raw SQL for the
rest of the statement. -/
structure Request where
  expression : String
  select : String
  extraWhere : Option String := none
  order : Option String := none
  limit : Option String := none
deriving DecidableEq, Repr

/-- The statement for a compiled condition and compiled sort keys. -/
def Request.statement (r : Request) (root : Root) (filter : Sql.Condition) (keys : List String) :
    Sql.Query :=
  let clauses : Sql.Clauses := { select := r.select, source := root.table }
  ((clauses.withFilter filter).withExtraWhere r.extraWhere
    |>.withOrder keys |>.withLimit r.limit).query

/-- The statement for a query, or everything that is wrong with it. -/
def Request.compile (r : Request) (schema : Schema) (root : Root) : Except Rejection Sql.Query :=
  let filter := Context.filter ⟨schema, root, .filter⟩ r.expression
  let order := Context.order ⟨schema, root, .order⟩ r.order
  match filter.faults ++ order.faults with
  | [] => .ok (r.statement root filter.value order.value)
  | faults => .error ⟨r.expression, r.order, faults⟩

end AnnotationQuery
