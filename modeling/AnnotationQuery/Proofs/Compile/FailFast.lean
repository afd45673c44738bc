import AnnotationQuery.Proofs.Compile.Clause

/-!
# Collecting faults refines failing at the first

`Context.translate?` is the compiler without its bookkeeping: the same rules for
operands and the same texts around them, but it gives up at the first operand that
is not admissible, and at a part that could not be read. It has no stand-ins and no
faults. A request that is read without a complaint and whose trees it translates is
the one that `Request.compile` accepts, with the same statement; so no stand-in is
part of an accepted statement.

The faults of a refused request are what is wrong with it, each once and in the
order of the text. Which operands are wrong, and why, is listed in `refusal?`: it
looks at one operand and at what is needed where the operand stands, and at nothing
else.

The two meet in `Draft.clean?`, the text of a draft without faults. It turns a
sequence of drafts into the same sequence of attempts (`clean?_bind`), so the
translation agrees with the walk step by step.

Main results:

* `Context.translate?_eq_clean?` — the translation of a condition.
* `Context.faults_condition` — the faults of a condition, from its operands.
* `compile_refines_failFast` — requests.
-/

namespace AnnotationQuery

open Sql

/-! ## Translating without faults -/

namespace Context

/-- The right side of a comparison, if it is admissible. -/
def translateRight? (cx : Context) (op : Comparison) : Comparand → Option String
  | .one o => if op.takesSet then (cx.setSql? o).toOption else (cx.scalarSql? o).toOption
  | .list items =>
    if op.takesSet then do
      let items ← items.mapM fun o => do
        let sql ← (cx.itemSql? o.value).toOption
        return " " ++ sql
      return "(" ++ ",".intercalate items ++ ")"
    else none

/-- A condition, if all its operands are admissible. -/
def translate? (cx : Context) : Expr → Option String
  | .and _ lhs rhs => do
    let l ← cx.translate? lhs
    let r ← cx.translate? rhs
    return l ++ " AND " ++ r
  | .or _ lhs rhs => do
    let l ← cx.translate? lhs
    let r ← cx.translate? rhs
    return l ++ " OR " ++ r
  | .group _ inner => do
    let x ← cx.translate? inner
    return "(" ++ x ++ ")"
  | .not _ inner => do
    let x ← cx.translate? inner
    return if inner.isGroup then "NOT " ++ x else "NOT (" ++ x ++ ")"
  | .compare _ lhs op rhs => do
    let l ← (cx.scalarSql? lhs.value).toOption
    let r ← cx.translateRight? op.value rhs.value
    return l ++ " " ++ op.value.sql ++ " " ++ r
  | .operand _ o => (cx.scalarSql? o.value).toOption
  | .malformed _ => none

/-- A sort key, if its operand is admissible. -/
def translateKey? (cx : Context) (t : OrderTerm) : Option String := do
  let key ← (cx.scalarSql? t.operand.value).toOption
  return if t.descending then key ++ " DESC" else key

/-- A filter. No condition is written as nothing. -/
def translateFilter? (cx : Context) : Option Expr → Option Condition
  | none => some ⟨"", false⟩
  | some e => do
    let sql ← cx.translate? e
    return ⟨sql, e.isDisjunction⟩

/-- An order list. Without sort keys, rows are sorted by what identifies them. -/
def translateOrder? (cx : Context) : List OrderTerm → Option (List String)
  | [] => some [cx.root.idColumn]
  | keys => keys.mapM cx.translateKey?

end Context

/-- The statement for a request that is read without a complaint and has only admissible
operands. -/
def Request.translate? (r : Request) (schema : Schema) (root : Root) : Option Query :=
  if r.isReadable then do
    let filter ← Context.translateFilter? ⟨schema, root, .filter⟩ r.condition?
    let keys ← Context.translateOrder? ⟨schema, root, .order⟩ r.sortKeys
    return r.statement root filter keys
  else none

/-! ## What is wrong with an operand -/

/-- An operand or a list, by what is needed where it stands. -/
inductive Occurrence where
  /-- One value is needed. -/
  | scalar (c : Spanned Comparand)
  /-- A set is needed: it stands on the right of `IN`. -/
  | set (o : Spanned Operand)
  /-- A literal is needed: it stands in a list on the right of `IN`. -/
  | item (o : Spanned Operand)
deriving DecidableEq, Repr

/-- Where in the text it stands. -/
def Occurrence.span : Occurrence → Span
  | scalar c => c.span
  | set o | item o => o.span

/-- The occurrences on the right side of a comparison. -/
def Comparison.occurrences (op : Comparison) (c : Spanned Comparand) : List Occurrence :=
  if op.takesSet then
    match c.value with
    | .one o => [.set ⟨o, c.span⟩]
    | .list items => items.map .item
  else [.scalar c]

/-- The occurrences of operands in a condition, from left to right. -/
def Expr.occurrences : Expr → List Occurrence
  | operand _ o => [.scalar ⟨.one o.value, o.span⟩]
  | compare _ lhs op rhs => .scalar ⟨.one lhs.value, lhs.span⟩ :: op.value.occurrences rhs
  | not _ inner | group _ inner => inner.occurrences
  | and _ lhs rhs | or _ lhs rhs => lhs.occurrences ++ rhs.occurrences
  | malformed _ => []

/-- The occurrence of the operand of a sort key. -/
def OrderTerm.occurrence (t : OrderTerm) : Occurrence :=
  .scalar ⟨.one t.operand.value, t.operand.span⟩

namespace Context

/-- Why a function cannot be asked of a layer, if it cannot. -/
def layerRefusal? (cx : Context) (function : LayerFunction) (id : String) : Option Cause :=
  if (cx.schema.layer? id).isNone then some (.unknownLayer (function.apply id) id)
  else
    match cx.schema.category? id with
    | none => some (.unmappedLayer (function.apply id) id)
    | some category =>
      if (category.fragment? cx.root function).isNone then
        some (.unsupportedFunction (function.apply id) id category.name cx.root)
      else none

/-- Why something cannot stand where it stands, if it cannot. -/
def refusal? (cx : Context) : Occurrence → Option Cause
  | .scalar c =>
    match c.value with
    | .one .id | .one .label | .one (.literal _) => none
    | .one .ordinal =>
      if cx.root = .participant then some (.unsupportedOperand "ordinal" cx.root) else none
    | .one (.layer function id) =>
      if function.isSet then some (.misplaced (function.apply id.value) "a single value")
      else cx.layerRefusal? function id.value
    | .one (.identifier name) => some (.unsupportedOperand name cx.root)
    | .one (.member object part) =>
      some (.unsupportedOperand (object.value ++ "." ++ part.value) cx.root)
    | .list items => some (.misplaced (Comparand.list items).text "a single value")
  | .set o =>
    match o.value with
    | .layer function id =>
      if function.isSet then cx.layerRefusal? function id.value
      else some (.misplaced (function.apply id.value) "a list or a set of labels")
    | other => some (.misplaced other.text "a list or a set of labels")
  | .item o =>
    match o.value with
    | .literal _ => none
    | other => some (.unsupportedOperand other.text cx.root)

/-- The fault of an occurrence, if it is refused: in the clause at hand and at its own place. -/
def fault? (cx : Context) (o : Occurrence) : Option Fault :=
  (cx.refusal? o).map fun cause => ⟨cause, cx.clause, o.span⟩

end Context

/-- Everything that is wrong with a request: in the filter what could not be read, then what is
refused, and the same in the order list. -/
def Request.complaints (r : Request) (schema : Schema) (root : Root) : List Fault :=
  let unread (clause : Clause) (d : Diagnostic) : Fault := ⟨.malformed d.message, clause, d.span⟩
  (Parse.filter r.expression).diagnostics.map (unread .filter) ++
  (r.condition?.toList.flatMap Expr.occurrences).filterMap
    (Context.fault? ⟨schema, root, .filter⟩) ++
  (r.order.toList.flatMap fun source => (Parse.order source).diagnostics).map (unread .order) ++
  (r.sortKeys.map OrderTerm.occurrence).filterMap (Context.fault? ⟨schema, root, .order⟩)

/-! ## Clean drafts -/

namespace Draft

variable {α β : Type}

/-- What was written, if nothing was wrong on the way. -/
def clean? (d : Draft α) : Option α :=
  if d.faults.isEmpty then some d.value else none

theorem clean?_pure (a : α) : (pure a : Draft α).clean? = some a := rfl

/-- A sequence of drafts is clean if both are. -/
theorem clean?_bind (d : Draft α) (f : α → Draft β) :
    (d >>= f).clean? = d.clean? >>= fun a => (f a).clean? := by
  unfold clean?
  rw [faults_bind]
  cases d.faults with
  | nil => rfl
  | cons f fs => rfl

/-- A list of drafts is clean if all of them are. -/
theorem clean?_mapM (f : α → Draft β) (xs : List α) :
    (xs.mapM f).clean? = xs.mapM fun x => (f x).clean? := by
  induction xs with
  | nil => rfl
  | cons x xs ih =>
    rw [List.mapM_cons, List.mapM_cons, clean?_bind]
    simp only [clean?_bind, clean?_pure, ih]
    rfl

theorem clean?_of_faultless {d : Draft α} (h : d.faults = []) : d.clean? = some d.value := by
  rw [clean?, h]
  rfl

theorem clean?_of_faults {d : Draft α} (h : d.faults ≠ []) : d.clean? = none := by
  rw [clean?, if_neg fun hEmpty => h (List.isEmpty_iff.mp hEmpty)]

end Draft

namespace Context

theorem clean?_settle (cx : Context) (s : Span) (standIn : String) (rule : Except Cause String) :
    (cx.settle s standIn rule).clean? = rule.toOption := by
  cases rule <;> rfl

/-- The right side of a comparison is clean exactly if it is admissible. -/
theorem clean?_rightSide (cx : Context) (op : Comparison) (c : Spanned Comparand) :
    (cx.rightSide op c).clean? = cx.translateRight? op c.value := by
  obtain ⟨o | items, s⟩ := c
  · unfold rightSide translateRight?
    split
    · exact cx.clean?_settle _ _ _
    · exact cx.clean?_settle _ _ _
  · unfold rightSide translateRight?
    split
    · -- the list is written item by item, and each item has to be clean
      rw [setComparand, Draft.clean?_bind, Draft.clean?_mapM]
      simp only [listItem, Draft.clean?_bind, Draft.clean?_pure, clean?_settle]
      rfl
    · exact cx.clean?_settle _ _ _

/-- A condition without malformed parts is clean exactly if all its operands are admissible. -/
theorem translate?_eq_clean? (cx : Context) {e : Expr} (h : e.malformedParts = 0) :
    cx.translate? e = (cx.condition e).clean? := by
  induction e with
  | operand s o => exact (cx.clean?_settle _ _ _).symm
  | malformed s =>
    -- the one stand-in without a fault of its own; its fault is a diagnostic
    cases h
  | group s inner ih =>
    rw [translate?, condition, Draft.clean?_bind, ih h]
    rfl
  | not s inner ih =>
    rw [translate?, condition, Draft.clean?_bind, ih h]
    rfl
  | and s lhs rhs ihl ihr =>
    rw [Expr.malformedParts, Nat.add_eq_zero_iff] at h
    rw [translate?, condition, Draft.clean?_bind, ihl h.1, ihr h.2]
    simp only [Draft.clean?_bind, Draft.clean?_pure]
    rfl
  | or s lhs rhs ihl ihr =>
    rw [Expr.malformedParts, Nat.add_eq_zero_iff] at h
    rw [translate?, condition, Draft.clean?_bind, ihl h.1, ihr h.2]
    simp only [Draft.clean?_bind, Draft.clean?_pure]
    rfl
  | compare s lhs op rhs =>
    rw [translate?, condition_compare, Draft.clean?_bind]
    simp only [Draft.clean?_bind, Draft.clean?_pure, clean?_rightSide, String.append_assoc]
    rw [scalar, clean?_settle]
    rfl

theorem clean?_orderTerm (cx : Context) (t : OrderTerm) :
    (cx.orderTerm t).clean? = cx.translateKey? t := by
  rw [orderTerm, translateKey?, Draft.clean?_bind, scalar, clean?_settle]
  rfl

/-- A filter is clean exactly if its condition is. -/
theorem clean?_filterOf (cx : Context) {c : Option Expr}
    (h : ∀ e, c = some e → e.malformedParts = 0) :
    (cx.filterOf c).clean? = cx.translateFilter? c := by
  cases c with
  | none => rfl
  | some e =>
    rw [filterOf, translateFilter?, Draft.clean?_bind, translate?_eq_clean? cx (h e rfl)]
    rfl

/-- An order list is clean exactly if its sort keys are. -/
theorem clean?_orderOf (cx : Context) (keys : List OrderTerm) :
    (cx.orderOf (OrderTerm.listed? keys)).clean? = cx.translateOrder? keys := by
  cases keys with
  | nil => rfl
  | cons t ts =>
    simp only [orderOf_listed?_cons, translateOrder?, Draft.clean?_mapM, clean?_orderTerm]

/-! ## Faults -/

/-- Why a rule refuses, if it does. -/
def refused? : Except Cause String → Option Cause
  | .ok _ => none
  | .error cause => some cause

theorem faults_settle (cx : Context) (s : Span) (standIn : String) (rule : Except Cause String) :
    (cx.settle s standIn rule).faults =
      ((refused? rule).map fun cause => ⟨cause, cx.clause, s⟩).toList := by
  cases rule <;> rfl

/-- A function of a layer is refused for the first of three reasons that applies. -/
theorem refused?_layerSql? (cx : Context) (function : LayerFunction) (id : String) :
    refused? (cx.layerSql? function id) = cx.layerRefusal? function id := by
  -- both ask the same three questions in the same order
  unfold layerSql? layerRefusal?
  cases cx.schema.layer? id with
  | none => rfl
  | some l =>
    cases cx.schema.category? id with
    | none => rfl
    | some category =>
      simp only [Option.isNone_some, Bool.false_eq_true, if_false]
      cases category.fragment? cx.root function <;> rfl

/-- Why an operand is refused where one value is needed. -/
theorem refused?_scalarSql? (cx : Context) (o : Operand) (s : Span) :
    refused? (cx.scalarSql? o) = cx.refusal? (.scalar ⟨.one o, s⟩) := by
  cases o with
  | ordinal =>
    obtain ⟨schema, root, clause⟩ := cx
    cases root <;> rfl
  | layer function id =>
    simp only [scalarSql?, refusal?]
    split
    · rfl
    · exact cx.refused?_layerSql? function id.value
  | _ => rfl

/-- Why an operand is refused where a set is needed. -/
theorem refused?_setSql? (cx : Context) (o : Operand) (s : Span) :
    refused? (cx.setSql? o) = cx.refusal? (.set ⟨o, s⟩) := by
  cases o with
  | layer function id =>
    simp only [setSql?, refusal?]
    split
    · exact cx.refused?_layerSql? function id.value
    · rfl
  | _ => rfl

/-- Why an operand is refused as an item of a list. -/
theorem refused?_itemSql? (cx : Context) (o : Operand) (s : Span) :
    refused? (cx.itemSql? o) = cx.refusal? (.item ⟨o, s⟩) := by
  cases o <;> rfl

theorem faultOf_singleton (cx : Context) (o : Occurrence) :
    [o].filterMap cx.fault? = (cx.fault? o).toList := by
  rw [List.filterMap_eq_flatMap_toList, List.flatMap_singleton]

/-- An operand has at most the fault of its occurrence as one value. -/
theorem faults_scalar (cx : Context) (o : Spanned Operand) :
    (cx.scalar o).faults = (cx.fault? (.scalar ⟨.one o.value, o.span⟩)).toList := by
  rw [scalar, faults_settle, cx.refused?_scalarSql? o.value o.span]
  rfl

/-- An item of a list has at most the fault of its occurrence as an item. -/
theorem faults_listItem (cx : Context) (o : Spanned Operand) :
    (cx.listItem o).faults = (cx.fault? (.item o)).toList := by
  rw [listItem, Draft.faults_bind, faults_settle, cx.refused?_itemSql? o.value o.span,
    Draft.faults_pure, List.append_nil]
  rfl

/-- The faults on the right of a comparison are those of its occurrences. -/
theorem faults_rightSide (cx : Context) (op : Comparison) (c : Spanned Comparand) :
    (cx.rightSide op c).faults = (op.occurrences c).filterMap cx.fault? := by
  obtain ⟨o | items, s⟩ := c
  · unfold rightSide Comparison.occurrences
    split
    · rw [setComparand, faults_settle, cx.refused?_setSql? o s, faultOf_singleton]
      rfl
    · rw [scalarComparand, faults_scalar, faultOf_singleton]
  · unfold rightSide Comparison.occurrences
    split
    · -- each item of the list is looked at by itself
      rw [setComparand, Draft.faults_bind, Draft.faults_mapM, Draft.faults_pure, List.append_nil,
        List.filterMap_map, List.filterMap_eq_flatMap_toList]
      simp only [faults_listItem]
      rfl
    · rw [scalarComparand, faults_settle, faultOf_singleton]
      rfl

/-- The faults of a condition are those of its occurrences, from left to right. -/
theorem faults_condition (cx : Context) (e : Expr) :
    (cx.condition e).faults = e.occurrences.filterMap cx.fault? := by
  -- a malformed part has no occurrence, and no fault of its own
  induction e with
  | operand s o =>
    rw [condition, faults_scalar, Expr.occurrences, faultOf_singleton]
  | malformed s => rfl
  | group s inner ih =>
    rw [condition, Draft.faults_bind, Draft.faults_pure, List.append_nil, ih]
    rfl
  | not s inner ih =>
    rw [condition, Draft.faults_bind, Draft.faults_pure, List.append_nil, ih]
    rfl
  | and s lhs rhs ihl ihr =>
    rw [condition, Expr.occurrences, List.filterMap_append, ← ihl, ← ihr]
    simp only [Draft.faults_bind, Draft.faults_pure, List.append_nil]
  | or s lhs rhs ihl ihr =>
    rw [condition, Expr.occurrences, List.filterMap_append, ← ihl, ← ihr]
    simp only [Draft.faults_bind, Draft.faults_pure, List.append_nil]
  | compare s lhs op rhs =>
    rw [condition_compare, Expr.occurrences, ← List.singleton_append, List.filterMap_append,
      faultOf_singleton, ← faults_scalar, ← faults_rightSide]
    simp only [Draft.faults_bind, Draft.faults_pure, List.append_nil]

theorem faults_orderTerm (cx : Context) (t : OrderTerm) :
    (cx.orderTerm t).faults = (cx.fault? t.occurrence).toList := by
  rw [orderTerm, Draft.faults_bind, Draft.faults_pure, List.append_nil, faults_scalar]
  rfl

/-- The faults of sort keys are those of their operands, in order. -/
theorem faults_keys (cx : Context) (keys : List OrderTerm) :
    (keys.mapM cx.orderTerm).faults = (keys.map OrderTerm.occurrence).filterMap cx.fault? := by
  rw [Draft.faults_mapM, List.filterMap_map, List.filterMap_eq_flatMap_toList]
  simp only [faults_orderTerm]
  rfl

/-- The faults of a filter: what could not be read, and then what is refused. -/
theorem faults_filter (cx : Context) (r : Request) :
    (cx.filter r.expression).faults = cx.malformed (Parse.filter r.expression).diagnostics ++
      (r.condition?.toList.flatMap Expr.occurrences).filterMap cx.fault? := by
  unfold filter Request.condition?
  simp only
  rcases (Parse.filter r.expression).output with _ | _ | e
  · rfl
  · rfl
  · show _ ++ ((cx.condition e).faults ++ []) = _ ++ List.filterMap cx.fault? (e.occurrences ++ [])
    rw [List.append_nil, List.append_nil, faults_condition]

/-- The faults of an order list: what could not be read, and then what is refused. -/
theorem faults_order (cx : Context) (r : Request) :
    (cx.order r.order).faults =
      cx.malformed (r.order.toList.flatMap fun source => (Parse.order source).diagnostics) ++
        (r.sortKeys.map OrderTerm.occurrence).filterMap cx.fault? := by
  unfold order Request.sortKeys
  cases r.order with
  | none => rfl
  | some source =>
    by_cases hBlank : Text.isBlankText source = true
    · -- a blank order list is read as one without keys
      simp [orderOf, Option.filter, hBlank, Parse.order_of_isBlankText hBlank, malformed]
    · simp only [Option.filter, hBlank, Bool.not_false, if_true, Option.toList_some,
        List.flatMap_singleton, orderOf, faults_keys]

end Context

/-! ## Requests -/

namespace Request

variable (r : Request) (schema : Schema) (root : Root)

/-- Both clauses and what is wrong with them. -/
def draft : Draft Query := do
  let filter ← Context.filter ⟨schema, root, .filter⟩ r.expression
  let keys ← Context.order ⟨schema, root, .order⟩ r.order
  return r.statement root filter keys

theorem faults_draft : (r.draft schema root).faults = r.complaints schema root := by
  simp only [draft, Draft.faults_bind, Draft.faults_pure, List.append_nil]
  rw [Context.faults_filter, Context.faults_order, ← List.append_assoc]
  rfl

/-- A request compiles to its draft if that is clean, and is rejected for its faults if not. -/
theorem compile_eq_draft :
    r.compile schema root =
      match (r.draft schema root).clean? with
      | some q => .ok q
      | none => .error ⟨r.expression, r.order, (r.draft schema root).faults⟩ := by
  have hFaults : (r.draft schema root).faults =
      (Context.filter ⟨schema, root, .filter⟩ r.expression).faults ++
        (Context.order ⟨schema, root, .order⟩ r.order).faults := by
    simp only [draft, Draft.faults_bind, Draft.faults_pure, List.append_nil]
  -- without faults there is a statement, and with any there is none
  by_cases hNone : (r.draft schema root).faults = []
  · rw [Draft.clean?_of_faultless hNone]
    rw [hFaults, List.append_eq_nil_iff] at hNone
    exact compile_of_faultless hNone.1 hNone.2
  · rw [Draft.clean?_of_faults hNone]
    exact compile_of_faults hFaults.symm hNone

/-- A request is translated exactly if its draft is clean. -/
theorem translate?_eq_clean? : r.translate? schema root = (r.draft schema root).clean? := by
  unfold translate?
  split
  · next hRead =>
    have hWhole : ∀ e, r.condition? = some e → e.malformedParts = 0 :=
      fun e he => (sound_of_isReadable hRead he).malformed
    simp only [draft, Draft.clean?_bind, Draft.clean?_pure]
    rw [Context.filter_of_isReadable _ hRead, Context.order_of_isReadable _ hRead,
      Context.clean?_filterOf _ hWhole, Context.clean?_orderOf]
    rfl
  · next hRead =>
    -- what could not be read is a fault of its clause
    refine (Draft.clean?_of_faults fun hNone => hRead ?_).symm
    simp only [draft, Draft.faults_bind, Draft.faults_pure, List.append_nil,
      List.append_eq_nil_iff] at hNone
    exact isReadable_of_faultless hNone.1 hNone.2

end Request

/-- **Collecting faults refines failing at the first.** A request is compiled exactly if it is read
without a complaint and translated without a refusal, and then to the same statement. Otherwise it
is refused with all that is wrong with it, one fault for each thing. -/
theorem compile_refines_failFast (r : Request) (schema : Schema) (root : Root) :
    r.compile schema root =
      match r.translate? schema root with
      | some q => .ok q
      | none => .error ⟨r.expression, r.order, r.complaints schema root⟩ := by
  rw [r.compile_eq_draft schema root, r.translate?_eq_clean? schema root,
    r.faults_draft schema root]

end AnnotationQuery
