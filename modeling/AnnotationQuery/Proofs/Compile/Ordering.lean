import AnnotationQuery.Proofs.Compile.Clause
import AnnotationQuery.Proofs.Compile.Connectives
import Mathlib.Data.List.Forall2

/-!
# Every statement is ordered, and by its sort keys

Paging relies on rows coming in a definite order, so a statement without `ORDER BY`, or with other
keys than were asked for, would lose rows without notice. Two things decide whether there is one. A
blank order list counts as absent, and then the identifying column stands in; what is not
blank has to have a key. Blank is what trims to nothing, and a list without a key is what has no
token. The two agree, since the same characters are skipped in both.

The keys are put in a row with commas between them, and a key may have commas of its own: in
a literal, or inside a subquery. None of these stands outside quotes and parentheses, so the row
comes apart into the keys again.

Main results:

* `Context.scalarSql?_freeOf_comma` — no bare comma in what is written for an operand.
* `Request.sql_of_keys` — the text of a statement that has sort keys.
* `order_clause_faithful` — the sort keys of a compiled request.
-/

namespace AnnotationQuery

open Sql

/-! ## Commas -/

namespace Sql

/-- Characters of names and numbers bring no comma. -/
theorem freeOf_comma_of_chars {sql : String}
    (h : ∀ c ∈ sql.toList, (isNameChar c || Token.isNumeric c) = true) : FreeOf ',' sql := by
  refine freeOf_of_plain (fun c hc => isPlain_of_isWordChar (isWordChar_of_name_or_number (h c hc)))
    fun hComma => ?_
  cases h _ hComma

theorem freeOf_comma_of_isQualifiedColumn {sql : String} (h : isQualifiedColumn sql = true) :
    FreeOf ',' sql :=
  freeOf_comma_of_chars (chars_of_isQualifiedColumn h).2

end Sql

/-- A literal brings no comma, except in its quotes. -/
theorem Literal.freeOf_comma_text {l : Literal} (h : l.isWritable = true) : FreeOf ',' l.text := by
  cases l with
  | string value =>
    refine ⟨Text.complete_quote h, ?_⟩
    rw [text, Text.outside_quote h]
    simp
  | number written =>
    rw [isWritable, Bool.and_eq_true, List.all_eq_true] at h
    exact freeOf_comma_of_chars fun c hc => by rw [h.2 c hc, Bool.or_true]

/-- What is written for one value brings no comma, except in quotes and parentheses. -/
theorem Context.scalarSql?_freeOf_comma {cx : Context} (hSchema : cx.schema.Quotable) {o : Operand}
    {sql : String} (hWritable : o.isWritable = true) (h : cx.scalarSql? o = .ok sql) :
    FreeOf ',' sql := by
  rcases scalarSql?_cases hSchema hWritable h with hColumn | ⟨l, hl, rfl⟩ | hParens
  · exact freeOf_comma_of_isQualifiedColumn hColumn
  · exact Literal.freeOf_comma_text hl
  · exact hParens.parenthesized.freeOf (by decide)

/-! ## Sort keys -/

namespace Sql

/-- A sort key and its direction. -/
def sortKey (key : String) (descending : Bool) : String :=
  if descending then key ++ " DESC" else key

/-- No term ends like a descending sort key. -/
theorem Term.not_descending {sql : String} (h : Term sql) : ¬ " DESC".toList <:+ sql.toList := by
  -- quotes and parentheses end with themselves, and a word has no blank in it
  have hLast : ∀ front c, sql.toList = front ++ [c] → c ≠ 'C' →
      ¬ " DESC".toList <:+ sql.toList := by
    rintro front c hText hc ⟨rest, hRest⟩
    rw [← hRest] at hText
    have hEnds := congrArg List.getLast? hText
    rw [List.getLast?_append_of_ne_nil _ (by decide), List.getLast?_concat] at hEnds
    exact hc (Option.some.inj hEnds).symm
  cases h with
  | word hSome hChars =>
    intro hEnds
    cases hChars ' ' (hEnds.subset (by decide))
  | quoted hValue => exact hLast ('\'' :: _) '\'' (Text.toList_quote _) (by decide)
  | parenthesized hParens =>
    obtain ⟨body, -, rfl⟩ := hParens
    exact hLast ('(' :: body.toList) ')' (by rw [toList_parens]; rfl) (by decide)

/-- A sort key is descending exactly if it ends like that. -/
theorem sortKey_descending_iff {key : String} (h : Term key) {descending : Bool} :
    descending = true ↔ " DESC".toList <:+ (sortKey key descending).toList := by
  cases descending with
  | true =>
    refine iff_of_true rfl ?_
    show " DESC".toList <:+ (key ++ " DESC").toList
    rw [String.toList_append]
    exact List.suffix_append _ _
  | false => exact iff_of_false Bool.false_ne_true h.not_descending

theorem Term.ne_empty {sql : String} (h : Term sql) : sql ≠ "" := by
  rintro rfl
  cases h.nonblank

/-- A sort key is not empty. -/
theorem sortKey_ne_empty {key : String} (h : Term key) (descending : Bool) :
    sortKey key descending ≠ "" := by
  cases descending with
  | true =>
    show key ++ " DESC" ≠ ""
    simp
  | false => exact h.ne_empty

/-- A direction brings no comma. -/
theorem FreeOf.sortKey {key : String} (h : FreeOf ',' key) (descending : Bool) :
    FreeOf ',' (sortKey key descending) := by
  cases descending with
  | true => exact h.append (freeOf_of_plain (List.all_eq_true.mp (by decide)) (by decide))
  | false => exact h

end Sql

namespace Context

variable {cx : Context}

/-- Without a fault a sort key is what its operand is written as. -/
theorem exists_key_of_faultless {t : OrderTerm} (h : (cx.orderTerm t).faults = []) :
    ∃ key, cx.scalarSql? t.operand.value = .ok key ∧
      (cx.orderTerm t).value = sortKey key t.descending := by
  have hValue : (cx.orderTerm t).value = sortKey (cx.scalar t.operand).value t.descending := rfl
  rw [orderTerm, Draft.faults_bind, Draft.faults_pure, List.append_nil, scalar] at h
  rw [hValue, scalar]
  -- a key that is refused would be a fault
  cases hKey : cx.scalarSql? t.operand.value with
  | ok key => exact ⟨key, rfl, rfl⟩
  | error cause =>
    rw [hKey] at h
    cases h

/-- Each sort key is what its operand is written as, with the direction behind it. -/
def WritesKey (cx : Context) (t : OrderTerm) (piece : String) : Prop :=
  ∃ key, cx.scalarSql? t.operand.value = .ok key ∧ piece = sortKey key t.descending ∧
    (t.descending = true ↔ " DESC".toList <:+ piece.toList)

/-- Sort keys without a fault come apart again. -/
theorem splitTop_keys (hSchema : cx.schema.Quotable) {terms : List OrderTerm} (hSome : terms ≠ [])
    (hWritable : ∀ t ∈ terms, t.operand.value.isWritable = true)
    (hFaultless : (terms.mapM cx.orderTerm).faults = []) :
    List.Forall₂ cx.WritesKey terms
      (splitTop ", " (", ".intercalate (terms.mapM cx.orderTerm).value)) := by
  rw [Draft.faults_mapM, List.flatMap_eq_nil_iff] at hFaultless
  rw [Draft.value_mapM, splitTop_intercalate (x := ',') rfl
    (List.all_eq_true.mp (by decide)) (by simpa using hSome), List.forall₂_map_right_iff,
    List.forall₂_same]
  -- first the pieces themselves, then that none of them has a comma of its own
  · intro t ht
    obtain ⟨key, hKey, hValue⟩ := exists_key_of_faultless (hFaultless t ht)
    have hTerm := scalarSql?_term hSchema (hWritable t ht) hKey
    rw [hValue]
    exact ⟨key, hKey, rfl, sortKey_descending_iff hTerm⟩
  · intro p hp
    obtain ⟨t, ht, rfl⟩ := List.mem_map.mp hp
    obtain ⟨key, hKey, hValue⟩ := exists_key_of_faultless (hFaultless t ht)
    rw [hValue]
    exact (scalarSql?_freeOf_comma hSchema (hWritable t ht) hKey).sortKey t.descending

/-- Sort keys, joined, are not empty. -/
theorem intercalate_keys_ne_empty (hSchema : cx.schema.Quotable) {terms : List OrderTerm}
    (hSome : terms ≠ []) (hWritable : ∀ t ∈ terms, t.operand.value.isWritable = true) :
    ", ".intercalate (terms.mapM cx.orderTerm).value ≠ "" := by
  rw [Draft.value_mapM]
  cases terms with
  | nil => exact absurd rfl hSome
  | cons t ts =>
    -- the first key is not empty, and joining only adds to it
    have hFirst : (cx.orderTerm t).value ≠ "" :=
      sortKey_ne_empty (scalar_term hSchema (hWritable t List.mem_cons_self)) t.descending
    cases ts with
    | nil => rwa [List.map_singleton, String.intercalate_singleton]
    | cons u us =>
      rw [List.map_cons, List.map_cons, String.intercalate_cons_cons]
      simp [hFirst]

/-! ## Order lists -/

/-- A list that is not there and a blank one both leave the identifying column. -/
theorem order_of_blank (cx : Context) {source : Option String}
    (h : ∀ s, source = some s → Text.isBlankText s = true) :
    cx.order source = ⟨[cx.root.idColumn], []⟩ := by
  cases source with
  | none => rfl
  | some s => simp [order, orderOf, Option.filter, h s rfl]

/-- A list that is not blank and has no fault is compiled from the terms that were read, and there
is one. -/
theorem order_of_nonblank {s : String} (hText : Text.isBlankText s = false)
    (hFaultless : (cx.order (some s)).faults = []) :
    ∃ terms, Parse.order s = ⟨some terms, []⟩ ∧ terms ≠ [] ∧
      cx.order (some s) = terms.mapM cx.orderTerm := by
  have hOrder : cx.order (some s) =
      ⟨(((Parse.order s).output.getD []).mapM cx.orderTerm).value,
        cx.malformed (Parse.order s).diagnostics ++
          (((Parse.order s).output.getD []).mapM cx.orderTerm).faults⟩ := by
    simp [order, orderOf, Option.filter, hText]
  rw [hOrder] at hFaultless
  -- no faults means no complaints of the parser either
  have hClean := List.map_eq_nil_iff.mp (List.append_eq_nil_iff.mp hFaultless).1
  obtain ⟨terms, hOutput, hNothing⟩ := Parse.order_of_diagnostics_nil hClean
  refine ⟨terms, ?_, fun hNil => ?_, ?_⟩
  · rw [← hOutput, ← hClean]
  · rw [hNothing hNil] at hText
    cases hText
  · rw [hOrder, hOutput, hClean]
    rfl

/-- Whether the list is there or not, something is sorted by. -/
theorem intercalate_order_ne_empty (hSchema : cx.schema.Quotable) {source : Option String}
    (hFaultless : (cx.order source).faults = []) :
    ", ".intercalate (cx.order source).value ≠ "" := by
  -- nothing asked for, so the id is the key, or keys of which none is empty
  by_cases hBlank : ∀ s, source = some s → Text.isBlankText s = true
  · rw [order_of_blank cx hBlank, String.intercalate_singleton]
    exact cx.root.term_idColumn.ne_empty
  · simp only [not_forall, Bool.not_eq_true] at hBlank
    obtain ⟨s, rfl, hText⟩ := hBlank
    obtain ⟨terms, hTerms, hSome, hCompiled⟩ := order_of_nonblank hText hFaultless
    rw [hCompiled]
    exact intercalate_keys_ne_empty hSchema hSome
      (Parse.order_output_writable (congrArg Reading.output hTerms))

end Context

/-! ## Statements -/

/-- The body of `WHERE` in the statement for a compiled condition. -/
def Request.whereBody? (r : Request) (root : Root) (filter : Condition) : Option String :=
  let clauses : Clauses := { select := r.select, source := root.table }
  ((clauses.withFilter filter).withExtraWhere r.extraWhere).whereBody?

/-- The statement of a request with sort keys. -/
theorem Request.sql_of_keys {r : Request} {root : Root} {filter : Condition} {keys : List String}
    (hKeys : keys ≠ []) :
    (r.statement root filter keys).sql =
      "SELECT " ++ r.select ++ " FROM " ++ root.table ++
        Clauses.clause " WHERE " (r.whereBody? root filter) ++
        (" ORDER BY " ++ ", ".intercalate keys) ++
        Clauses.clause " " (r.limit.bind Text.nonBlank?) := by
  cases keys with
  | nil => exact absurd rfl hKeys
  | cons k ks => rfl

/-- **Every statement is ordered, and by its sort keys.** With a schema that was built, a request
that is compiled has a statement with a body of `ORDER BY` that is not empty. Without an order list,
or with a blank one, it is the column that identifies a row. Otherwise it comes apart at the
commas outside quotes and parentheses into one sort key for each term that was read, in order, and
there is at least one term: a text trims to nothing exactly if it has no tokens. -/
theorem order_clause_faithful {declared : List Layer} {roles : Roles} {schema : Schema}
    (hBuild : Schema.build declared roles = .ok schema) {r : Request} {root : Root} {q : Query}
    (hOk : r.compile schema root = .ok q) :
    ∃ body,
      q.sql = "SELECT " ++ r.select ++ " FROM " ++ root.table ++
        Clauses.clause " WHERE "
          (r.whereBody? root (Context.filter ⟨schema, root, .filter⟩ r.expression).value) ++
        (" ORDER BY " ++ body) ++ Clauses.clause " " (r.limit.bind Text.nonBlank?) ∧
      body ≠ "" ∧
      ((∀ source, r.order = some source → Text.trim source = "") → body = root.idColumn) ∧
      (∀ source, r.order = some source → Text.trim source ≠ "" →
        ∃ terms, Parse.order source = ⟨some terms, []⟩ ∧ terms ≠ [] ∧
          List.Forall₂ (Context.WritesKey ⟨schema, root, .order⟩) terms (splitTop ", " body)) ∧
      (∀ source, Text.trim source = "" ↔ Token.lex source = .ok []) := by
  have hSchema := Schema.quotable_of_build hBuild
  have hFaultless : (r.compile schema root).isOk = true := by rw [hOk]; rfl
  obtain ⟨hFilter, hOrder⟩ := Request.compile_isOk_iff.mp hFaultless
  -- there is a sort key in any case, as the id is one when none is given
  have hKeys : (Context.order ⟨schema, root, .order⟩ r.order).value ≠ [] := by
    rw [Context.order_of_isReadable _ (Request.isReadable_of_faultless hFilter hOrder)]
    exact Context.orderOf_ne_nil _ _
  rw [Request.compile_of_faultless hFilter hOrder, Except.ok.injEq] at hOk
  rw [← hOk]
  refine ⟨_, Request.sql_of_keys hKeys, ?_, ?_, ?_, ?_⟩
  · exact Context.intercalate_order_ne_empty hSchema hOrder
  · -- nothing is asked for, so the rows are sorted by their id
    intro hBlank
    rw [Context.order_of_blank _ fun source hSource => Text.trim_eq_empty_iff.mp (hBlank _ hSource),
      String.intercalate_singleton]
  · -- every key asked for is written, in turn, and can be cut out again
    intro source hSource hText
    rw [ne_eq, Text.trim_eq_empty_iff, Bool.not_eq_true] at hText
    rw [hSource] at hOrder ⊢
    obtain ⟨terms, hTerms, hSome, hCompiled⟩ := Context.order_of_nonblank hText hOrder
    rw [hCompiled] at hOrder ⊢
    exact ⟨terms, hTerms, hSome, Context.splitTop_keys hSchema hSome
      (Parse.order_output_writable (congrArg Reading.output hTerms)) hOrder⟩
  · intro source
    rw [Text.trim_eq_empty_iff, Token.lex_eq_nil_iff]

/-- A layer whose annotations have a time, so that its SQL has a comma in it. -/
def timedLayer : Layer :=
  { id := "word", alignment := .interval, layerId := some 0 }

/-- The schema of that layer and the graph itself. -/
def timedSchema : Schema where
  layers := [Schema.rootLayer "graph", timedLayer]
  index := ⟨[("word", 1), ("graph", 0)]⟩
  categories := ⟨[("word", .annotationLayer ⟨0⟩ true), ("graph", .graphRoot)]⟩
  roles := {}

/-- Commas between sort keys, in a literal and in a subquery. -/
def listedRequest : Request :=
  { expression := "", select := "COUNT(*)", order := some "my('word').label DESC, 'a, b', ordinal" }

theorem listedRequest_ordered :
    Schema.build [timedLayer] {} = .ok timedSchema ∧
      (listedRequest.compile timedSchema .transcript).isOk = true ∧
      ∃ terms body, Parse.order "my('word').label DESC, 'a, b', ordinal" = ⟨some terms, []⟩ ∧
        terms.length = 3 ∧
        List.Forall₂ (Context.WritesKey ⟨timedSchema, .transcript, .order⟩) terms
          (splitTop ", " body) := by
  have hBuild : Schema.build [timedLayer] {} = .ok timedSchema := rfl
  obtain ⟨hOk, hLength⟩ : (listedRequest.compile timedSchema .transcript).isOk = true ∧
      (Parse.order "my('word').label DESC, 'a, b', ordinal").output.map List.length = some 3 := by
    decide +kernel
  refine ⟨hBuild, hOk, ?_⟩
  cases hCompile : listedRequest.compile timedSchema .transcript with
  | error rejection =>
    rw [hCompile] at hOk
    cases hOk
  | ok q =>
    obtain ⟨body, -, -, -, hListed, -⟩ := order_clause_faithful hBuild hCompile
    obtain ⟨terms, hTerms, -, hKeys⟩ := hListed _ rfl (by decide)
    rw [hTerms] at hLength
    exact ⟨terms, body, hTerms, Option.some.inj hLength, hKeys⟩

end AnnotationQuery
