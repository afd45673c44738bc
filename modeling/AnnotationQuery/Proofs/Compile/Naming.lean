import AnnotationQuery.Proofs.Compile.Splice
import AnnotationQuery.Proofs.Schema.Build
import AnnotationQuery.Proofs.Text.Escape

/-!
# Naming a layer by its quoted id

A layer is named in a query by its id between single quotes, which is also how complaints
write it. The id is escaped on the way in, and a string in single quotes keeps its
backslashes when it is read. So what is looked up is the escaped id. For a value this
makes no difference, because a value is escaped once more when it is written; but an id
is compared as it is.

An id names its layer exactly if escaping leaves it alone, that is, if every quote in it
stands behind an odd run of backslashes. Any other id names a layer that has the
escaped id, or none.

Main results:

* `Context.layerSql?_of_mem` — a function of a layer of the schema.
* `quoted_id_resolves` — which layer a quoted id names.
-/

namespace AnnotationQuery

open Grammar
open Parse (Tokens values)

/-! ## Functions of a layer -/

/-- A function of a layer as SQL, or what is wrong with asking for it. -/
def Layer.functionSql? (l : Layer) (graph : String) (root : Root) (function : LayerFunction) :
    Except Cause String :=
  match l.category? graph with
  | none => .error (.unmappedLayer (function.apply l.id) l.id)
  | some category =>
    match category.fragment? root function with
    | none => .error (.unsupportedFunction (function.apply l.id) l.id category.name root)
    | some sql => .ok sql

namespace Context

variable (cx : Context)

/-- Asked by its own id, it is the layer that answers. -/
theorem layerSql?_of_mem (hSchema : cx.schema.Coherent) {l : Layer} (hl : l ∈ cx.schema.layers)
    (function : LayerFunction) :
    cx.layerSql? function l.id = l.functionSql? cx.schema.roles.root cx.root function := by
  -- the schema finds this layer under its id, and no other
  have hLayer := hSchema.layer?_of_mem hl
  have hCategory := hSchema.category?_of_mem hl
  cases hPlace : l.category? cx.schema.roles.root with
  | none =>
    rw [hPlace] at hCategory
    simp only [layerSql?, Layer.functionSql?, hLayer, hCategory, hPlace]
  | some category =>
    rw [hPlace] at hCategory
    cases hFragment : category.fragment? cx.root function with
    | none => simp only [layerSql?, Layer.functionSql?, hLayer, hCategory, hPlace, hFragment]
    | some sql => simp only [layerSql?, Layer.functionSql?, hLayer, hCategory, hPlace, hFragment]

/-- An id that no layer has is unknown. -/
theorem layerSql?_of_unknown (hSchema : cx.schema.Coherent) {id : String}
    (h : ∀ l ∈ cx.schema.layers, l.id ≠ id) (function : LayerFunction) :
    cx.layerSql? function id = .error (.unknownLayer (function.apply id) id) := by
  have hNone : cx.schema.layer? id = none := by
    rw [hSchema.layer?_eq_none_iff, List.mem_map]
    rintro ⟨l, hl, hId⟩
    exact h l hl hId
  unfold layerSql?
  simp only [hNone]

end Context

/-! ## The label of a layer in a filter -/

/-- The filter that the label of a layer is `x`. -/
def labelFilter (id : String) : String :=
  "my(" ++ Text.quote id ++ ").label = 'x'"

/-- The derivation of that filter. -/
def labelPhrase (id : String) : Phrase (.chain .or) :=
  .last (.last (.predicate (.my (.single (Text.escape id)) .label)
    (some (.eq, .one (.string (.single "x"))))))

/-- The quoted id is one token, although no blanks stand around it. -/
theorem lex_labelFilter {id : String} (h : Text.isQuotable id = true) :
    ∃ ts, Token.lex (labelFilter id) = .ok ts ∧ values ts = (labelPhrase id).tokens := by
  have hFront : Token.lex "my(" = .ok [⟨.ident "my", 0, 2⟩, ⟨.symbol .lparen, 2, 3⟩] := by
    decide
  have hBack : Token.lex ").label = 'x'" = .ok [⟨.symbol .rparen, 0, 1⟩, ⟨.symbol .dot, 1, 2⟩,
      ⟨.ident "label", 2, 7⟩, ⟨.symbol .eq, 8, 9⟩, ⟨.single "x", 10, 13⟩] := by
    decide
  -- the quoted id is a token of its own: nothing joins it on either side
  have hBreakBack : Token.Breaks ").label = 'x'".toList := by
    rintro c ⟨⟩
    decide
  have hBreakQuote : Token.Breaks ((Text.quote id).toList ++ ").label = 'x'".toList) := by
    rw [Text.toList_quote]
    rintro c ⟨⟩
    decide
  have hQuote := Token.hasTokens_of_whole (Token.lexeme?_quote id h)
  have hAll := (Token.hasTokens_of_lex hFront).append
    (hQuote.append (Token.hasTokens_of_lex hBack) hBreakBack) hBreakQuote
  rw [← String.toList_append, ← String.toList_append, ← String.append_assoc] at hAll
  exact hAll 0

/-- What the label of a layer, by its quoted id, compiles to: it is the escaped id that is asked. -/
theorem Context.condition_labelPhrase (cx : Context) (id : String) :
    cx.condition (labelPhrase id).tree =
      match cx.layerSql? .label (Text.escape id) with
      | .ok sql => ⟨sql ++ " = 'x'", []⟩
      | .error cause => ⟨noValue ++ " = 'x'", [⟨cause, cx.clause, Span.nowhere⟩]⟩ := by
  show cx.condition (.compare _ ⟨.layer .label ⟨Text.escape id, _⟩, _⟩ ⟨.eq, _⟩
    ⟨.one (.literal (.string "x")), _⟩) = _
  rw [condition_compare, scalar]
  -- the right side is a text, so all that can go wrong is the layer
  show (cx.settle Span.nowhere noValue (cx.layerSql? .label (Text.escape id)) >>= _) = _
  cases cx.layerSql? .label (Text.escape id) with
  | ok sql => exact congrArg (Draft.mk · []) (String.append_assoc ..)
  | error cause => rfl

/-- How a request comes out that compares one thing with `x`: as its statement, if there is SQL for
that thing, and otherwise as the one complaint about it. -/
def Request.ComesTo (r : Request) (schema : Schema) (root : Root) : Except Cause String → Prop
  | .ok sql => r.compile schema root = .ok ⟨"SELECT " ++ r.select ++ " FROM " ++ root.table ++
      " WHERE " ++ (sql ++ " = 'x'") ++ " ORDER BY " ++ root.idColumn, []⟩
  | .error cause => ∃ span, r.compile schema root =
      .error ⟨r.expression, r.order, [⟨cause, .filter, span⟩]⟩

/-- By its quoted id, a layer is looked up under the escaped id. -/
theorem Request.comesTo_labelFilter (schema : Schema) (root : Root) (select : String) {id : String}
    (h : Text.isQuotable id = true) :
    Request.ComesTo { expression := labelFilter id, select } schema root
      (Context.layerSql? ⟨schema, root, .filter⟩ .label (Text.escape id)) := by
  let r : Request := { expression := labelFilter id, select }
  let cx : Context := ⟨schema, root, .filter⟩
  obtain ⟨ts, hLex, hTokens⟩ := lex_labelFilter h
  obtain ⟨hValue, hFaults⟩ := cx.filter_of_derivation hLex (labelPhrase id) hTokens.symm
  have hOrder : (Context.order ⟨schema, root, .order⟩ none) = ⟨[root.idColumn], []⟩ := rfl
  rw [cx.condition_labelPhrase] at hValue hFaults
  cases hSql : cx.layerSql? .label (Text.escape id) with
  | ok sql =>
    simp only [hSql] at hValue hFaults
    have hNonblank : Text.isBlankText (sql ++ " = 'x'") = false := by
      rw [Text.isBlankText, String.toList_append, List.all_append]
      exact Bool.and_false _
    have hNone : (cx.filter r.expression).faults = [] := List.map_eq_nil_iff.mp hFaults
    have hCompile : r.compile schema root = .ok (r.statement root (cx.filter r.expression).value
        (Context.order ⟨schema, root, .order⟩ none).value) :=
      compile_of_faultless hNone (congrArg Draft.faults hOrder)
    have hStatement : r.statement root ⟨sql ++ " = 'x'", (labelPhrase id).tree.isDisjunction⟩
        [root.idColumn] = _ := statement_of_filter hNonblank
    rw [hOrder, show (cx.filter r.expression).value = _ from hValue, hStatement] at hCompile
    exact hCompile
  | error cause =>
    simp only [hSql] at hFaults
    -- one complaint is known up to its place, so there is one at some place
    obtain ⟨fault, hFault, hMoved⟩ := List.map_eq_singleton_iff.mp hFaults
    obtain ⟨cause', clause, span⟩ := fault
    cases hMoved
    refine ⟨span, compile_of_faults (r := r) ?_ (List.cons_ne_nil _ _)⟩
    rw [hOrder, List.append_nil]
    exact hFault

/-- **Which layer a quoted id names.** Take a layer of a schema that was built, whose id can be
quoted, and ask for its label by its quoted id.

If every quote in the id has its own backslash, it is that layer that answers: with SQL, or with the
complaint that it is stored nowhere or cannot be asked for a label, but never that there is no such
layer. If there is a quote without one, that layer never answers: it is the layer that has the
escaped id, which is another one, and if there is none, the complaint is that the layer is
unknown. -/
theorem quoted_id_resolves {declared : List Layer} {roles : Roles} {schema : Schema}
    (hBuild : Schema.build declared roles = .ok schema) {l : Layer} (hl : l ∈ schema.layers)
    (hQuotable : Text.isQuotable l.id = true) (root : Root) (select : String) :
    let r : Request := { expression := "my(" ++ Text.quote l.id ++ ").label = 'x'", select }
    ((∀ before after, l.id = before ++ "'" ++ after → Text.isQuotable before = false) →
      r.ComesTo schema root (l.functionSql? roles.root root .label)) ∧
    ∀ before after, l.id = before ++ "'" ++ after → Text.isQuotable before = true →
      (∀ k ∈ schema.layers, k.id = Text.escape l.id →
        k ≠ l ∧ r.ComesTo schema root (k.functionSql? roles.root root .label)) ∧
      ((∀ k ∈ schema.layers, k.id ≠ Text.escape l.id) →
        r.ComesTo schema root (.error (.unknownLayer ("my(" ++ Text.quote l.id ++ ").label")
          (Text.escape l.id)))) := by
  intro r
  have hSchema := Schema.coherent_of_build hBuild
  have hRoles := Schema.roles_of_build hBuild
  have hLookup : r.ComesTo schema root _ := Request.comesTo_labelFilter schema root select hQuotable
  -- whoever has the escaped id is asked
  have hAsked : ∀ k ∈ schema.layers, k.id = Text.escape l.id →
      r.ComesTo schema root (k.functionSql? roles.root root .label) := by
    intro k hk hId
    rwa [← hId, Context.layerSql?_of_mem ⟨schema, root, .filter⟩ hSchema hk, hRoles] at hLookup
  refine ⟨fun hOwn => hAsked l hl (Text.escape_eq_self_iff.mpr hOwn).symm,
    fun before after hSplit hBare => ⟨fun k hk hId => ⟨?_, hAsked k hk hId⟩, fun hUnknown => ?_⟩⟩
  · -- if it were the same layer, escaping would have left the id alone
    rintro rfl
    have hOwn := Text.escape_eq_self_iff.mp hId.symm before after hSplit
    rw [hBare] at hOwn
    cases hOwn
  · rw [Context.layerSql?_of_unknown ⟨schema, root, .filter⟩ hSchema hUnknown] at hLookup
    have hWritten : LayerFunction.label.apply (Text.escape l.id) =
        "my(" ++ Text.quote l.id ++ ").label" := by
      have hOpen : "my(" = "my" ++ "(" := rfl
      have hClose : ").label" = ")" ++ ".label" := rfl
      rw [LayerFunction.apply, Text.quote_escape, hOpen, hClose]
      simp only [String.append_assoc]
    rwa [hWritten] at hLookup

/-- Two layers with a quote in their ids, of which the second has a backslash before it. -/
def quotedLayers : List Layer :=
  [{ id := "it's", layerId := some 5 }, { id := "a\\'b", layerId := some 6 }]

/-- The schema of these layers and the graph itself. -/
def quotedSchema : Schema where
  layers := Schema.rootLayer "graph" :: quotedLayers
  index := ⟨[("a\\'b", 2), ("it's", 1), ("graph", 0)]⟩
  categories := ⟨[("a\\'b", .annotationLayer ⟨6⟩ false), ("it's", .annotationLayer ⟨5⟩ false),
    ("graph", .graphRoot)]⟩
  roles := {}

theorem build_quotedLayers : Schema.build quotedLayers {} = .ok quotedSchema := rfl

theorem quotedLayers_resolved :
    Request.ComesTo { expression := "my('a\\'b').label = 'x'", select := "x" } quotedSchema
      .transcript (.ok ("(SELECT label FROM annotation_layer_6 annotation" ++
        " WHERE annotation.ag_id = transcript.ag_id ORDER BY annotation.annotation_id LIMIT 1)")) ∧
    Request.ComesTo { expression := "my('it\\'s').label = 'x'", select := "x" } quotedSchema
      .transcript (.error (.unknownLayer "my('it\\'s').label" "it\\'s")) := by
  constructor
  · have hOwn : Text.escape "a\\'b" = "a\\'b" := by decide
    exact (quoted_id_resolves build_quotedLayers (l := { id := "a\\'b", layerId := some 6 })
      (by decide) (by decide) .transcript "x").1 (Text.escape_eq_self_iff.mp hOwn)
  · exact ((quoted_id_resolves build_quotedLayers (l := { id := "it's", layerId := some 5 })
      (by decide) (by decide) .transcript "x").2 "it" "s" rfl (by decide)).2 (by decide)

/-- A quoted id that names no layer: the first of the two is in the schema, and its id can be
quoted. -/
theorem layer_lost_by_quoting :
    ∃ l ∈ quotedSchema.layers, Text.isQuotable l.id = true ∧
      ∃ rejection, Request.compile
          { expression := "my(" ++ Text.quote l.id ++ ").label = 'x'", select := "x" }
          quotedSchema .transcript = .error rejection ∧
        rejection.faults.map Fault.cause = [.unknownLayer "my('it\\'s').label" "it\\'s"] := by
  refine ⟨{ id := "it's", layerId := some 5 }, by decide, by decide,
    ⟨"my('it\\'s').label = 'x'", none,
      [⟨.unknownLayer "my('it\\'s').label" "it\\'s", .filter, ⟨0, 17⟩⟩]⟩, ?_, rfl⟩
  exact Request.compile_of_faults (by decide +kernel) (List.cons_ne_nil _ _)

end AnnotationQuery
