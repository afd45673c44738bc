import AnnotationQuery.Proofs.Compile.Splice
import AnnotationQuery.Proofs.Parse.Placeless
import AnnotationQuery.Proofs.Token.Spelling

/-!
# Layout and case do not matter

A query can be written with other blanks, with more of them, and with its keywords in another
case. It then has the same tokens at other places. From there on places are carried
along but never looked at: the parser reads the same tree, and what is compiled from a tree
are its operands, whose texts hold no places. So the statement is the same; and if there
is none, the complaints are the same and come in the same order, and only their places
differ.

Main result: `layout_never_matters`.
-/

namespace AnnotationQuery

open Parse (Tokens values)

/-! ## Drafts up to places -/

/-- What is wrong and in which clause, wherever that is. -/
def Fault.gist (f : Fault) : Cause × Clause :=
  (f.cause, f.clause)

/-- The drafts say the same and complain about the same things in the same order. -/
structure Draft.Matches {α : Type} (d e : Draft α) : Prop where
  value  : d.value = e.value
  faults : d.faults.map Fault.gist = e.faults.map Fault.gist

namespace Context

variable (cx : Context)

/-- Conditions that differ in places only are compiled to the same text and the same complaints. -/
theorem condition_matches {e e' : Expr} (h : e.Alike e') :
    (cx.condition e).Matches (cx.condition e') := by
  -- both are what is compiled from the condition without places
  have hLeft := cx.condition_moved (fun _ => Span.nowhere) e
  have hRight := cx.condition_moved (fun _ => Span.nowhere) e'
  rw [show e.moved (fun _ => Span.nowhere) = e'.moved fun _ => Span.nowhere from h, hRight,
    Draft.mk.injEq] at hLeft
  have hGist : ∀ faults : List Fault,
      (faults.map (Fault.moved fun _ => Span.nowhere)).map Fault.gist = faults.map Fault.gist := by
    intro faults
    rw [List.map_map]
    rfl
  exact ⟨hLeft.1.symm, by rw [← hGist, ← hLeft.2, hGist]⟩

/-- Sort keys that differ in places only are compiled to the same text and the same complaints. -/
theorem orderTerm_matches {t u : OrderTerm} (h : t.Alike u) :
    (cx.orderTerm t).Matches (cx.orderTerm u) := by
  obtain ⟨hKey, hDirection⟩ := h
  -- what may stand as a sort key, and its SQL, are read off the operand without its places
  have hSql : cx.scalarSql? t.operand.value = cx.scalarSql? u.operand.value := by
    rw [← cx.scalarSql?_moved (fun _ => Span.nowhere) t.operand.value,
      ← cx.scalarSql?_moved (fun _ => Span.nowhere) u.operand.value]
    exact congrArg cx.scalarSql? hKey
  rw [orderTerm, orderTerm, scalar, scalar, hSql, hDirection]
  cases cx.scalarSql? u.operand.value with
  | ok sql => exact ⟨rfl, rfl⟩
  | error cause => exact ⟨rfl, rfl⟩

/-- Lists of sort keys that differ in places only are compiled alike, key by key. -/
theorem keys_match {ts us : List OrderTerm} (h : List.Forall₂ OrderTerm.Alike ts us) :
    (ts.mapM cx.orderTerm).Matches (us.mapM cx.orderTerm) := by
  -- key by key: a text and its complaints are those of all keys in turn
  induction h with
  | nil => exact ⟨rfl, rfl⟩
  | @cons t u ts us hHead hTail ih =>
    have hKey := cx.orderTerm_matches hHead
    constructor
    · have hMore := ih.value
      rw [Draft.value_mapM, Draft.value_mapM] at hMore ⊢
      rw [List.map_cons, List.map_cons, hKey.value, hMore]
    · have hMore := ih.faults
      rw [Draft.faults_mapM, Draft.faults_mapM] at hMore ⊢
      rw [List.flatMap_cons, List.flatMap_cons, List.map_append, List.map_append, hKey.faults,
        hMore]

/-- The same complaints are the same faults, places aside. -/
theorem malformed_match {ds es : List Diagnostic}
    (h : ds.map Diagnostic.complaint = es.map Diagnostic.complaint) :
    (cx.malformed ds).map Fault.gist = (cx.malformed es).map Fault.gist := by
  have hGist : ∀ ds : List Diagnostic, (cx.malformed ds).map Fault.gist =
      (ds.map Diagnostic.complaint).map fun c => (.malformed c.message, cx.clause) := by
    intro ds
    rw [malformed, List.map_map, List.map_map]
    rfl
  rw [hGist, hGist, h]

/-! ## Clauses -/

section
variable {a b : String} {ts us : Tokens}

/-- Filters with the same tokens are compiled to the same text and the same complaints. -/
theorem filter_matches (ha : Token.lex a = .ok ts) (hb : Token.lex b = .ok us)
    (h : values ts = values us) : (cx.filter a).Matches (cx.filter b) := by
  have hReading : (Parse.filter a).Alike (Option.Rel Expr.Alike) (Parse.filter b) :=
    Parse.readSource_alike Parse.condition_alike.optional ha hb h
  obtain ⟨hOutput, hComplaints⟩ := hReading
  have hMalformed := cx.malformed_match hComplaints
  unfold filter
  generalize Parse.filter a = r at hOutput hMalformed ⊢
  generalize Parse.filter b = s at hOutput hMalformed ⊢
  obtain ⟨o, ds⟩ := r
  obtain ⟨o', es⟩ := s
  -- without a condition nothing is written, and only syntax can be wrong
  have hBlank : Draft.Matches (α := Sql.Condition) ⟨⟨"", false⟩, cx.malformed ds ++ []⟩
      ⟨⟨"", false⟩, cx.malformed es ++ []⟩ :=
    ⟨rfl, by rw [List.append_nil, List.append_nil]; exact hMalformed⟩
  cases hOutput with
  | none => exact hBlank
  | some hTree =>
    cases hTree with
    | none => exact hBlank
    | @some e e' hTree =>
      have hCondition := cx.condition_matches hTree
      have hTop : e.isDisjunction = e'.isDisjunction := by
        rw [← e.isDisjunction_moved fun _ => Span.nowhere,
          ← e'.isDisjunction_moved fun _ => Span.nowhere]
        exact congrArg Expr.isDisjunction hTree
      constructor
      · exact congrArg₂ Sql.Condition.mk hCondition.value hTop
      · show (cx.malformed ds ++ ((cx.condition e).faults ++ [])).map Fault.gist =
          (cx.malformed es ++ ((cx.condition e').faults ++ [])).map Fault.gist
        rw [List.append_nil, List.append_nil, List.map_append, List.map_append, hMalformed,
          hCondition.faults]

/-- Order lists with the same tokens are compiled to the same text and the same complaints. -/
theorem order_matches (ha : Token.lex a = .ok ts) (hb : Token.lex b = .ok us)
    (h : values ts = values us) : (cx.order (some a)).Matches (cx.order (some b)) := by
  -- a text is blank if it has no tokens
  have hBlank : Text.isBlankText a = Text.isBlankText b := by
    rw [Bool.eq_iff_iff, ← Token.lex_eq_nil_iff, ← Token.lex_eq_nil_iff, ha, hb, Except.ok.injEq,
      Except.ok.injEq]
    constructor
    · rintro rfl
      exact Parse.values_eq_nil h.symm
    · rintro rfl
      exact Parse.values_eq_nil h
  have hReading : (Parse.order a).Alike (List.Forall₂ OrderTerm.Alike) (Parse.order b) :=
    Parse.readSource_alike Parse.orderTerms_alike ha hb h
  obtain ⟨hOutput, hComplaints⟩ := hReading
  have hMalformed := cx.malformed_match hComplaints
  have hKeys : ∀ {o o' : Option (List OrderTerm)}, Option.Rel (List.Forall₂ OrderTerm.Alike) o o' →
      (cx.orderOf (some (o.getD []))).Matches (cx.orderOf (some (o'.getD []))) := by
    intro o o' hTerms
    cases hTerms with
    | none => exact cx.keys_match .nil
    | some hTerms => exact cx.keys_match hTerms
  unfold order
  rw [Option.filter_some, Option.filter_some, hBlank]
  cases Text.isBlankText b with
  | true => exact ⟨rfl, rfl⟩
  | false =>
    have hDraft := hKeys hOutput
    refine ⟨hDraft.value, ?_⟩
    show (_ ++ _ : List Fault).map Fault.gist = (_ ++ _ : List Fault).map Fault.gist
    rw [List.map_append, List.map_append, hMalformed, hDraft.faults]

end

end Context

/-! ## Whole queries -/

/-- The second text is the first, or writes its tokens in some other way. -/
inductive Rewrites (source : String) : String → Prop where
  | unchanged : Rewrites source source
  | relaid {ts : Tokens} {text : String} (hLex : Token.lex source = .ok ts)
      (h : Token.Relaid (values ts) text) : Rewrites source text

namespace Context

variable (cx : Context) {a b : String}

/-- Writing the tokens of a filter in some other way changes nothing but places. -/
theorem filter_rewritten (h : Rewrites a b) : (cx.filter a).Matches (cx.filter b) := by
  cases h with
  | unchanged => exact ⟨rfl, rfl⟩
  | relaid hLex h =>
    obtain ⟨us, hUs, hValues⟩ := Token.lex_of_relaid hLex h
    exact cx.filter_matches hLex hUs hValues.symm

/-- Writing the tokens of an order list in some other way changes nothing but places. -/
theorem order_rewritten {a b : Option String} (h : Option.Rel Rewrites a b) :
    (cx.order a).Matches (cx.order b) := by
  cases h with
  | none => exact ⟨rfl, rfl⟩
  | some h =>
    cases h with
    | unchanged => exact ⟨rfl, rfl⟩
    | relaid hLex h =>
      obtain ⟨us, hUs, hValues⟩ := Token.lex_of_relaid hLex h
      exact cx.order_matches hLex hUs hValues.symm

end Context

/-- What a request comes to if its clauses are replaced by others that come to the same. -/
theorem Request.compile_of_matches {schema : Schema} {root : Root} {r : Request}
    {expression : String} {order : Option String}
    (hFilter : (Context.filter ⟨schema, root, .filter⟩ r.expression).Matches
      (Context.filter ⟨schema, root, .filter⟩ expression))
    (hOrder : (Context.order ⟨schema, root, .order⟩ r.order).Matches
      (Context.order ⟨schema, root, .order⟩ order)) :
    (∃ q, r.compile schema root = .ok q ∧
      { r with expression, order }.compile schema root = .ok q) ∨
    ∃ rejection rejection', r.compile schema root = .error rejection ∧
      { r with expression, order }.compile schema root = .error rejection' ∧
      rejection.faults.map Fault.gist = rejection'.faults.map Fault.gist := by
  let s : Request := { r with expression, order }
  have hFaults : ((Context.filter ⟨schema, root, .filter⟩ r.expression).faults ++
        (Context.order ⟨schema, root, .order⟩ r.order).faults).map Fault.gist =
      ((Context.filter ⟨schema, root, .filter⟩ s.expression).faults ++
        (Context.order ⟨schema, root, .order⟩ s.order).faults).map Fault.gist := by
    rw [List.map_append, List.map_append, hFilter.faults, hOrder.faults]
  by_cases hNone : (Context.filter ⟨schema, root, .filter⟩ r.expression).faults ++
      (Context.order ⟨schema, root, .order⟩ r.order).faults = []
  · -- nothing is wrong with either, and the statements are put together from the same parts
    rw [hNone, List.map_nil] at hFaults
    obtain ⟨hFilterOk, hOrderOk⟩ := List.append_eq_nil_iff.mp hNone
    obtain ⟨hFilterOk', hOrderOk'⟩ :=
      List.append_eq_nil_iff.mp (List.map_eq_nil_iff.mp hFaults.symm)
    refine .inl ⟨_, compile_of_faultless hFilterOk hOrderOk, ?_⟩
    have hCompile : s.compile schema root = _ := compile_of_faultless hFilterOk' hOrderOk'
    rw [hFilter.value, hOrder.value]
    exact hCompile
  · refine .inr ⟨_, _, compile_of_faults rfl hNone, compile_of_faults (r := s) rfl ?_, hFaults⟩
    -- as many complaints as before, so not none
    intro hNone'
    rw [hNone', List.map_nil] at hFaults
    exact hNone (List.map_eq_nil_iff.mp hFaults)

/-- **Layout and case do not matter.** Write the tokens of a text in some other way: with any blanks
between them and around them, and with keywords in any mixture of case. The new text has the same
tokens.

Do so with the filter of a request, or with its order list, or with both. The request compiles to
the same statement as before, or both are refused, with the same complaints about the same clauses
in the same order. -/
theorem layout_never_matters :
    (∀ (source text : String) (ts : Tokens), Token.lex source = .ok ts →
      Token.Relaid (values ts) text → ∃ us, Token.lex text = .ok us ∧ values us = values ts) ∧
    ∀ (schema : Schema) (root : Root) (r : Request) (expression : String) (order : Option String),
      Rewrites r.expression expression → Option.Rel Rewrites r.order order →
      (∃ q, r.compile schema root = .ok q ∧
        { r with expression, order }.compile schema root = .ok q) ∨
      ∃ rejection rejection', r.compile schema root = .error rejection ∧
        { r with expression, order }.compile schema root = .error rejection' ∧
        rejection.faults.map (fun f => (f.cause, f.clause)) =
          rejection'.faults.map fun f => (f.cause, f.clause) := by
  refine ⟨fun _ _ _ => Token.lex_of_relaid, ?_⟩
  intro schema root r expression order hFilter hOrder
  exact Request.compile_of_matches (Context.filter_rewritten _ hFilter)
    (Context.order_rewritten _ hOrder)

/-- A request with hardly any blanks in it. -/
def tightRequest : Request :=
  { expression := "nada='a'or not my(\"x\").id", select := "x", order := some "ordinal desc,id" }

/-- The same filter with blanks of several kinds everywhere, and with its keywords in mixed case. -/
def looseFilter : String :=
  "\u2003nada =\n'a'\toR  NoT my ( \"x\" ) . id"

/-- The same order list with blanks around everything. -/
def looseOrder : String :=
  " ordinal DeSC , id\u3000"

/-- The loose filter writes the tokens of the tight one. -/
theorem rewrites_looseFilter : Rewrites tightRequest.expression looseFilter := by
  have hLex : Token.lex tightRequest.expression = .ok [⟨.ident "nada", 0, 4⟩, ⟨.symbol .eq, 4, 5⟩,
      ⟨.single "a", 5, 8⟩, ⟨.keyword .or, 8, 10⟩, ⟨.keyword .not, 11, 14⟩, ⟨.ident "my", 15, 17⟩,
      ⟨.symbol .lparen, 17, 18⟩, ⟨.double "x", 18, 21⟩, ⟨.symbol .rparen, 21, 22⟩,
      ⟨.symbol .dot, 22, 23⟩, ⟨.ident "id", 23, 25⟩] := by
    decide
  exact .relaid hLex ⟨"\u2003", [("nada", " "), ("=", "\n"), ("'a'", "\t"), ("oR", "  "),
    ("NoT", " "), ("my", " "), ("(", " "), ("\"x\"", " "), (")", " "), (".", " "), ("id", "")],
    by decide, by decide, by decide⟩

/-- The loose order list writes the tokens of the tight one. -/
theorem rewrites_looseOrder : Rewrites "ordinal desc,id" looseOrder := by
  have hLex : Token.lex "ordinal desc,id" = .ok [⟨.ident "ordinal", 0, 7⟩, ⟨.keyword .desc, 8, 12⟩,
      ⟨.symbol .comma, 12, 13⟩, ⟨.ident "id", 13, 15⟩] := by
    decide
  exact .relaid hLex ⟨" ", [("ordinal", " "), ("DeSC", " "), (",", " "), ("id", "\u3000")],
    by decide, by decide, by decide⟩

/-- What is wrong with that request. -/
def tightFaults : List Fault :=
  [⟨.unsupportedOperand "nada" .participant, .filter, ⟨0, 4⟩⟩,
    ⟨.unknownLayer "my('x').id" "x", .filter, ⟨15, 25⟩⟩,
    ⟨.unsupportedOperand "ordinal" .participant, .order, ⟨0, 7⟩⟩]

theorem looseRequest_unchanged :
    tightRequest.compile awkwardSchema .participant =
        .error ⟨tightRequest.expression, tightRequest.order, tightFaults⟩ ∧
      ∃ rejection, Request.compile
          { expression := looseFilter, select := "x", order := some looseOrder }
          awkwardSchema .participant = .error rejection ∧
        rejection.faults.map (fun f => (f.cause, f.clause)) =
          [(.unsupportedOperand "nada" .participant, .filter),
            (.unknownLayer "my('x').id" "x", .filter),
            (.unsupportedOperand "ordinal" .participant, .order)] := by
  have hCompile : tightRequest.compile awkwardSchema .participant =
      .error ⟨tightRequest.expression, tightRequest.order, tightFaults⟩ :=
    Request.compile_of_faults (by decide +kernel) (List.cons_ne_nil _ _)
  refine ⟨hCompile, ?_⟩
  rcases layout_never_matters.2 awkwardSchema .participant tightRequest looseFilter
    (some looseOrder) rewrites_looseFilter (.some rewrites_looseOrder) with
    ⟨q, hOk, -⟩ | ⟨rejection, rejection', hError, hError', hSame⟩
  · rw [hCompile] at hOk
    cases hOk
  · rw [hCompile] at hError
    cases hError
    exact ⟨rejection', hError', hSame.symm⟩

end AnnotationQuery
