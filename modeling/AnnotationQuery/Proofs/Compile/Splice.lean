import AnnotationQuery.Proofs.Compile.Composition
import AnnotationQuery.Proofs.Token.Laid

/-!
# Values spliced into a query

A value gets into the text of a query between quotes. It is escaped on the way in; the
lexer then takes backslashes in pairs to find the closing quote; and what it has read
is escaped a second time when it is written as SQL. These agree. Escaped text is a
body, so the closing quote is the one that was meant, and escaping it again changes
nothing. They fail together as well: after an odd run of backslashes the closing quote
is taken along by the last of them, and no token is left.

Main results:

* `Token.quotedBody?_escapeAfter` — where the lexer finds the closing quote.
* `Context.filter_of_derivation` — what a filter compiles to, by its derivation.
* `quoted_value_survives` — from the value to the statement.
-/

namespace AnnotationQuery

open Grammar
open Parse (Tokens values)

/-! ## The closing quote -/

namespace Token

open Text (escapeAfter endsEscaped)

/-- The lexer takes backslashes in pairs. It reads escaped text to its end and finds the closing
quote there, unless a backslash is left without a partner and takes that quote along. -/
theorem quotedBody?_escapeAfter (cs : List Char) :
    quotedBody? '\'' (escapeAfter false cs ++ ['\'']) =
      if endsEscaped false cs then none else some (escapeAfter false cs) := by
  -- the cases are those of the lexer: a backslash and the next character go together
  induction cs using isBody.induct with
  | case1 => rfl
  | case2 => rfl
  | case3 c cs ih =>
    have hPair : endsEscaped false ('\\' :: c :: cs) = endsEscaped false cs := by
      rw [Text.endsEscaped_cons, Text.endsEscaped_cons, Text.isEscapedAfter_backslash]
      simp [Text.isEscapedAfter]
    rw [Text.escapeAfter_false_backslash, Text.escapeAfter_true_cons, hPair, List.cons_append,
      List.cons_append, quotedBody?, ih]
    split <;> rfl
  | case4 c cs hNot hNotPair ih =>
    have hSlash : c ≠ '\\' := ne_backslash_of_unpaired hNot hNotPair
    rw [Text.endsEscaped_cons, Text.isEscapedAfter_of_ne false hSlash]
    by_cases hQuote : c = '\''
    · subst hQuote
      rw [Text.escapeAfter_false_quote, List.cons_append, List.cons_append, quotedBody?, ih]
      split <;> rfl
    · rw [Text.escapeAfter_false_cons hSlash hQuote, List.cons_append,
        quotedBody?_cons_of_ne hSlash, if_neg hQuote, ih]
      split <;> rfl

/-- A quoted text is one string token. -/
theorem lexeme?_quote (s : String) (h : Text.isQuotable s = true) :
    lexeme? (Text.quote s).toList = some ⟨.single (Text.escape s), (Text.quote s).toList⟩ := by
  rw [Text.isQuotable_iff_endsEscaped] at h
  have hStart : Text.isIdentifierStart '\'' = false := by decide
  rw [Text.toList_quote]
  simp only [lexeme?, hStart, Bool.false_eq_true, if_false, if_true, quotedBody?_escapeAfter, h]
  rfl

/-- A quoted text is one token, wherever it starts. -/
theorem lexFrom_quote {s : String} (h : Text.isQuotable s = true) (offset : Nat) :
    lexFrom offset 0 (Text.quote s).toList = .ok [⟨.single (Text.escape s), offset,
      offset + Text.byteLength (Text.quote s).toList⟩] :=
  lexFrom_of_whole (lexeme?_quote s h) offset

/-- Without a closing quote there is no token. -/
theorem lex_quote_error {s : String} (h : Text.isQuotable s = false) :
    ∃ d, lex (Text.quote s) = .error d := by
  have hEscaped : Text.endsEscaped false s.toList = true := by
    rw [← Bool.not_eq_false, ← Text.isQuotable_iff_endsEscaped, h]
    exact Bool.false_ne_true
  have hStart : Text.isIdentifierStart '\'' = false ∧ Text.isBlank '\'' = false := by
    decide
  -- the quote behind the text counts as escaped, so the string has no end
  have hNone : lexeme? (Text.quote s).toList = none := by
    rw [Text.toList_quote]
    simp only [lexeme?, hStart.1, Bool.false_eq_true, if_false, if_true, quotedBody?_escapeAfter,
      hEscaped, Option.map_none]
  refine ⟨stuckAt 0 (Text.quote s).toList, ?_⟩
  rw [Text.toList_quote] at hNone ⊢
  rw [lex, Text.toList_quote, lexFrom]
  simp only [hStart.2, Bool.false_eq_true, if_false, hNone]

end Token

/-! ## From the value to the statement -/

/-- The filter that the id is a given text, as it stands in the query. -/
def idFilter (s : String) : String :=
  "id = " ++ Text.quote s

/-- The derivation of that filter. -/
def idPhrase (s : String) : Phrase (.chain .or) :=
  .last (.last (.predicate (.bare "id") (some (.eq, .one (.string (.single (Text.escape s)))))))

/-- The filter has the tokens of its derivation. -/
theorem lex_idFilter {s : String} (h : Text.isQuotable s = true) :
    ∃ ts, Token.lex (idFilter s) = .ok ts ∧ (idPhrase s).tokens = values ts := by
  have hFront : Token.lex "id =" = .ok [⟨.ident "id", 0, 2⟩, ⟨.symbol .eq, 3, 4⟩] := by
    decide
  have hGap : Token.isGap " " = true := by decide
  have hText : idFilter s = "id =" ++ " " ++ Text.quote s := rfl
  have hLex := Token.lex_gap hFront hGap (Text.quote s)
  rw [Token.lexFrom_quote h] at hLex
  exact ⟨_, hLex, rfl⟩

theorem Expr.isDisjunction_moved (f : Span → Span) (e : Expr) :
    (e.moved f).isDisjunction = e.isDisjunction := by
  cases e <;> rfl

/-- A filter that the grammar derives compiles to what its meaning compiles to, with the same
complaints, at other places. -/
theorem Context.filter_of_derivation (cx : Context) {source : String} {ts : Tokens}
    (hLex : Token.lex source = .ok ts) (p : Phrase (.chain .or)) (hTokens : p.tokens = values ts) :
    (cx.filter source).value = ⟨(cx.condition p.tree).value, p.tree.isDisjunction⟩ ∧
      (cx.filter source).faults.map (Fault.moved fun _ => Span.nowhere) =
        (cx.condition p.tree).faults := by
  obtain ⟨tree, hRead, hWhole, hTree⟩ := Parse.outcome_of_derivation (.condition p) hTokens
  obtain ⟨hOutput, hCount⟩ := Parse.filter_of_outcome hLex hRead
  -- all tokens are read and no part of the tree is malformed
  have hClean : (Parse.filter source).diagnostics = [] := by
    rw [← List.length_eq_zero_iff, hCount, hWhole]
    rfl
  obtain ⟨e, rfl, hPlace⟩ := Option.map_eq_some_iff.mp hTree
  -- the tree differs from the derivation in its places only
  have hCondition := cx.condition_moved (fun _ => Span.nowhere) e
  have hTop := e.isDisjunction_moved fun _ => Span.nowhere
  rw [show e.moved (fun _ => Span.nowhere) = p.tree from hPlace] at hCondition hTop
  rw [cx.filter_of_tree hClean hOutput, hCondition, hTop]
  refine ⟨rfl, ?_⟩
  show ((cx.condition e).faults ++ []).map _ = _
  rw [List.append_nil]

/-- What a value in quotes compiles to. -/
theorem Context.filter_idFilter (cx : Context) {s : String} (h : Text.isQuotable s = true) :
    cx.filter (idFilter s) = ⟨⟨cx.root.idColumn ++ " = " ++ Text.quote s, false⟩, []⟩ := by
  obtain ⟨ts, hLex, hTokens⟩ := lex_idFilter h
  obtain ⟨hValue, hFaults⟩ := cx.filter_of_derivation hLex (idPhrase s) hTokens
  -- the value was escaped before it was read, and is escaped again now
  have hCondition : cx.condition (idPhrase s).tree =
      ⟨cx.root.idColumn ++ " = " ++ Text.quote s, []⟩ := by
    rw [← Text.quote_escape s]
    show cx.condition (.compare _ ⟨.id, _⟩ ⟨.eq, _⟩ ⟨.one (.literal (.string _)), _⟩) = _
    rw [condition_compare]
    rfl
  rw [hCondition] at hValue hFaults
  cases hDraft : cx.filter (idFilter s) with
  | mk value faults =>
    rw [hDraft] at hValue hFaults
    cases List.map_eq_nil_iff.mp hFaults
    exact congrArg (Draft.mk · []) hValue

/-- The statement of a request with nothing but a filter. -/
theorem Request.statement_of_filter {expression select key : String} {root : Root}
    {filter : Sql.Condition} (hFilter : Text.isBlankText filter.sql = false) :
    Request.statement { expression, select } root filter [key] =
      ⟨"SELECT " ++ select ++ " FROM " ++ root.table ++ " WHERE " ++ filter.sql ++
        " ORDER BY " ++ key, []⟩ := by
  simp only [statement, Sql.Clauses.withFilter, hFilter, Bool.false_eq_true, if_false]
  simp [Sql.Clauses.query, Sql.Clauses.whereBody?, Sql.Clauses.orderBody?, Sql.Clauses.clause,
    Sql.Clauses.withExtraWhere, Sql.Clauses.withOrder, Sql.Clauses.withLimit, String.append_assoc]

/-- **Quoting a value carries it through.** Whatever text a value is, its quoted form is one token
that holds the escaped text, and as a filter on the id it compiles to the comparison with that same
quoted form. This is so for every text that can be quoted; the quoted form of any other text
is not a token. -/
theorem quoted_value_survives (s : String) :
    (Text.isQuotable s = true →
      Token.lex (Text.quote s) = .ok [⟨.single (Text.escape s), 0,
        Text.byteLength (Text.quote s).toList⟩] ∧
      ∀ (schema : Schema) (root : Root) (select : String),
        Request.compile { expression := "id = " ++ Text.quote s, select } schema root =
          .ok ⟨"SELECT " ++ select ++ " FROM " ++ root.table ++ " WHERE " ++
            (root.idColumn ++ " = " ++ Text.quote s) ++ " ORDER BY " ++ root.idColumn, []⟩) ∧
    (Text.isQuotable s = false → ∃ d, Token.lex (Text.quote s) = .error d) := by
  refine ⟨fun h => ⟨?_, fun schema root select => ?_⟩, Token.lex_quote_error⟩
  · have hRead := Token.lexFrom_quote h 0
    rwa [Nat.zero_add] at hRead
  · let r : Request := { expression := idFilter s, select }
    have hFilter : Context.filter ⟨schema, root, .filter⟩ r.expression =
        ⟨⟨root.idColumn ++ " = " ++ Text.quote s, false⟩, []⟩ := Context.filter_idFilter _ h
    have hColumn : Text.isBlankText root.idColumn = false := by
      cases root <;> decide
    -- the filter is not blank, so it makes a clause
    have hText : Text.isBlankText (root.idColumn ++ " = " ++ Text.quote s) = false :=
      Text.isBlankText_append_of_left (Text.isBlankText_append_of_left hColumn _) _
    show r.compile schema root = _
    rw [Request.compile_of_faultless (by rw [hFilter]) rfl, hFilter]
    exact congrArg Except.ok (Request.statement_of_filter hText)

/-- A value with quotes and backslashes of all kinds in it, and one that cannot be quoted. -/
theorem awkward_value_survives :
    Text.isQuotable "it's \\\\' \\'é" = true ∧
    Request.compile { expression := "id = " ++ Text.quote "it's \\\\' \\'é", select := "x" }
        awkwardSchema .participant =
      .ok ⟨"SELECT " ++ "x" ++ " FROM " ++ Root.participant.table ++ " WHERE " ++
        (Root.participant.idColumn ++ " = " ++ Text.quote "it's \\\\' \\'é") ++ " ORDER BY " ++
          Root.participant.idColumn, []⟩ ∧
    Text.isQuotable "'\\\\\\" = false ∧ ∃ d, Token.lex (Text.quote "'\\\\\\") = .error d := by
  have hQuotable : Text.isQuotable "it's \\\\' \\'é" = true := by decide
  have hUnquotable : Text.isQuotable "'\\\\\\" = false := by decide
  exact ⟨hQuotable, ((quoted_value_survives _).1 hQuotable).2 _ _ _, hUnquotable,
    (quoted_value_survives _).2 hUnquotable⟩

end AnnotationQuery
