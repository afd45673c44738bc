import AnnotationQuery.Proofs.Compile.Recovery

/-!
# Filters put together from filters

Two filters in parentheses with `AND` between them are again a filter, and everything
about it is known from the two: its tree, its SQL and its faults. Three facts make that
so. A parenthesis is a token whatever stands next to it, so the tokens of each part stay
as they are. What is read inside a group is what is read alone. And moving a
condition changes neither its SQL nor what is refused, only where.

Main results:

* `Token.lex_conjoined` — the tokens.
* `Parse.filter_conjoined` — the tree.
* `Context.condition_moved` — a condition at another place.
* `conjoined_filters_compile` — the statement and the faults.
-/

namespace AnnotationQuery

open Grammar
open Parse (Tokens values movedTokens)

/-- Both filters, each in parentheses. -/
def conjoined (a b : String) : String :=
  "(" ++ a ++ ") AND (" ++ b ++ ")"

/-- The place of the second filter in the whole. -/
def conjoinedOffset (a : String) : Nat :=
  Text.byteLength ("(" ++ a ++ ") AND (").toList

/-- The joined text ends with the second filter and a parenthesis. -/
theorem byteLength_conjoined (a b : String) :
    Text.byteLength (conjoined a b).toList = conjoinedOffset a + Text.byteLength b.toList + 1 := by
  rw [conjoined, String.toList_append, Text.byteLength_append, String.toList_append,
    Text.byteLength_append]
  rfl

/-! ## Tokens -/

namespace Token

/-- A parenthesis is a token whatever follows it. -/
theorem lexFrom_parenthesis {c : Char} {mark : Symbol}
    (h : (c = '(' ∧ mark = .lparen) ∨ (c = ')' ∧ mark = .rparen)) (offset : Nat) (cs : List Char) :
    lexFrom offset 0 (c :: cs) =
      (lexFrom (offset + 1) 0 cs).map (⟨.symbol mark, offset, offset + 1⟩ :: ·) := by
  have hPlain : Text.isBlank c = false ∧ Text.isIdentifierStart c = false ∧ c.utf8Size = 1 := by
    rcases h with ⟨rfl, -⟩ | ⟨rfl, -⟩
    · decide
    · decide
  obtain ⟨hBlank, hStart, hSize⟩ := hPlain
  have hLexeme : lexeme? (c :: cs) = some ⟨.symbol mark, [c]⟩ := by
    rcases h with ⟨rfl, rfl⟩ | ⟨rfl, rfl⟩
    · simp [lexeme?, hStart, number?, unsigned?, symbol?, Symbol.text]
    · simp [lexeme?, hStart, number?, unsigned?, symbol?, Symbol.text]
  rw [lexFrom]
  simp only [hBlank, Bool.false_eq_true, if_false, hLexeme, hSize, Text.byteLength,
    List.length_singleton]

/-- What stands between the two filters. -/
theorem lexFrom_between (offset : Nat) (cs : List Char) :
    lexFrom offset 0 (") AND (".toList ++ cs) =
      (lexFrom (offset + 7) 0 cs).map ([⟨.symbol .rparen, offset, offset + 1⟩,
        ⟨.keyword .and, offset + 2, offset + 5⟩,
        ⟨.symbol .lparen, offset + 6, offset + 7⟩] ++ ·) := by
  -- the keyword has the same tokens anywhere, so it is read at zero and moved
  have hAnd : lexFrom (0 + (offset + 2)) 0 "AND".toList =
      .ok (movedTokens (Span.shift (offset + 2)) [⟨.keyword .and, 0, 3⟩]) :=
    lexFrom_shift (by decide) (offset + 2)
  have hBreak : Breaks (" ".toList ++ '(' :: cs) := by
    intro c hc
    cases hc
    decide
  have hBlank : " ".toList.all Text.isBlank = true := by decide
  show lexFrom offset 0 (')' :: (" ".toList ++ ("AND".toList ++ (" ".toList ++ '(' :: cs)))) = _
  rw [lexFrom_parenthesis (Or.inr ⟨rfl, rfl⟩), lexFrom_blanks hBlank]
  -- what is left is to add up the sizes
  have hOffset : offset + 1 + Text.byteLength " ".toList = 0 + (offset + 2) := by
    show offset + 1 + 1 = _
    omega
  rw [hOffset, lexFrom_append hAnd (Nat.zero_le _) hBreak, lexFrom_blanks hBlank,
    lexFrom_parenthesis (Or.inl ⟨rfl, rfl⟩)]
  have hLast : 0 + (offset + 2) + Text.byteLength "AND".toList + Text.byteLength " ".toList =
      offset + 6 := by
    show 0 + (offset + 2) + 3 + 1 = _
    omega
  rw [hLast]
  cases lexFrom (offset + 6 + 1) 0 cs with
  | error d => rfl
  | ok ts =>
    simp [Except.map, movedTokens, Spanned.moved, Span.shift]
    omega

theorem breaks_parenthesis (cs : List Char) : Breaks (')' :: cs) := by
  intro c hc
  cases hc
  decide

/-- Each filter keeps its tokens, at the place where it now stands. -/
theorem lex_conjoined {a b : String} {ts us : Tokens} (ha : lex a = .ok ts) (hb : lex b = .ok us) :
    ∃ s₁ s₂ s₃ s₄ s₅ : Span, lex (conjoined a b) =
        .ok (⟨.symbol .lparen, s₁⟩ :: (movedTokens (Span.shift 1) ts ++ ⟨.symbol .rparen, s₂⟩ ::
          ⟨.keyword .and, s₃⟩ :: ⟨.symbol .lparen, s₄⟩ ::
            (movedTokens (Span.shift (conjoinedOffset a)) us ++ [⟨.symbol .rparen, s₅⟩]))) ∧
      s₁.hull s₂ = ⟨0, Text.byteLength a.toList + 2⟩ ∧
      s₄.hull s₅ = ⟨conjoinedOffset a - 1, conjoinedOffset a + Text.byteLength b.toList + 1⟩ := by
  have hOffset : conjoinedOffset a = 1 + Text.byteLength a.toList + 7 := by
    rw [conjoinedOffset, String.toList_append, String.toList_append, Text.byteLength_append,
      Text.byteLength_append]
    rfl
  have hText : (conjoined a b).toList =
      '(' :: (a.toList ++ (") AND (".toList ++ (b.toList ++ [')']))) := by
    simp [conjoined]
  have hFirst := lexFrom_shift ha 1
  have hSecond := lexFrom_shift hb (conjoinedOffset a)
  rw [Nat.zero_add] at hFirst hSecond
  have hClose : lexFrom (conjoinedOffset a + Text.byteLength b.toList) 0 [')'] =
      .ok [⟨.symbol .rparen, conjoinedOffset a + Text.byteLength b.toList,
        conjoinedOffset a + Text.byteLength b.toList + 1⟩] := by
    rw [lexFrom_parenthesis (Or.inr ⟨rfl, rfl⟩)]
    rfl
  have hBetween : Breaks (") AND (".toList ++ (b.toList ++ [')'])) := breaks_parenthesis _
  -- no token reaches over a parenthesis, so the text is read part by part
  rw [lex, hText, lexFrom_parenthesis (Or.inl ⟨rfl, rfl⟩), Nat.zero_add,
    lexFrom_append hFirst (Nat.zero_le _) hBetween, lexFrom_between, ← hOffset,
    lexFrom_append hSecond (Nat.zero_le _) (breaks_parenthesis _), hClose]
  refine ⟨_, _, _, _, _, rfl, ?_, ?_⟩
  · simp only [Span.hull, Span.mk.injEq, true_and]
    omega
  · simp only [Span.hull, Span.mk.injEq, and_true]
    omega

end Token

/-! ## Trees -/

namespace Expr

/-- Moving a condition leaves it its malformed parts. -/
theorem malformedParts_moved (f : Span → Span) (e : Expr) :
    (e.moved f).malformedParts = e.malformedParts := by
  induction e with
  | not s inner ih => exact ih
  | group s inner ih => exact ih
  | and s lhs rhs ihl ihr => rw [moved, malformedParts, malformedParts, ihl, ihr]
  | or s lhs rhs ihl ihr => rw [moved, malformedParts, malformedParts, ihl, ihr]
  | _ => rfl

end Expr

namespace Parse

open AnnotationQuery.Parse.Parser

/-- A condition that takes all tokens and has no malformed part is the filter. -/
theorem filter_of_whole {source : String} {ts : Tokens} {e : Expr}
    (hLex : Token.lex source = .ok ts) (hRead : condition.outcome ts = some (e, []))
    (hWhole : e.malformedParts = 0) :
    (filter source).output = some (some e) ∧ (filter source).diagnostics = [] := by
  have hTop : (Parser.optional condition).outcome ts = some (some e, []) := by
    rw [outcome_optional, hRead]
    rfl
  obtain ⟨hOutput, hCount⟩ := filter_of_outcome hLex hTop
  refine ⟨hOutput, List.length_eq_zero_iff.mp ?_⟩
  rw [hCount]
  exact hWhole

theorem hull_enclosed (t u : Spanned Token) (ts : Tokens) :
    hull (t :: (ts ++ [u])) = t.span.hull u.span := by
  rw [hull, List.head?_cons, ← List.cons_append, List.getLast?_concat]

/-- A condition that is moved and put in parentheses is a group around the moved condition. -/
theorem outcome_unary_parenthesized {ts : Tokens} {e : Expr}
    (h : Yields (reader (.chain .or)) Expr.moved (Nonterminal.chain .or).after ts e)
    {f : Span → Span} (hf : Span.Rigid f) (s s' : Span) (rest : Tokens) :
    (reader .unary).outcome
        (⟨.symbol .lparen, s⟩ :: (movedTokens f ts ++ ⟨.symbol .rparen, s'⟩ :: rest)) =
      some (.group (s.hull s') (e.moved f), rest) := by
  -- no chain goes on with a closing parenthesis, so the condition ends before it
  have hClose : Follows (Nonterminal.chain .or).after (values (⟨.symbol .rparen, s'⟩ :: rest)) :=
    follows_token rfl
  have hInside : condition.outcome (movedTokens f ts ++ ⟨.symbol .rparen, s'⟩ :: rest) =
      some (e.moved f, ⟨.symbol .rparen, s'⟩ :: rest) := by
    rw [outcome_condition]
    exact h hf hClose
  -- the span of the group is that of all tokens between the parentheses and of these two
  have hRun : consumed (⟨.symbol .lparen, s⟩ :: (movedTokens f ts ++ ⟨.symbol .rparen, s'⟩ :: rest))
      rest = ⟨.symbol .lparen, s⟩ :: (movedTokens f ts ++ [⟨.symbol .rparen, s'⟩]) := by
    have hConsumed := consumed_append
      (⟨.symbol .lparen, s⟩ :: (movedTokens f ts ++ [⟨.symbol .rparen, s'⟩])) rest
    rwa [List.cons_append, List.append_assoc, List.singleton_append] at hConsumed
  rw [reader, outcome_negation_of_ne condition (follows_token rfl)]
  refine outcome_term_of_group ?_
  rw [outcome_withSpan, group, outcome_recover, symbol, outcome_bind, outcome_exactly_cons,
    if_pos rfl, Option.bind_some, outcome_bind, hInside, Option.bind_some, outcome_bind, symbol,
    outcome_exactly_cons, if_pos rfl, Option.bind_some, outcome_pure, Option.some_or,
    Option.map_some, hRun, hull_enclosed]

/-- A condition of two terms is their conjunction. -/
theorem outcome_condition_of_pair {ts later : Tokens} {e e' : Expr} {s : Span}
    (hLeft : (reader .unary).outcome ts = some (e, ⟨.keyword .and, s⟩ :: later))
    (hRight : (reader .unary).outcome later = some (e', [])) :
    condition.outcome ts = some (e.both e', []) := by
  -- one member behind the first, and then the end
  have hMore : (further .and).outcome (⟨Connective.and.token, s⟩ :: later) = some ([e'], []) := by
    rw [outcome_further_cons (k := .and) hRight, outcome_further_nil]
    rfl
  have hPair : (reader (.chain .and)).outcome ts = some (e.both e', []) := by
    rw [outcome_reader_chain]
    show Option.bind ((reader .unary).outcome ts) _ = _
    rw [hLeft, Option.bind_some]
    show Option.map _ ((further .and).outcome (⟨Connective.and.token, s⟩ :: later)) = _
    rw [hMore]
    rfl
  exact outcome_condition_of_further hPair (outcome_further_nil .or)

/-- The tree of two filters put together. -/
theorem filter_conjoined {a b : String} (ha : (filter a).diagnostics = [])
    (haText : Text.isBlankText a = false) (hb : (filter b).diagnostics = [])
    (hbText : Text.isBlankText b = false) :
    ∃ t u, (filter a).output = some (some t) ∧ (filter b).output = some (some u) ∧
      (filter (conjoined a b)).diagnostics = [] ∧
      (filter (conjoined a b)).output = some (some (Expr.both
        (.group ⟨0, Text.byteLength a.toList + 2⟩ (t.moved (Span.shift 1)))
        (.group ⟨conjoinedOffset a - 1, conjoinedOffset a + Text.byteLength b.toList + 1⟩
          (u.moved (Span.shift (conjoinedOffset a)))))) := by
  -- a filter that is not blank and has no diagnostic has a derivation, and so a tree wherever it is
  have hTree : ∀ {source : String}, (filter source).diagnostics = [] →
      Text.isBlankText source = false → ∃ ts e, Token.lex source = .ok ts ∧
        Yields (reader (.chain .or)) Expr.moved (Nonterminal.chain .or).after ts e ∧
        e.malformedParts = 0 ∧ (filter source).output = some (some e) := by
    intro source hClean hText
    obtain ⟨ts, hLex⟩ := exists_lex_of_clean hClean
    rcases exists_phrase_of_clean hLex hClean with rfl | ⟨p, hRun⟩
    · rw [Token.lex_eq_nil_iff.mp hLex] at hText
      cases hText
    · obtain ⟨e, hYields, hWhole, -⟩ := (phrase_readAs p hRun).yields
      have hRead := outcome_condition_of_yields hYields
      exact ⟨ts, e, hLex, hYields, hWhole, (filter_of_whole hLex hRead hWhole).1⟩
  obtain ⟨ts, t, hLexA, hYieldsA, hWholeA, hOutputA⟩ := hTree ha haText
  obtain ⟨us, u, hLexB, hYieldsB, hWholeB, hOutputB⟩ := hTree hb hbText
  obtain ⟨s₁, s₂, s₃, s₄, s₅, hLex, hHullA, hHullB⟩ := Token.lex_conjoined hLexA hLexB
  have hLeft := outcome_unary_parenthesized hYieldsA (Span.rigid_shift 1) s₁ s₂
  have hRight := outcome_unary_parenthesized hYieldsB (Span.rigid_shift (conjoinedOffset a)) s₄ s₅
  rw [hHullA] at hLeft
  rw [hHullB] at hRight
  have hRead := outcome_condition_of_pair (s := s₃) (hLeft _) (hRight [])
  obtain ⟨hOutput, hClean⟩ := filter_of_whole hLex hRead (by
    show (t.moved _).malformedParts + (u.moved _).malformedParts = 0
    rw [Expr.malformedParts_moved, Expr.malformedParts_moved, hWholeA, hWholeB])
  exact ⟨t, u, hOutputA, hOutputB, hClean, hOutput⟩

end Parse

/-! ## SQL and faults -/

namespace Context

variable (cx : Context) (f : Span → Span)

theorem value_settle (s s' : Span) (standIn : String) (rule : Except Cause String) :
    (cx.settle s standIn rule).value = (cx.settle s' standIn rule).value := by
  cases rule <;> rfl

theorem scalarSql?_moved (o : Operand) : cx.scalarSql? (o.moved f) = cx.scalarSql? o := by
  cases o <;> rfl

theorem setSql?_moved (o : Operand) : cx.setSql? (o.moved f) = cx.setSql? o := by
  cases o <;> rfl

theorem itemSql?_moved (o : Operand) : cx.itemSql? (o.moved f) = cx.itemSql? o := by
  cases o <;> rfl

theorem value_scalar_moved (o : Spanned Operand) :
    (cx.scalar (movedOperand f o)).value = (cx.scalar o).value := by
  rw [scalar, scalar, movedOperand, scalarSql?_moved]
  exact cx.value_settle _ _ _ _

/-- Moving a right side does not change what is written for it. -/
theorem value_rightSide_moved (op : Comparison) (c : Spanned Comparand) :
    (cx.rightSide op (movedComparand f c)).value = (cx.rightSide op c).value := by
  obtain ⟨o | items, s⟩ := c
  · unfold rightSide
    split
    · show (cx.settle (f s) noSet (cx.setSql? (o.moved f))).value = _
      rw [setSql?_moved]
      exact cx.value_settle _ _ _ _
    · exact cx.value_scalar_moved f ⟨o, s⟩
  · unfold rightSide
    split
    · -- each item is written by itself
      have hItem : ∀ o : Spanned Operand,
          (cx.listItem (movedOperand f o)).value = (cx.listItem o).value := by
        intro o
        rw [listItem, listItem, Draft.value_bind, Draft.value_bind, movedOperand, itemSql?_moved,
          cx.value_settle _ o.span]
      show "(" ++ ",".intercalate ((items.map (movedOperand f)).mapM cx.listItem).value ++ ")" =
        "(" ++ ",".intercalate (items.mapM cx.listItem).value ++ ")"
      rw [Draft.value_mapM, Draft.value_mapM, List.map_map]
      simp only [Function.comp_def, hItem]
    · rfl

/-- Moving a condition does not change what is written for it. -/
theorem value_condition_moved (e : Expr) :
    (cx.condition (e.moved f)).value = (cx.condition e).value := by
  induction e with
  | operand s o => exact cx.value_scalar_moved f o
  | compare s lhs op rhs =>
    rw [Expr.moved, condition_compare, condition_compare]
    simp only [Draft.value_bind, Draft.value_pure, value_scalar_moved, Spanned.moved,
      value_rightSide_moved]
  | not s inner ih =>
    -- whether there are parentheses already does not depend on the place
    have hGroup : (inner.moved f).isGroup = inner.isGroup := by cases inner <;> rfl
    rw [Expr.moved, condition, condition, Draft.value_bind, Draft.value_bind, ih, hGroup]
  | group s inner ih =>
    rw [Expr.moved, condition, condition, Draft.value_bind, Draft.value_bind, ih]
  | and s lhs rhs ihl ihr =>
    rw [Expr.moved, condition, condition]
    simp only [Draft.value_bind, Draft.value_pure, ihl, ihr]
  | or s lhs rhs ihl ihr =>
    rw [Expr.moved, condition, condition]
    simp only [Draft.value_bind, Draft.value_pure, ihl, ihr]
  | malformed s => rfl

/-- A condition at another place is written the same, and its faults are at the other place. -/
theorem condition_moved (e : Expr) :
    cx.condition (e.moved f) =
      ⟨(cx.condition e).value, (cx.condition e).faults.map (Fault.moved f)⟩ := by
  have hFaults : (cx.condition (e.moved f)).faults =
      (cx.condition e).faults.map (Fault.moved f) := by
    rw [faults_condition, faults_condition, Expr.occurrences_moved, filterMap_fault?_moved]
  rw [← hFaults, ← cx.value_condition_moved f e]

/-- A filter without a diagnostic is its condition. -/
theorem filter_of_tree {source : String} {e : Expr}
    (hClean : (Parse.filter source).diagnostics = [])
    (hOutput : (Parse.filter source).output = some (some e)) :
    cx.filter source = cx.filterOf (some e) := by
  simp only [filter, hClean, hOutput]
  rfl

/-- Whatever is wrong with a clause is reported for that clause. -/
theorem clause_of_mem {ds : List Diagnostic} {os : List Occurrence} {x : Fault}
    (h : x ∈ cx.malformed ds ++ os.filterMap cx.fault?) : x.clause = cx.clause := by
  rcases List.mem_append.mp h with h | h
  · obtain ⟨d, -, rfl⟩ := List.mem_map.mp h
    rfl
  · obtain ⟨o, -, ho⟩ := List.mem_filterMap.mp h
    exact (isSemantic_of_fault? ho).2

theorem clause_of_mem_filter_faults {r : Request} {x : Fault}
    (h : x ∈ (cx.filter r.expression).faults) : x.clause = cx.clause := by
  rw [cx.faults_filter r] at h
  exact cx.clause_of_mem h

theorem clause_of_mem_order_faults {r : Request} {x : Fault} (h : x ∈ (cx.order r.order).faults) :
    x.clause = cx.clause := by
  rw [cx.faults_order r] at h
  exact cx.clause_of_mem h

/-- The clause of two filters put together, from their own. -/
theorem filter_conjoined {a b : String} (ha : (Parse.filter a).diagnostics = [])
    (haText : Text.isBlankText a = false) (hb : (Parse.filter b).diagnostics = [])
    (hbText : Text.isBlankText b = false) :
    (cx.filter (conjoined a b)).value =
        ⟨"(" ++ (cx.filter a).value.sql ++ ") AND (" ++ (cx.filter b).value.sql ++ ")", false⟩ ∧
      (cx.filter (conjoined a b)).faults =
        (cx.filter a).faults.map (Fault.moved (Span.shift 1)) ++
          (cx.filter b).faults.map (Fault.moved (Span.shift (conjoinedOffset a))) := by
  obtain ⟨t, u, hOutputA, hOutputB, hClean, hOutput⟩ := Parse.filter_conjoined ha haText hb hbText
  -- all three texts are read without complaints, so each filter is its tree compiled
  rw [cx.filter_of_tree ha hOutputA, cx.filter_of_tree hb hOutputB,
    cx.filter_of_tree hClean hOutput]
  have hGroup : ∀ (s : Span) (e : Expr), cx.condition (.group s e) =
      ⟨"(" ++ (cx.condition e).value ++ ")", (cx.condition e).faults⟩ := by
    intro s e
    rw [condition]
    exact congrArg (Draft.mk _) (List.append_nil _)
  have hBoth : ∀ s (e e' : Expr), cx.condition (.and s e e') =
      ⟨(cx.condition e).value ++ " AND " ++ (cx.condition e').value,
        (cx.condition e).faults ++ (cx.condition e').faults⟩ := by
    intro s e e'
    rw [condition]
    exact congrArg (fun fs => Draft.mk _ (_ ++ fs)) (List.append_nil _)
  -- the faults come in the order of the sides, each moved with its side
  simp only [filterOf, Draft.value_bind, Draft.value_pure, Draft.faults_bind, Draft.faults_pure,
    List.append_nil, Expr.both, hBoth, hGroup, condition_moved]
  refine ⟨congrArg (Sql.Condition.mk · false) ?_, trivial⟩
  have hBetween : ") AND (" = ")" ++ (" AND " ++ "(") := rfl
  rw [hBetween]
  simp only [String.append_assoc]

end Context

namespace Request

/-- What is wrong with a request: what is wrong with its filter, and then with its order list. -/
theorem faults_eq_append (r : Request) (schema : Schema) (root : Root) :
    r.faults schema root = (Context.filter ⟨schema, root, .filter⟩ r.expression).faults ++
      (Context.order ⟨schema, root, .order⟩ r.order).faults := by
  rw [faults_eq_complaints, ← faults_draft]
  simp only [draft, Draft.faults_bind, Draft.faults_pure, List.append_nil]

end Request

namespace Conjoined

/-- The two trees are the parts of the tree of the joined text, each at its place. -/
structure Trees (a b : String) (t u : Expr) : Prop where
  first  : (Parse.filter a).output = some (some t)
  second : (Parse.filter b).output = some (some u)
  clean  : (Parse.filter (conjoined a b)).diagnostics = []
  joined : (Parse.filter (conjoined a b)).output = some (some (.and
    ⟨0, Text.byteLength (conjoined a b).toList⟩
    (.group ⟨0, Text.byteLength a.toList + 2⟩ (t.moved (Span.shift 1)))
    (.group ⟨conjoinedOffset a - 1, Text.byteLength (conjoined a b).toList⟩
      (u.moved (Span.shift (conjoinedOffset a))))))

/-- What the three requests compile to, with these sort keys: the condition of the joined one is the
conjunction of the other two. -/
structure Statements (r : Request) (schema : Schema) (root : Root) (a b : String)
    (keys : List String) : Prop where
  first  : (r.withExpression a).compile schema root =
    .ok (r.statement root (Context.filter ⟨schema, root, .filter⟩ a).value keys)
  second : (r.withExpression b).compile schema root =
    .ok (r.statement root (Context.filter ⟨schema, root, .filter⟩ b).value keys)
  joined : (r.withExpression (conjoined a b)).compile schema root = .ok (r.statement root
    ⟨"(" ++ (Context.filter ⟨schema, root, .filter⟩ a).value.sql ++ ") AND (" ++
      (Context.filter ⟨schema, root, .filter⟩ b).value.sql ++ ")", false⟩ keys)

/-- What is wrong with the joined text is what is wrong with the first and then what is wrong with
the second, each at its place; what is wrong with the order list comes last, as before. -/
structure Faults (r : Request) (schema : Schema) (root : Root) (a b : String)
    (fa fb fo : List Fault) : Prop where
  first    : (r.withExpression a).faults schema root = fa ++ fo
  second   : (r.withExpression b).faults schema root = fb ++ fo
  joined   : (r.withExpression (conjoined a b)).faults schema root =
    fa.map (Fault.moved (Span.shift 1)) ++
      fb.map (Fault.moved (Span.shift (conjoinedOffset a))) ++ fo
  inFilter : ∀ x ∈ fa ++ fb, x.clause = .filter
  inOrder  : ∀ x ∈ fo, x.clause = .order
  noOrder  : r.order = none → fo = []

/-- What two filters come to when each is put in parentheses and they are joined by `AND`. -/
structure Spec (r : Request) (schema : Schema) (root : Root) (a b : String) : Prop where
  trees        : ∃ t u, Trees a b t u
  accepted_iff : ((r.withExpression (conjoined a b)).compile schema root).isOk = true ↔
    ((r.withExpression a).compile schema root).isOk = true ∧
      ((r.withExpression b).compile schema root).isOk = true
  statements   : ((r.withExpression (conjoined a b)).compile schema root).isOk = true →
    ∃ keys, Statements r schema root a b keys
  faults       : ∃ fa fb fo, Faults r schema root a b fa fb fo

end Conjoined

/-- **Compiling is compositional.** Let two filters that can be read be put in parentheses and
joined by `AND`. Their trees are the two parts of the new tree, each at its place. The new filter
compiles exactly if both do, to the conjunction of what they compile to. What is wrong with it is
what is wrong with the first and then what is wrong with the second, each at its place; what is
wrong with the order list comes last, as before. -/
theorem conjoined_filters_compile (r : Request) (schema : Schema) (root : Root) {a b : String}
    (ha : (Parse.filter a).diagnostics = []) (haText : Text.isBlankText a = false)
    (hb : (Parse.filter b).diagnostics = []) (hbText : Text.isBlankText b = false) :
    Conjoined.Spec r schema root a b := by
  let cx : Context := ⟨schema, root, .filter⟩
  obtain ⟨hValue, hFaults⟩ := cx.filter_conjoined ha haText hb hbText
  constructor
  case trees =>
    obtain ⟨t, u, hOutputA, hOutputB, hClean, hOutput⟩ :=
      Parse.filter_conjoined ha haText hb hbText
    refine ⟨t, u, hOutputA, hOutputB, hClean, ?_⟩
    rw [hOutput, ← byteLength_conjoined]
    rfl
  case accepted_iff =>
    -- the faults of the clause are those of both, so there are none exactly if neither has one
    rw [Request.compile_isOk_iff, Request.compile_isOk_iff, Request.compile_isOk_iff]
    show (cx.filter (conjoined a b)).faults = [] ∧ _ ↔
      ((cx.filter a).faults = [] ∧ _) ∧ ((cx.filter b).faults = [] ∧ _)
    rw [hFaults, List.append_eq_nil_iff, List.map_eq_nil_iff, List.map_eq_nil_iff]
    exact ⟨fun ⟨⟨hA, hB⟩, hO⟩ => ⟨⟨hA, hO⟩, hB, hO⟩, fun ⟨⟨hA, hO⟩, hB, _⟩ => ⟨⟨hA, hB⟩, hO⟩⟩
  case statements =>
    intro hOk
    rw [Request.compile_isOk_iff] at hOk
    obtain ⟨hFilter, hOrder⟩ := hOk
    have hBoth : (cx.filter a).faults = [] ∧ (cx.filter b).faults = [] := by
      have hNil : (cx.filter (conjoined a b)).faults = [] := hFilter
      rw [hFaults, List.append_eq_nil_iff, List.map_eq_nil_iff, List.map_eq_nil_iff] at hNil
      exact hNil
    refine ⟨(Context.order ⟨schema, root, .order⟩ r.order).value,
      Request.compile_of_faultless hBoth.1 hOrder, Request.compile_of_faultless hBoth.2 hOrder, ?_⟩
    rw [Request.compile_of_faultless hFilter hOrder, ← hValue]
    rfl
  case faults =>
    refine ⟨(cx.filter a).faults, (cx.filter b).faults,
      (Context.order ⟨schema, root, .order⟩ r.order).faults, Request.faults_eq_append _ _ _,
      Request.faults_eq_append _ _ _, ?_, ?_, ?_, ?_⟩
    · rw [← hFaults]
      exact Request.faults_eq_append _ _ _
    · intro x hx
      rcases List.mem_append.mp hx with hx | hx
      · exact cx.clause_of_mem_filter_faults (r := r.withExpression a) hx
      · exact cx.clause_of_mem_filter_faults (r := r.withExpression b) hx
    · intro x hx
      exact Context.clause_of_mem_order_faults ⟨schema, root, .order⟩ hx
    · intro hNone
      rw [hNone]
      rfl

/-- Two filters with something wrong in each, the first with a character of two bytes. -/
theorem conjoined_faulty_filters :
    (unfilteredRequest.withExpression (conjoined "nada = 'é'" faultyFilter)).faults
        awkwardSchema .transcript =
      [⟨.unsupportedOperand "nada" .transcript, .filter, ⟨1, 5⟩⟩,
        ⟨.unknownLayer "my('nope').label" "nope", .filter, ⟨19, 35⟩⟩,
        ⟨.unsupportedOperand "nada" .transcript, .filter, ⟨45, 49⟩⟩] ∧
    ∃ fa fb fo, Conjoined.Faults unfilteredRequest awkwardSchema .transcript "nada = 'é'"
      faultyFilter fa fb fo := by
  obtain ⟨hFirst, hSecond⟩ : (Parse.filter "nada = 'é'").diagnostics = [] ∧
      (Parse.filter faultyFilter).diagnostics = [] := by
    decide +kernel
  refine ⟨by decide +kernel, ?_⟩
  exact (conjoined_filters_compile unfilteredRequest awkwardSchema .transcript hFirst (by decide)
    hSecond (by decide)).faults

end AnnotationQuery
