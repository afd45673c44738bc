import AnnotationQuery.Proofs.Compile.Splice
import AnnotationQuery.Proofs.Parse.Runs
import AnnotationQuery.Proofs.Parse.Watch

/-!
# Where faults point

A fault has a place in the text of its clause, and a caller may want to cut that place
out and show it. This is safe: both ends of the place are borders between characters.
What is cut out for an operand that is refused is the text of that operand, whole and
alone. Read by itself it gives the same operand again, because its tokens are the same
without the text around them.

One kind of place cannot be cut out. When a filter ends too early, the fault marks the
end of the text, and the mark starts behind the last blank but stops behind the last
token. With blanks at the end it runs backwards.

Main results:

* `Parse.filter_diagnostic_place` — the places of what could not be read in a filter.
* `ComparandOver.readsBack` — an operand that is cut out.
* `faults_point_at_source` — all faults of a refused request.
-/

namespace AnnotationQuery

open Grammar
open Parse (Tokens values)

/-! ## Places in a text -/

namespace Span

/-- The span covers these characters of the text. -/
def Covers (s : Span) (source : String) (bs : List Char) : Prop :=
  ∃ as cs, source.toList = as ++ (bs ++ cs) ∧
    s = ⟨Text.byteLength as, Text.byteLength as + Text.byteLength bs⟩

/-- The span goes from the end of the text back to where its last blanks start. -/
def MarksEnd (s : Span) (source : String) : Prop :=
  ∃ front gap, source.toList = front ++ gap ∧ gap.all Text.isBlank = true ∧
    s = ⟨Text.byteLength source.toList, Text.byteLength front⟩

/-- Both ends are borders between characters of the text. -/
structure OnBoundaries (s : Span) (source : String) : Prop where
  start : Text.isBoundary source s.start = true
  stop : Text.isBoundary source s.stop = true
  start_le : s.start ≤ Text.byteLength source.toList
  stop_le : s.stop ≤ Text.byteLength source.toList

variable {s : Span} {source : String} {bs : List Char}

theorem Covers.slice (h : s.Covers source bs) : s.slice? source = some (String.ofList bs) := by
  obtain ⟨as, cs, hText, rfl⟩ := h
  exact slice?_of_append hText

theorem Covers.forward (h : s.Covers source bs) : s.isForward = true := by
  obtain ⟨as, cs, -, rfl⟩ := h
  exact decide_eq_true (Nat.le_add_right _ _)

/-- A span that covers something has its ends between characters. -/
theorem Covers.onBoundaries (h : s.Covers source bs) : s.OnBoundaries source := by
  obtain ⟨as, cs, hText, rfl⟩ := h
  -- the end of the span is the size of all characters up to it
  have hStop : source.toList = (as ++ bs) ++ cs := by rw [hText, List.append_assoc]
  have hLength := Text.byteLength_append as bs
  constructor
  · exact Text.isBoundary_of_append hText
  · show Text.isBoundary source (Text.byteLength as + Text.byteLength bs) = true
    rw [← hLength]
    exact Text.isBoundary_of_append hStop
  · exact Text.byteLength_le_of_append hText
  · show Text.byteLength as + Text.byteLength bs ≤ _
    rw [← hLength]
    exact Text.byteLength_le_of_append hStop

/-- A span that marks the end of a text has its ends between characters. -/
theorem MarksEnd.onBoundaries (h : s.MarksEnd source) : s.OnBoundaries source := by
  obtain ⟨front, gap, hText, -, rfl⟩ := h
  have hEnd : source.toList = source.toList ++ [] := (List.append_nil _).symm
  exact ⟨Text.isBoundary_of_append hEnd, Text.isBoundary_of_append hText, Nat.le_refl _,
    Text.byteLength_le_of_append hText⟩

end Span

/-- Only a comparison moves to a comparison. -/
theorem Expr.eq_compare_of_moved {f : Span → Span} {e : Expr} {s : Span} {lhs : Spanned Operand}
    {op : Spanned Comparison} {rhs : Spanned Comparand} (h : e.moved f = .compare s lhs op rhs) :
    ∃ s' lhs' op' rhs', e = .compare s' lhs' op' rhs' ∧ movedOperand f lhs' = lhs ∧
      op'.moved f = op ∧ movedComparand f rhs' = rhs := by
  cases e with
  | compare s' lhs' op' rhs' =>
    cases h
    exact ⟨s', lhs', op', rhs', rfl, rfl, rfl, rfl⟩
  | _ => cases h

/-! ## What could not be read -/

namespace Parse

open AnnotationQuery.Parse.Parser

variable {source : String} {ts rest : Tokens}

theorem laid_of_lex (h : Token.lex source = .ok ts) : Token.Laid 0 source.toList ts :=
  Token.laid_iff.mpr h

/-- A run of tokens covers a part of the text. -/
theorem covers_hull (hLex : Token.lex source = .ok ts) {run : Tokens} (hRun : run <:+: ts)
    (hSome : run ≠ []) : ∃ bs, (hull run).Covers source bs ∧ ∃ us, Token.lexFrom 0 0 bs = .ok us ∧
      values us = values run := by
  obtain ⟨as, bs, cs, hText, hLaid, hSpan⟩ := (laid_of_lex hLex).slice hRun hSome
  rw [Nat.zero_add] at hSpan
  obtain ⟨us, hAlone, hMoved⟩ := hLaid.alone
  refine ⟨bs, ⟨as, cs, hText, hSpan⟩, us, hAlone, ?_⟩
  rw [hMoved, values_movedTokens]

/-- A token covers a part of the text. -/
theorem covers_token (hLex : Token.lex source = .ok ts) {t : Spanned Token} (ht : t ∈ ts) :
    ∃ bs, t.span.Covers source bs := by
  obtain ⟨as, bs, cs, hText, -, hSpan⟩ := (laid_of_lex hLex).within ht
  rw [Nat.zero_add] at hSpan
  exact ⟨bs, as, cs, hText, hSpan⟩

/-- The place of what is missing at the end of a text marks that end. -/
theorem marksEnd_endSpan (hLex : Token.lex source = .ok ts) :
    (endSpan (Text.byteLength source.toList) ts).MarksEnd source := by
  cases hLast : ts.getLast? with
  | none =>
    refine ⟨source.toList, [], (List.append_nil _).symm, rfl, ?_⟩
    rw [endSpan, hLast]
    rfl
  | some last =>
    -- behind the last token there are only blanks
    obtain ⟨front, gap, hText, hGap, hStop⟩ := (laid_of_lex hLex).blanks_behind hLast
    rw [Nat.zero_add] at hStop
    refine ⟨front, gap, hText, hGap, ?_⟩
    rw [endSpan, hLast, ← hStop]
    rfl

/-- The complaint about leftover tokens covers their characters. -/
theorem covers_leftover (hLex : Token.lex source = .ok ts) (hRest : rest <:+ ts) {d : Diagnostic}
    (hd : d ∈ leftover rest) : ∃ bs, d.span.Covers source bs := by
  unfold leftover at hd
  split at hd
  · cases hd
  · next hSome =>
    rw [List.mem_singleton] at hd
    subst hd
    obtain ⟨bs, hCovers, -⟩ := covers_hull hLex hRest.isInfix fun hNil => hSome (by rw [hNil]; rfl)
    exact ⟨bs, hCovers⟩

/-- The complaint about a character that starts no token covers characters of the text. -/
theorem covers_lexError {d : Diagnostic} (h : Token.lex source = .error d) :
    ∃ bs, d.span.Covers source bs := by
  obtain ⟨as, bs, cs, hText, hSpan⟩ := Token.within_of_lexFrom_error h
  rw [Nat.zero_add] at hSpan
  exact ⟨bs, as, cs, hText, hSpan⟩

/-- A failure in a text is at one of its tokens or at its end. -/
theorem Stems.place {left : Nat} {place : Option Span} (h : Stems ts left place) :
    place = none ∨ ∃ t ∈ ts, place = some t.span := by
  cases h with
  | @tested us hSuffix =>
    cases us with
    | nil => exact Or.inl rfl
    | cons t us => exact Or.inr ⟨t, hSuffix.subset List.mem_cons_self, rfl⟩
  | @seen t us hSuffix => exact Or.inr ⟨t, hSuffix.subset List.mem_cons_self, rfl⟩

/-- Every error that a filter reports stems from its tokens. -/
theorem filter_traced (hLex : Token.lex source = .ok ts) :
    ∃ (o : Option Expr) (rest : Tokens) (n : Notes), filter source =
      ⟨some o, n.errors.map (·.diagnostic (endSpan (Text.byteLength source.toList) ts)) ++
        leftover rest⟩ ∧ rest <:+ ts ∧ n.All (Stems ts) := by
  have hEmpty : Notes.empty.All (Stems ts) := ⟨nofun, nofun⟩
  -- a condition is optional in a filter, so reading one never fails as a whole
  have hRun : (Parser.optional condition).wp (fun _ rest n => rest <:+ ts ∧ n.All (Stems ts))
      (fun _ => False) ts Notes.empty := by
    rw [wp_optional]
    exact wp_mono (condition_watched.stems ts (List.suffix_refl ts) hEmpty) (fun _ _ _ h => h)
      (fun _ h => ⟨List.suffix_refl ts, h.rewind hEmpty⟩)
  unfold filter readSource
  rw [hLex]
  exact exists_of_readTokens _ hRun

/-- A diagnostic of a filter covers characters of it or marks its end. -/
theorem filter_diagnostic_place {d : Diagnostic} (hd : d ∈ (filter source).diagnostics) :
    (∃ bs, d.span.Covers source bs) ∨ d.span.MarksEnd source := by
  cases hLex : Token.lex source with
  | error d' =>
    have hOnly : d = d' := by simpa [filter, readSource, hLex] using hd
    rw [hOnly]
    exact Or.inl (covers_lexError hLex)
  | ok ts =>
    obtain ⟨o, rest, n, hRead, hRest, hTraced⟩ := filter_traced hLex
    rw [hRead] at hd
    rcases List.mem_append.mp hd with hd | hd
    · obtain ⟨f, hf, rfl⟩ := List.mem_map.mp hd
      -- an error without a token is about the end of the text
      rcases (hTraced.2 f hf).place with hPlace | ⟨t, ht, hPlace⟩
      · refine Or.inr ?_
        rw [Failure.diagnostic, hPlace]
        exact marksEnd_endSpan hLex
      · refine Or.inl ?_
        rw [Failure.diagnostic, hPlace]
        exact covers_token hLex ht
    · exact Or.inl (covers_leftover hLex hRest hd)

/-- An order list is read up to some token, and only the tokens behind are complained about. -/
theorem order_of_outcome (hLex : Token.lex source = .ok ts) {terms : List OrderTerm}
    (h : orderTerms.outcome ts = some (terms, rest)) :
    order source = ⟨some terms, leftover rest⟩ := by
  -- reading an order list records no errors, so only what is left over can be complained about
  have hQuiet := orderTerms_quiet.errors ts Notes.empty
  unfold Parser.wp at hQuiet
  unfold outcome at h
  unfold order readSource readTokens
  rw [hLex]
  rcases hRun : orderTerms ts Notes.empty with ⟨_ | r, n⟩
  · rw [hRun] at h
    cases h
  · rw [hRun] at h hQuiet
    cases h
    have hErrors : n.errors = [] := hQuiet
    simp only [hRun, hErrors, List.map_nil, List.nil_append]

/-- Something is always read as an order list, if only the empty one. -/
theorem exists_outcome_orderTerms (ts : Tokens) :
    ∃ terms rest, orderTerms.outcome ts = some (terms, rest) := by
  obtain ⟨terms, rest, hRead⟩ :=
    exists_outcome_optional (separatedBy orderTerm (symbol .comma)) ts
  refine ⟨terms.getD [], rest, ?_⟩
  rw [orderTerms, outcome_bind, hRead]
  rfl

/-- A diagnostic of an order list covers characters of it. -/
theorem order_diagnostic_place {d : Diagnostic} (hd : d ∈ (order source).diagnostics) :
    ∃ bs, d.span.Covers source bs := by
  cases hLex : Token.lex source with
  | error d' =>
    have hOnly : d = d' := by simpa [order, readSource, hLex] using hd
    rw [hOnly]
    exact covers_lexError hLex
  | ok ts =>
    obtain ⟨terms, rest, hRead⟩ := exists_outcome_orderTerms ts
    rw [order_of_outcome hLex hRead] at hd
    obtain ⟨run, rfl, -⟩ := orderTerms_over hRead
    exact covers_leftover hLex (List.suffix_append run rest) hd

/-! ## What was read -/

/-- The condition that a filter is read as stands over tokens of the text. -/
theorem filter_over {e : Expr} (h : (filter source).output.join = some e) :
    ∃ run rest, Token.lex source = .ok (run ++ rest) ∧ e.Over run := by
  cases hLex : Token.lex source with
  | error d => simp [filter, readSource, hLex] at h
  | ok ts =>
    obtain ⟨tree, rest, hRead⟩ := exists_outcome_optional condition ts
    rw [(filter_of_outcome hLex hRead).1] at h
    cases h
    -- an optional condition covers nothing if it is missing
    have hOver : (Parser.optional condition).Covers
        fun tree run => ∀ e, tree = some e → e.Over run := by
      refine Covers.optional (condition_over.mono fun _ _ he _ hSome => ?_) fun _ hSome => ?_
      · cases hSome
        exact he
      · cases hSome
    obtain ⟨run, rfl, hTree⟩ := hOver hRead
    exact ⟨run, rest, rfl, hTree e rfl⟩

/-- Every sort key that an order list is read as stands over tokens of the text. -/
theorem order_over {t : OrderTerm} (h : t ∈ (order source).output.getD []) :
    ∃ ts sub, Token.lex source = .ok ts ∧ sub <:+: ts ∧ OperandOver t.operand sub := by
  cases hLex : Token.lex source with
  | error d => simp [order, readSource, hLex] at h
  | ok ts =>
    obtain ⟨terms, rest, hRead⟩ := exists_outcome_orderTerms ts
    rw [order_of_outcome hLex hRead] at h
    obtain ⟨run, rfl, hTerms⟩ := orderTerms_over hRead
    obtain ⟨sub, hSub, hOver⟩ := hTerms t h
    exact ⟨_, sub, rfl, hSub.trans (List.prefix_append run rest).isInfix, hOver⟩

/-! ## Reading an operand alone -/

/-- Tokens that are derived as an operand are read as that operand, places aside. -/
theorem outcome_operand_alone {o : Operand} (h : OperandDerives o (values ts)) :
    ∃ x, operand.outcome ts = some (x, []) ∧
      (x.value.moved fun _ => Span.nowhere) = o.moved fun _ => Span.nowhere := by
  obtain ⟨form, hTokens, hTree⟩ := h
  obtain ⟨x, hYields, hx⟩ := operand_yields form hTokens.symm
  have hEnd : Follows afterOperand (values []) := follows_nil _
  have hRead := hYields Span.rigid_self hEnd
  rw [movedTokens_self, List.append_nil, movedOperand_self] at hRead
  exact ⟨x, hRead, hx.trans hTree⟩

/-- A text with the tokens of an operand is an order list with that one key, ascending. -/
theorem order_of_operand (hLex : Token.lex source = .ok ts) {o : Operand}
    (h : OperandDerives o (values ts)) :
    ∃ x, order source = ⟨some [⟨x, false⟩], []⟩ ∧
      (x.value.moved fun _ => Span.nowhere) = o.moved fun _ => Span.nowhere := by
  obtain ⟨x, hRead, hSame⟩ := outcome_operand_alone h
  -- nothing is left for a direction, and nothing for a comma
  have hTerm : orderTerm.outcome ts = some (⟨x, false⟩, []) := by
    rw [orderTerm, outcome_bind, hRead]
    rfl
  have hTerms : orderTerms.outcome ts = some ([⟨x, false⟩], []) := by
    rw [orderTerms, outcome_bind, outcome_optional, separatedBy, outcome_bind, hTerm]
    rfl
  exact ⟨x, order_of_outcome hLex hTerms, hSame⟩

/-- Behind `id IN`, a list is read as the right side. -/
theorem filter_of_list (hLex : Token.lex source = .ok ts) {first : OperandForm}
    {more : List OperandForm} (hTokens : (Right.list first more).tokens = values ts) :
    ∃ items s s₁ s₂ s₃, filter ("id IN " ++ source) =
        ⟨some (some (.compare s ⟨.id, s₁⟩ ⟨.isIn, s₂⟩ ⟨.list items, s₃⟩)), []⟩ ∧
      items.map (movedOperand fun _ => Span.nowhere) =
        (first :: more).map fun o => ⟨o.tree, Span.nowhere⟩ := by
  let d : Grammar.Filter :=
    .condition (.last (.last (.predicate (.bare "id") (some (.isIn, .list first more)))))
  have hWhole : ∃ us, Token.lex ("id IN " ++ source) = .ok us ∧ d.tokens = values us := by
    have hFront : Token.lex "id IN" = .ok [⟨.ident "id", 0, 2⟩, ⟨.keyword .isIn, 3, 5⟩] := by
      decide
    have hGap : Token.isGap " " = true := by decide
    have hText := Token.lex_gap hFront hGap source
    have hShifted := Token.lexFrom_shift hLex (Text.byteLength ("id IN" ++ " ").toList)
    rw [Nat.zero_add] at hShifted
    rw [hShifted] at hText
    refine ⟨_, hText, ?_⟩
    rw [values_append, values_movedTokens, ← hTokens]
    rfl
  obtain ⟨us, hLexed, hDerived⟩ := hWhole
  obtain ⟨tree, hRead, hSound, hTree⟩ := outcome_of_derivation d hDerived
  obtain ⟨hOutput, hCount⟩ := filter_of_outcome hLexed hRead
  have hClean : (filter ("id IN " ++ source)).diagnostics = [] := by
    rw [← List.length_eq_zero_iff, hCount, hSound]
    rfl
  -- the tree without its places is that of the derivation, so it has the same shape
  obtain ⟨e, rfl, hPlace⟩ := Option.map_eq_some_iff.mp hTree
  obtain ⟨s, ⟨lhs, s₁⟩, ⟨op, s₂⟩, ⟨rhs, s₃⟩, rfl, hLhs, hOp, hRhs⟩ :=
    Expr.eq_compare_of_moved hPlace
  obtain rfl : lhs = .id := by
    cases lhs <;> first | rfl | cases hLhs
  obtain rfl : op = .isIn := congrArg Spanned.value hOp
  cases rhs with
  | one o => cases hRhs
  | list items =>
    have hItems := Comparand.list.inj (congrArg Spanned.value hRhs)
    refine ⟨items, s, s₁, s₂, s₃, ?_, hItems⟩
    calc filter ("id IN " ++ source)
      _ = ⟨(filter ("id IN " ++ source)).output, (filter ("id IN " ++ source)).diagnostics⟩ := rfl
      _ = _ := by rw [hOutput, hClean]

end Parse

/-! ## Operands that are cut out -/

/-- The text alone is read as one operand or as one list, which is written like this. A list can
only stand on the right of a comparison. -/
inductive ReadsBack (text : String) : String → Prop where
  | operand {o : Spanned Operand} (h : Parse.order text = ⟨some [⟨o, false⟩], []⟩) :
      ReadsBack text o.value.text
  | list {items : List (Spanned Operand)} {s s₁ s₂ s₃ : Span}
      (h : Parse.filter ("id IN " ++ text) =
        ⟨some (some (.compare s ⟨.id, s₁⟩ ⟨.isIn, s₂⟩ ⟨.list items, s₃⟩)), []⟩) :
      ReadsBack text (Comparand.list items).text

/-- A text with the tokens of a right side is read as something written in the same way. -/
theorem ComparandOver.readsBack {c : Spanned Comparand} {run us : Tokens} {text : String}
    (h : ComparandOver c run) (hLex : Token.lex text = .ok us) (hSame : values us = values run) :
    ReadsBack text c.value.text := by
  have hRight := h.derives
  rw [← hSame] at hRight
  cases h with
  | @one o s run h =>
    have hDerives := h.derives
    rw [← hSame] at hDerives
    obtain ⟨x, hRead, hOperand⟩ := Parse.order_of_operand hLex hDerives
    show ReadsBack text o.text
    rw [← o.text_moved fun _ => Span.nowhere, ← hOperand, Operand.text_moved]
    exact .operand hRead
  | @list first items s s' run more hFirst hMore =>
    obtain ⟨form, hTokens, hTree⟩ := hRight
    cases form with
    | one form => cases hTree
    | list form forms =>
      obtain ⟨read, _, _, _, _, hRead, hItems⟩ := Parse.filter_of_list hLex hTokens
      -- the two lists are the same without their places
      have hList : (Comparand.list read).moved (fun _ => Span.nowhere) =
          (Comparand.list (first :: items)).moved fun _ => Span.nowhere := by
        rw [← hTree, Comparand.moved, hItems]
        rfl
      show ReadsBack text (Comparand.list (first :: items)).text
      rw [← Comparand.text_moved fun _ => Span.nowhere, ← hList, Comparand.text_moved]
      exact .list hRead

/-- Each item of a list was read from a part of its run. -/
theorem ItemsOver.item {items : List (Spanned Operand)} {run : Tokens} (h : ItemsOver items run)
    {o : Spanned Operand} (ho : o ∈ items) : ∃ sub, sub <:+: run ∧ OperandOver o sub := by
  induction h with
  | nil => cases ho
  | @cons first os s run more hItem hMore ih =>
    rcases List.mem_cons.mp ho with rfl | ho
    · exact ⟨run, ⟨[⟨.symbol .comma, s⟩], more, rfl⟩, hItem⟩
    · obtain ⟨sub, hSub, hOver⟩ := ih ho
      exact ⟨sub, hSub.trans ⟨⟨.symbol .comma, s⟩ :: run, [], by simp⟩, hOver⟩

/-- What stands there. -/
def Occurrence.comparand : Occurrence → Spanned Comparand
  | scalar c => c
  | set o | item o => ⟨.one o.value, o.span⟩

theorem Occurrence.span_comparand (o : Occurrence) : o.comparand.span = o.span := by
  cases o <;> rfl

/-- What occurs on the right of a comparison was read from a part of its run. -/
theorem ComparandOver.occurrence {c : Spanned Comparand} {run : Tokens} (h : ComparandOver c run)
    (op : Comparison) {o : Occurrence} (ho : o ∈ op.occurrences c) :
    ∃ sub, sub <:+: run ∧ ComparandOver o.comparand sub := by
  unfold Comparison.occurrences at ho
  split at ho
  · cases h with
    | one h =>
      rw [List.mem_singleton.mp ho]
      exact ⟨_, List.infix_rfl, .one h⟩
    | @list first items s s' run more hFirst hMore =>
      obtain ⟨x, hx, rfl⟩ := List.mem_map.mp ho
      rcases List.mem_cons.mp hx with rfl | hx
      · exact ⟨run, ⟨[⟨.symbol .lparen, s⟩], more ++ [⟨.symbol .rparen, s'⟩], by simp⟩, .one hFirst⟩
      · obtain ⟨sub, hSub, hOver⟩ := hMore.item hx
        exact ⟨sub, hSub.trans ⟨⟨.symbol .lparen, s⟩ :: run, [⟨.symbol .rparen, s'⟩], by simp⟩,
          .one hOver⟩
  · rw [List.mem_singleton.mp ho]
    exact ⟨run, List.infix_rfl, h⟩

/-- Every operand of a condition was read from a part of its tokens. -/
theorem Expr.Over.occurrence {e : Expr} {run : Tokens} (h : e.Over run) {o : Occurrence}
    (ho : o ∈ e.occurrences) : ∃ sub, sub <:+: run ∧ ComparandOver o.comparand sub := by
  -- an occurrence lies in one side, and the tokens of the side are part of all tokens
  induction h with
  | operand h =>
    rw [List.mem_singleton.mp ho]
    exact ⟨_, List.infix_rfl, .one h⟩
  | @compare lhs op rhs run run' run'' hLhs hOp hSpan hRhs =>
    rcases List.mem_cons.mp ho with rfl | ho
    · exact ⟨run, (List.prefix_append _ _).isInfix, .one hLhs⟩
    · obtain ⟨sub, hSub, hOver⟩ := hRhs.occurrence op.value ho
      exact ⟨sub, hSub.trans ⟨run ++ run', [], by simp⟩, hOver⟩
  | @not inner s run h ih =>
    obtain ⟨sub, hSub, hOver⟩ := ih ho
    exact ⟨sub, hSub.trans (List.suffix_cons _ _).isInfix, hOver⟩
  | @group inner s s' run h ih =>
    obtain ⟨sub, hSub, hOver⟩ := ih ho
    exact ⟨sub, hSub.trans ⟨[⟨.symbol .lparen, s⟩], [⟨.symbol .rparen, s'⟩], rfl⟩, hOver⟩
  | @and lhs rhs s run run' hLhs hRhs ihl ihr | @or lhs rhs s run run' hLhs hRhs ihl ihr =>
    rcases List.mem_append.mp ho with ho | ho
    · obtain ⟨sub, hSub, hOver⟩ := ihl ho
      exact ⟨sub, hSub.trans (List.prefix_append _ _).isInfix, hOver⟩
    · obtain ⟨sub, hSub, hOver⟩ := ihr ho
      exact ⟨sub, hSub.trans ((List.suffix_cons _ _).trans (List.suffix_append _ _)).isInfix, hOver⟩
  | malformed h => cases ho

/-! ## Refusals -/

/-- The operand that a cause names, unless the text could not be read. -/
def Cause.operand? : Cause → Option String
  | unknownLayer operand _ | unsupportedFunction operand _ _ _ | unmappedLayer operand _
  | unsupportedOperand operand _ | misplaced operand _ => some operand
  | malformed _ => none

namespace Context

variable {cx : Context}

/-- Whatever is wrong with a function of a layer, the cause names the function. -/
theorem operand?_layerRefusal? {function : LayerFunction} {id : String} {cause : Cause}
    (h : cx.layerRefusal? function id = some cause) :
    cause.operand? = some (function.apply id) := by
  unfold layerRefusal? at h
  -- not known, not stored, or not to be asked for this
  split at h
  · cases h
    rfl
  · split at h
    · cases h
      rfl
    · split at h
      · cases h
        rfl
      · cases h

/-- A refusal names what is refused. -/
theorem operand?_refusal? {o : Occurrence} {cause : Cause} (h : cx.refusal? o = some cause) :
    cause.operand? = some o.comparand.value.text := by
  -- as one value, as a set, or in a list, which is where it occurs
  obtain ⟨o | items, s⟩ | ⟨o, s⟩ | ⟨o, s⟩ := o
  · cases o with
    | layer function id =>
      simp only [refusal?] at h
      split at h
      · cases h
        rfl
      · exact operand?_layerRefusal? h
    | ordinal =>
      simp only [refusal?] at h
      split at h
      · cases h
        rfl
      · cases h
    | identifier name => cases h; rfl
    | member object part => cases h; rfl
    | _ => cases h
  · cases h
    rfl
  · cases o with
    | layer function id =>
      simp only [refusal?] at h
      split at h
      · exact operand?_layerRefusal? h
      · cases h
        rfl
    | _ => cases h; rfl
  · cases o with
    | literal value => cases h
    | _ => cases h; rfl

end Context

/-! ## Requests -/

/-- The fault points at the text: both its ends are borders between characters, only an unfinished
filter with blanks behind it is pointed at backwards, and what is refused can be cut out and
reads back as what the fault names. -/
structure Fault.PointsInto (f : Fault) (source : String) : Prop where
  onBoundaries : f.span.OnBoundaries source
  marksEnd : f.span.isForward = false →
    f.isSemantic = false ∧ f.clause = .filter ∧ f.span.MarksEnd source
  readsBack : f.isSemantic = true →
    ∃ text written, f.span.slice? source = some text ∧ f.cause.operand? = some written ∧
      ReadsBack text written

/-- A complaint about what could not be read points at what it covers. -/
theorem Fault.pointsInto_of_covers {f : Fault} {source : String} {bs : List Char}
    (h : f.span.Covers source bs) (hUnread : f.isSemantic = false) : f.PointsInto source := by
  refine ⟨h.onBoundaries, fun hBack => ?_, fun hSemantic => ?_⟩
  · rw [h.forward] at hBack
    cases hBack
  · rw [hUnread] at hSemantic
    cases hSemantic

/-- What is refused is pointed at. -/
theorem Context.pointsInto_of_fault? {cx : Context} {source : String} {ts sub : Tokens}
    {o : Occurrence} {f : Fault} (hLex : Token.lex source = .ok ts) (hSub : sub <:+: ts)
    (hOver : ComparandOver o.comparand sub) (hf : cx.fault? o = some f) : f.PointsInto source := by
  obtain ⟨cause, hCause, rfl⟩ := Option.map_eq_some_iff.mp hf
  obtain ⟨bs, hCovers, us, hAlone, hSame⟩ := Parse.covers_hull hLex hSub hOver.ne_nil
  -- the place of the occurrence is that of its tokens, so the characters there have these tokens
  rw [← hOver.span_eq, o.span_comparand] at hCovers
  -- cut out of the source, they have the same tokens
  have hText : Token.lex (String.ofList bs) = .ok us := by
    rw [Token.lex, String.toList_ofList]
    exact hAlone
  refine ⟨hCovers.onBoundaries, fun hBack => ?_, fun _ => ?_⟩
  · rw [hCovers.forward] at hBack
    cases hBack
  · exact ⟨_, _, hCovers.slice, operand?_refusal? hCause, hOver.readsBack hText hSame⟩

/-- The faults of a filter point at its text. -/
theorem Context.filter_pointsInto {cx : Context} (hClause : cx.clause = .filter) {r : Request}
    {f : Fault} (hf : f ∈ (cx.filter r.expression).faults) : f.PointsInto r.expression := by
  rw [cx.faults_filter r, List.mem_append] at hf
  rcases hf with hf | hf
  · obtain ⟨d, hd, rfl⟩ := List.mem_map.mp hf
    rcases Parse.filter_diagnostic_place hd with ⟨bs, hCovers⟩ | hEnd
    · exact Fault.pointsInto_of_covers hCovers rfl
    · exact ⟨hEnd.onBoundaries, fun _ => ⟨rfl, hClause, hEnd⟩, nofun⟩
  · -- what is refused was read, and so it has a run of tokens of its own
    obtain ⟨o, ho, hFault⟩ := List.mem_filterMap.mp hf
    obtain ⟨e, he, ho⟩ := List.mem_flatMap.mp ho
    obtain ⟨run, rest, hLex, hOver⟩ := Parse.filter_over (Option.mem_toList.mp he)
    obtain ⟨sub, hSub, hSubOver⟩ := hOver.occurrence ho
    have hInfix : sub <:+: run ++ rest := hSub.trans (List.prefix_append run rest).isInfix
    exact pointsInto_of_fault? hLex hInfix hSubOver hFault

/-- The faults of an order list point at its text. -/
theorem Context.order_pointsInto {cx : Context} {r : Request} {f : Fault}
    (hf : f ∈ (cx.order r.order).faults) : f.PointsInto (r.order.getD "") := by
  rw [cx.faults_order r, List.mem_append] at hf
  cases hOrder : r.order with
  | none => simp [hOrder, malformed, Request.sortKeys] at hf
  | some source =>
    rw [Option.getD_some]
    rcases hf with hf | hf
    · -- what could not be read is what is left over
      obtain ⟨d, hd, rfl⟩ := List.mem_map.mp hf
      rw [hOrder, Option.toList_some, List.flatMap_singleton] at hd
      obtain ⟨bs, hCovers⟩ := Parse.order_diagnostic_place hd
      exact Fault.pointsInto_of_covers hCovers rfl
    · -- what is refused is the operand of a sort key
      obtain ⟨o, ho, hFault⟩ := List.mem_filterMap.mp hf
      obtain ⟨t, ht, rfl⟩ := List.mem_map.mp ho
      rw [Request.sortKeys, hOrder] at ht
      obtain ⟨ts, sub, hLex, hSub, hOver⟩ := Parse.order_over ht
      exact pointsInto_of_fault? (o := t.occurrence) hLex hSub (.one hOver) hFault

/-- A rejection holds the two texts and all that is wrong with them. -/
theorem Request.rejection_eq {r : Request} {schema : Schema} {root : Root} {rejection : Rejection}
    (h : r.compile schema root = .error rejection) :
    rejection = ⟨r.expression, r.order, r.faults schema root⟩ := by
  have hFaults : r.faults schema root = rejection.faults := by
    rw [faults, h]
  -- without faults there is a statement and no rejection
  have hSome : r.faults schema root ≠ [] := by
    intro hNone
    rw [faults_eq_append, List.append_eq_nil_iff] at hNone
    rw [compile_of_faultless hNone.1 hNone.2] at h
    cases h
  rw [compile_of_faults (r.faults_eq_append schema root).symm hSome] at h
  exact (Except.error.inj h).symm

/-- **Faults point at the source.** Both ends of a fault's place are borders between characters of
the text of its clause. The place runs forward, unless the filter is unfinished and blanks stand at
its end, where the place goes from the end back over the blanks. What is refused is cut out of the
text by its place, and what is cut out reads back as the operand that the fault names. -/
theorem faults_point_at_source (r : Request) (schema : Schema) (root : Root) {rejection : Rejection}
    (h : r.compile schema root = .error rejection) {f : Fault} (hf : f ∈ rejection.faults) :
    f.PointsInto (rejection.sourceOf f.clause) := by
  obtain rfl := Request.rejection_eq h
  rw [Request.faults_eq_append, List.mem_append] at hf
  rcases hf with hf | hf
  · rw [Context.clause_of_mem_filter_faults _ hf]
    exact Context.filter_pointsInto rfl hf
  · rw [Context.clause_of_mem_order_faults _ hf]
    exact Context.order_pointsInto hf

/-- A request with a list where one value is needed, an open parenthesis before a wide blank, two
sort keys that are refused, and something left over behind them. -/
def pointedRequest : Request where
  expression := "'é' <> (1, my(\"naïve\").id) AND (\u2003"
  select := "x"
  order := some "labels('ü'), ordinal DESC id"

/-- The faults of that request. -/
def pointedFaults : List Fault :=
  [⟨.malformed "found end of input", .filter, ⟨37, 34⟩⟩,
    ⟨.misplaced "(1, my('naïve').id)" "a single value", .filter, ⟨8, 28⟩⟩,
    ⟨.malformed "unexpected input after expression", .order, ⟨27, 29⟩⟩,
    ⟨.misplaced "labels('ü')" "a single value", .order, ⟨0, 12⟩⟩,
    ⟨.unsupportedOperand "ordinal" .participant, .order, ⟨14, 21⟩⟩]

theorem pointedRequest_points :
    pointedRequest.compile awkwardSchema .participant =
        .error ⟨pointedRequest.expression, pointedRequest.order, pointedFaults⟩ ∧
      ∀ f ∈ pointedFaults, f.PointsInto (Rejection.sourceOf
        ⟨pointedRequest.expression, pointedRequest.order, pointedFaults⟩ f.clause) := by
  have hCompile : pointedRequest.compile awkwardSchema .participant =
      .error ⟨pointedRequest.expression, pointedRequest.order, pointedFaults⟩ :=
    Request.compile_of_faults (by decide +kernel) (List.cons_ne_nil _ _)
  exact ⟨hCompile, fun f hf => faults_point_at_source _ _ _ hCompile hf⟩

/-- A place can run backwards: an open parenthesis is all of this filter, and the fault starts
behind the blank and stops before it. -/
theorem unfinished_filter_points_backwards :
    ∃ rejection, Request.compile { expression := "( ", select := "x" } awkwardSchema .participant =
        .error rejection ∧
      ∃ f ∈ rejection.faults, f.span = ⟨2, 1⟩ ∧ ¬ f.span.start ≤ f.span.stop := by
  refine ⟨⟨"( ", none, [⟨.malformed "found end of input", .filter, ⟨2, 1⟩⟩]⟩, ?_, _,
    List.mem_singleton_self _, rfl, by decide⟩
  exact Request.compile_of_faults (by decide +kernel) (List.cons_ne_nil _ _)

end AnnotationQuery
