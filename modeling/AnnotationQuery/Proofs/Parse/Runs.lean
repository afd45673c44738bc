import AnnotationQuery.Parse.Order
import AnnotationQuery.Proofs.Parse.Accepted

/-!
# Trees over runs of tokens

Every node of a tree was read from a run of tokens, and its place goes from the first
of them to the last. `Expr.Over` says so for a whole tree, with a run for each node:
the runs of the parts follow each other inside the run of the whole. A text inside an
operand, such as a name, is the text of a single token of its run, at the place of that
token. Nothing is assumed about the text, so this holds of trees with malformed parts too.

Main results:

* `operand_over`, `comparand_over` — what stands in a term.
* `condition_over` — a condition and everything in it.
* `orderTerms_covers`, `orderTerms_over` — the sort keys of an order list.
-/

namespace AnnotationQuery

open Grammar
open Parse (Tokens values)
open Parse.Parser (hull)

/-! ## Runs -/

/-- The span around two runs and a token between them is the span around the two. -/
theorem Parse.hull_append_cons {run run' : Tokens} (hRun : run ≠ []) (hRun' : run' ≠ [])
    (t : Spanned Token) : hull (run ++ t :: run') = (hull run).hull (hull run') := by
  obtain ⟨first, more, rfl⟩ := List.exists_cons_of_ne_nil hRun
  obtain ⟨first', more', rfl⟩ := List.exists_cons_of_ne_nil hRun'
  -- the last token of the whole is the last one of the second run
  have hLast : (first :: more ++ t :: first' :: more').getLast? =
      (first' :: more').getLast? := by
    rw [List.getLast?_append_cons, List.getLast?_cons_cons]
  unfold Parse.Parser.hull
  rw [hLast, List.getLast?_eq_some_getLast hRun, List.getLast?_eq_some_getLast hRun']
  rfl

/-- The places are places of tokens of the run, in their order. -/
def Parse.TokenPlaces (places : List Span) (run : Tokens) : Prop :=
  places.Sublist (run.map Spanned.span)

/-- The places inside an operand: of the layer that it asks, or of an object and a part of it. -/
def Operand.places : Operand → List Span
  | layer _ layerId => [layerId.span]
  | member object part => [object.span, part.span]
  | literal _ | identifier _ | id | label | ordinal => []

/-- The text that a token brings into a tree: the value of a string, or a name. -/
def Parse.tokenText? : Token → Option String
  | .ident name => some name
  | t => stringValue? t

/-- The texts that the tokens of a run bring into a tree, at their places. -/
def Parse.tokenTexts (run : Tokens) : List (Spanned String) :=
  run.filterMap fun t => (tokenText? t.value).map (⟨·, t.span⟩)

/-- The texts in an operand, at their places: the id of a layer, names, the value of a string. -/
def operandTexts (o : Spanned Operand) : List (Spanned String) :=
  match o.value with
  | .layer _ layerId => [layerId]
  | .member object part => [object, part]
  | .literal (.string value) => [⟨value, o.span⟩]
  | .identifier name => [⟨name, o.span⟩]
  | .literal (.number _) | .id | .label | .ordinal => []

/-- The operand was read from the run, and the texts in it are those of tokens of the run. -/
structure OperandOver (o : Spanned Operand) (run : Tokens) : Prop where
  derives : Parse.OperandDerives o.value (values run)
  span : o.span = hull run
  texts : (operandTexts o).Sublist (Parse.tokenTexts run)

/-- The texts of a run are those of its first token and those of the others. -/
theorem Parse.tokenTexts_cons (t : Spanned Token) (run : Tokens) :
    tokenTexts (t :: run) = ((tokenText? t.value).map (⟨·, t.span⟩)).toList ++ tokenTexts run := by
  unfold tokenTexts
  rw [List.filterMap_cons]
  cases tokenText? t.value <;> rfl

/-- Texts of tokens stand at places of tokens, in their order. -/
theorem Parse.spans_tokenTexts (run : Tokens) :
    ((tokenTexts run).map Spanned.span).Sublist (run.map Spanned.span) := by
  induction run with
  | nil => exact List.Sublist.refl _
  | cons t run ih =>
    rw [tokenTexts_cons, List.map_append, List.map_cons]
    cases tokenText? t.value with
    | none => exact ih.cons _
    | some v => exact ih.cons_cons _

/-- A place inside an operand is the place of a text. -/
theorem OperandOver.places {o : Spanned Operand} {run : Tokens} (h : OperandOver o run) :
    Parse.TokenPlaces o.value.places run := by
  have hTexts : o.value.places.Sublist ((operandTexts o).map Spanned.span) := by
    obtain ⟨o, s⟩ := o
    cases o with
    | layer | member => exact List.Sublist.refl _
    | literal | identifier | id | label | ordinal => exact List.nil_sublist _
  exact (hTexts.trans (h.texts.map _)).trans (Parse.spans_tokenTexts run)

/-- No operand is read from nothing. -/
theorem OperandOver.ne_nil {o : Spanned Operand} {run : Tokens} (h : OperandOver o run) :
    run ≠ [] := by
  rintro rfl
  obtain ⟨form, hTokens, -⟩ := h.derives
  obtain ⟨t, w, hCons, -⟩ := form.exists_tokens_eq_cons
  rw [hCons] at hTokens
  cases hTokens

/-- The items were read from the run, each behind a comma. -/
inductive ItemsOver : List (Spanned Operand) → Tokens → Prop where
  | nil : ItemsOver [] []
  | cons {o : Spanned Operand} {os : List (Spanned Operand)} {s : Span} {run more : Tokens}
      (hItem : OperandOver o run) (hMore : ItemsOver os more) :
      ItemsOver (o :: os) (⟨.symbol .comma, s⟩ :: (run ++ more))

/-- The right side of a comparison was read from the run. -/
inductive ComparandOver : Spanned Comparand → Tokens → Prop where
  | one {o : Operand} {s : Span} {run : Tokens} (h : OperandOver ⟨o, s⟩ run) :
      ComparandOver ⟨.one o, s⟩ run
  | list {first : Spanned Operand} {items : List (Spanned Operand)} {s s' : Span}
      {run more : Tokens} (hFirst : OperandOver first run) (hMore : ItemsOver items more) :
      ComparandOver
        ⟨.list (first :: items),
          hull (⟨.symbol .lparen, s⟩ :: (run ++ more ++ [⟨.symbol .rparen, s'⟩]))⟩
        (⟨.symbol .lparen, s⟩ :: (run ++ more ++ [⟨.symbol .rparen, s'⟩]))

/-- What the items of a list were read from is derived as the items of a list. -/
theorem ItemsOver.derives {items : List (Spanned Operand)} {run : Tokens}
    (h : ItemsOver items run) : ∃ more : List OperandForm, itemTokens more = values run ∧
      more.map (fun o => ⟨o.tree, Span.nowhere⟩) =
        items.map (movedOperand fun _ => Span.nowhere) := by
  -- on the items, each with a comma before it
  induction h with
  | nil => exact ⟨[], rfl, rfl⟩
  | @cons o os s run more hItem hMore ih =>
    obtain ⟨form, hTokens, hTree⟩ := hItem.derives
    obtain ⟨forms, hForms, hTrees⟩ := ih
    refine ⟨form :: forms, ?_, ?_⟩
    · show .symbol .comma :: (form.tokens ++ itemTokens forms) = _
      rw [hTokens, hForms, ← Parse.values_append]
      rfl
    · rw [List.map_cons, List.map_cons, hTrees, hTree]
      rfl

/-- A list is derived from its run as well. -/
theorem ComparandOver.derives {c : Spanned Comparand} {run : Tokens} (h : ComparandOver c run) :
    Parse.RightDerives c (values run) := by
  cases h with
  | one h =>
    obtain ⟨form, hTokens, hTree⟩ := h.derives
    exact ⟨.one form, hTokens, congrArg Comparand.one hTree⟩
  | @list first items s s' run more hFirst hMore =>
    obtain ⟨form, hTokens, hTree⟩ := hFirst.derives
    obtain ⟨forms, hForms, hTrees⟩ := hMore.derives
    -- the tokens of the list are those of its items, in parentheses
    refine ⟨.list form forms, ?_, ?_⟩
    · show .symbol .lparen :: (form.tokens ++ itemTokens forms ++ [.symbol .rparen]) = _
      rw [hTokens, hForms, ← Parse.values_append]
      show _ = .symbol .lparen :: values (run ++ more ++ [_])
      rw [Parse.values_append (run ++ more)]
      rfl
    · rw [Right.tree, List.map_cons, hTrees, hTree]
      rfl

/-- The right side of a comparison stands where its run stands. -/
theorem ComparandOver.span_eq {c : Spanned Comparand} {run : Tokens} (h : ComparandOver c run) :
    c.span = hull run := by
  cases h with
  | one h => exact h.span
  | list => rfl

/-- No right side is read from nothing. -/
theorem ComparandOver.ne_nil {c : Spanned Comparand} {run : Tokens} (h : ComparandOver c run) :
    run ≠ [] := by
  cases h with
  | one h => exact h.ne_nil
  | list => exact List.cons_ne_nil _ _

namespace Expr

/-- The condition was read from the run, and its parts from runs inside it. -/
inductive Over : Expr → Tokens → Prop where
  | operand {o : Spanned Operand} {run : Tokens} (h : OperandOver o run) :
      Over (.operand (hull run) o) run
  | compare {lhs : Spanned Operand} {op : Spanned Comparison} {rhs : Spanned Comparand}
      {run run' run'' : Tokens} (hLhs : OperandOver lhs run)
      (hOp : values run' = comparisonTokens op.value) (hSpan : op.span = hull run')
      (hRhs : ComparandOver rhs run'') :
      Over (.compare (hull (run ++ (run' ++ run''))) lhs op rhs) (run ++ (run' ++ run''))
  | not {inner : Expr} {s : Span} {run : Tokens} (h : Over inner run) :
      Over (.not (hull (⟨.keyword .not, s⟩ :: run)) inner) (⟨.keyword .not, s⟩ :: run)
  | group {inner : Expr} {s s' : Span} {run : Tokens} (h : Over inner run) :
      Over (.group (hull (⟨.symbol .lparen, s⟩ :: (run ++ [⟨.symbol .rparen, s'⟩]))) inner)
        (⟨.symbol .lparen, s⟩ :: (run ++ [⟨.symbol .rparen, s'⟩]))
  | and {lhs rhs : Expr} {s : Span} {run run' : Tokens} (hLhs : Over lhs run)
      (hRhs : Over rhs run') :
      Over (.and (hull (run ++ ⟨.keyword .and, s⟩ :: run')) lhs rhs)
        (run ++ ⟨.keyword .and, s⟩ :: run')
  | or {lhs rhs : Expr} {s : Span} {run run' : Tokens} (hLhs : Over lhs run)
      (hRhs : Over rhs run') :
      Over (.or (hull (run ++ ⟨.keyword .or, s⟩ :: run')) lhs rhs)
        (run ++ ⟨.keyword .or, s⟩ :: run')
  | malformed {run : Tokens} (h : run ≠ []) : Over (.malformed (hull run)) run

variable {e : Expr} {run : Tokens}

/-- No condition is read from nothing. -/
theorem Over.ne_nil (h : e.Over run) : run ≠ [] := by
  cases h with
  | operand h => exact h.ne_nil
  | compare hLhs => exact List.append_ne_nil_of_left_ne_nil hLhs.ne_nil _
  | not => exact List.cons_ne_nil _ _
  | group => exact List.cons_ne_nil _ _
  | and => exact List.append_ne_nil_of_right_ne_nil _ (List.cons_ne_nil _ _)
  | or => exact List.append_ne_nil_of_right_ne_nil _ (List.cons_ne_nil _ _)
  | malformed h => exact h

theorem Over.span_eq (h : e.Over run) : e.span = hull run := by
  cases h <;> rfl

/-- Two conditions joined by a connective. -/
theorem Over.join {e' : Expr} {run' : Tokens} {k : Connective} {s : Span} (h : e.Over run)
    (h' : e'.Over run') : (k.join e e').Over (run ++ ⟨k.token, s⟩ :: run') := by
  -- the span of the two is the span around both and the connective
  have hHull := Parse.hull_append_cons h.ne_nil h'.ne_nil ⟨k.token, s⟩
  rw [← h.span_eq, ← h'.span_eq] at hHull
  cases k with
  | and =>
    show Over (Expr.and (e.span.hull e'.span) e e') _
    rw [← hHull]
    exact .and h h'
  | or =>
    show Over (Expr.or (e.span.hull e'.span) e e') _
    rw [← hHull]
    exact .or h h'

end Expr

namespace Parse

open AnnotationQuery.Parse.Parser

/-! ## Inside an operand -/

theorem tokenTexts_append (run run' : Tokens) :
    tokenTexts (run ++ run') = tokenTexts run ++ tokenTexts run' :=
  List.filterMap_append

/-- Other tokens may stand around the run. -/
theorem texts_between {texts : List (Spanned String)} {run : Tokens}
    (h : texts.Sublist (tokenTexts run)) (before after : Tokens) :
    texts.Sublist (tokenTexts (before ++ (run ++ after))) := by
  rw [tokenTexts_append, tokenTexts_append]
  exact (h.trans (List.sublist_append_left _ _)).trans (List.sublist_append_right _ _)

/-- The text of one token, at the place of this token. -/
theorem accept_texts {read : Token → Option String}
    (hRead : ∀ t v, read t = some v → tokenText? t = some v) :
    (accept read).Covers fun v run => [v].Sublist (tokenTexts run) ∧ v.span = hull run := by
  refine covers_accept fun t v hv => ⟨?_, rfl⟩
  rw [tokenTexts_cons, hRead t.value v hv]
  exact List.Sublist.refl _

/-- A string brings its value into the tree. -/
theorem string_texts :
    string.Covers fun v run => [v].Sublist (tokenTexts run) ∧ v.span = hull run := by
  refine accept_texts fun t v hv => ?_
  cases t with
  | ident => cases hv
  | _ => exact hv

/-- A name brings itself into the tree. -/
theorem name_texts :
    name.Covers fun v run => [v].Sublist (tokenTexts run) ∧ v.span = hull run := by
  refine accept_texts fun t v hv => ?_
  cases t with
  | ident => exact hv
  | _ => cases hv

/-- A layer in parentheses brings its id into the tree. -/
theorem layerArgument_texts : layerArgument.Covers fun v run => [v].Sublist (tokenTexts run) := by
  refine covers_exactly.bind fun _ before _ => string_texts.bind fun v run hv => ?_
  refine covers_exactly.bind fun _ after _ => covers_pure ?_
  rw [List.append_nil]
  exact texts_between hv.1 before after

/-- The text inside a function of a layer is the id of the layer, whatever comes after it. -/
theorem layerCall_texts {name : String} {after : Spanned String → Parser Operand}
    [∀ v, (after v).Steady]
    (h : ∀ v, (after v).Covers fun o _ => ∀ s, operandTexts ⟨o, s⟩ = [v]) :
    (layerCall name after).Covers fun o run =>
      (operandTexts ⟨o, hull run⟩).Sublist (tokenTexts run) := by
  refine covers_exactly.bind fun _ before _ => layerArgument_texts.bind fun v run hv => ?_
  refine (h v).mono fun o behind ho => ?_
  rw [ho]
  exact texts_between hv before behind

/-- Of a name and its part, at most the two are texts of the operand. -/
theorem texts_memberOf (object part : Spanned String) (s : Span) :
    (operandTexts ⟨memberOf object part, s⟩).Sublist [object, part] := by
  unfold memberOf
  repeat' split
  all_goals simp [operandTexts]

/-- Of a bare name, at most the name is a text of the operand. -/
theorem texts_named (name : String) (s : Span) :
    (operandTexts ⟨named name, s⟩).Sublist [⟨name, s⟩] := by
  unfold named
  repeat' split
  all_goals simp [operandTexts]

/-- The texts of a name with a part are those of its tokens. -/
theorem memberAccess_texts : memberAccess.Covers fun o run =>
    (operandTexts ⟨o, hull run⟩).Sublist (tokenTexts run) := by
  refine name_texts.bind fun object run hObject => ?_
  refine covers_exactly.bind fun _ dot _ => ?_
  refine name_texts.bind fun part run' hPart => covers_pure ?_
  rw [List.append_nil, tokenTexts_append, tokenTexts_append]
  exact (texts_memberOf object part _).trans
    (hObject.1.append (hPart.1.trans (List.sublist_append_right _ _)))

/-- An operand that is one token is at the place of its text. -/
theorem bareName_texts : bareName.Covers fun o run =>
    (operandTexts ⟨o, hull run⟩).Sublist (tokenTexts run) := by
  refine name_texts.bind fun v run hv => covers_pure ?_
  rw [List.append_nil, ← hv.2]
  exact (texts_named v.value v.span).trans hv.1

/-- The text of a literal, if it has one, is that of its token. -/
theorem literal_texts : literal.Covers fun o run =>
    (operandTexts ⟨o, hull run⟩).Sublist (tokenTexts run) := by
  refine Covers.orElse (string_texts.bind fun v run hv => covers_pure ?_) ?_
  · rw [List.append_nil, ← hv.2]
    exact hv.1
  · have hNumber : number.Covers fun _ _ => True := covers_accept fun _ _ _ => trivial
    exact hNumber.bind fun _ _ _ => covers_pure (List.nil_sublist _)

/-- The texts of an operand are texts of its tokens, in their order, whatever its form. -/
theorem operandForm_texts : operandForm.Covers fun o run =>
    (operandTexts ⟨o, hull run⟩).Sublist (tokenTexts run) := by
  -- one case for each of the four functions of a layer, which show one text each
  refine Covers.orElse ?_ (Covers.orElse ?_ (Covers.orElse ?_ (Covers.orElse ?_
    (memberAccess_texts.orElse (bareName_texts.orElse literal_texts)))))
  · rw [myFunction_eq]
    refine layerCall_texts fun v => covers_exactly.bind fun _ _ _ => ?_
    have hPart : ∀ t f, (do exactly t; return f : Parser LayerFunction).Covers fun _ _ => True :=
      fun t f => covers_exactly.bind fun _ _ _ => covers_pure trivial
    exact ((hPart _ .label).orElse (hPart _ .id)).bind fun _ _ _ => covers_pure fun _ => rfl
  · rw [listFunction_eq]
    exact layerCall_texts fun v => covers_exactly.bind fun _ _ _ => covers_exactly.bind
      fun _ _ _ => covers_pure fun _ => rfl
  · rw [labelsFunction_eq]
    have hLength : (Parser.optional (do symbol .dot; word "length")).Covers fun _ _ => True :=
      Covers.optional (covers_exactly.bind fun _ _ _ => covers_exactly.mono fun _ _ _ => trivial)
        trivial
    exact layerCall_texts fun v => hLength.bind fun _ _ _ => covers_pure fun _ => rfl
  · rw [annotatorsFunction_eq]
    exact layerCall_texts fun v => covers_pure fun _ => rfl

theorem operand_texts : operand.Covers fun o run =>
    (operandTexts o).Sublist (tokenTexts run) :=
  Covers.located operandForm_texts

/-! ## Terms -/

/-- What is read can be described in two ways at once. -/
theorem covers_and {β : Type} {p : Parser β} {R S : β → Tokens → Prop} (hR : p.Covers R)
    (hS : p.Covers S) : p.Covers fun x run => R x run ∧ S x run := by
  intro ts x rest hRead
  obtain ⟨run, rfl, hRun⟩ := hR hRead
  obtain ⟨run', hSplit, hRun'⟩ := hS hRead
  -- the run is what is taken off, so there is only one
  cases List.append_cancel_right hSplit
  exact ⟨run, rfl, hRun, hRun'⟩

/-- What is located has the place of its run. -/
theorem covers_located {β : Type} {p : Parser β} {R : Spanned β → List Token → Prop}
    (h : (located p).Takes R) :
    (located p).Covers fun x run => R x (values run) ∧ x.span = hull run := by
  intro ts x rest hRead
  obtain ⟨run, rfl, hR⟩ := h hRead
  refine ⟨run, rfl, hR, ?_⟩
  rw [outcome_located] at hRead
  obtain ⟨r, -, hEq⟩ := Option.map_eq_some_iff.mp hRead
  cases hEq
  rw [consumed_append]

/-- An operand is read from its run. -/
theorem operand_over : operand.Covers OperandOver :=
  (covers_and (covers_located operand_takes) operand_texts).mono fun _ _ h => ⟨h.1.1, h.1.2, h.2⟩

/-- The items of a list are read from their run, each behind a comma. -/
theorem items_over : (many (do symbol .comma; operand)).Covers ItemsOver := by
  -- one item with its comma
  have hItem : (do symbol .comma; operand : Parser (Spanned Operand)).Covers
      fun o run => ∃ s run', run = ⟨.symbol .comma, s⟩ :: run' ∧ OperandOver o run' := by
    refine covers_exactly.bind fun _ _ hComma => operand_over.mono fun o run' ho => ?_
    obtain ⟨s, rfl⟩ := hComma
    exact ⟨s, run', rfl, ho⟩
  refine hItem.many .nil fun o run os more ho hos => ?_
  obtain ⟨s, run', rfl, ho⟩ := ho
  exact .cons ho hos

/-- The right side of a comparison is read from its run. -/
theorem comparand_over : comparand.Covers ComparandOver := by
  have hList : operandList.Covers ComparandOver := by
    refine Covers.located ?_
    refine covers_exactly.bind fun _ _ hOpen => ?_
    -- the first item has no comma before it
    have hItems : (separatedBy operand (symbol .comma)).Covers fun os run =>
        ∃ first items r rs, os = first :: items ∧ run = r ++ rs ∧ OperandOver first r ∧
          ItemsOver items rs := by
      refine operand_over.bind fun first r hFirst => items_over.bind fun items rs hMore => ?_
      exact covers_pure ⟨first, items, r, rs, rfl, by rw [List.append_nil], hFirst, hMore⟩
    refine hItems.bind fun os run hOs => covers_exactly.bind fun _ _ hClose => covers_pure ?_
    obtain ⟨s, rfl⟩ := hOpen
    obtain ⟨s', rfl⟩ := hClose
    obtain ⟨first, items, r, rs, rfl, rfl, hFirst, hMore⟩ := hOs
    exact .list hFirst hMore
  refine hList.orElse (operand_over.bind fun o run ho => covers_pure ?_)
  rw [List.append_nil]
  exact .one ho

/-- A predicate is read from its run, and its operands from parts of it. -/
theorem predicate_over : predicate.Covers fun g run => (g (hull run)).Over run := by
  rw [predicate_eq]
  refine operand_over.bind fun lhs run hLhs => ?_
  have hTail : comparisonTail.Covers fun t run' => ∃ r r', run' = r ++ r' ∧
      values r = comparisonTokens t.1.value ∧ t.1.span = hull r ∧ ComparandOver t.2 r' := by
    refine (covers_located comparison_takes).bind fun op r hOp => ?_
    refine comparand_over.bind fun rhs r' hRhs => covers_pure ?_
    exact ⟨r, r', by rw [List.append_nil], hOp.1, hOp.2, hRhs⟩
  -- with a tail the run goes on, without one it is the operand's
  have hWhole : (Parser.optional comparisonTail).Covers fun c run' =>
      (compared lhs c (hull (run ++ run'))).Over (run ++ run') := by
    refine Covers.optional (hTail.mono fun t run' ht => ?_) ?_
    · obtain ⟨r, r', rfl, hOp, hSpan, hRhs⟩ := ht
      exact .compare hLhs hOp hSpan hRhs
    · rw [List.append_nil]
      exact .operand hLhs
  refine hWhole.bind fun c run' hc => covers_pure ?_
  rw [List.append_nil]
  exact hc

/-! ## Conditions -/

section
variable {c : Parser Expr} [Composed .conditions c]

/-- A group is read from its run, and its condition from what stands inside. -/
theorem group_over (hc : c.Covers Expr.Over) :
    (group c).Covers fun g run => (g (hull run)).Over run := by
  refine Covers.recover ?_ ?_
  · refine covers_exactly.bind fun _ _ hOpen => hc.bind fun inner run hInner => ?_
    refine covers_exactly.bind fun _ _ hClose => covers_pure ?_
    obtain ⟨s, rfl⟩ := hOpen
    obtain ⟨s', rfl⟩ := hClose
    exact .group hInner
  · -- the stand-in skips at least a parenthesis
    have hSkipped : balanced.Covers fun _ run => run ≠ [] :=
      Covers.mono balanced_takes fun _ _ h => by rintro rfl; exact h rfl
    refine hSkipped.bind fun _ run hRun => covers_pure ?_
    rw [List.append_nil]
    exact .malformed hRun

/-- A term is read from its run, also a skipped one. -/
theorem term_over (hc : c.Covers Expr.Over) : (term c).Covers Expr.Over := by
  refine Covers.withSpan (Covers.recover ((group_over hc).orElse predicate_over) ?_)
  have hToken : skippedToken.Covers fun _ run => run ≠ [] :=
    Covers.mono skippedToken_takes fun _ _ h => by rintro rfl; exact h rfl
  have hMore : (many skippedToken).Covers fun _ _ => True :=
    hToken.many trivial fun _ _ _ _ _ _ => trivial
  -- at least one token is skipped, so a malformed part covers something
  have hSkipped : (atLeastOne skippedToken).Covers fun _ run => run ≠ [] :=
    hToken.bind fun _ _ hFirst => hMore.bind fun _ _ _ =>
      covers_pure (List.append_ne_nil_of_left_ne_nil hFirst _)
  refine hSkipped.bind fun _ run hRun => covers_pure ?_
  rw [List.append_nil]
  exact .malformed hRun

/-- A negation is read from its run, and what it negates from the rest of that. -/
theorem negation_over (hc : c.Covers Expr.Over) : (negation c).Covers Expr.Over := by
  -- by induction on the bound of negations
  have hBounded : ∀ bound, (negationUpTo c bound).Covers Expr.Over := by
    intro bound
    induction bound with
    | zero => exact covers_stop
    | succ bound ih =>
      refine Covers.orElse (Covers.withSpan ?_) (term_over hc)
      refine covers_exactly.bind fun _ _ hNot => ih.bind fun inner run hInner => covers_pure ?_
      obtain ⟨s, rfl⟩ := hNot
      rw [List.append_nil]
      exact .not hInner
  intro ts e rest hRead
  rw [outcome_negation_eq_upTo] at hRead
  exact hBounded _ hRead

end

/-- A chain of either connective. Each member goes on where the one before it ends. -/
theorem chain_over {k : Connective} {p : Parser Expr} [p.Steady] (hp : p.Covers Expr.Over) :
    (chain p (exactly k.token) k.join).Covers Expr.Over := by
  -- the members so far are a condition over the tokens so far, and the next one is joined to it
  have hMore : (many (do exactly k.token; p)).Covers fun es more =>
      ∀ e run, e.Over run → (es.foldl k.join e).Over (run ++ more) := by
    refine Covers.many (R := fun e run => ∃ s run', run = ⟨k.token, s⟩ :: run' ∧ e.Over run')
      ?_ ?_ ?_
    · refine covers_exactly.bind fun _ _ hToken => hp.mono fun e run' he => ?_
      obtain ⟨s, rfl⟩ := hToken
      exact ⟨s, run', rfl, he⟩
    · intro e run he
      rw [List.append_nil]
      exact he
    · intro e' run' es more hMember hRest e run he
      obtain ⟨s, run'', rfl, he'⟩ := hMember
      have hJoined := hRest _ _ (Expr.Over.join (k := k) (s := s) he he')
      rw [List.append_assoc] at hJoined
      exact hJoined
  refine hp.bind fun e run he => hMore.bind fun es more hes => covers_pure ?_
  rw [List.append_nil]
  exact hes e run he

theorem conditionUpTo_over (bound : Nat) : (conditionUpTo bound).Covers Expr.Over := by
  induction bound with
  | zero => exact covers_stop
  | succ bound ih => exact chain_over (k := .or) (chain_over (k := .and) (negation_over ih))

/-- Whatever is read as a condition stands over the tokens that were taken for it. -/
theorem condition_over : condition.Covers Expr.Over := by
  intro ts e rest hRead
  rw [outcome_condition_eq_upTo] at hRead
  exact conditionUpTo_over _ hRead

/-! ## Order lists -/

/-- What can be said of no sort key, of one, and of two lists of them together can be said of an
order list. Behind the operand of a sort key there may be more tokens of its own. -/
theorem orderTerms_covers {S : List OrderTerm → Tokens → Prop} (hNil : ∀ run, S [] run)
    (hOne : ∀ t run after, OperandOver t.operand run → S [t] (run ++ after))
    (hAppend : ∀ ⦃terms run terms' run'⦄, S terms run → S terms' run' →
      S (terms ++ terms') (run ++ run')) : orderTerms.Covers S := by
  -- a direction takes tokens but adds no operand
  have hTerm : orderTerm.Covers fun t run => S [t] run := by
    refine operand_over.bind fun o run ho => ?_
    have hDirection : (Parser.optional direction).Covers fun _ _ => True := by
      have hWord : ∀ k b, (do keyword k; return b : Parser Bool).Covers fun _ _ => True :=
        fun k b => covers_exactly.bind fun _ _ _ => covers_pure trivial
      exact Covers.optional ((hWord .asc false).orElse (hWord .desc true)) trivial
    refine hDirection.bind fun d after _ => covers_pure ?_
    rw [List.append_nil]
    exact hOne _ run after ho
  -- a comma takes a token, and the empty list covers it
  have hMore : (many (do symbol .comma; orderTerm)).Covers S := by
    refine Covers.many (R := fun t run => S [t] run) ?_ (hNil _)
      fun t run ts more ht hts => hAppend ht hts
    exact covers_exactly.bind fun _ run _ => hTerm.mono fun t run' ht => hAppend (hNil run) ht
  have hTerms : (separatedBy orderTerm (symbol .comma)).Covers S := by
    refine hTerm.bind fun t run ht => hMore.bind fun ts more hts => covers_pure ?_
    rw [List.append_nil]
    exact hAppend ht hts
  have hOptional : (Parser.optional (separatedBy orderTerm (symbol .comma))).Covers
      fun terms run => S (terms.getD []) run :=
    Covers.optional hTerms (hNil _)
  refine hOptional.bind fun terms run h => covers_pure ?_
  rw [List.append_nil]
  exact h

/-- Each of the sort keys was read from a part of the run. -/
def TermsOver (terms : List OrderTerm) (run : Tokens) : Prop :=
  ∀ t ∈ terms, ∃ sub, sub <:+: run ∧ OperandOver t.operand sub

/-- Every sort key stands over tokens of the list. -/
theorem orderTerms_over : orderTerms.Covers TermsOver := by
  refine orderTerms_covers (fun run t ht => (nomatch ht)) (fun t run after ho u hu => ?_)
    fun terms run terms' run' h h' t ht => ?_
  · rw [List.mem_singleton] at hu
    subst hu
    exact ⟨run, (List.prefix_append _ _).isInfix, ho⟩
  · rcases List.mem_append.mp ht with ht | ht
    · obtain ⟨sub, hSub, ho⟩ := h t ht
      exact ⟨sub, hSub.trans (List.prefix_append _ _).isInfix, ho⟩
    · obtain ⟨sub, hSub, ho⟩ := h' t ht
      exact ⟨sub, hSub.trans (List.suffix_append _ _).isInfix, ho⟩

end Parse

end AnnotationQuery
