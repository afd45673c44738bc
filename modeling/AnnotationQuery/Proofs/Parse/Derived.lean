import AnnotationQuery.Proofs.Parse.Composed
import AnnotationQuery.Proofs.Parse.Outcome
import AnnotationQuery.Proofs.Parse.Place

/-!
# What is read is derived

Every parser takes a word off the front of the tokens. For a condition without
malformed parts that word has a derivation in the grammar, and the derivation has the
condition as its tree. With malformed parts nothing is said about the word, except
that it is not empty: there is always progress, and so the bounds on repetition and
nesting are never reached.

The contracts are proved from the operands up. A chain is treated once, for both
connectives.

Main results:

* `operand_takes`, `predicate_takes` — terms.
* `condition_takes` — conditions.
-/

namespace AnnotationQuery.Parse

open AnnotationQuery.Parse.Parser
open AnnotationQuery.Grammar

/-! ## No parser looks at the notes -/

/-- Single tokens are read whatever the notes are, and no combinator looks at them. -/
theorem steady_closed : ClosedOnConditions @Steady where
  pure _ := inferInstance
  bind hp hf := hp.bind hf
  accept _ := inferInstance
  orElse _ _ := inferInstance
  optional _ := inferInstance
  withSpan _ := inferInstance
  enclosed _ _ := inferInstance
  items _ := inferInstance
  acceptOpen _ := inferInstance
  stop := inferInstance
  recover _ _ := inferInstance
  many _ := inferInstance
  -- a bound is chosen from the tokens, before the notes are looked at
  bounded h := ⟨fun ts => (h (ts.length + 1)).result_congr ts⟩
  balanced _ := inferInstance
  skipped := by
    refine ⟨fun ts n n' => ?_⟩
    cases ts with
    | nil => rfl
    | cons t ts =>
      dsimp only [skippedToken]
      cases endsTerm t.value <;> rfl

-- what is put together from steady parsers by hand is found before what the grammar says
instance (priority := low) {α : Type} {p : Parser α} [hp : Composed .conditions p] : p.Steady :=
  hp.has @Steady steady_closed

instance (s : Symbol) (c : Comparison) : (comparisonSymbol s c).Steady := by
  delta comparisonSymbol
  infer_instance

/-! ## Operands -/

/-- A string is read off a string token, quotes aside. -/
theorem string_takes :
    string.Takes fun v w => ∃ t : StringToken, w = [t.token] ∧ v.value = t.value := by
  refine takes_accept fun t v s hv => ?_
  cases t <;> cases hv
  · exact ⟨.single _, rfl, rfl⟩
  · exact ⟨.double _, rfl, rfl⟩

theorem number_takes : number.Takes fun v w => w = [.number v.value] := by
  refine takes_accept fun t v s hv => ?_
  cases t <;> cases hv
  rfl

theorem name_takes : name.Takes fun v w => w = [.ident v.value] := by
  refine takes_accept fun t v s hv => ?_
  cases t <;> cases hv
  rfl

/-- A layer is a string in parentheses. -/
theorem layerArgument_takes :
    layerArgument.Takes fun v w => ∃ t : StringToken,
      w = [.symbol .lparen, t.token, .symbol .rparen] ∧ v.value = t.value := by
  refine takes_exactly.bind fun _ _ hOpen => ?_
  refine Takes.bind string_takes fun v _ hString => ?_
  refine takes_exactly.bind fun _ _ hClose => takes_pure ?_
  obtain ⟨t, rfl, hv⟩ := hString
  exact ⟨t, by rw [hOpen, hClose]; rfl, hv⟩

/-- The word is derived as an operand, and the operand is its tree. -/
def OperandDerives (o : Operand) (w : List Token) : Prop :=
  ∃ form : OperandForm, form.tokens = w ∧ form.tree = o.moved fun _ => Span.nowhere

/-- `my('L').label` and `my('L').id` are derived. -/
theorem myFunction_takes : myFunction.Takes OperandDerives := by
  refine takes_exactly.bind fun _ _ hName => ?_
  refine Takes.bind layerArgument_takes fun v _ hLayer => ?_
  refine takes_exactly.bind fun _ _ hDot => ?_
  -- the two alternatives are the two parts of the grammar
  have hPart : ((do word "label"; return LayerFunction.label) <|>
      (do word "id"; return LayerFunction.id) : Parser LayerFunction).Takes
        fun f w => ∃ part : Part, w = [.ident part.name] ∧ f = part.function :=
    (takes_exactly.bind fun _ _ h => takes_pure ⟨.label, by rw [h]; rfl, rfl⟩).orElse
      (takes_exactly.bind fun _ _ h => takes_pure ⟨.id, by rw [h]; rfl, rfl⟩)
  refine hPart.bind fun f _ hFunction => takes_pure ?_
  obtain ⟨t, rfl, hv⟩ := hLayer
  obtain ⟨part, rfl, rfl⟩ := hFunction
  refine ⟨.my t part, by rw [hName, hDot]; rfl, ?_⟩
  rw [Operand.moved, Spanned.moved, hv]
  rfl

/-- `list('L').length` is derived. -/
theorem listFunction_takes : listFunction.Takes OperandDerives := by
  refine takes_exactly.bind fun _ _ hName => ?_
  refine Takes.bind layerArgument_takes fun v _ hLayer => ?_
  refine takes_exactly.bind fun _ _ hDot => ?_
  refine takes_exactly.bind fun _ _ hLength => takes_pure ?_
  obtain ⟨t, rfl, hv⟩ := hLayer
  refine ⟨.list t, by rw [hName, hDot, hLength]; rfl, ?_⟩
  rw [Operand.moved, Spanned.moved, hv]
  rfl

/-- `labels('L')` is derived, with or without its length. -/
theorem labelsFunction_takes : labelsFunction.Takes OperandDerives := by
  refine takes_exactly.bind fun _ _ hName => ?_
  refine Takes.bind layerArgument_takes fun v _ hLayer => ?_
  -- what is optional decides between the two forms
  have hLength : (Parser.optional (do symbol .dot; word "length")).Takes
      fun l w => w = if l.isSome then OperandForm.dotted "length" else [] := by
    refine Takes.optional ?_ rfl
    exact takes_exactly.bind fun _ _ hDot => takes_exactly.mono fun _ _ h => by rw [hDot, h]; rfl
  refine hLength.bind fun l _ hTail => takes_pure ?_
  obtain ⟨t, rfl, hv⟩ := hLayer
  refine ⟨.labels t l.isSome, by rw [hName, hTail, List.append_nil]; rfl, ?_⟩
  rw [Operand.moved, Spanned.moved, hv]
  cases l <;> rfl

/-- `annotators('L')` is derived. -/
theorem annotatorsFunction_takes : annotatorsFunction.Takes OperandDerives := by
  refine takes_exactly.bind fun _ _ hName => ?_
  refine Takes.bind layerArgument_takes fun v _ hLayer => takes_pure ?_
  obtain ⟨t, rfl, hv⟩ := hLayer
  refine ⟨.annotators t, by rw [hName]; rfl, ?_⟩
  rw [Operand.moved, Spanned.moved, hv]
  rfl

/-- A name with a part means the same in the grammar and to the parser, also where the part makes it
a function of a layer. -/
theorem tree_member (object part : Spanned String) :
    (OperandForm.member object.value part.value).tree =
      (memberOf object part).moved fun _ => Span.nowhere := by
  unfold OperandForm.tree memberOf
  split <;> simp_all [Operand.moved, Spanned.moved, OperandForm.layer]

theorem tree_bare (name : String) :
    (OperandForm.bare name).tree = (named name).moved fun _ => Span.nowhere := by
  unfold OperandForm.tree named
  split <;> simp_all [Operand.moved]

/-- A name with a part is derived. -/
theorem memberAccess_takes : memberAccess.Takes OperandDerives := by
  refine Takes.bind name_takes fun object _ hObject => ?_
  refine takes_exactly.bind fun _ _ hDot => ?_
  refine Takes.bind name_takes fun part _ hPart => takes_pure ?_
  exact ⟨.member object.value part.value, by rw [hObject, hDot, hPart]; rfl,
    tree_member object part⟩

theorem bareName_takes : bareName.Takes OperandDerives :=
  Takes.bind name_takes fun n _ hName =>
    takes_pure ⟨.bare n.value, by rw [hName]; rfl, tree_bare n.value⟩

/-- A literal is derived. -/
theorem literal_takes : literal.Takes OperandDerives := by
  refine Takes.orElse (Takes.bind string_takes fun v _ hString => takes_pure ?_)
    (Takes.bind number_takes fun v _ hNumber => takes_pure ?_)
  · obtain ⟨t, rfl, hv⟩ := hString
    exact ⟨.string t, rfl, by rw [hv]; rfl⟩
  · exact ⟨.number v.value, by rw [hNumber]; rfl, rfl⟩

/-- Every operand that is read is derived. -/
theorem operand_takes : operand.Takes fun o w => OperandDerives o.value w := by
  refine Takes.located (Takes.mono (R := OperandDerives) ?_ fun o w h _ => h)
  -- the order in which the forms are tried does not matter here: whichever is read is derived
  exact Takes.orElse myFunction_takes <| Takes.orElse listFunction_takes <|
    Takes.orElse labelsFunction_takes <| Takes.orElse annotatorsFunction_takes <|
    Takes.orElse memberAccess_takes <| Takes.orElse bareName_takes literal_takes

/-! ## Comparisons -/

/-- A comparison takes its own word. -/
theorem comparison_takes : comparison.Takes fun c w => w = comparisonTokens c.value := by
  -- every alternative is the word of its comparison, one or two tokens
  have hOne : ∀ (t : Token) (c : Comparison), comparisonTokens c = [t] →
      (do exactly t; return c : Parser Comparison).Takes fun c w => w = comparisonTokens c :=
    fun t c hc => takes_exactly.bind fun _ _ h => takes_pure (by rw [h, hc]; rfl)
  have hTwo : ∀ (t u : Token) (c : Comparison), comparisonTokens c = [t, u] →
      (do exactly t; exactly u; return c : Parser Comparison).Takes
        fun c w => w = comparisonTokens c :=
    fun t u c hc => takes_exactly.bind fun _ _ ht => takes_exactly.bind fun _ _ hu =>
      takes_pure (by rw [ht, hu, hc]; rfl)
  refine Takes.located (Takes.mono (R := fun c w => w = comparisonTokens c) ?_ fun _ _ h _ => h)
  exact (hOne _ _ rfl).orElse <| (hOne _ _ rfl).orElse <| (hOne _ _ rfl).orElse <|
    (hOne _ _ rfl).orElse <| (hOne _ _ rfl).orElse <| (hOne _ _ rfl).orElse <|
    (hOne _ _ rfl).orElse <| (hTwo _ _ _ rfl).orElse <| (hTwo _ _ _ rfl).orElse <| hOne _ _ rfl

/-- The word is derived as the right side of a comparison. -/
def RightDerives (c : Spanned Comparand) (w : List Token) : Prop :=
  ∃ r : Right, r.tokens = w ∧ r.tree = c.value.moved fun _ => Span.nowhere

/-- The operands behind the commas of a list are derived, one by one. -/
theorem items_take :
    (many (do symbol .comma; operand)).Takes fun os w => ∃ more : List OperandForm,
      itemTokens more = w ∧
        more.map (fun o => ⟨o.tree, Span.nowhere⟩) =
          os.map (movedOperand fun _ => Span.nowhere) := by
  -- an item is a comma and an operand form
  have hItem : (do symbol .comma; operand : Parser (Spanned Operand)).Takes
      fun o w => ∃ form : OperandForm, .symbol .comma :: form.tokens = w ∧
        form.tree = o.value.moved fun _ => Span.nowhere := by
    refine takes_exactly.bind fun _ _ hComma => Takes.mono operand_takes fun o w hOperand => ?_
    obtain ⟨form, rfl, hTree⟩ := hOperand
    exact ⟨form, by rw [hComma]; rfl, hTree⟩
  refine hItem.many ⟨[], rfl, rfl⟩ ?_
  rintro o _ os _ ⟨form, rfl, hTree⟩ ⟨more, rfl, hTrees⟩
  refine ⟨form :: more, rfl, ?_⟩
  rw [List.map_cons, List.map_cons, hTrees, hTree]
  rfl

/-- A list in parentheses is derived. -/
theorem operandList_takes : operandList.Takes RightDerives := by
  refine Takes.located ?_
  refine takes_exactly.bind fun _ _ hOpen => ?_
  -- the first operand has no comma before it
  have hItems : (separatedBy operand (symbol .comma)).Takes fun os w =>
      ∃ first more, first.tokens ++ itemTokens more = w ∧
        (first :: more).map (fun o => ⟨o.tree, Span.nowhere⟩) =
          os.map (movedOperand fun _ => Span.nowhere) := by
    refine Takes.bind operand_takes fun o _ hFirst => Takes.bind items_take fun os _ hMore => ?_
    refine takes_pure ?_
    obtain ⟨first, rfl, hTree⟩ := hFirst
    obtain ⟨more, rfl, hTrees⟩ := hMore
    refine ⟨first, more, by rw [List.append_nil], ?_⟩
    rw [List.map_cons, List.map_cons, hTrees, hTree]
    rfl
  refine hItems.bind fun os _ hList => takes_exactly.bind fun _ _ hClose => takes_pure fun s => ?_
  obtain ⟨first, more, rfl, hTrees⟩ := hList
  refine ⟨.list first more, by rw [hOpen, hClose]; rfl, ?_⟩
  rw [Right.tree, hTrees]
  rfl

theorem comparand_takes : comparand.Takes RightDerives := by
  refine Takes.orElse operandList_takes (Takes.bind operand_takes fun o _ hOperand => takes_pure ?_)
  obtain ⟨form, rfl, hTree⟩ := hOperand
  exact ⟨.one form, (List.append_nil _).symm, by rw [Right.tree, hTree]; rfl⟩

/-- A comparison and its right side are derived together. -/
theorem comparisonTail_takes :
    comparisonTail.Takes fun t w => ∃ r : Right, comparisonTokens t.1.value ++ r.tokens = w ∧
      r.tree = t.2.value.moved fun _ => Span.nowhere := by
  refine Takes.bind comparison_takes fun op _ hOp => Takes.bind comparand_takes fun rhs _ hRhs =>
    takes_pure ?_
  obtain ⟨r, rfl, hTree⟩ := hRhs
  exact ⟨r, by rw [hOp, List.append_nil], hTree⟩

/-- An operand, compared or not, is derived, and it has no malformed part. -/
theorem predicate_takes :
    predicate.Takes fun g w => ∃ lhs tail, lhs.tokens ++ tailTokens tail = w ∧
      ∀ s, (g s).malformedParts = 0 ∧ (g s).unplaced = predicateTree lhs tail := by
  rw [predicate_eq]
  refine Takes.bind operand_takes fun o _ hOperand => ?_
  obtain ⟨lhs, rfl, hTree⟩ := hOperand
  have hAlone : ∀ s, (compared o none s).unplaced = predicateTree lhs none := by
    intro s
    rw [compared, Expr.unplaced, Expr.moved, movedOperand, ← hTree]
    rfl
  have hCompared : ∀ op rhs (r : Right), r.tree = rhs.value.moved (fun _ => Span.nowhere) →
      ∀ s, (compared o (some (op, rhs)) s).unplaced = predicateTree lhs (some (op.value, r)) := by
    intro op rhs r hr s
    rw [compared, Expr.unplaced, Expr.moved, movedOperand, movedComparand, ← hTree, ← hr]
    rfl
  -- the tail decides which of the two forms the term has, and its tree with it
  have hTail : (Parser.optional comparisonTail).Takes fun c w => ∃ tail, tailTokens tail = w ∧
      ∀ s, (compared o c s).malformedParts = 0 ∧
        (compared o c s).unplaced = predicateTree lhs tail := by
    refine Takes.optional (Takes.mono comparisonTail_takes fun c w hTail => ?_)
      ⟨none, rfl, fun s => ⟨rfl, hAlone s⟩⟩
    obtain ⟨r, rfl, hr⟩ := hTail
    exact ⟨some (c.1.value, r), rfl, fun s => ⟨rfl, hCompared _ _ r hr s⟩⟩
  refine hTail.bind fun c _ hRest => takes_pure ?_
  obtain ⟨tail, rfl, hTrees⟩ := hRest
  exact ⟨lhs, tail, by rw [List.append_nil], hTrees⟩

/-! ## Recoveries -/

/-- A balanced run has a parenthesis in it, however deep it nests. -/
theorem balancedUpTo_takes (bound : Nat) : (balancedUpTo bound).Takes fun _ w => w ≠ [] := by
  induction bound with
  | zero => exact takes_stop
  | succ bound ih =>
    have hOther : notParenthesis.Takes fun _ w => w ≠ [] :=
      (takes_accept fun _ _ _ _ => List.cons_ne_nil _ _ : Takes _ fun _ w => w ≠ []).bind
        fun _ _ h => takes_pure (by rw [List.append_nil]; exact h)
    have hInside : (many (balancedUpTo bound <|> notParenthesis)).Takes fun _ _ => True :=
      (ih.orElse hOther).many trivial fun _ _ _ _ _ _ => trivial
    -- the opening parenthesis alone makes the word nonempty
    refine takes_exactly.bind fun _ _ hOpen => hInside.bind fun _ _ _ => ?_
    rw [hOpen]
    exact takes_exactly.mono fun _ _ _ => List.cons_ne_nil _ _

/-- A balanced run is never empty. -/
theorem balanced_takes : balanced.Takes fun _ w => w ≠ [] :=
  fun ts _ _ hRead => balancedUpTo_takes (ts.length + 1) hRead

/-- A token that is skipped is a token. -/
theorem skippedToken_takes : skippedToken.Takes fun _ w => w ≠ [] := by
  intro ts a rest hRead
  cases ts with
  | nil => cases hRead
  | cons t ts =>
    dsimp only [outcome, skippedToken] at hRead
    split at hRead
    · cases hRead
    · cases hRead
      exact ⟨[t], rfl, List.cons_ne_nil _ _⟩

/-! ## Conditions -/

/-- A nonempty word was read as the condition. Unless some part is malformed, the word is derived
and the condition is its tree. -/
def Derives (n : Nonterminal) (e : Expr) (w : List Token) : Prop :=
  w ≠ [] ∧ (e.malformedParts = 0 → ∃ p : Phrase n, p.tokens = w ∧ p.tree = e.unplaced)

theorem derives_malformed {n : Nonterminal} {w : List Token} (hNonempty : w ≠ []) (s : Span) :
    Derives n (.malformed s) w :=
  ⟨hNonempty, fun hWhole => by cases hWhole⟩

section
variable {c : Parser Expr} [Composed .conditions c]

/-- A group is derived if its condition is. A skipped one is malformed. -/
theorem group_takes (hc : c.Takes (Derives (.chain .or))) :
    (group c).Takes fun g w => ∀ s, Derives .unary (g s) w := by
  refine Takes.recover ?_ (Takes.bind balanced_takes fun _ _ hNonempty => takes_pure fun s => ?_)
  · refine takes_exactly.bind fun _ _ hOpen => hc.bind fun inner _ hInner => ?_
    refine takes_exactly.bind fun _ _ hClose => takes_pure fun s => ?_
    rw [hOpen, hClose]
    refine ⟨List.cons_ne_nil _ _, fun hWhole => ?_⟩
    obtain ⟨p, rfl, hTree⟩ := hInner.2 hWhole
    refine ⟨.group p, rfl, ?_⟩
    show Expr.group _ p.tree = Expr.group _ _
    rw [hTree]
    rfl
  · -- a balanced run was skipped
    rw [List.append_nil]
    exact derives_malformed hNonempty s

/-- A term is derived as a group or a predicate, or it is malformed. -/
theorem term_takes (hc : c.Takes (Derives (.chain .or))) :
    (term c).Takes (Derives .unary) := by
  refine Takes.withSpan (Takes.recover ((group_takes hc).orElse ?_) ?_)
  · refine Takes.mono predicate_takes fun g w hPredicate s => ?_
    obtain ⟨lhs, tail, rfl, hTree⟩ := hPredicate
    let p : Phrase .unary := .predicate lhs tail
    exact ⟨p.tokens_ne_nil, fun _ => ⟨p, rfl, (hTree s).2.symm⟩⟩
  · -- of a skipped run all that is known is that it has a first token
    have hMore : (many skippedToken).Takes fun _ _ => True :=
      Takes.many skippedToken_takes trivial fun _ _ _ _ _ _ => trivial
    have hSkipped : (atLeastOne skippedToken).Takes fun _ w => w ≠ [] :=
      Takes.bind skippedToken_takes fun _ _ hFirst => hMore.bind fun _ _ _ =>
        takes_pure (List.append_ne_nil_of_left_ne_nil hFirst _)
    refine hSkipped.bind fun _ _ hNonempty => takes_pure fun s => ?_
    rw [List.append_nil]
    exact derives_malformed hNonempty s

/-- A negated term is derived, however many negations are allowed. -/
theorem negationUpTo_takes (hc : c.Takes (Derives (.chain .or))) (bound : Nat) :
    (negationUpTo c bound).Takes (Derives .unary) := by
  -- on the bound, which one `NOT` makes smaller
  induction bound with
  | zero => exact takes_stop
  | succ bound ih =>
    refine Takes.orElse (Takes.withSpan ?_) (term_takes hc)
    refine takes_exactly.bind fun _ _ hNot => ih.bind fun inner _ hInner => takes_pure fun s => ?_
    rw [hNot, List.append_nil]
    refine ⟨List.cons_ne_nil _ _, fun hWhole => ?_⟩
    obtain ⟨p, rfl, hTree⟩ := hInner.2 hWhole
    refine ⟨.not p, rfl, ?_⟩
    show Expr.not _ p.tree = Expr.not _ _
    rw [hTree]
    rfl

theorem outcome_negation_eq_upTo (c : Parser Expr) (ts : Tokens) :
    (negation c).outcome ts = (negationUpTo c (ts.length + 1)).outcome ts := by
  unfold outcome negation
  rfl

/-- A negated or plain term is derived. -/
theorem negation_takes (hc : c.Takes (Derives (.chain .or))) :
    (negation c).Takes (Derives .unary) := by
  intro ts e rest hRead
  rw [outcome_negation_eq_upTo] at hRead
  exact negationUpTo_takes hc _ hRead

end

/-- A chain of what is derived from a nonterminal, for either connective. -/
theorem chain_takes {k : Connective} {p : Parser Expr} [p.Steady]
    (hp : p.Takes (Derives k.member)) :
    (chain p (exactly k.token) k.join).Takes (Derives (.chain k)) := by
  -- the members after the first, each behind its connective
  have hMore : (many (do exactly k.token; p)).Takes fun es w => (∀ e ∈ es, e.malformedParts = 0) →
      ∃ ms : List (Phrase k.member), ms.flatMap (fun m => k.token :: m.tokens) = w ∧
        ms.map Phrase.tree = es.map Expr.unplaced := by
    refine Takes.many (R := fun e w => ∃ w', w = k.token :: w' ∧ Derives k.member e w') ?_ ?_ ?_
    · exact takes_exactly.bind fun _ _ hToken => hp.mono fun e w hMember =>
        ⟨w, by rw [hToken]; rfl, hMember⟩
    · exact fun _ => ⟨[], rfl, rfl⟩
    · rintro e _ es _ ⟨w, rfl, hMember⟩ hRest hWhole
      obtain ⟨m, rfl, hTree⟩ := hMember.2 (hWhole e List.mem_cons_self)
      obtain ⟨ms, rfl, hTrees⟩ := hRest fun e' he' => hWhole e' (List.mem_cons_of_mem _ he')
      refine ⟨m :: ms, by rw [List.flatMap_cons], ?_⟩
      rw [List.map_cons, List.map_cons, hTree, hTrees]
  -- the first member and the others make a chain of the grammar
  refine hp.bind fun e w hFirst => hMore.bind fun es w' hRest => takes_pure ?_
  rw [List.append_nil]
  refine ⟨List.append_ne_nil_of_left_ne_nil hFirst.1 _, fun hWhole => ?_⟩
  rw [Expr.malformedParts_foldl_join, List.forall_mem_cons] at hWhole
  obtain ⟨m, rfl, hTree⟩ := hFirst.2 hWhole.1
  obtain ⟨ms, rfl, hTrees⟩ := hRest hWhole.2
  refine ⟨.ofMembers m ms, Phrase.tokens_ofMembers m ms, ?_⟩
  rw [Phrase.tree_ofMembers, hTree, hTrees]
  exact (Expr.moved_foldl_join Span.rigid_nowhere k e es).symm

theorem conditionUpTo_takes (bound : Nat) : (conditionUpTo bound).Takes (Derives (.chain .or)) := by
  induction bound with
  | zero => exact takes_stop
  | succ bound ih => exact chain_takes (k := .or) (chain_takes (k := .and) (negation_takes ih))

theorem outcome_condition_eq_upTo (ts : Tokens) :
    condition.outcome ts = (conditionUpTo (ts.length + 1)).outcome ts := by
  unfold outcome condition
  rfl

/-- Every condition that is read without malformed parts is derived. -/
theorem condition_takes : condition.Takes (Derives (.chain .or)) := by
  intro ts e rest hRead
  rw [outcome_condition_eq_upTo] at hRead
  exact conditionUpTo_takes _ hRead

end AnnotationQuery.Parse
