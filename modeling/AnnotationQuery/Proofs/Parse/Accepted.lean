import AnnotationQuery.Proofs.Parse.Nesting

/-!
# What is derived is read

Tokens with a derivation are read, as the tree of the derivation. Nothing is skipped on
the way and no choice goes wrong, but only if the tokens behind them cannot belong to
them as well: `labels('x')` is not read as such where `.length` comes next. So all
contracts have the form of `Yields`: wherever the run of tokens stands, and whatever
follows it that may follow it, the parser reads the run and stops there.

A chain needs more. Its members are read one by one, and a chain that is complete in
itself may go on when it stands before other tokens. `ChainYields` says what has been
read when the run is used up, and leaves it open whether the chain goes on.

Main results:

* `operand_yields`, `predicate_yields`, `group_yields`, `not_yields` — terms.
* `phrase_readAs` — all phrases, by induction on the derivation.
-/

namespace AnnotationQuery.Parse

open AnnotationQuery.Parse.Parser
open AnnotationQuery.Grammar

/-! ## Runs of tokens with a given word -/

theorem exists_of_values_eq_cons {run : Tokens} {t : Token} {w : List Token}
    (h : values run = t :: w) : ∃ s run', run = ⟨t, s⟩ :: run' ∧ values run' = w := by
  obtain ⟨⟨_, s⟩, run', rfl, rfl, rfl⟩ := List.map_eq_cons_iff.mp h
  exact ⟨s, run', rfl, rfl⟩

theorem exists_of_values_eq_append {run : Tokens} {w w' : List Token}
    (h : values run = w ++ w') : ∃ r r', run = r ++ r' ∧ values r = w ∧ values r' = w' :=
  List.map_eq_append_iff.mp h

theorem values_eq_nil {run : Tokens} (h : values run = []) : run = [] :=
  List.map_eq_nil_iff.mp h

/-- Wherever the run is moved and whatever follows it, as long as that may follow, the parser reads
it as `a`, moved along. -/
def Yields {α : Type} (p : Parser α) (moved : (Span → Span) → α → α) (after : Token → Bool)
    (run : Tokens) (a : α) : Prop :=
  ∀ ⦃f⦄, Span.Rigid f → ∀ ⦃rest⦄, Follows after (values rest) →
    p.outcome (movedTokens f run ++ rest) = some (moved f a, rest)

theorem Yields.mono {α : Type} {p : Parser α} {g : (Span → Span) → α → α}
    {after after' : Token → Bool} {run : Tokens} {a : α} (h : Yields p g after run a)
    (hAfter : ∀ t, after' t = true → after t = true) : Yields p g after' run a :=
  fun _ hf _ hRest => h hf (hRest.mono hAfter)

/-- With a place around the run, a value is read as before, and the place is moved along. -/
theorem Yields.located {α : Type} {p : Parser α} {g : (Span → Span) → α → α}
    {after : Token → Bool} {run : Tokens} {a : α} (h : Yields p g after run a)
    (hRun : run ≠ []) :
    Yields (located p) (fun f x => ⟨g f x.value, f x.span⟩) after run ⟨a, hull run⟩ := by
  intro f hf rest hRest
  rw [outcome_located, h hf hRest, Option.map_some, consumed_append, hull_moved hf hRun]

/-! ## Operands -/

/-- A function of a layer: its name, the layer in parentheses, and what comes after. -/
def layerCall (name : String) (after : Spanned String → Parser Operand) : Parser Operand := do
  word name
  let layerId ← layerArgument
  after layerId

section
variable {name : String} {after : Spanned String → Parser Operand} [∀ v, (after v).Steady]

theorem outcome_layerCall_of_ne {t : Token} {s : Span} {ts : Tokens} (h : t ≠ .ident name) :
    (layerCall name after).outcome (⟨t, s⟩ :: ts) = none := by
  simp [layerCall, word, h]

/-- A name without a parenthesis behind it is no function. -/
theorem outcome_layerCall_of_follows {t : Token} {s : Span} {ts : Tokens}
    (h : Follows (· != .symbol .lparen) (values ts)) :
    (layerCall name after).outcome (⟨t, s⟩ :: ts) = none := by
  have hArgument : layerArgument.outcome ts = none := by
    rw [layerArgument, outcome_bind, symbol, outcome_exactly_of_ne h]
    rfl
  by_cases ht : t = .ident name <;> simp [layerCall, word, ht, hArgument]

/-- The layer in parentheses is handed on, whatever its quotes. -/
theorem outcome_layerCall (l : StringToken) (s s₁ s₂ s₃ : Span) (ts : Tokens) :
    (layerCall name after).outcome
        (⟨.ident name, s⟩ :: ⟨.symbol .lparen, s₁⟩ :: ⟨l.token, s₂⟩ ::
          ⟨.symbol .rparen, s₃⟩ :: ts) =
      (after ⟨l.value, s₂⟩).outcome ts := by
  cases l <;>
    simp [layerCall, layerArgument, word, symbol, string, stringValue?, StringToken.token,
      StringToken.value]

end

/-- The function `my` as a call on a layer. -/
theorem myFunction_eq :
    myFunction = layerCall "my" fun layerId => do
      symbol .dot
      let function ← (do word "label"; return .label) <|> (do word "id"; return .id)
      return .layer function layerId :=
  rfl

/-- The function `list` as a call on a layer. -/
theorem listFunction_eq :
    listFunction = layerCall "list" fun layerId => do
      symbol .dot
      word "length"
      return .layer .count layerId :=
  rfl

/-- The function `labels` as a call on a layer. -/
theorem labelsFunction_eq :
    labelsFunction = layerCall "labels" fun layerId => do
      let length ← Parser.optional do
        symbol .dot
        word "length"
      return .layer (if length.isSome then .count else .labels) layerId :=
  rfl

/-- The function `annotators` as a call on a layer. -/
theorem annotatorsFunction_eq :
    annotatorsFunction = layerCall "annotators" fun layerId => return .layer .annotators layerId :=
  rfl

/-- An operand, its own place aside. -/
def operandForm : Parser Operand :=
  myFunction <|> listFunction <|> labelsFunction <|> annotatorsFunction <|>
    memberAccess <|> bareName <|> literal

/-- Tokens with the word of a call are its name, its parentheses and its layer. -/
theorem exists_of_values_eq_call {run : Tokens} {name : String} {l : StringToken} {w : List Token}
    (h : values run = OperandForm.call name l ++ w) :
    ∃ s s₁ s₂ s₃ run', values run' = w ∧
      run = ⟨.ident name, s⟩ :: ⟨.symbol .lparen, s₁⟩ :: ⟨l.token, s₂⟩ :: ⟨.symbol .rparen, s₃⟩ ::
        run' := by
  obtain ⟨s, _, rfl, h₁⟩ := exists_of_values_eq_cons h
  obtain ⟨s₁, _, rfl, h₂⟩ := exists_of_values_eq_cons h₁
  obtain ⟨s₂, _, rfl, h₃⟩ := exists_of_values_eq_cons h₂
  obtain ⟨s₃, run', rfl, h₄⟩ := exists_of_values_eq_cons h₃
  exact ⟨s, s₁, s₂, s₃, run', h₄, rfl⟩

/-- Tokens with the word of a part are a dot and its name. -/
theorem exists_of_values_eq_dotted {run : Tokens} {name : String}
    (h : values run = OperandForm.dotted name) :
    ∃ s s', run = [⟨.symbol .dot, s⟩, ⟨.ident name, s'⟩] := by
  obtain ⟨s, _, rfl, h₁⟩ := exists_of_values_eq_cons h
  obtain ⟨s', _, rfl, h₂⟩ := exists_of_values_eq_cons h₁
  cases values_eq_nil h₂
  exact ⟨s, s', rfl⟩

/-- Tokens with a word of one token are that token. -/
theorem exists_of_values_eq_singleton {run : Tokens} {t : Token} (h : values run = [t]) :
    ∃ s, run = [⟨t, s⟩] := by
  obtain ⟨s, _, rfl, h₁⟩ := exists_of_values_eq_cons h
  cases values_eq_nil h₁
  exact ⟨s, rfl⟩

/-- Where no layer stands in parentheses, an operand is no function of a layer. -/
theorem outcome_operandForm_of_follows {t : Token} {s : Span} {ts : Tokens}
    (h : Follows (· != .symbol .lparen) (values ts)) :
    operandForm.outcome (⟨t, s⟩ :: ts) =
      (memberAccess.outcome (⟨t, s⟩ :: ts)).or
        ((bareName.outcome (⟨t, s⟩ :: ts)).or (literal.outcome (⟨t, s⟩ :: ts))) := by
  -- without a parenthesis behind the name, none of the four functions is called
  rw [operandForm, outcome_orElse, outcome_orElse, outcome_orElse, outcome_orElse, outcome_orElse,
    outcome_orElse, myFunction_eq, listFunction_eq, labelsFunction_eq, annotatorsFunction_eq,
    outcome_layerCall_of_follows h, outcome_layerCall_of_follows h, outcome_layerCall_of_follows h,
    outcome_layerCall_of_follows h]
  rfl

/-- Where no dot stands either, it is a single token. -/
theorem outcome_operandForm_of_afterOperand {t : Token} {s : Span} {ts : Tokens}
    (h : Follows afterOperand (values ts)) :
    operandForm.outcome (⟨t, s⟩ :: ts) =
      (bareName.outcome (⟨t, s⟩ :: ts)).or (literal.outcome (⟨t, s⟩ :: ts)) := by
  have hNoCall : Follows (· != .symbol .lparen) (values ts) :=
    h.mono fun t ht => (Bool.and_eq_true_iff.mp ht).2
  have hNoDot : (exactly (.symbol .dot)).outcome ts = none :=
    outcome_exactly_of_ne (h.mono fun t ht => (Bool.and_eq_true_iff.mp ht).1)
  -- nor is there a part without a dot
  have hMember : memberAccess.outcome (⟨t, s⟩ :: ts) = none := by
    simp [memberAccess, symbol, name, hNoDot]
  rw [outcome_operandForm_of_follows hNoCall, hMember]
  rfl

/-- Where no name stands, it is a literal. -/
theorem outcome_operandForm_of_ne {t : Token} {s : Span} {ts : Tokens}
    (h : ∀ n, t ≠ .ident n) :
    operandForm.outcome (⟨t, s⟩ :: ts) = literal.outcome (⟨t, s⟩ :: ts) := by
  -- all forms but the literal start with a name
  have hName : name.outcome (⟨t, s⟩ :: ts) = none := by
    cases t with
    | ident n => exact absurd rfl (h n)
    | _ => rfl
  have hMember : memberAccess.outcome (⟨t, s⟩ :: ts) = none := by
    rw [memberAccess, outcome_bind, hName]
    rfl
  have hBare : bareName.outcome (⟨t, s⟩ :: ts) = none := by
    rw [bareName, outcome_bind, hName]
    rfl
  rw [operandForm, outcome_orElse, outcome_orElse, outcome_orElse, outcome_orElse, outcome_orElse,
    outcome_orElse, myFunction_eq, listFunction_eq, labelsFunction_eq, annotatorsFunction_eq,
    outcome_layerCall_of_ne (h _), outcome_layerCall_of_ne (h _), outcome_layerCall_of_ne (h _),
    outcome_layerCall_of_ne (h _), hMember, hBare]
  rfl

/-- Whether a part makes a name a function of a layer does not depend on places. -/
theorem moved_memberOf (f : Span → Span) (object part : Spanned String) :
    (memberOf object part).moved f = memberOf (object.moved f) (part.moved f) := by
  unfold memberOf
  rw [apply_ite (Operand.moved f), apply_ite (Operand.moved f)]
  rfl

theorem moved_named (f : Span → Span) (name : String) : (named name).moved f = named name := by
  unfold named
  repeat' split
  all_goals rfl

/-- Whatever form an operand has, it is read in that form and no other. -/
theorem operandForm_yields (o : OperandForm) {run : Tokens} (hRun : values run = o.tokens) :
    ∃ x, Yields operandForm Operand.moved o.after run x ∧
      x.moved (fun _ => Span.nowhere) = o.tree := by
  -- the functions of a layer have different names, so the ones tried before the right one fail
  -- at their first token
  cases o with
  | my l part =>
    obtain ⟨s, s₁, s₂, s₃, _, hPart, rfl⟩ := exists_of_values_eq_call hRun
    obtain ⟨s₄, s₅, rfl⟩ := exists_of_values_eq_dotted hPart
    refine ⟨.layer part.function ⟨l.value, s₂⟩, fun f _ rest _ => ?_, rfl⟩
    simp only [movedTokens_cons, List.cons_append]
    rw [operandForm, outcome_orElse, myFunction_eq, outcome_layerCall]
    cases part <;> simp [symbol, word, Part.name, Part.function, Operand.moved, Spanned.moved]
  | list l =>
    obtain ⟨s, s₁, s₂, s₃, _, hPart, rfl⟩ := exists_of_values_eq_call hRun
    obtain ⟨s₄, s₅, rfl⟩ := exists_of_values_eq_dotted hPart
    refine ⟨.layer .count ⟨l.value, s₂⟩, fun f _ rest _ => ?_, rfl⟩
    simp only [movedTokens_cons, List.cons_append]
    rw [operandForm, outcome_orElse, outcome_orElse, myFunction_eq, listFunction_eq,
      outcome_layerCall_of_ne (by simp), outcome_layerCall]
    simp [symbol, word, Operand.moved, Spanned.moved]
  | labels l length =>
    obtain ⟨s, s₁, s₂, s₃, _, hPart, rfl⟩ := exists_of_values_eq_call hRun
    cases length with
    | true =>
      obtain ⟨s₄, s₅, rfl⟩ := exists_of_values_eq_dotted hPart
      refine ⟨.layer .count ⟨l.value, s₂⟩, fun f _ rest _ => ?_, rfl⟩
      simp only [movedTokens_cons, List.cons_append]
      rw [operandForm, outcome_orElse, outcome_orElse, outcome_orElse, myFunction_eq,
        listFunction_eq, labelsFunction_eq, outcome_layerCall_of_ne (by simp),
        outcome_layerCall_of_ne (by simp), outcome_layerCall]
      simp [symbol, word, Operand.moved, Spanned.moved]
    | false =>
      cases values_eq_nil hPart
      refine ⟨.layer .labels ⟨l.value, s₂⟩, fun f _ rest hRest => ?_, rfl⟩
      -- what follows is no dot, so the length is not asked for
      have hNoDot : (exactly (.symbol .dot)).outcome rest = none :=
        outcome_exactly_of_ne hRest
      simp only [movedTokens_cons, movedTokens_nil, List.cons_append, List.nil_append]
      rw [operandForm, outcome_orElse, outcome_orElse, outcome_orElse, myFunction_eq,
        listFunction_eq, labelsFunction_eq, outcome_layerCall_of_ne (by simp),
        outcome_layerCall_of_ne (by simp), outcome_layerCall]
      simp [symbol, hNoDot, Operand.moved, Spanned.moved]
  | annotators l =>
    rw [OperandForm.tokens, ← List.append_nil (OperandForm.call _ _)] at hRun
    obtain ⟨s, s₁, s₂, s₃, _, hPart, rfl⟩ := exists_of_values_eq_call hRun
    cases values_eq_nil hPart
    refine ⟨.layer .annotators ⟨l.value, s₂⟩, fun f _ rest _ => ?_, rfl⟩
    simp only [movedTokens_cons, List.cons_append]
    rw [operandForm, outcome_orElse, outcome_orElse, outcome_orElse, outcome_orElse, myFunction_eq,
      listFunction_eq, labelsFunction_eq, annotatorsFunction_eq, outcome_layerCall_of_ne (by simp),
      outcome_layerCall_of_ne (by simp), outcome_layerCall_of_ne (by simp), outcome_layerCall]
    rfl
  | member object part =>
    obtain ⟨s, _, rfl, hPart⟩ := exists_of_values_eq_cons hRun
    obtain ⟨s₁, s₂, rfl⟩ := exists_of_values_eq_dotted hPart
    refine ⟨memberOf ⟨object, s⟩ ⟨part, s₂⟩, fun f _ rest _ => ?_, (tree_member _ _).symm⟩
    simp only [movedTokens_cons, List.cons_append]
    rw [outcome_operandForm_of_follows (follows_cons.mpr rfl), moved_memberOf]
    simp [memberAccess, name, symbol, Spanned.moved]
  | bare name =>
    obtain ⟨s, rfl⟩ := exists_of_values_eq_singleton hRun
    refine ⟨named name, fun f _ rest hRest => ?_, (tree_bare _).symm⟩
    simp only [movedTokens_cons, movedTokens_nil, List.cons_append, List.nil_append]
    rw [outcome_operandForm_of_afterOperand hRest, moved_named]
    simp [bareName, Parse.name]
  | string l =>
    obtain ⟨s, rfl⟩ := exists_of_values_eq_singleton hRun
    refine ⟨.literal (.string l.value), fun f _ rest _ => ?_, rfl⟩
    simp only [movedTokens_cons, movedTokens_nil, List.cons_append, List.nil_append]
    rw [outcome_operandForm_of_ne l.token_ne_ident]
    cases l <;> simp [literal, string, stringValue?, StringToken.token, StringToken.value,
      Operand.moved]
  | number written =>
    obtain ⟨s, rfl⟩ := exists_of_values_eq_singleton hRun
    refine ⟨.literal (.number written), fun f _ rest _ => ?_, rfl⟩
    simp only [movedTokens_cons, movedTokens_nil, List.cons_append, List.nil_append]
    rw [outcome_operandForm_of_ne (by simp)]
    simp [literal, string, stringValue?, number, Operand.moved]

theorem ne_nil_of_values_ne_nil {run : Tokens} (h : values run ≠ []) : run ≠ [] :=
  fun hNil => h (by rw [hNil]; rfl)

/-- An operand is read where something follows that may follow its form. -/
theorem operand_yields_form (o : OperandForm) {run : Tokens} (hRun : values run = o.tokens) :
    ∃ x, Yields operand movedOperand o.after run x ∧
      x.value.moved (fun _ => Span.nowhere) = o.tree := by
  obtain ⟨x, hYields, hTree⟩ := operandForm_yields o hRun
  obtain ⟨t, w, hTokens, -⟩ := o.exists_tokens_eq_cons
  have hNonempty : run ≠ [] :=
    ne_nil_of_values_ne_nil (by rw [hRun, hTokens]; exact List.cons_ne_nil _ _)
  exact ⟨⟨x, hull run⟩, hYields.located hNonempty, hTree⟩

/-- An operand is read where something follows that may follow every operand. -/
theorem operand_yields (o : OperandForm) {run : Tokens} (hRun : values run = o.tokens) :
    ∃ x, Yields operand movedOperand afterOperand run x ∧
      x.value.moved (fun _ => Span.nowhere) = o.tree := by
  obtain ⟨x, hYields, hTree⟩ := operand_yields_form o hRun
  exact ⟨x, hYields.mono fun _ => o.after_of_afterOperand, hTree⟩

/-! ## Comparisons -/

theorem ne_nil_of_comparisonTokens {run : Tokens} {c : Comparison}
    (hRun : values run = comparisonTokens c) : run ≠ [] :=
  ne_nil_of_values_ne_nil (by rw [hRun]; cases c <;> exact List.cons_ne_nil _ _)

/-- A comparison is read whatever follows it, as none is the start of another. -/
theorem comparison_yields (c : Comparison) {run : Tokens} (hRun : values run = comparisonTokens c) :
    Yields comparison Spanned.moved (fun _ => true) run ⟨c, hull run⟩ := by
  refine Yields.located (g := fun _ c => c) (fun f _ rest _ => ?_)
    (ne_nil_of_comparisonTokens hRun)
  -- the two negated comparisons are the ones with two tokens
  cases c with
  | notMatching | notIn =>
    obtain ⟨s, _, rfl, hLast⟩ := exists_of_values_eq_cons hRun
    obtain ⟨s', rfl⟩ := exists_of_values_eq_singleton hLast
    simp [comparisonSymbol, symbol, keyword]
  | _ =>
    obtain ⟨s, rfl⟩ := exists_of_values_eq_singleton hRun
    simp [comparisonSymbol, symbol, keyword]

/-- An operand uses up tokens. -/
theorem operand_shrinks : operand.Shrinks := by
  refine operand_takes.shrinks ?_
  rintro _ _ ⟨form, rfl, -⟩
  obtain ⟨t, w, hTokens, -⟩ := form.exists_tokens_eq_cons
  rw [hTokens]
  exact List.cons_ne_nil _ _

theorem shrinks_item : (do symbol .comma; operand : Parser (Spanned Operand)).Shrinks :=
  Shrinks.after_exactly operand_shrinks _

/-- The operands behind the commas of a list are read up to its closing parenthesis. -/
theorem items_yield (more : List OperandForm) {run : Tokens}
    (hRun : values run = itemTokens more) :
    ∃ xs, Yields (many (do symbol .comma; operand)) (fun f xs => xs.map (movedOperand f))
        (· == .symbol .rparen) run xs ∧
      xs.map (movedOperand fun _ => Span.nowhere) = more.map fun o => ⟨o.tree, Span.nowhere⟩ := by
  induction more generalizing run with
  | nil =>
    cases values_eq_nil hRun
    refine ⟨[], fun f _ rest hRest => ?_, rfl⟩
    refine outcome_many_of_none ?_
    -- behind the last item there is no comma, so the repetition ends
    have hNoComma : (exactly (.symbol .comma)).outcome rest = none :=
      outcome_exactly_of_ne (hRest.mono fun t ht => by rw [beq_iff_eq.mp ht]; rfl)
    rw [movedTokens_nil, List.nil_append, outcome_bind, symbol, hNoComma]
    rfl
  | cons o more ih =>
    obtain ⟨s, _, rfl, hItems⟩ := exists_of_values_eq_cons hRun
    obtain ⟨first, later, rfl, hFirst, hLater⟩ := exists_of_values_eq_append hItems
    obtain ⟨x, hx, hTree⟩ := operand_yields o hFirst
    obtain ⟨xs, hxs, hTrees⟩ := ih hLater
    refine ⟨x :: xs, fun f hf rest hRest => ?_, ?_⟩
    · -- behind an item stands the comma of the next one or the closing parenthesis
      have hFollows : Follows afterOperand (values (movedTokens f later ++ rest)) := by
        rw [values_append, values_movedTokens, hLater]
        exact follows_itemTokens more (hRest.mono fun t ht => by rw [beq_iff_eq.mp ht]; rfl)
      have hItem : (do symbol .comma; operand : Parser (Spanned Operand)).outcome
          (movedTokens f (⟨.symbol .comma, s⟩ :: (first ++ later)) ++ rest) =
          some (movedOperand f x, movedTokens f later ++ rest) := by
        rw [movedTokens_cons, List.cons_append, outcome_bind, symbol, outcome_exactly_cons,
          if_pos rfl, Option.bind_some, movedTokens_append, List.append_assoc, hx hf hFollows]
      rw [outcome_many_of_some shrinks_item hItem, hxs hf hRest]
      rfl
    · rw [List.map_cons, List.map_cons, hTrees, movedOperand, hTree]

/-- A list in parentheses is read whatever follows it. -/
theorem operandList_yields (first : OperandForm) (more : List OperandForm) {run : Tokens}
    (hRun : values run = (Right.list first more).tokens) :
    ∃ x, Yields operandList movedComparand (fun _ => true) run x ∧
      x.value.moved (fun _ => Span.nowhere) = (Right.list first more).tree := by
  have hNonempty : run ≠ [] := ne_nil_of_values_ne_nil (by rw [hRun]; exact List.cons_ne_nil _ _)
  -- the tokens are an opening parenthesis, the items and a closing one
  obtain ⟨s, _, rfl, hInner⟩ := exists_of_values_eq_cons hRun
  obtain ⟨_, last, rfl, hItems, hLast⟩ := exists_of_values_eq_append hInner
  obtain ⟨r, r', rfl, hFirst, hMore⟩ := exists_of_values_eq_append hItems
  obtain ⟨s', rfl⟩ := exists_of_values_eq_singleton hLast
  obtain ⟨x, hx, hTree⟩ := operand_yields first hFirst
  obtain ⟨xs, hxs, hTrees⟩ := items_yield more hMore
  refine ⟨⟨.list (x :: xs), _⟩, Yields.located (g := Comparand.moved) ?_ hNonempty, ?_⟩
  · intro f hf rest _
    have hClose : Follows (· == .symbol .rparen) (values (⟨.symbol .rparen, f s'⟩ :: rest)) :=
      follows_cons.mpr rfl
    -- behind the first item there is a comma or the parenthesis, and neither goes on with it
    have hAfter : Follows afterOperand
        (values (movedTokens f r' ++ ⟨.symbol .rparen, f s'⟩ :: rest)) := by
      rw [values_append, values_movedTokens, hMore]
      exact follows_itemTokens more (follows_cons.mpr rfl)
    simp only [movedTokens_cons, movedTokens_append, movedTokens_nil, List.cons_append,
      List.append_assoc, List.nil_append]
    rw [symbol, outcome_bind, outcome_exactly_cons, if_pos rfl, Option.bind_some, outcome_bind,
      separatedBy, outcome_bind, hx hf hAfter, Option.bind_some, outcome_bind, hxs hf hClose]
    simp [symbol, Comparand.moved]
  · show Comparand.list _ = Comparand.list _
    rw [List.map_cons, List.map_cons, hTrees, movedOperand, hTree]

/-- The right side of a comparison is read as the list or operand that it is. -/
theorem comparand_yields (x : Right) {run : Tokens} (hRun : values run = x.tokens) :
    ∃ r, Yields comparand movedComparand afterOperand run r ∧
      r.value.moved (fun _ => Span.nowhere) = x.tree := by
  cases x with
  | list first more =>
    obtain ⟨r, hYields, hTree⟩ := operandList_yields first more hRun
    refine ⟨r, fun f hf rest _ => ?_, hTree⟩
    rw [comparand, outcome_orElse, hYields hf fun _ _ => rfl]
    rfl
  | one o =>
    obtain ⟨r, hYields, hTree⟩ := operand_yields o hRun
    refine ⟨⟨.one r.value, r.span⟩, fun f hf rest hRest => ?_, congrArg Comparand.one hTree⟩
    -- no operand starts with a parenthesis
    have hNoList : operandList.outcome (movedTokens f run ++ rest) = none := by
      have hOpen : (exactly (.symbol .lparen)).outcome (movedTokens f run ++ rest) = none := by
        refine outcome_exactly_of_ne ?_
        obtain ⟨t, w, hTokens, ht⟩ := o.exists_tokens_eq_cons
        rw [values_append, values_movedTokens, hRun, Right.tokens, hTokens, List.cons_append,
          follows_cons, bne_iff_ne]
        rintro rfl
        cases ht
      rw [operandList, outcome_located, outcome_bind, symbol, hOpen]
      rfl
    rw [comparand, outcome_orElse, hNoList, Option.none_or, outcome_bind, hYields hf hRest]
    rfl

/-- A comparison and its right side are read together. -/
theorem comparisonTail_yields (c : Comparison) (x : Right) {run : Tokens}
    (hRun : values run = comparisonTokens c ++ x.tokens) :
    ∃ t, Yields comparisonTail (fun f t => (t.1.moved f, movedComparand f t.2)) afterOperand run t ∧
      t.1.value = c ∧ t.2.value.moved (fun _ => Span.nowhere) = x.tree := by
  obtain ⟨first, later, rfl, hFirst, hLater⟩ := exists_of_values_eq_append hRun
  have hOp := comparison_yields c hFirst
  obtain ⟨r, hr, hTree⟩ := comparand_yields x hLater
  refine ⟨(⟨c, hull first⟩, r), fun f hf rest hRest => ?_, rfl, hTree⟩
  rw [comparisonTail, outcome_bind, movedTokens_append, List.append_assoc,
    hOp hf fun _ _ => rfl, Option.bind_some, outcome_bind, hr hf hRest]
  rfl

/-! ## Terms -/

/-- The place of a run that is moved is the moved place of the run. -/
theorem outcome_withSpan_run {p : Parser (Span → Expr)} {f : Span → Span} (hf : Span.Rigid f)
    {run rest : Tokens} (hRun : run ≠ []) {e : Span → Expr}
    (h : p.outcome (movedTokens f run ++ rest) = some (e, rest)) :
    (withSpan p).outcome (movedTokens f run ++ rest) = some (e (f (hull run)), rest) := by
  rw [outcome_withSpan, h, Option.map_some, consumed_append, hull_moved hf hRun]

/-- A group that is read is the term. -/
theorem outcome_term_of_group {c : Parser Expr} [Composed .conditions c] {ts : Tokens}
    {r : Expr × Tokens} (h : (withSpan (group c)).outcome ts = some r) :
    (term c).outcome ts = some r := by
  rw [outcome_withSpan] at h
  obtain ⟨g, hg, hr⟩ := Option.map_eq_some_iff.mp h
  rw [term, outcome_withSpan, outcome_recover, outcome_orElse, hg]
  exact congrArg some hr

/-- Where there is no group, a predicate that is read is the term. -/
theorem outcome_term_of_predicate {c : Parser Expr} [Composed .conditions c] {ts : Tokens}
    {r : Expr × Tokens} (hGroup : (group c).outcome ts = none)
    (h : (withSpan predicate).outcome ts = some r) :
    (term c).outcome ts = some r := by
  rw [outcome_withSpan] at h
  obtain ⟨g, hg, hr⟩ := Option.map_eq_some_iff.mp h
  rw [term, outcome_withSpan, outcome_recover, outcome_orElse, hGroup, hg]
  exact congrArg some hr

/-- Without a parenthesis there is no group, not even a malformed one. -/
theorem outcome_group_of_ne (c : Parser Expr) [Composed .conditions c] {ts : Tokens}
    (h : Follows (· != .symbol .lparen) (values ts)) : (group c).outcome ts = none := by
  have hOpen : (exactly (.symbol .lparen)).outcome ts = none := outcome_exactly_of_ne h
  have hBalanced : balanced.outcome ts = none := by
    show (balancedUpTo (ts.length + 1)).outcome ts = none
    rw [balancedUpTo, outcome_bind, symbol, hOpen]
    rfl
  rw [group, outcome_recover, outcome_bind, outcome_bind, hBalanced, symbol, hOpen]
  rfl

/-- Nothing is compared where the term may end. -/
theorem outcome_comparisonTail_of_endsTerm {ts : Tokens} (h : Follows endsTerm (values ts)) :
    comparisonTail.outcome ts = none := by
  cases hRead : comparisonTail.outcome ts with
  | none => rfl
  | some r =>
    obtain ⟨run, rfl, x, hRun, -⟩ := comparisonTail_takes hRead
    rw [values_append, ← hRun, List.append_assoc] at h
    exact absurd h (not_follows_comparisonTokens _ _)

/-- What an operand is compared with, with all its places changed. -/
def movedTail (f : Span → Span) (t : Spanned Comparison × Spanned Comparand) :
    Spanned Comparison × Spanned Comparand :=
  (t.1.moved f, movedComparand f t.2)

theorem moved_compared (f : Span → Span) (x : Spanned Operand)
    (t : Option (Spanned Comparison × Spanned Comparand)) (s : Span) :
    (compared x t s).moved f = compared (movedOperand f x) (t.map (movedTail f)) (f s) := by
  cases t <;> rfl

/-- An operand is compared just if the grammar says so, and it means the same either way. -/
theorem optional_comparisonTail_yields (tail : Option (Comparison × Right)) {run : Tokens}
    (hRun : values run = tailTokens tail) :
    ∃ t, Yields (Parser.optional comparisonTail) (fun f t => t.map (movedTail f)) endsTerm run t ∧
      ∀ x : Spanned Operand, ∀ lhs : OperandForm, ∀ s,
        x.value.moved (fun _ => Span.nowhere) = lhs.tree →
          (compared x t s).unplaced = predicateTree lhs tail := by
  -- without a comparison, what follows ends the term and so is none
  rcases tail with _ | ⟨c, r⟩
  · cases values_eq_nil hRun
    refine ⟨none, fun f hf rest hRest => ?_, fun x lhs s hTree => ?_⟩
    · rw [outcome_optional, movedTokens_nil, List.nil_append,
        outcome_comparisonTail_of_endsTerm hRest]
      rfl
    · rw [compared, Expr.unplaced, Expr.moved, movedOperand, hTree]
      rfl
  · obtain ⟨t, ht, hOp, hRight⟩ := comparisonTail_yields c r hRun
    refine ⟨some t, fun f hf rest hRest => ?_, fun x lhs s hTree => ?_⟩
    · rw [outcome_optional, ht hf (hRest.mono fun _ => afterOperand_of_endsTerm)]
      rfl
    · rw [compared, Expr.unplaced, Expr.moved, movedOperand, movedComparand, Spanned.moved, hTree,
        hOp, hRight]
      rfl

/-- A predicate is read as what it means, without malformed parts. -/
theorem predicate_yields (lhs : OperandForm) (tail : Option (Comparison × Right)) {run : Tokens}
    (hRun : values run = lhs.tokens ++ tailTokens tail) :
    ∃ e, Yields (withSpan predicate) Expr.moved endsTerm run e ∧ e.malformedParts = 0 ∧
      e.unplaced = predicateTree lhs tail := by
  have hNonempty : run ≠ [] :=
    ne_nil_of_values_ne_nil (by rw [hRun]; exact (Phrase.predicate lhs tail).tokens_ne_nil)
  obtain ⟨first, later, rfl, hFirst, hLater⟩ := exists_of_values_eq_append hRun
  obtain ⟨x, hx, hTree⟩ := operand_yields lhs hFirst
  obtain ⟨t, ht, hTrees⟩ := optional_comparisonTail_yields tail hLater
  refine ⟨compared x t (hull (first ++ later)), fun f hf rest hRest => ?_, ?_, hTrees x lhs _ hTree⟩
  · rw [moved_compared]
    refine outcome_withSpan_run hf hNonempty ?_
    -- the operand ends before its comparison, or where the term ends
    have hAfter : Follows afterOperand (values (movedTokens f later ++ rest)) := by
      rw [values_append, values_movedTokens, hLater]
      exact follows_tailTokens tail hRest
    rw [predicate_eq, outcome_bind, movedTokens_append, List.append_assoc, hx hf hAfter,
      Option.bind_some, outcome_bind, ht hf hRest]
    rfl
  · cases t <;> rfl

/-- A group is read whatever follows it, if its condition is read before a parenthesis. -/
theorem group_yields {inner : Tokens} {e : Expr} (s s' : Span)
    (h : Yields condition Expr.moved (Nonterminal.chain .or).after inner e) :
    Yields (withSpan (group condition)) Expr.moved (fun _ => true)
      (⟨.symbol .lparen, s⟩ :: (inner ++ [⟨.symbol .rparen, s'⟩]))
      (.group (hull (⟨.symbol .lparen, s⟩ :: (inner ++ [⟨.symbol .rparen, s'⟩]))) e) := by
  intro f hf rest _
  refine outcome_withSpan_run (e := fun s => .group s (e.moved f)) hf (List.cons_ne_nil _ _) ?_
  -- the condition inside ends at the closing parenthesis
  have hClose : Follows (Nonterminal.chain .or).after
      (values (⟨.symbol .rparen, f s'⟩ :: rest)) :=
    follows_cons.mpr rfl
  simp only [movedTokens_cons, movedTokens_append, movedTokens_nil, List.cons_append,
    List.append_assoc, List.nil_append]
  rw [group, outcome_recover, symbol, outcome_bind, outcome_exactly_cons, if_pos rfl,
    Option.bind_some, outcome_bind, h hf hClose]
  simp [symbol]

/-! ## Conditions -/

/-- The parser of a nonterminal. -/
def reader : Nonterminal → Parser Expr
  | .unary => negation condition
  | .chain .and => conjunction condition
  | .chain .or => disjunction condition

theorem reader_chain (k : Connective) :
    reader (.chain k) = chain (reader k.member) (exactly k.token) k.join := by
  cases k <;> rfl

theorem reader_takes : (n : Nonterminal) → (reader n).Takes (Derives n)
  | .unary => negation_takes condition_takes
  | .chain .and => chain_takes (k := .and) (negation_takes condition_takes)
  | .chain .or => chain_takes (k := .or) (chain_takes (k := .and) (negation_takes condition_takes))

instance : (n : Nonterminal) → (reader n).Steady
  | .unary => inferInstanceAs (negation condition).Steady
  | .chain .and => inferInstanceAs (conjunction condition).Steady
  | .chain .or => inferInstanceAs (disjunction condition).Steady

/-- The members of a chain after the first. -/
def further (k : Connective) : Parser (List Expr) :=
  many (do exactly k.token; reader k.member)

section
variable {k : Connective} {ts rest : Tokens}

/-- A chain is its first member and the further ones. -/
theorem outcome_reader_chain :
    (reader (.chain k)).outcome ts = ((reader k.member).outcome ts).bind fun r =>
      ((further k).outcome r.2).map fun s => (s.1.foldl k.join r.1, s.2) := by
  rw [reader_chain, outcome_chain]
  rfl

/-- A connective with a member behind it is one further member. -/
theorem outcome_further_cons {s : Span} {e : Expr}
    (h : (reader k.member).outcome ts = some (e, rest)) :
    (further k).outcome (⟨k.token, s⟩ :: ts) =
      ((further k).outcome rest).map fun r => (e :: r.1, r.2) := by
  have hShrinks := Shrinks.after_exactly (shrinks_of_derives (reader_takes k.member)) k.token
  refine outcome_many_of_some hShrinks ?_
  rw [outcome_bind, outcome_exactly_cons, if_pos rfl, Option.bind_some, h]

/-- Where the connective does not come, there are no further members. -/
theorem outcome_further_of_ne (h : Follows (· != k.token) (values ts)) :
    (further k).outcome ts = some ([], ts) := by
  refine outcome_many_of_none ?_
  rw [outcome_bind, outcome_exactly_of_ne h]
  rfl

end

theorem outcome_further_nil (k : Connective) : (further k).outcome [] = some ([], []) :=
  outcome_further_of_ne (follows_nil _)

/-- The run is read as a member `e` and further members `es`, and the chain can go on behind it. -/
def ChainYields (k : Connective) (run : Tokens) (e : Expr) (es : List Expr) : Prop :=
  ∃ later, ∀ ⦃f⦄, Span.Rigid f → ∀ ⦃rest⦄, Follows k.member.after (values rest) →
    (reader k.member).outcome (movedTokens f run ++ rest) =
        some (e.moved f, movedTokens f later ++ rest) ∧
      (further k).outcome (movedTokens f later ++ rest) =
        ((further k).outcome rest).map fun r => (es.map (Expr.moved f) ++ r.1, r.2)

section
variable {k : Connective} {run run' : Tokens} {e e' : Expr} {es : List Expr}

/-- One member is a chain that can go on. -/
theorem chainYields_last (h : Yields (reader k.member) Expr.moved k.member.after run e) :
    ChainYields k run e [] := by
  refine ⟨[], fun f hf rest hRest => ⟨h hf hRest, ?_⟩⟩
  rw [movedTokens_nil, List.nil_append]
  exact Option.map_id'.symm

/-- Behind its connective, the whole run is read as further members. -/
theorem ChainYields.outcome_further (h : ChainYields k run e es) {f : Span → Span}
    (hf : Span.Rigid f) {rest : Tokens} (hRest : Follows k.member.after (values rest)) (s : Span) :
    (further k).outcome (⟨k.token, s⟩ :: (movedTokens f run ++ rest)) =
      ((further k).outcome rest).map fun r => ((e :: es).map (Expr.moved f) ++ r.1, r.2) := by
  obtain ⟨later, hLater⟩ := h
  obtain ⟨hFirst, hMore⟩ := hLater hf hRest
  rw [outcome_further_cons hFirst, hMore, Option.map_map]
  rfl

/-- A member before a chain and its connective is the first of a longer chain. -/
theorem ChainYields.join (h : Yields (reader k.member) Expr.moved k.member.after run e)
    (hMore : ChainYields k run' e' es) (s : Span) :
    ChainYields k (run ++ ⟨k.token, s⟩ :: run') e (e' :: es) := by
  refine ⟨⟨k.token, s⟩ :: run', fun f hf rest hRest => ⟨?_, hMore.outcome_further hf hRest _⟩⟩
  -- a member ends at the connective of its chain
  have hToken : Follows k.member.after (values (movedTokens f (⟨k.token, s⟩ :: run') ++ rest)) :=
    follows_token k.after_member_token
  rw [movedTokens_append, List.append_assoc, h hf hToken]

/-- Where the connective does not come again, the chain is complete. -/
theorem ChainYields.yields (h : ChainYields k run e es) :
    Yields (reader (.chain k)) Expr.moved (Nonterminal.chain k).after run (es.foldl k.join e) := by
  obtain ⟨later, hLater⟩ := h
  intro f hf rest hRest
  obtain ⟨hFirst, hMore⟩ := hLater hf (hRest.mono fun _ => Connective.after_member_of_after_chain)
  rw [outcome_reader_chain, hFirst, Option.bind_some, hMore, outcome_further_of_ne hRest.ne_token,
    Expr.moved_foldl_join hf]
  simp

end

/-- A negation is read where its inner condition is. -/
theorem not_yields {inner : Tokens} {e : Expr} (s : Span)
    (h : Yields (reader .unary) Expr.moved endsTerm inner e) :
    Yields (reader .unary) Expr.moved endsTerm (⟨.keyword .not, s⟩ :: inner)
      (.not (hull (⟨.keyword .not, s⟩ :: inner)) e) := by
  intro f hf rest hRest
  -- the place is drawn around the run and not around what follows
  have hSpan : hull (consumed (⟨.keyword .not, f s⟩ :: (movedTokens f inner ++ rest)) rest) =
      f (hull (⟨.keyword .not, s⟩ :: inner)) := by
    rw [← hull_moved hf (List.cons_ne_nil _ _)]
    exact congrArg hull (consumed_append (movedTokens f (⟨.keyword .not, s⟩ :: inner)) rest)
  have hInner : (negation condition).outcome (movedTokens f inner ++ rest) =
      some (e.moved f, rest) :=
    h hf hRest
  rw [movedTokens_cons, List.cons_append, reader, outcome_negation_cons_not, hInner,
    Option.map_some, hSpan]
  rfl

/-- The run is read as what the phrase means. A chain is kept apart from its tree, as a longer chain
is not joined from the trees of its parts. -/
def ReadAs : (n : Nonterminal) → Phrase n → Tokens → Prop
  | .unary, p, run => ∃ e, Yields (reader .unary) Expr.moved endsTerm run e ∧
      e.malformedParts = 0 ∧ e.unplaced = p.tree
  | .chain k, p, run => ∃ e es, ChainYields k run e es ∧ (∀ x ∈ e :: es, x.malformedParts = 0) ∧
      ∀ before, p.treeAfter before = (es.map Expr.unplaced).foldl k.join (before e.unplaced)

/-- A phrase that is read member by member is read as its tree. -/
theorem ReadAs.yields {n : Nonterminal} {p : Phrase n} {run : Tokens} (h : ReadAs n p run) :
    ∃ e, Yields (reader n) Expr.moved n.after run e ∧ e.malformedParts = 0 ∧
      e.unplaced = p.tree := by
  cases n with
  | unary => exact h
  | chain k =>
    obtain ⟨e, es, hYields, hWhole, hTree⟩ := h
    -- a chain is its first member with the others joined to it from the left
    refine ⟨es.foldl k.join e, hYields.yields,
      (Expr.malformedParts_foldl_join k e es).mpr hWhole, ?_⟩
    rw [Phrase.tree, hTree]
    exact Expr.moved_foldl_join Span.rigid_nowhere k e es

/-- Tokens with a derivation are read as what the derivation means, wherever they stand. -/
theorem phrase_readAs {n : Nonterminal} (p : Phrase n) {run : Tokens}
    (hRun : values run = p.tokens) : ReadAs n p run := by
  induction p generalizing run with
  | not inner ih =>
    obtain ⟨s, inside, rfl, hInside⟩ := exists_of_values_eq_cons hRun
    obtain ⟨e, hYields, hWhole, hTree⟩ := ih hInside
    exact ⟨_, not_yields s hYields, hWhole, congrArg (Expr.not Span.nowhere) hTree⟩
  | group inner ih =>
    obtain ⟨s, _, rfl, hGroup⟩ := exists_of_values_eq_cons hRun
    obtain ⟨inside, _, rfl, hInside, hLast⟩ := exists_of_values_eq_append hGroup
    obtain ⟨s', rfl⟩ := exists_of_values_eq_singleton hLast
    obtain ⟨e, hYields, hWhole, hTree⟩ := (ih hInside).yields
    -- a group asks for a condition, and that is a disjunction by its equation
    have hCondition : Yields condition Expr.moved (Nonterminal.chain .or).after inside e := by
      intro f hf rest hRest
      rw [outcome_condition]
      exact hYields hf hRest
    refine ⟨.group (hull (⟨.symbol .lparen, s⟩ :: (inside ++ [⟨.symbol .rparen, s'⟩]))) e,
      fun f hf rest hRest => ?_, hWhole, congrArg (Expr.group Span.nowhere) hTree⟩
    rw [reader, outcome_negation_of_ne condition (follows_cons.mpr rfl)]
    exact outcome_term_of_group (group_yields s s' hCondition hf fun _ _ => rfl)
  | predicate lhs tail =>
    obtain ⟨e, hYields, hWhole, hTree⟩ := predicate_yields lhs tail hRun
    refine ⟨e, fun f hf rest hRest => ?_, hWhole, hTree⟩
    -- the first token is one of an operand: no `NOT` and no parenthesis
    have hStart : Follows startsOperand (values (movedTokens f run ++ rest)) := by
      obtain ⟨t, w, hTokens, ht⟩ := lhs.exists_tokens_eq_cons
      rw [values_append, values_movedTokens, hRun, Phrase.tokens, hTokens]
      exact follows_cons.mpr ht
    rw [reader, outcome_negation_of_ne]
    · refine outcome_term_of_predicate (outcome_group_of_ne _ ?_) (hYields hf hRest)
      exact hStart.mono fun t ht => bne_iff_ne.mpr (by rintro rfl; cases ht)
    · exact hStart.mono fun t ht => bne_iff_ne.mpr (by rintro rfl; cases ht)
  | @last k m ih =>
    obtain ⟨e, hYields, hWhole, hTree⟩ := (ih hRun).yields
    refine ⟨e, [], chainYields_last hYields, by simpa using hWhole, fun before => ?_⟩
    rw [Phrase.treeAfter, hTree]
    rfl
  | @join k m more ihm ihMore =>
    obtain ⟨first, _, rfl, hFirst, hChain⟩ := exists_of_values_eq_append hRun
    obtain ⟨s, later, rfl, hLater⟩ := exists_of_values_eq_cons hChain
    obtain ⟨e, hYields, hWhole, hTree⟩ := (ihm hFirst).yields
    -- what follows the first member is a chain by itself, of which the members are kept apart
    obtain ⟨e', es, hMore, hWholes, hTrees⟩ := ihMore hLater
    refine ⟨e, e' :: es, ChainYields.join hYields hMore s, ?_, fun before => ?_⟩
    · exact List.forall_mem_cons.mpr ⟨hWhole, hWholes⟩
    · rw [Phrase.treeAfter, hTrees, hTree]
      rfl

/-- A condition where it stands. -/
theorem Yields.here {p : Parser Expr} {after : Token → Bool} {run rest : Tokens} {e : Expr}
    (h : Yields p Expr.moved after run e) (hRest : Follows after (values rest)) :
    p.outcome (run ++ rest) = some (e, rest) := by
  have hHere := h Span.rigid_self hRest
  rwa [movedTokens_self, Expr.moved_self] at hHere

/-- A condition that stands alone is read as a whole. -/
theorem outcome_condition_of_yields {after : Token → Bool} {run : Tokens} {e : Expr}
    (h : Yields (reader (.chain .or)) Expr.moved after run e) :
    condition.outcome run = some (e, []) := by
  have hEnd : Follows after (values []) := follows_nil after
  rw [outcome_condition, ← List.append_nil run]
  exact h.here hEnd

end AnnotationQuery.Parse
