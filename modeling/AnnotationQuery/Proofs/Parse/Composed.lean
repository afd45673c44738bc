import AnnotationQuery.Parse.Order

/-!
# What the parsers are put together from

Much of what is proved about the parsers is proved of all of them, because it is true of single
tokens and kept by every combinator. That the grammar is put together from single tokens by
combinators is said here once. A property that is *closed* holds of whatever is put together so,
and a parser is *composed* if it has every closed property. To show a property of the grammar it
is then enough to show that it is closed.

There are two levels. Operands and predicates read no token that ends a term, apart from the
parentheses that they open and close themselves, and they never recover. Conditions do, and they
repeat and nest without a bound of their own; they still read no closing parenthesis but for one
that they opened.

Main results:

* `Parser.Composed` — composed parsers.
* `predicate_composed`, `orderTerms_composed` — the parsers of terms.
* `condition_composed` — conditions.
-/

namespace AnnotationQuery.Parse

/-- Whether a token is a closing parenthesis. -/
def isClosing (t : Token) : Bool :=
  t == .symbol .rparen

/-- A closing parenthesis ends a term. -/
theorem endsTerm_of_isClosing {t : Token} (h : isClosing t = true) : endsTerm t = true := by
  rw [eq_of_beq h]
  rfl

/-- What does not end a term is no closing parenthesis. -/
theorem isClosing_eq_false {t : Token} (h : endsTerm t = false) : isClosing t = false := by
  cases hClosing : isClosing t with
  | false => rfl
  | true =>
    rw [endsTerm_of_isClosing hClosing] at h
    cases h

namespace Parser

/-! ## Closed properties -/

/-- A property of parsers that is kept by what terms are put together with. -/
structure ClosedOnTerms (P : ∀ {α : Type}, Parser α → Prop) : Prop where
  pure : ∀ {α : Type} (a : α), P (pure a : Parser α)
  bind : ∀ {α β : Type} {p : Parser β} {f : β → Parser α}, P p → (∀ b, P (f b)) → P (p >>= f)
  /-- Outside of its parentheses a term reads no token that ends a term. -/
  accept : ∀ {α : Type} {read : Token → Option α},
    (∀ t, (read t).isSome = true → endsTerm t = false) → P (accept read)
  orElse : ∀ {α : Type} {p q : Parser α}, P p → P q → P (p <|> q)
  optional : ∀ {α : Type} {p : Parser α}, P p → P (optional p)
  withSpan : ∀ {α : Type} {p : Parser (Span → α)}, P p → P (withSpan p)
  enclosed : ∀ {α β : Type} {p : Parser β} (g : β → α), P p →
    P (do symbol .lparen; let b ← p; symbol .rparen; return g b)
  /-- Terms repeat only what a comma stands before, so every round uses up a token. -/
  items : ∀ {α : Type} {p : Parser α}, P p → P (many do symbol .comma; p)

/-- A property of parsers that is kept by what conditions are put together with. -/
structure ClosedOnConditions (P : ∀ {α : Type}, Parser α → Prop) : Prop extends
    ClosedOnTerms @P where
  /-- A condition may read what ends a term, but no closing parenthesis. -/
  acceptOpen : ∀ {α : Type} {read : Token → Option α},
    (∀ t, (read t).isSome = true → isClosing t = false) → P (Parser.accept read)
  stop : ∀ {α : Type}, P (stop : Parser α)
  recover : ∀ {α : Type} {p q : Parser α}, P p → P q → P (recover p q)
  many : ∀ {α : Type} {p : Parser α}, P p → P (many p)
  /-- The bound is a function of the tokens, so for given tokens it is a number like any other. -/
  bounded : ∀ {α : Type} {q : Nat → Parser α}, (∀ bound, P (q bound)) →
    P (fun ts n => q (ts.length + 1) ts n : Parser α)
  balanced : ∀ {β : Type} {p : Parser β}, P p →
    P (do symbol .lparen; let _ ← p; symbol .rparen : Parser Unit)
  skipped : P skippedToken

/-- What a parser may be put together with. -/
inductive Level where
  | terms
  | conditions

/-- A property that is closed on a level. -/
def Level.Closed : Level → (∀ {α : Type}, Parser α → Prop) → Prop
  | terms, P => ClosedOnTerms @P
  | conditions, P => ClosedOnConditions @P

/-- What terms are put together with, conditions may be too. -/
theorem Level.Closed.onTerms {level : Level} {P : ∀ {α : Type}, Parser α → Prop}
    (h : level.Closed @P) : ClosedOnTerms @P := by
  cases level with
  | terms => exact h
  | conditions => exact h.toClosedOnTerms

/-- The parser has every property that is closed on the level. -/
class Composed (level : Level) {α : Type} (p : Parser α) : Prop where
  has : ∀ (P : ∀ {β : Type}, Parser β → Prop), level.Closed @P → P p

/-! ## Combinators -/

section
variable {level : Level} {α β : Type} {p q : Parser α}

instance (a : α) : Composed level (pure a : Parser α) :=
  ⟨fun _ h => h.onTerms.pure a⟩

instance {p : Parser β} {f : β → Parser α} [hp : Composed level p]
    [hf : ∀ b, Composed level (f b)] : Composed level (p >>= f) :=
  ⟨fun P h => h.onTerms.bind (hp.has P h) fun b => (hf b).has P h⟩

instance [hp : Composed level p] [hq : Composed level q] : Composed level (p <|> q) :=
  ⟨fun P h => h.onTerms.orElse (hp.has P h) (hq.has P h)⟩

instance [hp : Composed level p] : Composed level (optional p) :=
  ⟨fun P h => h.onTerms.optional (hp.has P h)⟩

instance {p : Parser (Span → α)} [hp : Composed level p] : Composed level (withSpan p) :=
  ⟨fun P h => h.onTerms.withSpan (hp.has P h)⟩

instance [Composed level p] : Composed level (located p) := by
  delta located
  infer_instance

instance {p : Parser β} {g : β → α} [hp : Composed level p] :
    Composed level (do symbol .lparen; let b ← p; symbol .rparen; return g b) :=
  ⟨fun P h => h.onTerms.enclosed g (hp.has P h)⟩

instance [hp : Composed level p] : Composed level (many do symbol .comma; p) :=
  ⟨fun P h => h.onTerms.items (hp.has P h)⟩

instance [Composed level p] : Composed level (separatedBy p (symbol .comma)) := by
  delta separatedBy
  infer_instance

instance : Composed .conditions (stop : Parser α) :=
  ⟨fun _ h => h.stop⟩

instance [hp : Composed .conditions p] [hq : Composed .conditions q] :
    Composed .conditions (recover p q) :=
  ⟨fun P h => h.recover (hp.has P h) (hq.has P h)⟩

instance [hp : Composed .conditions p] : Composed .conditions (many p) :=
  ⟨fun P h => h.many (hp.has P h)⟩

instance {p : Parser β} [hp : Composed .conditions p] :
    Composed .conditions (do symbol .lparen; let _ ← p; symbol .rparen : Parser Unit) :=
  ⟨fun P h => h.balanced (hp.has P h)⟩

instance [Composed .conditions p] : Composed .conditions (atLeastOne p) := by
  delta atLeastOne
  infer_instance

instance {connective : Parser Unit} {join : α → α → α} [Composed .conditions p]
    [Composed .conditions connective] : Composed .conditions (chain p connective join) := by
  delta chain
  infer_instance

/-- A parser that is composed for every bound is composed with a bound from the tokens. -/
theorem composed_bounded {q : Nat → Parser α} (h : ∀ bound, Composed .conditions (q bound)) :
    Composed .conditions (fun ts n => q (ts.length + 1) ts n : Parser α) :=
  ⟨fun P hP => hP.bounded fun bound => (h bound).has P hP⟩

/-- A test that passes nothing that ends a term. -/
theorem composed_accept {read : Token → Option β}
    (h : ∀ t, (read t).isSome = true → endsTerm t = false) : Composed level (accept read) :=
  ⟨fun _ hP => hP.onTerms.accept h⟩

/-- A test that passes no closing parenthesis. -/
theorem composed_acceptOpen {read : Token → Option β}
    (h : ∀ t, (read t).isSome = true → isClosing t = false) :
    Composed .conditions (accept read) :=
  ⟨fun _ hP => hP.acceptOpen h⟩

/-- The test for one token passes no other. -/
theorem eq_of_isSome_test {t u : Token}
    (h : (if u = t then some () else none).isSome = true) : u = t := by
  by_cases hSame : u = t
  · exact hSame
  · rw [if_neg hSame] at h
    cases h

/-- A token that does not end a term. -/
theorem composed_exactly {t : Token} (h : endsTerm t = false) : Composed level (exactly t) := by
  have hTest : Composed level (accept fun u => if u = t then some () else none) :=
    composed_accept fun u hu => eq_of_isSome_test hu ▸ h
  delta exactly
  infer_instance

/-- A token that is no closing parenthesis. -/
theorem composed_exactlyOpen {t : Token} (h : isClosing t = false) :
    Composed .conditions (exactly t) := by
  have hTest : Composed .conditions (accept fun u => if u = t then some () else none) :=
    composed_acceptOpen fun u hu => eq_of_isSome_test hu ▸ h
  delta exactly
  infer_instance

end

end Parser

open AnnotationQuery.Parse.Parser

/-! ## Terms -/

section
variable {level : Level}

instance (name : String) : Composed level (word name) :=
  composed_exactly rfl

instance : Composed level (symbol .dot) :=
  composed_exactly rfl

instance : Composed level string :=
  composed_accept fun t ht => by cases t <;> first | rfl | cases ht

instance : Composed level number :=
  composed_accept fun t ht => by cases t <;> first | rfl | cases ht

instance : Composed level name :=
  composed_accept fun t ht => by cases t <;> first | rfl | cases ht

instance : Composed level layerArgument := by delta layerArgument; infer_instance

instance : Composed level myFunction := by delta myFunction; infer_instance

instance : Composed level listFunction := by delta listFunction; infer_instance

instance : Composed level labelsFunction := by delta labelsFunction; infer_instance

instance : Composed level annotatorsFunction := by delta annotatorsFunction; infer_instance

instance : Composed level memberAccess := by delta memberAccess; infer_instance

instance : Composed level bareName := by delta bareName; infer_instance

instance : Composed level literal := by delta literal; infer_instance

instance : Composed level operand := by delta operand; infer_instance

/-- A symbol that compares ends no term. -/
theorem composed_comparisonSymbol {s : Symbol} (h : endsTerm (.symbol s) = false)
    (c : Comparison) : Composed level (comparisonSymbol s c) := by
  have hSymbol : Composed level (symbol s) := composed_exactly h
  delta comparisonSymbol
  infer_instance

instance : Composed level comparison := by
  have hEq : Composed level (comparisonSymbol .eq .eq) := composed_comparisonSymbol rfl _
  have hNe : Composed level (comparisonSymbol .ne .ne) := composed_comparisonSymbol rfl _
  have hLe : Composed level (comparisonSymbol .le .le) := composed_comparisonSymbol rfl _
  have hGe : Composed level (comparisonSymbol .ge .ge) := composed_comparisonSymbol rfl _
  have hLt : Composed level (comparisonSymbol .lt .lt) := composed_comparisonSymbol rfl _
  have hGt : Composed level (comparisonSymbol .gt .gt) := composed_comparisonSymbol rfl _
  have hMatching : Composed level (keyword .matching) := composed_exactly rfl
  have hNot : Composed level (keyword .not) := composed_exactly rfl
  have hIsIn : Composed level (keyword .isIn) := composed_exactly rfl
  delta comparison
  infer_instance

instance : Composed level operandList := by delta operandList; infer_instance

instance : Composed level comparand := by delta comparand; infer_instance

/-- What an operand is compared with. -/
def comparisonTail : Parser (Spanned Comparison × Spanned Comparand) := do
  let op ← comparison
  let rhs ← comparand
  return (op, rhs)

/-- The condition that an operand makes with what it is compared with, or alone. -/
def compared (lhs : Spanned Operand) :
    Option (Spanned Comparison × Spanned Comparand) → Span → Expr
  | some (op, rhs), s => .compare s lhs op rhs
  | none, s => .operand s lhs

/-- A predicate, with the two ways to go on after the operand in one. -/
theorem predicate_eq :
    predicate = do
      let lhs ← operand
      let tail ← Parser.optional comparisonTail
      return compared lhs tail := by
  refine congrArg (operand >>= ·) (funext fun lhs => ?_)
  refine congrArg (Parser.optional comparisonTail >>= ·) (funext fun tail => ?_)
  cases tail <;> rfl

instance : Composed level comparisonTail := by delta comparisonTail; infer_instance

instance predicate_composed : Composed level predicate := by
  rw [predicate_eq]
  infer_instance

instance : Composed level direction := by
  have hAsc : Composed level (keyword .asc) := composed_exactly rfl
  have hDesc : Composed level (keyword .desc) := composed_exactly rfl
  delta direction
  infer_instance

instance : Composed level orderTerm := by delta orderTerm; infer_instance

instance orderTerms_composed : Composed level orderTerms := by delta orderTerms; infer_instance

end

/-! ## Conditions -/

instance (k : Keyword) : Composed .conditions (keyword k) :=
  composed_exactlyOpen (by cases k <;> rfl)

instance : Composed .conditions notParenthesis := by
  have hTest : Composed .conditions (accept fun t =>
      if t = .symbol .lparen ∨ t = .symbol .rparen then none else some ()) := by
    refine composed_acceptOpen fun t ht => ?_
    cases hClosing : isClosing t with
    | false => rfl
    | true =>
      rw [eq_of_beq hClosing] at ht
      cases ht
  delta notParenthesis
  infer_instance

instance (bound : Nat) : Composed .conditions (balancedUpTo bound) := by
  induction bound with
  | zero => exact inferInstanceAs (Composed .conditions stop)
  | succ bound ih => unfold balancedUpTo; infer_instance

instance : Composed .conditions balanced :=
  composed_bounded (q := balancedUpTo) inferInstance

instance : Composed .conditions skippedToken :=
  ⟨fun _ h => h.skipped⟩

section
variable (c : Parser Expr) [Composed .conditions c]

instance : Composed .conditions (group c) := by delta group; infer_instance

instance : Composed .conditions (term c) := by delta term; infer_instance

instance (bound : Nat) : Composed .conditions (negationUpTo c bound) := by
  induction bound with
  | zero => exact inferInstanceAs (Composed .conditions stop)
  | succ bound ih => unfold negationUpTo; infer_instance

instance : Composed .conditions (negation c) :=
  composed_bounded (q := negationUpTo c) inferInstance

instance : Composed .conditions (conjunction c) := by delta conjunction; infer_instance

instance : Composed .conditions (disjunction c) := by delta disjunction; infer_instance

end

instance (bound : Nat) : Composed .conditions (conditionUpTo bound) := by
  induction bound with
  | zero => exact inferInstanceAs (Composed .conditions stop)
  | succ bound ih => unfold conditionUpTo; infer_instance

instance condition_composed : Composed .conditions condition :=
  composed_bounded (q := conditionUpTo) inferInstance

end AnnotationQuery.Parse
