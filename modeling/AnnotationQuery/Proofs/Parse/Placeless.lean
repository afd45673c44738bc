import AnnotationQuery.Parse.Order
import AnnotationQuery.Proofs.Parse.Accepted
import Mathlib.Data.List.Forall2

/-!
# Reading does not look at places

What a parser does is decided by the tokens and not by where they stand. So two runs over the
same tokens at different places go the same way: they read the same things, places
aside, leave the same tokens or fail together, and remember the same failures. This
holds of every parser that is made from the combinators, and is proved of each by
following how it is made.

What a parser reads may hold places, so each kind of value has its own notion of being the
same. For the functions that wait for the place of a term it is that they give the
same, whatever places they are given.

Main results:

* `operand_alike`, `predicate_alike`, `condition_alike`, `orderTerms_alike` — the parsers.
* `readTokens_alike` — whole texts: what is read, and what is complained about.
-/

namespace AnnotationQuery

/-! ## The same, places aside -/

/-- The values are related, wherever they stand. -/
def Spanned.Rel {α : Type} (R : α → α → Prop) (a b : Spanned α) : Prop :=
  R a.value b.value

/-- The operands differ in places only. -/
def Operand.Alike (a b : Operand) : Prop :=
  (a.moved fun _ => Span.nowhere) = b.moved fun _ => Span.nowhere

/-- The comparands differ in places only. -/
def Comparand.Alike (a b : Comparand) : Prop :=
  (a.moved fun _ => Span.nowhere) = b.moved fun _ => Span.nowhere

/-- The conditions differ in places only. -/
def Expr.Alike (a b : Expr) : Prop :=
  a.unplaced = b.unplaced

/-- The sort keys differ in places only. -/
def OrderTerm.Alike (a b : OrderTerm) : Prop :=
  a.operand.Rel Operand.Alike b.operand ∧ a.descending = b.descending

/-- The two readings gave the same, in the sense of `R`, and the same complaints. -/
structure Reading.Alike {α : Type} (R : α → α → Prop) (r s : Reading α) : Prop where
  output     : Option.Rel R r.output s.output
  complaints : r.diagnostics.map Diagnostic.complaint = s.diagnostics.map Diagnostic.complaint

namespace Parse

/-! ## Notes -/

/-- The failure without its place. -/
def Failure.unplaced (f : Failure) : Failure :=
  { f with place := none }

/-- Failing at the same tokens is the same failure, places aside. -/
theorem Failure.unplaced_at {ts us : Tokens} (h : values ts = values us) :
    (Failure.at ts).unplaced = (Failure.at us).unplaced := by
  cases ts with
  | nil =>
    cases values_eq_nil h.symm
    rfl
  | cons t ts =>
    obtain ⟨s, us, rfl, hRest⟩ := exists_of_values_eq_cons h.symm
    have hLength := congrArg List.length hRest
    simp only [values, List.length_map] at hLength
    simp [Failure.at, unplaced, hLength]

namespace Notes

/-- The notes without the places of failures. -/
def unplaced (n : Notes) : Notes :=
  ⟨n.furthest.map Failure.unplaced, n.errors.map Failure.unplaced⟩

/-- The same failures are remembered, places aside. -/
def Alike (n m : Notes) : Prop :=
  n.unplaced = m.unplaced

/-- A failure may be forgotten to have a place before or after it is offered. -/
theorem unplaced_offer (n : Notes) (f : Failure) :
    (n.offer f).unplaced = n.unplaced.offer f.unplaced := by
  obtain ⟨_ | g, errors⟩ := n
  · rfl
  · -- which of two failures is kept depends on the tokens left, not on places
    by_cases hLess : f.left < g.left
    · simp [offer, unplaced, Failure.unplaced, hLess]
    · by_cases hSame : f.left = g.left
      · simp [offer, unplaced, Failure.unplaced, hSame]
      · simp [offer, unplaced, Failure.unplaced, hLess, hSame]

variable {n m n' m' : Notes}

theorem Alike.offer (h : n.Alike m) {f g : Failure} (hf : f.unplaced = g.unplaced) :
    (n.offer f).Alike (m.offer g) := by
  rw [Alike, unplaced_offer, unplaced_offer, h, hf]

theorem Alike.errors (h : n.Alike m) :
    n.errors.map Failure.unplaced = m.errors.map Failure.unplaced :=
  congrArg Notes.errors h

theorem Alike.furthest (h : n.Alike m) :
    n.furthest.map Failure.unplaced = m.furthest.map Failure.unplaced :=
  congrArg Notes.furthest h

theorem Alike.rewind (h : n.Alike m) (h' : n'.Alike m') : (n.rewind n').Alike (m.rewind m') :=
  congrArg₂ Notes.mk h.furthest h'.errors

/-- The furthest failure becomes an error. -/
theorem Alike.report (h : n.Alike m) (h' : n'.Alike m') :
    (Notes.mk n'.furthest (n'.errors ++ n.furthest.toList)).Alike
      ⟨m'.furthest, m'.errors ++ m.furthest.toList⟩ := by
  have hToList : ∀ o : Option Failure, o.toList.map Failure.unplaced =
      (o.map Failure.unplaced).toList := by
    intro o
    cases o <;> rfl
  -- what was furthest becomes an error, on both sides
  have hErrors : (n'.errors ++ n.furthest.toList).map Failure.unplaced =
      (m'.errors ++ m.furthest.toList).map Failure.unplaced := by
    rw [List.map_append, List.map_append, h'.errors, hToList, hToList, h.furthest]
  exact congrArg₂ Notes.mk h'.furthest hErrors

end Notes

/-! ## Two runs -/

/-- The two replies are the same, up to places and with values that are the same in the sense of
`R`. -/
inductive Reply.Alike {α : Type} (R : α → α → Prop) : Reply α → Reply α → Prop where
  | failed {n m : Notes} (hNotes : n.Alike m) : Alike R ⟨none, n⟩ ⟨none, m⟩
  | read {a b : α} {ts us : Tokens} {n m : Notes} (hValue : R a b) (hRest : values ts = values us)
      (hNotes : n.Alike m) : Alike R ⟨some (a, ts), n⟩ ⟨some (b, us), m⟩

namespace Parser

/-- Over the same tokens and with the same notes, the two parsers give the same. -/
def Alike {α : Type} (R : α → α → Prop) (p q : Parser α) : Prop :=
  ∀ ⦃ts us⦄, values ts = values us → ∀ ⦃n m⦄, n.Alike m → (p ts n).Alike R (q us m)

section
variable {α β : Type} {R : α → α → Prop} {S : β → β → Prop} {p q p' q' : Parser α}

theorem alike_pure {a b : α} (h : R a b) : Alike R (pure a) (pure b) :=
  fun _ _ hTokens _ _ hNotes => .read h hTokens hNotes

theorem alike_stop : Alike R stop stop :=
  fun _ _ _ _ _ hNotes => .failed hNotes

/-- Sequences are alike if their first parts are, and their second parts on values that are alike.
-/
theorem Alike.bind {p q : Parser β} {f g : β → Parser α} (hp : Alike S p q)
    (hf : ∀ a b, S a b → Alike R (f a) (g b)) : Alike R (p >>= f) (q >>= g) := by
  intro ts us hTokens n m hNotes
  have hFirst := hp hTokens hNotes
  show (Parser.bind p f ts n).Alike R (Parser.bind q g us m)
  unfold Parser.bind
  generalize p ts n = r at hFirst ⊢
  generalize q us m = s at hFirst ⊢
  -- the second parsers start where the first ones stopped, with what those have read
  cases hFirst with
  | failed hNotes => exact .failed hNotes
  | read hValue hRest hNotes => exact hf _ _ hValue hRest hNotes

/-- Whether a token is accepted does not depend on its place. -/
theorem alike_accept (read : Token → Option β) :
    Alike (Spanned.Rel Eq) (accept read) (accept read) := by
  intro ts us hTokens n m hNotes
  cases ts with
  | nil =>
    cases values_eq_nil hTokens.symm
    exact .failed (hNotes.offer rfl)
  | cons t ts =>
    -- both fail at the same token, places aside
    have hAt := Failure.unplaced_at hTokens
    obtain ⟨s, us, rfl, hRest⟩ := exists_of_values_eq_cons hTokens.symm
    simp only [accept]
    cases read t.value with
    | none => exact .failed (hNotes.offer hAt)
    | some a => exact .read (show Spanned.Rel Eq ⟨a, t.span⟩ ⟨a, s⟩ from rfl) hRest.symm hNotes

theorem alike_exactly (t : Token) : Alike Eq (exactly t) (exactly t) :=
  (alike_accept _).bind fun _ _ _ => alike_pure rfl

/-- Alternatives are alike if both are. -/
theorem Alike.orElse (hp : Alike R p q) (hp' : Alike R p' q') :
    Alike R (p <|> p') (q <|> q') := by
  intro ts us hTokens n m hNotes
  have hFirst := hp hTokens hNotes
  show (Parser.orElse p p' ts n).Alike R (Parser.orElse q q' us m)
  unfold Parser.orElse
  generalize p ts n = r at hFirst ⊢
  generalize q us m = s at hFirst ⊢
  cases hFirst with
  -- both first attempts fail, so both go back, to the same tokens as before
  | failed hFailed => exact hp' hTokens (hFailed.rewind hNotes)
  | read hValue hRest hNotes => exact .read hValue hRest hNotes

/-- Options are alike if their parsers are. -/
theorem Alike.optional (hp : Alike R p q) : Alike (Option.Rel R) (optional p) (optional q) := by
  intro ts us hTokens n m hNotes
  have hFirst := hp hTokens hNotes
  unfold Parser.optional
  generalize p ts n = r at hFirst ⊢
  generalize q us m = s at hFirst ⊢
  cases hFirst with
  | failed hFailed => exact .read .none hTokens (hFailed.rewind hNotes)
  | read hValue hRest hNotes => exact .read (.some hValue) hRest hNotes

/-- Attempts with a stand-in are alike if both the attempts and the stand-ins are. -/
theorem Alike.recover (hp : Alike R p q) (hp' : Alike R p' q') :
    Alike R (recover p p') (recover q q') := by
  intro ts us hTokens n m hNotes
  have hFirst := hp hTokens hNotes
  -- the stand-in starts with the errors so far and no failure
  have hStart : (Notes.mk none n.errors).Alike ⟨none, m.errors⟩ :=
    congrArg (Notes.mk none) hNotes.errors
  have hSecond := hp' hTokens hStart
  unfold Parser.recover
  generalize p ts n = r at hFirst ⊢
  generalize q us m = s at hFirst ⊢
  generalize p' ts ⟨none, n.errors⟩ = r' at hSecond ⊢
  generalize q' us ⟨none, m.errors⟩ = s' at hSecond ⊢
  -- either no attempt fails or both do, and then the stand-ins decide
  cases hFirst with
  | read hValue hRest hNotes => exact .read hValue hRest hNotes
  | failed hFailed =>
    cases hSecond with
    | failed _ => exact .failed (hFailed.rewind hNotes)
    | read hValue hRest hNotes' => exact .read hValue hRest (hFailed.report hNotes')

/-- Bounded repetitions are alike, item by item. -/
theorem Alike.manyUpTo (hp : Alike R p q) (k : Nat) :
    Alike (List.Forall₂ R) (manyUpTo p k) (manyUpTo q k) := by
  induction k with
  | zero => exact alike_pure .nil
  | succ k ih =>
    intro ts us hTokens n m hNotes
    have hFirst := hp hTokens hNotes
    unfold Parser.manyUpTo
    generalize p ts n = r at hFirst ⊢
    generalize q us m = s at hFirst ⊢
    cases hFirst with
    | failed hFailed => exact .read .nil hTokens (hFailed.rewind hNotes)
    | read hValue hRest hNotes =>
      -- the item of this round goes before the items of the others
      have hMore : ∀ as bs, List.Forall₂ R as bs → Alike (List.Forall₂ R)
          (pure (_ :: as)) (pure (_ :: bs)) := fun _ _ h => alike_pure (.cons hValue h)
      exact ih.bind hMore hRest hNotes

/-- A bound that is taken from the tokens is the same for both runs. -/
theorem alike_of_bound {p q : Nat → Parser α} (h : ∀ k, Alike R (p k) (q k)) :
    Alike R (fun ts n => p (ts.length + 1) ts n) fun ts n => q (ts.length + 1) ts n := by
  intro ts us hTokens n m hNotes
  have hLength := congrArg List.length hTokens
  simp only [values, List.length_map] at hLength
  show (p (ts.length + 1) ts n).Alike R (q (us.length + 1) us m)
  rw [hLength]
  exact h _ hTokens hNotes

/-- Repetitions are alike, item by item: the bound is the number of tokens on both sides. -/
theorem Alike.many (hp : Alike R p q) : Alike (List.Forall₂ R) (many p) (many q) :=
  alike_of_bound hp.manyUpTo

theorem Alike.atLeastOne (hp : Alike R p q) :
    Alike (List.Forall₂ R) (atLeastOne p) (atLeastOne q) :=
  hp.bind fun _ _ hFirst => hp.many.bind fun _ _ hMore => alike_pure (.cons hFirst hMore)

theorem Alike.separatedBy (hp : Alike R p q) (t : Token) :
    Alike (List.Forall₂ R) (separatedBy p (exactly t)) (separatedBy q (exactly t)) :=
  hp.bind fun _ _ hFirst => ((alike_exactly t).bind fun _ _ _ => hp).many.bind
    fun _ _ hMore => alike_pure (.cons hFirst hMore)

/-- Chains are alike if their members are and joining keeps them so. -/
theorem Alike.chain (hp : Alike R p q) (t : Token) {join : α → α → α}
    (hJoin : ∀ a b a' b', R a b → R a' b' → R (join a a') (join b b')) :
    Alike R (chain p (exactly t) join) (chain q (exactly t) join) := by
  -- joining from the left keeps what is joined so far alike
  have hFold : ∀ as bs, List.Forall₂ R as bs → ∀ a b, R a b →
      R (as.foldl join a) (bs.foldl join b) := by
    intro as bs h
    induction h with
    | nil => exact fun _ _ h => h
    | cons hHead hTail ih => exact fun a b h => ih _ _ (hJoin a b _ _ h hHead)
  exact hp.bind fun a b hFirst => ((alike_exactly t).bind fun _ _ _ => hp).many.bind
    fun as bs hMore => alike_pure (hFold as bs hMore a b hFirst)

/-- What waits for its place gets one, and it does not matter which. -/
theorem Alike.withSpan {p q : Parser (Span → α)}
    (hp : Alike (fun f g => ∀ s t, R (f s) (g t)) p q) : Alike R (withSpan p) (withSpan q) := by
  intro ts us hTokens n m hNotes
  have hFirst := hp hTokens hNotes
  unfold Parser.withSpan
  generalize p ts n = r at hFirst ⊢
  generalize q us m = s at hFirst ⊢
  cases hFirst with
  | failed hFailed => exact .failed hFailed
  | read hValue hRest hNotes => exact .read (hValue _ _) hRest hNotes

theorem Alike.located (hp : Alike R p q) :
    Alike (Spanned.Rel R) (located p) (located q) :=
  Alike.withSpan (hp.bind fun _ _ h => alike_pure fun _ _ => h)

end

end Parser

open AnnotationQuery.Parse.Parser

/-! ## Operands -/

theorem layer_alike (function : LayerFunction) {a b : Spanned String} (h : a.value = b.value) :
    (Operand.layer function a).Alike (.layer function b) := by
  simp only [Operand.Alike, Operand.moved, Spanned.moved, h]

theorem memberOf_alike {object object' part part' : Spanned String}
    (hObject : object.value = object'.value) (hPart : part.value = part'.value) :
    (memberOf object part).Alike (memberOf object' part') := by
  simp only [Operand.Alike, moved_memberOf, Spanned.moved, hObject, hPart]

theorem layerArgument_alike : Alike (Spanned.Rel Eq) layerArgument layerArgument :=
  (alike_exactly _).bind fun _ _ _ => (alike_accept _).bind fun _ _ hLayer =>
    (alike_exactly _).bind fun _ _ _ => alike_pure hLayer

/-- A function of a layer is read alike if what comes after the layer is. -/
theorem layerCall_alike (name : String) {after : Spanned String → Parser Operand}
    (h : ∀ a b, a.value = b.value → Alike Operand.Alike (after a) (after b)) :
    Alike Operand.Alike (layerCall name after) (layerCall name after) :=
  (alike_exactly _).bind fun _ _ _ => layerArgument_alike.bind h

/-- `my('L').label` and `my('L').id` are read the same everywhere. -/
theorem myFunction_alike : Alike Operand.Alike myFunction myFunction := by
  rw [myFunction_eq]
  refine layerCall_alike _ fun a b hLayer => (alike_exactly _).bind fun _ _ _ => ?_
  have hPart : ∀ name (function : LayerFunction), Alike Eq (do word name; return function)
      (do word name; return function) :=
    fun _ _ => (alike_exactly _).bind fun _ _ _ => alike_pure rfl
  refine ((hPart _ _).orElse (hPart _ _)).bind fun function _ hFunction => alike_pure ?_
  cases hFunction
  exact layer_alike function hLayer

/-- `labels('L')` is read the same everywhere, and so is its length. -/
theorem labelsFunction_alike : Alike Operand.Alike labelsFunction labelsFunction := by
  rw [labelsFunction_eq]
  refine layerCall_alike _ fun a b hLayer => ?_
  have hLength := ((alike_exactly (.symbol .dot)).bind fun _ _ _ =>
    alike_exactly (.ident "length")).optional
  refine hLength.bind fun x y hSame => alike_pure ?_
  cases hSame with
  | none => exact layer_alike _ hLayer
  | some _ => exact layer_alike _ hLayer

/-- A literal is read the same everywhere. -/
theorem literal_alike : Alike Operand.Alike literal literal := by
  refine ((alike_accept _).bind fun a b hString => alike_pure ?_).orElse
    ((alike_accept _).bind fun a b hNumber => alike_pure ?_)
  · exact congrArg (fun value => Operand.literal (.string value)) hString
  · exact congrArg (fun value => Operand.literal (.number value)) hNumber

/-- An operand is read the same everywhere. -/
theorem operand_alike : Alike (Spanned.Rel Operand.Alike) operand operand := by
  refine Alike.located (myFunction_alike.orElse (Alike.orElse ?_ (labelsFunction_alike.orElse
    (Alike.orElse ?_ (Alike.orElse ?_ (Alike.orElse ?_ literal_alike))))))
  · -- `list('L').length`
    rw [listFunction_eq]
    exact layerCall_alike _ fun a b hLayer => (alike_exactly _).bind fun _ _ _ =>
      (alike_exactly _).bind fun _ _ _ => alike_pure (layer_alike _ hLayer)
  · -- `annotators('L')`
    rw [annotatorsFunction_eq]
    exact layerCall_alike _ fun a b hLayer => alike_pure (layer_alike _ hLayer)
  · exact (alike_accept _).bind fun object object' hObject =>
      (alike_exactly _).bind fun _ _ _ => (alike_accept _).bind fun part part' hPart =>
        alike_pure (memberOf_alike hObject hPart)
  · refine (alike_accept _).bind fun a b hName => alike_pure ?_
    exact congrArg (fun name => (named name).moved _) hName

/-! ## Comparisons -/

theorem movedOperand_of_alike {a b : Spanned Operand} (h : a.Rel Operand.Alike b) :
    movedOperand (fun _ => Span.nowhere) a = movedOperand (fun _ => Span.nowhere) b :=
  congrArg (Spanned.mk · Span.nowhere) h

theorem movedComparand_of_alike {a b : Spanned Comparand} (h : a.Rel Comparand.Alike b) :
    movedComparand (fun _ => Span.nowhere) a = movedComparand (fun _ => Span.nowhere) b :=
  congrArg (Spanned.mk · Span.nowhere) h

/-- Lists of operands that are alike one by one are alike. -/
theorem list_alike {as bs : List (Spanned Operand)}
    (h : List.Forall₂ (Spanned.Rel Operand.Alike) as bs) :
    (Comparand.list as).Alike (.list bs) := by
  have hItems : as.map (movedOperand fun _ => Span.nowhere) =
      bs.map (movedOperand fun _ => Span.nowhere) := by
    induction h with
    | nil => rfl
    | cons hHead hTail ih => rw [List.map_cons, List.map_cons, movedOperand_of_alike hHead, ih]
  exact congrArg Comparand.list hItems

/-- A comparison is read the same everywhere. -/
theorem comparison_alike : Alike (Spanned.Rel Eq) comparison comparison := by
  have hSymbol : ∀ s c, Alike Eq (comparisonSymbol s c) (comparisonSymbol s c) :=
    fun _ _ => (alike_exactly _).bind fun _ _ _ => alike_pure rfl
  have hWord : ∀ k (c : Comparison), Alike Eq (do keyword k; return c) (do keyword k; return c) :=
    fun _ _ => (alike_exactly _).bind fun _ _ _ => alike_pure rfl
  have hWords : ∀ k (c : Comparison), Alike Eq (do keyword .not; keyword k; return c)
      (do keyword .not; keyword k; return c) :=
    fun _ _ => (alike_exactly _).bind fun _ _ _ => hWord _ _
  -- the ten ways to write a comparison, each of one or two fixed tokens
  exact Alike.located <| (hSymbol _ _).orElse <| (hSymbol _ _).orElse <| (hSymbol _ _).orElse <|
    (hSymbol _ _).orElse <| (hSymbol _ _).orElse <| (hSymbol _ _).orElse <| (hWord _ _).orElse <|
    (hWords _ _).orElse <| (hWords _ _).orElse (hWord _ _)

/-- The right side of a comparison is read the same everywhere. -/
theorem comparand_alike : Alike (Spanned.Rel Comparand.Alike) comparand comparand := by
  refine Alike.orElse (Alike.located ?_) (operand_alike.bind fun a b hOperand => alike_pure ?_)
  · exact (alike_exactly _).bind fun _ _ _ => (operand_alike.separatedBy _).bind
      fun _ _ hItems => (alike_exactly _).bind fun _ _ _ => alike_pure (list_alike hItems)
  · exact congrArg Comparand.one hOperand

/-- A predicate is read the same everywhere, whatever places the two are given. -/
theorem predicate_alike :
    Alike (fun f g => ∀ s t, (f s).Alike (g t)) predicate predicate := by
  have hTail : Alike (fun a b => a.1.Rel Eq b.1 ∧ a.2.Rel Comparand.Alike b.2)
      comparisonTail comparisonTail :=
    comparison_alike.bind fun _ _ hOp => comparand_alike.bind fun _ _ hRight =>
      alike_pure ⟨hOp, hRight⟩
  rw [predicate_eq]
  refine operand_alike.bind fun a b hLeft => hTail.optional.bind fun x y hSame =>
    alike_pure fun s t => ?_
  -- `s` and `t` are the places of the two terms, and nothing but the term itself has them
  cases hSame with
  | none => exact congrArg (Expr.operand Span.nowhere) (movedOperand_of_alike hLeft)
  | some hSame =>
    obtain ⟨hOp, hRight⟩ := hSame
    simp only [Expr.Alike, compared, Expr.unplaced, Expr.moved, movedOperand_of_alike hLeft,
      movedComparand_of_alike hRight, Spanned.moved, show _ = _ from hOp]

/-! ## Conditions -/

/-- A balanced run is skipped the same everywhere. -/
theorem balancedUpTo_alike (k : Nat) : Alike Eq (balancedUpTo k) (balancedUpTo k) := by
  induction k with
  | zero => exact alike_stop
  | succ k ih =>
    have hOther : Alike Eq notParenthesis notParenthesis :=
      (alike_accept _).bind fun _ _ _ => alike_pure rfl
    exact (alike_exactly _).bind fun _ _ _ => (ih.orElse hOther).many.bind fun _ _ _ =>
      alike_exactly _

/-- A token is skipped the same everywhere. -/
theorem skippedToken_alike : Alike Eq skippedToken skippedToken := by
  intro ts us hTokens n m hNotes
  cases ts with
  | nil =>
    cases values_eq_nil hTokens.symm
    exact .failed (hNotes.offer rfl)
  | cons t ts =>
    obtain ⟨s, us, rfl, hRest⟩ := exists_of_values_eq_cons hTokens.symm
    -- the failure lies behind the token here, but is measured in tokens all the same
    have hLength := congrArg List.length hRest
    simp only [values, List.length_map] at hLength
    simp only [skippedToken]
    cases endsTerm t.value with
    | true => exact .failed (hNotes.offer (by simp [Failure.unplaced, hLength]))
    | false => exact .read rfl hRest.symm hNotes

section
variable {c : Parser Expr}

/-- A group is read the same everywhere if its condition is, and skipped the same if not. -/
theorem group_alike (hc : Alike Expr.Alike c c) :
    Alike (fun f g => ∀ s t, (f s).Alike (g t)) (group c) (group c) := by
  refine Alike.recover ?_ ?_
  · exact (alike_exactly _).bind fun _ _ _ => hc.bind fun a b hInner =>
      (alike_exactly _).bind fun _ _ _ => alike_pure fun _ _ =>
        congrArg (Expr.group Span.nowhere) hInner
  · exact (alike_of_bound balancedUpTo_alike).bind fun _ _ _ => alike_pure fun _ _ => rfl

theorem term_alike (hc : Alike Expr.Alike c c) : Alike Expr.Alike (term c) (term c) :=
  Alike.withSpan <| ((group_alike hc).orElse predicate_alike).recover
    (skippedToken_alike.atLeastOne.bind fun _ _ _ => alike_pure fun _ _ => rfl)

/-- A negation is read the same everywhere, under the same bound. -/
theorem negationUpTo_alike (hc : Alike Expr.Alike c c) (k : Nat) :
    Alike Expr.Alike (negationUpTo c k) (negationUpTo c k) := by
  induction k with
  | zero => exact alike_stop
  | succ k ih =>
    refine Alike.orElse (Alike.withSpan ?_) (term_alike hc)
    exact (alike_exactly _).bind fun _ _ _ => ih.bind fun a b hInner =>
      alike_pure fun _ _ => congrArg (Expr.not Span.nowhere) hInner

/-- A chain of `OR` is read the same everywhere, with its chains of `AND`. -/
theorem disjunction_alike (hc : Alike Expr.Alike c c) :
    Alike Expr.Alike (disjunction c) (disjunction c) := by
  have hConjunction : Alike Expr.Alike (conjunction c) (conjunction c) :=
    (alike_of_bound (negationUpTo_alike hc)).chain _ fun _ _ _ _ hLeft hRight =>
      congrArg₂ (Expr.and Span.nowhere) hLeft hRight
  exact hConjunction.chain _ fun _ _ _ _ hLeft hRight =>
    congrArg₂ (Expr.or Span.nowhere) hLeft hRight

end

/-- A condition is read the same everywhere, under the same bound. -/
theorem conditionUpTo_alike (k : Nat) :
    Alike Expr.Alike (conditionUpTo k) (conditionUpTo k) := by
  -- the bound is the depth of nesting, and the inside of a group is one level down
  induction k with
  | zero => exact alike_stop
  | succ k ih => exact disjunction_alike ih

/-- A condition is read the same everywhere. -/
theorem condition_alike : Alike Expr.Alike condition condition :=
  alike_of_bound conditionUpTo_alike

/-! ## Order lists -/

/-- An order list is read the same everywhere, key by key. -/
theorem orderTerms_alike : Alike (List.Forall₂ OrderTerm.Alike) orderTerms orderTerms := by
  have hDirection : Alike Eq direction direction :=
    ((alike_exactly _).bind fun _ _ _ => alike_pure rfl).orElse
      ((alike_exactly _).bind fun _ _ _ => alike_pure rfl)
  have hTerm : Alike OrderTerm.Alike orderTerm orderTerm := by
    refine operand_alike.bind fun a b hKey => hDirection.optional.bind fun x y hSame =>
      alike_pure ⟨hKey, ?_⟩
    -- a missing direction is the same on both sides
    cases hSame with
    | none => rfl
    | some hSame => exact hSame
  refine (hTerm.separatedBy _).optional.bind fun x y hSame => alike_pure ?_
  cases hSame with
  | none => exact .nil
  | some hSame => exact hSame

/-! ## Whole texts -/

/-- Notes that are alike make the same complaints. -/
theorem complaints_of_alike {n m : Notes} (h : n.Alike m) (s t : Span) :
    (n.errors.map (·.diagnostic s)).map Diagnostic.complaint =
      (m.errors.map (·.diagnostic t)).map Diagnostic.complaint := by
  -- a complaint names the token that was found, which stays when the place goes
  have hNamed : ∀ (fs : List Failure) (s : Span),
      (fs.map (·.diagnostic s)).map Diagnostic.complaint =
        (fs.map Failure.unplaced).map fun f => (f.diagnostic s).complaint := by
    intro fs s
    rw [List.map_map, List.map_map]
    rfl
  rw [hNamed, hNamed, h.errors]
  rfl

/-- The same tokens left over make the same complaint. -/
theorem complaints_leftover {ts us : Tokens} (h : values ts = values us) :
    (leftover ts).map Diagnostic.complaint = (leftover us).map Diagnostic.complaint := by
  cases ts with
  | nil =>
    cases values_eq_nil h.symm
    rfl
  | cons t ts =>
    obtain ⟨s, us, rfl, -⟩ := exists_of_values_eq_cons h.symm
    rfl

/-- **The same tokens are read the same**, whatever the sizes of their texts. -/
theorem readTokens_alike {α : Type} {R : α → α → Prop} {p : Parser α} (hp : Alike R p p)
    {ts us : Tokens} (h : values ts = values us) (size size' : Nat) :
    (readTokens p size ts).Alike R (readTokens p size' us) := by
  -- both runs start with no notes
  have hRun := hp h (rfl : Notes.empty.Alike Notes.empty)
  unfold readTokens
  generalize p ts Notes.empty = r at hRun ⊢
  generalize p us Notes.empty = s at hRun ⊢
  cases hRun with
  | failed hNotes => exact ⟨.none, complaints_of_alike hNotes _ _⟩
  | read hValue hRest hNotes =>
    refine ⟨.some hValue, ?_⟩
    simp only [List.map_append]
    rw [complaints_leftover hRest]
    exact congrArg (· ++ _) (complaints_of_alike hNotes _ _)

/-- Two texts with the same tokens are read the same. -/
theorem readSource_alike {α : Type} {R : α → α → Prop} {p : Parser α} (hp : Alike R p p)
    {a b : String} {ts us : Tokens} (ha : Token.lex a = .ok ts) (hb : Token.lex b = .ok us)
    (h : values ts = values us) : (readSource p a).Alike R (readSource p b) := by
  unfold readSource
  rw [ha, hb]
  exact readTokens_alike hp h _ _

end Parse

end AnnotationQuery
