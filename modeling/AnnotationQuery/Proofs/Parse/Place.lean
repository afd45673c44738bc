import AnnotationQuery.Proofs.Parse.Filter
import AnnotationQuery.Proofs.Parse.Grammar
import AnnotationQuery.Proofs.Parse.Outcome

/-!
# Moving things to other places

Tokens bring their places with them, and a tree gets all its places from its tokens. A
change of places is *rigid* if it can be made before or after a span is drawn around
two others. Two rigid changes matter: shifting everything by a number of bytes, which
is what happens to a text with another text before it, and forgetting all places,
which makes trees comparable with the grammar.

Main results:

* `Parse.hull_moved` — drawing a span around moved tokens.
* `Expr.moved_foldl_join` — joining moved conditions.
-/

namespace AnnotationQuery

namespace Span

/-- The span `k` bytes further on. -/
def shift (k : Nat) (s : Span) : Span :=
  ⟨s.start + k, s.stop + k⟩

/-- The change of places commutes with drawing a span around two others. -/
def Rigid (f : Span → Span) : Prop :=
  ∀ s t, f (s.hull t) = (f s).hull (f t)

/-- Shifting is rigid: both ends of a span go the same way. -/
theorem rigid_shift (k : Nat) : Rigid (shift k) :=
  fun _ _ => rfl

theorem rigid_self : Rigid fun s => s :=
  fun _ _ => rfl

/-- Forgetting all places is rigid: a span around two spans that stand nowhere stands nowhere. -/
theorem rigid_nowhere : Rigid fun _ => nowhere :=
  fun _ _ => rfl

end Span

/-! ## Moved trees -/

/-- The value at the changed place. -/
def Spanned.moved {α : Type} (f : Span → Span) (x : Spanned α) : Spanned α :=
  ⟨x.value, f x.span⟩

/-- The operand with all its places changed. -/
def Operand.moved (f : Span → Span) : Operand → Operand
  | layer function layerId => layer function (layerId.moved f)
  | member object part => member (object.moved f) (part.moved f)
  | literal value => literal value
  | identifier name => identifier name
  | id => id
  | label => label
  | ordinal => ordinal

/-- The moved operand at the changed place. -/
def movedOperand (f : Span → Span) (o : Spanned Operand) : Spanned Operand :=
  ⟨o.value.moved f, f o.span⟩

/-- The comparand with all its places changed. -/
def Comparand.moved (f : Span → Span) : Comparand → Comparand
  | one operand => one (operand.moved f)
  | list items => list (items.map (movedOperand f))

/-- The moved comparand at the changed place. -/
def movedComparand (f : Span → Span) (c : Spanned Comparand) : Spanned Comparand :=
  ⟨c.value.moved f, f c.span⟩

namespace Expr

/-- The condition with all its places changed. -/
def moved (f : Span → Span) : Expr → Expr
  | operand s o => operand (f s) (movedOperand f o)
  | compare s lhs op rhs => compare (f s) (movedOperand f lhs) (op.moved f) (movedComparand f rhs)
  | not s inner => not (f s) (inner.moved f)
  | group s inner => group (f s) (inner.moved f)
  | and s lhs rhs => and (f s) (lhs.moved f) (rhs.moved f)
  | or s lhs rhs => or (f s) (lhs.moved f) (rhs.moved f)
  | malformed s => malformed (f s)

/-- The condition with all its places forgotten. -/
def unplaced (e : Expr) : Expr :=
  e.moved fun _ => Span.nowhere

end Expr

theorem Operand.moved_self (o : Operand) : o.moved (fun s => s) = o := by
  cases o <;> rfl

theorem movedOperand_self (o : Spanned Operand) : movedOperand (fun s => s) o = o := by
  rw [movedOperand, Operand.moved_self]

/-- Moving nothing changes no comparand, however many operands it lists. -/
theorem movedComparand_self (c : Spanned Comparand) : movedComparand (fun s => s) c = c := by
  obtain ⟨o | items, s⟩ := c
  · rw [movedComparand, Comparand.moved, Operand.moved_self]
  · rw [movedComparand, Comparand.moved, List.map_congr_left fun o _ => movedOperand_self o,
      List.map_id']

namespace Expr

/-- Moving nothing changes no condition. -/
theorem moved_self (e : Expr) : e.moved (fun s => s) = e := by
  induction e with
  | operand s o => rw [moved, movedOperand_self]
  | compare s lhs op rhs => rw [moved, movedOperand_self, movedComparand_self]; rfl
  | not s inner ih => rw [moved, ih]
  | group s inner ih => rw [moved, ih]
  | and s lhs rhs ihl ihr => rw [moved, ihl, ihr]
  | or s lhs rhs ihl ihr => rw [moved, ihl, ihr]
  | malformed s => rfl

theorem span_moved (f : Span → Span) (e : Expr) : (e.moved f).span = f e.span := by
  cases e <;> rfl

variable {f : Span → Span}

/-- Conditions may be moved before or after they are joined. -/
theorem moved_join (hf : Span.Rigid f) (k : Grammar.Connective) (a b : Expr) :
    (k.join a b).moved f = k.join (a.moved f) (b.moved f) := by
  -- the span around the two is where rigidity is used
  cases k
  · rw [Grammar.Connective.join, both, both, moved, hf, span_moved, span_moved]
  · rw [Grammar.Connective.join, either, either, moved, hf, span_moved, span_moved]

/-- A whole chain may be moved before or after its members are joined. -/
theorem moved_foldl_join (hf : Span.Rigid f) (k : Grammar.Connective) (e : Expr) (es : List Expr) :
    (es.foldl k.join e).moved f = (es.map (moved f)).foldl k.join (e.moved f) := by
  induction es generalizing e with
  | nil => rfl
  | cons x es ih => rw [List.foldl_cons, ih, moved_join hf, List.map_cons, List.foldl_cons]

/-- A joined condition has no malformed part exactly if none of its members has one. -/
theorem malformedParts_foldl_join (k : Grammar.Connective) (e : Expr) (es : List Expr) :
    (es.foldl k.join e).malformedParts = 0 ↔ ∀ x ∈ e :: es, x.malformedParts = 0 := by
  induction es generalizing e with
  | nil => rw [List.forall_mem_singleton, List.foldl_nil]
  | cons x es ih =>
    have hJoin : (k.join e x).malformedParts = e.malformedParts + x.malformedParts := by
      cases k <;> rfl
    rw [List.foldl_cons, ih, List.forall_mem_cons, hJoin, Nat.add_eq_zero_iff, List.forall_mem_cons,
      List.forall_mem_cons, and_assoc]

end Expr

/-! ## Terms -/

namespace Expr

/-- The terms that the connectives of a condition join, from left to right. -/
def terms : Expr → List Expr
  | and _ lhs rhs | or _ lhs rhs => lhs.terms ++ rhs.terms
  | e => [e]

theorem terms_join (k : Grammar.Connective) (a b : Expr) :
    (k.join a b).terms = a.terms ++ b.terms := by
  cases k <;> rfl

/-- The terms of a chain are those of its members, from left to right. -/
theorem terms_foldl_join (k : Grammar.Connective) (e : Expr) (es : List Expr) :
    (es.foldl k.join e).terms = (e :: es).flatMap terms := by
  induction es generalizing e with
  | nil => simp
  | cons x es ih =>
    rw [List.foldl_cons, ih, List.flatMap_cons, terms_join, List.flatMap_cons, List.flatMap_cons,
      List.append_assoc]

/-- The terms of a moved condition are its terms, moved. -/
theorem terms_moved (f : Span → Span) (e : Expr) : (e.moved f).terms = e.terms.map (moved f) := by
  induction e with
  | and s lhs rhs ihl ihr => rw [moved, terms, terms, ihl, ihr, List.map_append]
  | or s lhs rhs ihl ihr => rw [moved, terms, terms, ihl, ihr, List.map_append]
  | _ => rfl

theorem flatMap_terms_map_moved (f : Span → Span) (es : List Expr) :
    (es.map (moved f)).flatMap terms = (es.flatMap terms).map (moved f) := by
  rw [List.flatMap_map, List.map_flatMap]
  simp only [terms_moved]

end Expr

/-! ## Moved tokens -/

namespace Parse

/-- The tokens with all their places changed. -/
def movedTokens (f : Span → Span) (ts : Tokens) : Tokens :=
  ts.map (Spanned.moved f)

@[simp] theorem movedTokens_nil (f : Span → Span) : movedTokens f [] = [] :=
  rfl

@[simp] theorem movedTokens_cons (f : Span → Span) (t : Token) (s : Span) (ts : Tokens) :
    movedTokens f (⟨t, s⟩ :: ts) = ⟨t, f s⟩ :: movedTokens f ts :=
  rfl

@[simp] theorem movedTokens_append (f : Span → Span) (ts us : Tokens) :
    movedTokens f (ts ++ us) = movedTokens f ts ++ movedTokens f us :=
  List.map_append

theorem values_movedTokens (f : Span → Span) (ts : Tokens) :
    values (movedTokens f ts) = values ts := by
  rw [values, movedTokens, List.map_map]
  rfl

theorem movedTokens_self (ts : Tokens) : movedTokens (fun s => s) ts = ts :=
  List.map_id' ts

/-- The span around moved tokens is the moved span around the tokens. -/
theorem hull_moved {f : Span → Span} (hf : Span.Rigid f) {run : Tokens} (hRun : run ≠ []) :
    Parser.hull (movedTokens f run) = f (Parser.hull run) := by
  obtain ⟨t, ts, rfl⟩ := List.exists_cons_of_ne_nil hRun
  -- the span reaches from the first token to the last, and both are moved alike
  have hLast := List.getLast?_eq_some_getLast hRun
  unfold Parser.hull movedTokens
  rw [List.getLast?_map, hLast]
  exact (hf _ _).symm

end Parse

end AnnotationQuery
