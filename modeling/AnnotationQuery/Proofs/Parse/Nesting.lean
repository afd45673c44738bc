import AnnotationQuery.Proofs.Parse.Derived

/-!
# Nesting without bounds

Groups nest and negations repeat, and both are bounded in the definitions. As every
level of nesting and every negation uses up a token, a bound above the number of
tokens is never reached, and what is read is the same for all of them. So the parser
of conditions satisfies the equation one would write down for it: a condition is a
disjunction of conjunctions of negations, whose groups have conditions inside.

Main results:

* `outcome_condition` — the equation of conditions.
* `outcome_negation_cons_not`, `outcome_negation_of_ne` — the equations of negations.
-/

namespace AnnotationQuery.Parse

open AnnotationQuery.Parse.Parser
open AnnotationQuery.Grammar

/-! ## Parsers that agree on few tokens -/

section
variable {α : Type}

/-- The parsers read the same from fewer than `m` tokens. -/
def AgreeBelow (m : Nat) (p q : Parser α) : Prop :=
  ∀ ⦃ts : Tokens⦄, ts.length < m → p.outcome ts = q.outcome ts

variable {m : Nat} {p q : Parser α} [p.Steady] [q.Steady]

theorem shrinks_exactly (t : Token) : (exactly t).Shrinks :=
  takes_exactly.shrinks fun _ w hw => by rw [hw]; exact List.cons_ne_nil _ _

/-- With a token before it, progress stays progress. -/
theorem Shrinks.after_exactly (h : p.Shrinks) (t : Token) :
    (do exactly t; p : Parser α).Shrinks := by
  intro ts a rest hRead
  rw [outcome_bind] at hRead
  obtain ⟨r, hToken, hRest⟩ := Option.bind_eq_some_iff.mp hRead
  exact (h hRest).trans (shrinks_exactly t hToken)

/-- A token that was read leaves fewer, so a bound can be one less behind it. -/
theorem AgreeBelow.after_exactly (h : AgreeBelow m p q) (t : Token) :
    AgreeBelow (m + 1) (do exactly t; p) (do exactly t; q) := by
  intro ts hts
  rw [outcome_bind, outcome_bind]
  cases hRead : (exactly t).outcome ts with
  | none => rfl
  | some r =>
    have hShorter := shrinks_exactly t hRead
    exact h (by omega)

/-- If the rounds agree on few tokens, so do the repetitions: each round leaves fewer. -/
theorem AgreeBelow.many (h : AgreeBelow m p q) (hShrinks : p.Shrinks) :
    AgreeBelow m (many p) (many q) := by
  -- both sides have the same bound on their rounds; the induction is on that
  have hBounded : ∀ k, AgreeBelow m (manyUpTo p k) (manyUpTo q k) := by
    intro k
    induction k with
    | zero => exact fun _ _ => rfl
    | succ k ih =>
      intro ts hts
      have hRound := h hts
      cases hRead : p.outcome ts with
      | none =>
        rw [hRead] at hRound
        rw [outcome_manyUpTo_of_none hRead, outcome_manyUpTo_of_none hRound.symm]
      | some r =>
        rw [hRead] at hRound
        have hShorter := hShrinks hRead
        rw [outcome_manyUpTo_of_some hRead, outcome_manyUpTo_of_some hRound.symm,
          ih (by omega)]
  exact fun ts hts => hBounded (ts.length + 1) hts

/-- If the members agree on few tokens, so do the chains. -/
theorem AgreeBelow.chain (h : AgreeBelow m p q) (hShrinks : p.Shrinks) (t : Token)
    (join : α → α → α) : AgreeBelow m (chain p (exactly t) join) (chain q (exactly t) join) := by
  have hRound : AgreeBelow m (do exactly t; p) (do exactly t; q) :=
    fun ts hts => h.after_exactly t (Nat.lt_succ_of_lt hts)
  have hMore := hRound.many (Shrinks.after_exactly hShrinks t)
  intro ts hts
  rw [outcome_chain, outcome_chain, ← h hts]
  cases hRead : p.outcome ts with
  | none => rfl
  | some r =>
    have hShorter := hShrinks hRead
    -- the members after the first are read from what it leaves
    show Option.map _ _ = Option.map _ _
    rw [hMore (by omega)]

end

section
variable {m : Nat} {c d : Parser Expr} [Composed .conditions c] [Composed .conditions d]

/-- Only a group asks for a condition, and only behind its opening parenthesis. -/
theorem AgreeBelow.group (h : AgreeBelow m c d) : AgreeBelow (m + 1) (group c) (group d) := by
  -- the parenthesis takes a token, so inside there are fewer
  have hInside : AgreeBelow m
      (do let inner ← c; symbol .rparen; return fun s => Expr.group s inner)
      (do let inner ← d; symbol .rparen; return fun s => Expr.group s inner) := by
    intro ts hts
    rw [outcome_bind, outcome_bind, h hts]
  intro ts hts
  unfold Parse.group
  rw [outcome_recover, outcome_recover]
  exact congrArg (Option.or · _) (hInside.after_exactly _ hts)

/-- Only the groups among the terms depend on the condition inside. -/
theorem AgreeBelow.term (h : AgreeBelow m c d) : AgreeBelow (m + 1) (term c) (term d) := by
  intro ts hts
  unfold Parse.term
  rw [outcome_withSpan, outcome_withSpan, outcome_recover, outcome_recover, outcome_orElse,
    outcome_orElse, h.group hts]

/-- Negations agree where their terms do. -/
theorem AgreeBelow.negationUpTo (h : AgreeBelow m c d) (bound : Nat) :
    AgreeBelow (m + 1) (negationUpTo c bound) (negationUpTo d bound) := by
  induction bound with
  | zero => exact fun _ _ => rfl
  | succ bound ih =>
    -- a negation inside another one is no deeper: only a group spends of the allowance
    have hInner : AgreeBelow (m + 1)
        (do let inner ← Parse.negationUpTo c bound; return fun s => Expr.not s inner)
        (do let inner ← Parse.negationUpTo d bound; return fun s => Expr.not s inner) := by
      intro ts hts
      rw [outcome_bind, outcome_bind, ih hts]
    intro ts hts
    unfold Parse.negationUpTo
    rw [outcome_orElse, outcome_orElse, outcome_withSpan, outcome_withSpan, h.term hts]
    exact congrArg (fun r => Option.or (Option.map _ r) _)
      (hInner.after_exactly _ (Nat.lt_succ_of_lt hts))

theorem AgreeBelow.negation (h : AgreeBelow m c d) :
    AgreeBelow (m + 1) (negation c) (negation d) := by
  intro ts hts
  rw [outcome_negation_eq_upTo, outcome_negation_eq_upTo, h.negationUpTo _ hts]

/-- What is derived is never empty, so there is progress. -/
theorem shrinks_of_derives {n : Nonterminal} {p : Parser Expr} (h : p.Takes (Derives n)) :
    p.Shrinks :=
  h.shrinks fun _ _ hDerives => hDerives.1

/-- One level of nesting is good for one more token. -/
theorem AgreeBelow.disjunction (h : AgreeBelow m c d) (hc : c.Takes (Derives (.chain .or))) :
    AgreeBelow (m + 1) (disjunction c) (disjunction d) := by
  have hMember := negation_takes hc
  have hConjunction := h.negation.chain (shrinks_of_derives hMember) (.keyword .and) Expr.both
  exact AgreeBelow.chain hConjunction (shrinks_of_derives (chain_takes (k := .and) hMember)) _ _

end

/-! ## The equations -/

/-- On fewer tokens than the bound, a larger bound changes nothing. -/
theorem agreeBelow_conditionUpTo (k d : Nat) :
    AgreeBelow k (conditionUpTo k) (conditionUpTo (k + d)) := by
  induction k with
  | zero => exact fun _ hts => absurd hts (Nat.not_lt_zero _)
  | succ k ih =>
    -- one more level of nesting pays for one more token
    rw [Nat.add_right_comm]
    exact ih.disjunction (conditionUpTo_takes k)

/-- The bound on nesting is never reached. -/
theorem outcome_condition (ts : Tokens) :
    condition.outcome ts = (disjunction condition).outcome ts := by
  -- a condition inside takes its bound from fewer tokens; the bound from all of them does as well
  have hInner : AgreeBelow ts.length (conditionUpTo ts.length) condition := by
    intro us hus
    obtain ⟨d, hd⟩ := Nat.exists_eq_add_of_lt hus
    rw [outcome_condition_eq_upTo, hd, Nat.add_right_comm]
    exact (agreeBelow_conditionUpTo (us.length + 1) d (Nat.lt_succ_self _)).symm
  rw [outcome_condition_eq_upTo]
  exact hInner.disjunction (conditionUpTo_takes _) (Nat.lt_succ_self _)

theorem follows_token {test : Token → Bool} {t : Token} (h : test t = true) {s : Span}
    {ts : Tokens} : Follows test (values (⟨t, s⟩ :: ts)) :=
  follows_cons.mpr h

/-- Where another token comes next, or none, the token is not read. -/
theorem outcome_exactly_of_ne {t : Token} {ts : Tokens} (h : Follows (· != t) (values ts)) :
    (exactly t).outcome ts = none := by
  cases ts with
  | nil => exact outcome_exactly_nil t
  | cons u ts =>
    have hu : u.value ≠ t := by simpa [values] using h
    rw [outcome_exactly_cons, if_neg hu]

section
variable (c : Parser Expr) [Composed .conditions c]

/-- Behind `NOT` stands a negation. Only if none can be read there, the `NOT` itself is part of a
term that is skipped. -/
theorem outcome_negation_cons_not (s : Span) (ts : Tokens) :
    (negation c).outcome (⟨.keyword .not, s⟩ :: ts) =
      (((negation c).outcome ts).map fun r =>
          (Expr.not (hull (consumed (⟨.keyword .not, s⟩ :: ts) r.2)) r.1, r.2)).or
        ((term c).outcome (⟨.keyword .not, s⟩ :: ts)) := by
  rw [outcome_negation_eq_upTo, outcome_negation_eq_upTo, List.length_cons, negationUpTo,
    outcome_orElse, outcome_withSpan, keyword, outcome_bind, outcome_exactly_cons, if_pos rfl,
    Option.bind_some, outcome_bind]
  cases (negationUpTo c (ts.length + 1)).outcome ts <;> rfl

/-- Without a `NOT`, a negation is a term. -/
theorem outcome_negation_of_ne {ts : Tokens} (h : Follows (· != .keyword .not) (values ts)) :
    (negation c).outcome ts = (term c).outcome ts := by
  rw [outcome_negation_eq_upTo, negationUpTo, outcome_orElse, outcome_withSpan, keyword,
    outcome_bind, outcome_exactly_of_ne h]
  rfl

end

end AnnotationQuery.Parse
