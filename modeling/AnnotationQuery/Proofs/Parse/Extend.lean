import AnnotationQuery.Proofs.Parse.Accepted

/-!
# Conditions with more tokens around them

What happens to the reading of a condition when a connective and something else come
after it, or a malformed term and a connective come before it?

After a whole condition, a connective only makes its last chain longer. Before it, it
depends on how the malformed term starts. One that no operand can start with is
skipped up to the connective, and the condition behind it is read as it would be
alone. One that starts with an operand is not skipped: the operand is read as a term of
its own, and the condition that ends there leaves everything behind it over.

The last case needs that no term looks past a connective. A parser is *framed* if a
connective and what follows can be put behind its tokens without changing what it reads.

Main results:

* `outcome_condition_extended` — a whole condition with a connective behind it.
* `outcome_condition_behind` — a whole condition with a skipped term before it.
* `outcome_condition_framed` — a term that starts with an operand, with a connective behind it.
-/

namespace AnnotationQuery

/-- Whether a condition is a part that could not be read, with any number of negations before it. -/
def Expr.isSkipped : Expr → Bool
  | malformed _ => true
  | not _ inner => inner.isSkipped
  | _ => false

namespace Parse

open AnnotationQuery.Parse.Parser
open AnnotationQuery.Grammar

/-- Whether the token is `AND` or `OR`. -/
def isConnective (t : Token) : Bool :=
  t == .keyword .and || t == .keyword .or

theorem isConnective_token (k : Connective) : isConnective k.token = true := by
  cases k <;> rfl

/-- A connective ends a term. -/
theorem endsTerm_of_isConnective {t : Token} (h : isConnective t = true) : endsTerm t = true := by
  rw [endsTerm, Bool.or_eq_true]
  exact Or.inl h

namespace Parser

variable {α β : Type}

/-! ## Framed parsers -/

/-- A connective and what follows can be put behind the tokens without changing what is read. -/
class Framed (p : Parser α) : Prop where
  steady : p.Steady
  covers : p.Covers fun _ _ => True
  outcome_append (ts : Tokens) {rest : Tokens} (hRest : Follows isConnective (values rest)) :
    p.outcome (ts ++ rest) = (p.outcome ts).map fun r => (r.1, r.2 ++ rest)

/-- What stays behind does not belong to what was read. -/
theorem consumed_append_append (ts us rest : Tokens) :
    consumed (ts ++ rest) (us ++ rest) = consumed ts us := by
  unfold consumed
  rw [List.length_append, List.length_append, Nat.add_sub_add_right,
    List.take_append_of_le_length (Nat.sub_le _ _)]

namespace Framed

variable {p q : Parser α}

/-- What reads nothing looks at nothing. -/
theorem pure (a : α) : (Pure.pure a : Parser α).Framed :=
  ⟨inferInstance, covers_pure trivial, fun _ _ _ => rfl⟩

/-- The first part leaves the connective to the second. -/
theorem bind {p : Parser β} {f : β → Parser α} (hp : p.Framed) (hf : ∀ b, (f b).Framed) :
    (p >>= f).Framed := by
  have hSteady : ∀ b, (f b).Steady := fun b => (hf b).steady
  refine ⟨hp.steady.bind hSteady, hp.covers.bind fun b _ _ => (hf b).covers, ?_⟩
  intro ts rest hRest
  rw [outcome_bind, outcome_bind, hp.outcome_append ts hRest]
  cases p.outcome ts with
  | none => rfl
  | some r => exact (hf r.1).outcome_append r.2 hRest

/-- A test that no connective passes fails at the end and at a connective alike. -/
theorem accept {read : Token → Option β} (h : ∀ t, isConnective t = true → read t = none) :
    (accept read).Framed := by
  refine ⟨inferInstance, covers_accept fun _ _ _ => trivial, fun ts rest hRest => ?_⟩
  cases ts with
  | nil =>
    cases rest with
    | nil => rfl
    | cons t rest => rw [List.nil_append, outcome_accept_cons, h _ (follows_cons.mp hRest)]; rfl
  | cons t ts =>
    rw [List.cons_append, outcome_accept_cons, outcome_accept_cons]
    cases read t.value <;> rfl

/-- A token that is no connective. -/
theorem exactly {t : Token} (ht : isConnective t = false) : (exactly t).Framed := by
  refine Framed.bind (Framed.accept fun u hu => if_neg ?_) fun _ => Framed.pure ()
  rintro rfl
  rw [ht] at hu
  cases hu

/-- Both alternatives see the same. -/
theorem orElse (hp : p.Framed) (hq : q.Framed) : (p <|> q).Framed := by
  have hpSteady := hp.steady
  have hqSteady := hq.steady
  refine ⟨inferInstance, hp.covers.orElse hq.covers, fun ts rest hRest => ?_⟩
  rw [outcome_orElse, outcome_orElse, hp.outcome_append ts hRest, hq.outcome_append ts hRest]
  cases p.outcome ts <;> rfl

/-- Nothing read leaves the connective where it is. -/
theorem optional (hp : p.Framed) : (optional p).Framed := by
  have hSteady := hp.steady
  refine ⟨inferInstance, Covers.optional hp.covers trivial, fun ts rest hRest => ?_⟩
  rw [outcome_optional, outcome_optional, hp.outcome_append ts hRest]
  cases p.outcome ts <;> rfl

/-- The place does not reach over the connective. -/
theorem withSpan {p : Parser (Span → α)} (hp : p.Framed) : (withSpan p).Framed := by
  have hSteady := hp.steady
  refine ⟨inferInstance, Covers.withSpan hp.covers, fun ts rest hRest => ?_⟩
  rw [outcome_withSpan, outcome_withSpan, hp.outcome_append ts hRest, Option.map_map,
    Option.map_map]
  refine congrArg (Option.map · _) (funext fun r => ?_)
  simp only [Function.comp, consumed_append_append]

/-- Rounds that use up tokens end at the connective, however many the bound allows. -/
theorem many (hp : p.Framed) (hShrinks : p.Shrinks) : (many p).Framed := by
  have hSteady := hp.steady
  have hCovers : (Parser.many p).Covers fun _ _ => True :=
    Covers.many hp.covers trivial fun _ _ _ _ _ _ => trivial
  refine ⟨inferInstance, hCovers, fun ts rest hRest => ?_⟩
  -- by induction on the number of tokens, as the bounds of the two sides differ
  induction hLength : ts.length using Nat.strong_induction_on generalizing ts with
  | h n ih =>
    have hRound := hp.outcome_append ts hRest
    cases hRead : p.outcome ts with
    | none =>
      rw [hRead] at hRound
      rw [outcome_many_of_none hRead, outcome_many_of_none hRound]
      rfl
    | some r =>
      rw [hRead] at hRound
      have hShorter := hShrinks hRead
      rw [outcome_many_of_some hShrinks hRead, outcome_many_of_some hShrinks hRound,
        ih _ (hLength ▸ hShorter) r.2 rfl]
      cases (Parser.many p).outcome r.2 <;> rfl

/-- A token before something else is used up in any case. -/
theorem shrinks_behind (hp : p.Framed) (t : Token) : (do Parser.exactly t; p).Shrinks := by
  have hSteady := hp.steady
  have hTakes : (do Parser.exactly t; p).Takes fun _ w => w ≠ [] := by
    refine takes_exactly.bind fun _ w hw => Takes.mono (R := fun _ _ => True) hp.covers ?_
    intro a w' _
    rw [hw]
    exact List.cons_ne_nil _ _
  exact hTakes.shrinks fun _ _ hw => hw

end Framed

/-- Nothing that terms are put together with looks past a connective. -/
theorem framed_closed : ClosedOnTerms @Framed where
  pure := Framed.pure
  bind := Framed.bind
  -- what can be accepted in a term is no connective
  accept h := Framed.accept fun t ht => by
    rw [← Option.not_isSome_iff_eq_none]
    intro hSome
    have hEnds := endsTerm_of_isConnective ht
    rw [h t hSome] at hEnds
    cases hEnds
  orElse := Framed.orElse
  optional := Framed.optional
  withSpan := Framed.withSpan
  enclosed g hp := (Framed.exactly rfl).bind fun _ => hp.bind fun b =>
    (Framed.exactly rfl).bind fun _ => Framed.pure (g b)
  items hp := ((Framed.exactly rfl).bind fun _ => hp).many (hp.shrinks_behind _)

instance (priority := low) {p : Parser α} [hp : Composed .terms p] : p.Framed :=
  hp.has @Framed framed_closed

end Parser

/-! ## A connective behind a condition -/

theorem exists_outcome_further (k : Connective) (ts : Tokens) :
    ∃ es rest, (further k).outcome ts = some (es, rest) :=
  exists_outcome_many _ ts

section
variable {k : Connective} {run rest : Tokens} {e : Expr} {es : List Expr}

/-- A chain where it stands. -/
theorem ChainYields.here (h : ChainYields k run e es)
    (hRest : Follows k.member.after (values rest)) :
    ∃ later, (reader k.member).outcome (run ++ rest) = some (e, later) ∧
      (further k).outcome later = ((further k).outcome rest).map fun r => (es ++ r.1, r.2) := by
  obtain ⟨later, hLater⟩ := h
  obtain ⟨hFirst, hMore⟩ := hLater Span.rigid_self hRest
  rw [movedTokens_self, movedTokens_self, Expr.moved_self] at hFirst
  rw [movedTokens_self, List.map_congr_left fun x _ => Expr.moved_self x, List.map_id'] at hMore
  exact ⟨later ++ rest, hFirst, hMore⟩

/-- With its connective behind it, a chain has at least the members that it has alone. -/
theorem ChainYields.extended (h : ChainYields k run e es) (s : Span) (us : Tokens) :
    ∃ es' rest, (reader (.chain k)).outcome (run ++ ⟨k.token, s⟩ :: us) =
      some ((es ++ es').foldl k.join e, rest) := by
  -- the connective ends the last member, and more may follow it
  have hToken : Follows k.member.after (values (⟨k.token, s⟩ :: us)) :=
    follows_cons.mpr k.after_member_token
  obtain ⟨later, hFirst, hMore⟩ := h.here hToken
  obtain ⟨es', rest, hFurther⟩ := exists_outcome_further k (⟨k.token, s⟩ :: us)
  refine ⟨es', rest, ?_⟩
  rw [outcome_reader_chain, hFirst, Option.bind_some, hMore, hFurther]
  rfl

end

/-- `AND` behind a disjunction makes its last member longer, and more members may follow. -/
theorem extended_by_and (m : Phrase (.chain .and)) (more : List (Phrase (.chain .and)))
    {run : Tokens} (hRun : values run = (Phrase.ofMembers (k := .or) m more).tokens) (s : Span)
    (us : Tokens) :
    ∃ e es, ChainYields .or run e es ∧ ∃ e' later es' rest,
      (reader (.chain .and)).outcome (run ++ ⟨.keyword .and, s⟩ :: us) = some (e', later) ∧
        (further .or).outcome later = some (es', rest) ∧
          (e :: es).flatMap Expr.terms <+: (e' :: es').flatMap Expr.terms := by
  -- induction on the members: of all of them only the last one stands before the `AND`
  induction more generalizing m run with
  | nil =>
    obtain ⟨e, es, hChain, -, -⟩ := phrase_readAs m hRun
    obtain ⟨es', later, hRead⟩ := hChain.extended s us
    obtain ⟨more', rest, hMore⟩ := exists_outcome_further .or later
    refine ⟨_, [], chainYields_last (k := .or) hChain.yields, _, later, more', rest, hRead, hMore,
      ?_⟩
    rw [List.flatMap_singleton, List.flatMap_cons, Expr.terms_foldl_join, Expr.terms_foldl_join,
      ← List.cons_append, List.flatMap_append, List.append_assoc]
    exact List.prefix_append _ _
  | cons m' more ih =>
    obtain ⟨first, _, rfl, hFirst, hChain⟩ := exists_of_values_eq_append hRun
    obtain ⟨s', later, rfl, hLater⟩ := exists_of_values_eq_cons hChain
    obtain ⟨e, hYields, -, -⟩ := (phrase_readAs m hFirst).yields
    obtain ⟨e₁, es₁, hChain₁, e₂, later₂, es₂, rest, hRead, hMore, hTerms⟩ := ih m' hLater
    -- an earlier member ends at its `OR`, as it does alone
    let behind : Tokens := ⟨Connective.or.token, s'⟩ :: (later ++ ⟨.keyword .and, s⟩ :: us)
    have hOr : Follows (Nonterminal.chain .and).after (values behind) := follows_cons.mpr rfl
    refine ⟨e, e₁ :: es₁, ChainYields.join (k := .or) hYields hChain₁ s', e, behind, e₂ :: es₂,
      rest, ?_, ?_, ?_⟩
    · rw [List.append_assoc]
      exact hYields.here hOr
    · rw [outcome_further_cons (k := .or) hRead, hMore]
      rfl
    · exact (List.prefix_append_right_inj e.terms).mpr hTerms

/-- A condition is its first conjunction and the further ones. -/
theorem outcome_condition_of_further {ts later rest : Tokens} {e : Expr} {es : List Expr}
    (hFirst : (reader (.chain .and)).outcome ts = some (e, later))
    (hMore : (further .or).outcome later = some (es, rest)) :
    condition.outcome ts = some (es.foldl Connective.or.join e, rest) := by
  have hRead : (reader (.chain .or)).outcome ts = some (es.foldl Connective.or.join e, rest) := by
    rw [outcome_reader_chain]
    show Option.bind ((reader (.chain .and)).outcome _) _ = _
    rw [hFirst, Option.bind_some, hMore]
    rfl
  rw [outcome_condition]
  exact hRead

/-- A whole condition keeps its terms when a connective and anything else follow. -/
theorem outcome_condition_extended (p : Phrase (.chain .or)) {run : Tokens}
    (hRun : values run = p.tokens) (k : Connective) (s : Span) (us : Tokens) :
    ∃ e e' rest, condition.outcome run = some (e, []) ∧
      condition.outcome (run ++ ⟨k.token, s⟩ :: us) = some (e', rest) ∧ e.terms <+: e'.terms := by
  cases k with
  | or =>
    obtain ⟨e, es, hChain, -, -⟩ := phrase_readAs p hRun
    obtain ⟨es', rest, hRead⟩ := hChain.extended s us
    refine ⟨es.foldl Connective.or.join e, (es ++ es').foldl Connective.or.join e, rest,
      outcome_condition_of_yields hChain.yields, ?_, ?_⟩
    · rw [outcome_condition]
      exact hRead
    · rw [Expr.terms_foldl_join, Expr.terms_foldl_join, ← List.cons_append, List.flatMap_append]
      exact List.prefix_append _ _
  | and =>
    -- not the disjunction goes on, but the last conjunction in it
    obtain ⟨m, more, rfl⟩ := p.exists_eq_ofMembers
    obtain ⟨e, es, hChain, e', later, es', rest, hRead, hMore, hTerms⟩ :=
      extended_by_and m more hRun s us
    refine ⟨_, es'.foldl Connective.or.join e', rest, outcome_condition_of_yields hChain.yields,
      outcome_condition_of_further hRead hMore, ?_⟩
    rw [Expr.terms_foldl_join, Expr.terms_foldl_join]
    exact hTerms

/-! ## A malformed term before a condition -/

/-- Whether the token is no connective and no parenthesis. -/
def isPlain (t : Token) : Bool :=
  !isConnective t && t != .symbol .lparen && t != .symbol .rparen

/-- Whether an operand comes first, negations aside. -/
def leadsWithOperand : List Token → Bool
  | [] => false
  | t :: ts => if t = .keyword .not then leadsWithOperand ts else startsOperand t

theorem endsTerm_of_isPlain {t : Token} (h : isPlain t = true) : endsTerm t = false := by
  simp only [isPlain, isConnective, Bool.and_eq_true, Bool.not_eq_true', Bool.or_eq_false_iff,
    beq_eq_false_iff_ne, bne_iff_ne] at h
  simp [endsTerm, h]

theorem ne_lparen_of_isPlain {t : Token} (h : isPlain t = true) :
    (t != .symbol .lparen) = true := by
  simp only [isPlain, Bool.and_eq_true] at h
  exact h.1.2

theorem outcome_skippedToken_cons (t : Spanned Token) (ts : Tokens) :
    skippedToken.outcome (t :: ts) = if endsTerm t.value then none else some ((), ts) := by
  dsimp only [outcome, skippedToken]
  split <;> rfl

/-- Nothing starts where a term ends. -/
theorem outcome_skippedToken_of_endsTerm {rest : Tokens} (h : Follows endsTerm (values rest)) :
    skippedToken.outcome rest = none := by
  cases rest with
  | nil => rfl
  | cons t rest => rw [outcome_skippedToken_cons, if_pos (follows_cons.mp h)]

/-- All tokens up to the end of the term are skipped. -/
theorem outcome_many_skippedToken {ts rest : Tokens}
    (hts : ∀ t ∈ ts, endsTerm t.value = false) (hRest : Follows endsTerm (values rest)) :
    (many skippedToken).outcome (ts ++ rest) = some (ts.map fun _ => (), rest) := by
  induction ts with
  | nil => exact outcome_many_of_none (outcome_skippedToken_of_endsTerm hRest)
  | cons t ts ih =>
    have hOne : skippedToken.outcome (t :: (ts ++ rest)) = some ((), ts ++ rest) := by
      rw [outcome_skippedToken_cons, hts t List.mem_cons_self]
      rfl
    rw [List.cons_append, outcome_many_of_some (skippedToken_takes.shrinks fun _ _ h => h) hOne,
      ih fun u hu => hts u (List.mem_cons_of_mem _ hu)]
    rfl

/-- No predicate starts without an operand. -/
theorem outcome_predicate_of_not_startsOperand {ts : Tokens}
    (h : Follows (fun t => !startsOperand t) (values ts)) : predicate.outcome ts = none := by
  cases hRead : predicate.outcome ts with
  | none => rfl
  | some r =>
    -- what is read is derived, and a derived predicate has an operand first
    obtain ⟨run, rfl, lhs, tail, hRun, -⟩ := predicate_takes hRead
    obtain ⟨t, w, hTokens, ht⟩ := lhs.exists_tokens_eq_cons
    rw [values_append, ← hRun, hTokens, List.cons_append, List.cons_append, follows_cons, ht] at h
    cases h

/-- A term that no operand and no group can start is what stands before the next place where a term
ends. -/
theorem outcome_term_of_skipped (c : Parser Expr) [Composed .conditions c] {ts : Tokens}
    (hGroup : Follows (· != .symbol .lparen) (values ts))
    (hPredicate : Follows (fun t => !startsOperand t) (values ts)) :
    (term c).outcome ts = ((atLeastOne skippedToken).outcome ts).map fun r =>
      (.malformed (hull (consumed ts r.2)), r.2) := by
  rw [term, outcome_withSpan, outcome_recover, outcome_orElse, outcome_group_of_ne c hGroup,
    outcome_predicate_of_not_startsOperand hPredicate, outcome_bind]
  cases (atLeastOne skippedToken).outcome ts <;> rfl

/-- Nothing is read before a connective, not even a malformed term. -/
theorem outcome_unary_of_isConnective {rest : Tokens} (h : Follows isConnective (values rest)) :
    (reader .unary).outcome rest = none := by
  have hEnds : skippedToken.outcome rest = none :=
    outcome_skippedToken_of_endsTerm (h.mono fun _ => endsTerm_of_isConnective)
  -- a connective is neither a `NOT` nor a parenthesis
  have hOther : ∀ t, isConnective t = false → Follows (· != t) (values rest) := by
    intro t ht
    refine h.mono fun u hu => bne_iff_ne.mpr ?_
    rintro rfl
    rw [ht] at hu
    cases hu
  rw [reader, outcome_negation_of_ne condition (hOther _ rfl),
    outcome_term_of_skipped condition (hOther _ rfl), atLeastOne, outcome_bind, hEnds]
  · rfl
  · refine h.mono fun u hu => ?_
    cases u <;> first | rfl | cases hu

/-- Plain tokens that no operand starts are skipped together. -/
theorem outcome_term_skipped {t : Spanned Token} {ts rest : Tokens}
    (hPlain : ∀ u ∈ t :: ts, isPlain u.value = true) (hStart : startsOperand t.value = false)
    (hRest : Follows isConnective (values rest)) :
    (term condition).outcome (t :: ts ++ rest) = some (.malformed (hull (t :: ts)), rest) := by
  have hEnds : ∀ u ∈ t :: ts, endsTerm u.value = false :=
    fun u hu => endsTerm_of_isPlain (hPlain u hu)
  have hMore := outcome_many_skippedToken (fun u hu => hEnds u (List.mem_cons_of_mem _ hu))
    (hRest.mono fun _ => endsTerm_of_isConnective)
  -- every token of the term is skipped, and a connective is not
  have hSkipped : (atLeastOne skippedToken).outcome (t :: ts ++ rest) =
      some ((t :: ts).map fun _ => (), rest) := by
    rw [atLeastOne, outcome_bind, List.cons_append, outcome_skippedToken_cons,
      hEnds t List.mem_cons_self]
    show Option.bind (some ((), ts ++ rest)) _ = _
    rw [Option.bind_some, outcome_bind, hMore]
    rfl
  rw [outcome_term_of_skipped condition, hSkipped, Option.map_some, consumed_append]
  · exact follows_cons.mpr (ne_lparen_of_isPlain (hPlain t List.mem_cons_self))
  · exact follows_cons.mpr (by rw [hStart]; rfl)

/-- A term that does not start with an operand is skipped up to the next connective. If it is all
negations, the last of them is what is skipped. -/
theorem exists_skipped_term {ts : Tokens} (hSome : ts ≠ [])
    (hPlain : ∀ t ∈ ts, isPlain t.value = true) (hLeads : leadsWithOperand (values ts) = false) :
    ∃ e : Expr, e.isSkipped = true ∧ ∀ rest, Follows isConnective (values rest) →
      (reader .unary).outcome (ts ++ rest) = some (e, rest) := by
  -- by induction on the negations before the term
  induction ts with
  | nil => exact absurd rfl hSome
  | cons t ts ih =>
    obtain ⟨t, s⟩ := t
    by_cases hNot : t = .keyword .not
    · subst hNot
      by_cases hNil : ts = []
      · subst hNil
        refine ⟨.malformed (hull [⟨.keyword .not, s⟩]), rfl, fun rest hRest => ?_⟩
        -- there is nothing left to negate, so the `NOT` itself is what is skipped
        have hInner : (negation condition).outcome rest = none :=
          outcome_unary_of_isConnective hRest
        rw [reader, List.cons_append, List.nil_append, outcome_negation_cons_not, hInner]
        exact outcome_term_skipped hPlain rfl hRest
      · obtain ⟨e, hSkipped, hRead⟩ := ih hNil (fun u hu => hPlain u (List.mem_cons_of_mem _ hu))
          hLeads
        refine ⟨.not (hull (⟨.keyword .not, s⟩ :: ts)) e, hSkipped, fun rest hRest => ?_⟩
        have hInner : (negation condition).outcome (ts ++ rest) = some (e, rest) :=
          hRead rest hRest
        rw [reader, List.cons_append, outcome_negation_cons_not, hInner, Option.map_some,
          ← List.cons_append, consumed_append]
        rfl
    · have hStart : startsOperand t = false := by
        simpa only [values, List.map_cons, leadsWithOperand, hNot, if_false] using hLeads
      refine ⟨.malformed (hull (⟨t, s⟩ :: ts)), rfl, fun rest hRest => ?_⟩
      have hOther : Follows (· != .keyword .not) (values (⟨t, s⟩ :: (ts ++ rest))) :=
        follows_token (by simpa using hNot)
      rw [reader, List.cons_append, outcome_negation_of_ne condition hOther]
      exact outcome_term_skipped hPlain hStart hRest

/-- Behind a member of its own and the connective, a chain is read as it would be alone. -/
theorem outcome_chain_behind {k : Connective} {ts run rest : Tokens} {first e : Expr}
    {es : List Expr} {f : Span → Span} {s : Span}
    (hFirst : ∀ rest, Follows isConnective (values rest) →
      (reader k.member).outcome (ts ++ rest) = some (first, rest))
    (hChain : ChainYields k run e es) (hf : Span.Rigid f)
    (hRest : Follows (Nonterminal.chain k).after (values rest)) :
    (reader (.chain k)).outcome (ts ++ ⟨k.token, s⟩ :: (movedTokens f run ++ rest)) =
      some (((e :: es).map (Expr.moved f)).foldl k.join first, rest) := by
  have hMember : Follows k.member.after (values rest) :=
    hRest.mono fun _ => Connective.after_member_of_after_chain
  rw [outcome_reader_chain, hFirst _ (follows_token (isConnective_token k)), Option.bind_some,
    hChain.outcome_further hf hMember, outcome_further_of_ne hRest.ne_token]
  simp

/-- Behind a term and `AND`, the terms of a whole condition are read as they would be alone. -/
theorem outcome_condition_behind {ts run : Tokens} {first : Expr} {f : Span → Span} {s : Span}
    (hFirst : ∀ rest, Follows isConnective (values rest) →
      (reader .unary).outcome (ts ++ rest) = some (first, rest))
    (p : Phrase (.chain .or)) (hRun : values run = p.tokens) (hf : Span.Rigid f) :
    ∃ e e', condition.outcome run = some (e, []) ∧
      condition.outcome (ts ++ ⟨.keyword .and, s⟩ :: movedTokens f run) = some (e', []) ∧
        e'.terms = first.terms ++ e.terms.map (Expr.moved f) := by
  -- only the first conjunction is joined to the term; the others follow as they would alone
  cases p with
  | last m =>
    obtain ⟨e, es, hChain, -, -⟩ := phrase_readAs m hRun
    have hAlone := chainYields_last (k := .or) hChain.yields
    have hEnd : Follows (Nonterminal.chain .and).after (values []) := follows_nil _
    have hRead := outcome_chain_behind (k := .and) (s := s) hFirst hChain hf hEnd
    rw [List.append_nil] at hRead
    refine ⟨_, _, outcome_condition_of_yields hAlone.yields,
      outcome_condition_of_further hRead (outcome_further_nil .or), ?_⟩
    simp only [List.foldl_nil, Expr.terms_foldl_join, List.flatMap_cons,
      Expr.flatMap_terms_map_moved, List.map_cons, List.map_append, Expr.terms_moved]
  | join m more =>
    obtain ⟨run₁, _, rfl, hRun₁, hLater⟩ := exists_of_values_eq_append hRun
    obtain ⟨s', run₂, rfl, hRun₂⟩ := exists_of_values_eq_cons hLater
    obtain ⟨e₁, es₁, hChain₁, -, -⟩ := phrase_readAs m hRun₁
    obtain ⟨e₂, es₂, hChain₂, -, -⟩ := phrase_readAs more hRun₂
    have hAlone := ChainYields.join (k := .or) hChain₁.yields hChain₂ s'
    have hOr : Follows (Nonterminal.chain .and).after
        (values (movedTokens f (⟨Connective.or.token, s'⟩ :: run₂))) :=
      follows_token rfl
    have hRead := outcome_chain_behind (k := .and) (s := s) hFirst hChain₁ hf hOr
    rw [← movedTokens_append] at hRead
    have hMore : (further .or).outcome (movedTokens f (⟨Connective.or.token, s'⟩ :: run₂)) =
        some ((e₂ :: es₂).map (Expr.moved f), []) := by
      have hEnd : Follows (Nonterminal.chain .and).after (values []) := follows_nil _
      have hFurther := hChain₂.outcome_further hf hEnd (f s')
      rw [List.append_nil, outcome_further_nil, Option.map_some, List.append_nil] at hFurther
      exact hFurther
    refine ⟨_, _, outcome_condition_of_yields hAlone.yields,
      outcome_condition_of_further hRead hMore, ?_⟩
    simp only [Expr.terms_foldl_join, List.flatMap_cons, Expr.flatMap_terms_map_moved,
      List.map_cons, List.map_append, Expr.terms_moved, List.append_assoc]

/-! ## Conditions of one term -/

/-- A chain ends where no connective comes. -/
theorem outcome_further_of_not_isConnective {rest : Tokens}
    (h : Follows (fun t => !isConnective t) (values rest)) (k : Connective) :
    (further k).outcome rest = some ([], rest) := by
  refine outcome_further_of_ne (h.mono fun t ht => bne_iff_ne.mpr ?_)
  rintro rfl
  rw [isConnective_token] at ht
  cases ht

/-- A connective with nothing behind it is left over. -/
theorem outcome_further_dangling (s : Span) (k : Connective) :
    (further k).outcome [⟨.keyword .and, s⟩] = some ([], [⟨.keyword .and, s⟩]) := by
  cases k with
  | and =>
    -- behind the keyword there is nothing to read, so the keyword is given back
    have hNone : (reader .unary).outcome [] = none :=
      outcome_unary_of_isConnective (follows_nil _)
    refine outcome_many_of_none ?_
    rw [outcome_bind, outcome_exactly_cons]
    exact hNone
  | or => exact outcome_further_of_ne (follows_token rfl)

/-- A condition is its first term if no chain goes on behind that. -/
theorem outcome_condition_of_unary {ts rest : Tokens} {e : Expr}
    (h : (reader .unary).outcome ts = some (e, rest))
    (hDone : ∀ k : Connective, (further k).outcome rest = some ([], rest)) :
    condition.outcome ts = some (e, rest) := by
  have hFirst : (reader (.chain .and)).outcome ts = some (e, rest) := by
    rw [outcome_reader_chain]
    show Option.bind ((reader .unary).outcome _) _ = _
    rw [h, Option.bind_some, hDone]
    rfl
  exact outcome_condition_of_further hFirst (hDone .or)

/-! ## A term that starts with an operand -/

/-- Some form of operand can be read wherever an operand can start. -/
theorem isSome_operandForm {t : Token} (h : startsOperand t = true) (s : Span) (ts : Tokens) :
    (operandForm.outcome (⟨t, s⟩ :: ts)).isSome = true := by
  -- whatever comes before them, one of the last two forms can be read
  have hLast : ((bareName <|> literal).outcome (⟨t, s⟩ :: ts)).isSome = true := by
    cases t with
    | keyword k => cases h
    | symbol s => cases h
    | _ => simp [bareName, literal, name, string, number, stringValue?]
  rw [outcome_orElse] at hLast
  rw [operandForm]
  simp only [outcome_orElse, Option.isSome_or, Bool.or_eq_true] at hLast ⊢
  tauto

/-- An operand can be read wherever one can start. -/
theorem exists_outcome_operand {t : Token} (h : startsOperand t = true) (s : Span) (ts : Tokens) :
    ∃ x rest, operand.outcome (⟨t, s⟩ :: ts) = some (x, rest) := by
  obtain ⟨o, ho⟩ := Option.isSome_iff_exists.mp (isSome_operandForm h s ts)
  show ∃ x rest, (located operandForm).outcome _ = _
  rw [outcome_located, ho]
  exact ⟨_, _, rfl⟩

/-- A predicate can be read wherever an operand can start, if only as the operand alone. -/
theorem exists_outcome_predicate {t : Token} (h : startsOperand t = true) (s : Span)
    (ts : Tokens) : ∃ g rest, predicate.outcome (⟨t, s⟩ :: ts) = some (g, rest) := by
  obtain ⟨x, mid, hx⟩ := exists_outcome_operand h s ts
  rw [predicate_eq, outcome_bind, hx, Option.bind_some, outcome_bind, outcome_optional]
  cases comparisonTail.outcome mid with
  | none => exact ⟨_, _, rfl⟩
  | some r => exact ⟨_, _, rfl⟩

/-- A term that starts with an operand is read without a malformed part, and nothing behind a
connective changes how. What is left of it stays where it is. -/
theorem exists_framed_term {ts : Tokens} (hLeads : leadsWithOperand (values ts) = true) :
    ∃ (e : Expr) (left : Tokens), e.malformedParts = 0 ∧
      ∀ rest, Follows isConnective (values rest) →
        (reader .unary).outcome (ts ++ rest) = some (e, left ++ rest) := by
  induction ts with
  | nil => cases hLeads
  | cons t ts ih =>
    obtain ⟨t, s⟩ := t
    by_cases hNot : t = .keyword .not
    · subst hNot
      obtain ⟨e, left, hWhole, hRead⟩ := ih hLeads
      refine ⟨.not (hull (consumed (⟨.keyword .not, s⟩ :: ts) left)) e, left, hWhole,
        fun rest hRest => ?_⟩
      have hInner : (negation condition).outcome (ts ++ rest) = some (e, left ++ rest) :=
        hRead rest hRest
      rw [reader, List.cons_append, outcome_negation_cons_not, hInner, Option.map_some,
        ← List.cons_append, consumed_append_append]
      rfl
    · have hStart : startsOperand t = true := by
        simpa only [values, List.map_cons, leadsWithOperand, hNot, if_false] using hLeads
      obtain ⟨g, left, hPredicate⟩ := exists_outcome_predicate hStart s ts
      obtain ⟨run, -, lhs, tail, -, hWhole⟩ := predicate_takes hPredicate
      refine ⟨g (hull (consumed (⟨t, s⟩ :: ts) left)), left, (hWhole _).1, fun rest hRest => ?_⟩
      -- the predicate does not look past the connective
      have hFramed : predicate.outcome (⟨t, s⟩ :: ts ++ rest) = some (g, left ++ rest) := by
        rw [Framed.outcome_append _ hRest, hPredicate]
        rfl
      -- the term starts with its operand, so it is no negation and no group
      have hOther : ∀ u, startsOperand u = false →
          Follows (· != u) (values (⟨t, s⟩ :: ts ++ rest)) := by
        intro u hu
        refine follows_token ?_
        rw [bne_iff_ne]
        rintro rfl
        rw [hStart] at hu
        cases hu
      rw [reader, outcome_negation_of_ne condition (hOther _ rfl)]
      refine outcome_term_of_predicate (outcome_group_of_ne condition (hOther _ rfl)) ?_
      rw [outcome_withSpan, hFramed, Option.map_some, consumed_append_append]

/-- A condition that starts with an operand and has no connective either is whole, or it ends where
something is left of it. Then a connective and what follows are left over as well. -/
theorem outcome_condition_framed {ts : Tokens} (hLeads : leadsWithOperand (values ts) = true)
    (hPlain : ∀ t ∈ ts, isPlain t.value = true) :
    ∃ e left, e.malformedParts = 0 ∧ condition.outcome ts = some (e, left) ∧
      (left ≠ [] → ∀ rest, Follows isConnective (values rest) →
        condition.outcome (ts ++ rest) = some (e, left ++ rest)) := by
  obtain ⟨e, left, hWhole, hRead⟩ := exists_framed_term hLeads
  have hAlone : (reader .unary).outcome ts = some (e, left) := by
    have hEnd : Follows isConnective (values []) := follows_nil _
    have hHere := hRead [] hEnd
    rwa [List.append_nil, List.append_nil] at hHere
  -- what is left is some of the tokens, and none of them is a connective
  obtain ⟨run, rfl, -⟩ := reader_takes .unary hAlone
  have hLeft : ∀ t ∈ left, (!isConnective t.value) = true := by
    intro t ht
    have hPlainHere := hPlain t (List.mem_append_right _ ht)
    rw [isPlain, Bool.and_eq_true, Bool.and_eq_true] at hPlainHere
    exact hPlainHere.1.1
  have hFollows : ∀ rest, left ≠ [] →
      Follows (fun t => !isConnective t) (values (left ++ rest)) := by
    intro rest hSome
    obtain ⟨t, ts, rfl⟩ := List.exists_cons_of_ne_nil hSome
    exact follows_token (hLeft t List.mem_cons_self)
  refine ⟨e, left, hWhole, outcome_condition_of_unary hAlone ?_, fun hSome rest hRest => ?_⟩
  · by_cases hNil : left = []
    · rw [hNil]
      exact outcome_further_nil
    · have hHere := hFollows [] hNil
      rw [List.append_nil] at hHere
      exact outcome_further_of_not_isConnective hHere
  · exact outcome_condition_of_unary (hRead rest hRest)
      (outcome_further_of_not_isConnective (hFollows rest hSome))

end Parse

end AnnotationQuery
