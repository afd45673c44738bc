import AnnotationQuery.Proofs.Parse.Accepted

/-!
# Parentheses

Two ways to look at the parentheses of a text. From the left, one can count how many
are open (`openAfter`, `depth?`). From inside, a word is balanced if they come in
pairs (`Balanced`). If nothing is left open at the end of a text, then every opening
parenthesis has a partner, and what stands between the two is balanced. The recovery
for groups skips from any parenthesis to its partner.

Main results:

* `exists_partner` — where nothing is left open, there is a partner.
* `outcome_balanced` — skipping to the partner.
* `predicate_balanced` — predicates are read from balanced words.
-/

namespace AnnotationQuery.Parse

open AnnotationQuery.Parse.Parser
open AnnotationQuery.Grammar

/-! ## Counting -/

/-- How many parentheses are open behind the word if `depth` are open before it. A closing one
without a partner closes nothing. -/
def openAfter (depth : Nat) : List Token → Nat
  | [] => depth
  | t :: ts =>
    if t = .symbol .lparen then openAfter (depth + 1) ts
    else if t = .symbol .rparen then openAfter (depth - 1) ts
    else openAfter depth ts

/-- How many are open behind one more token, if a closing one has a partner. -/
def depthStep? (depth : Nat) (t : Token) : Option Nat :=
  if t = .symbol .lparen then some (depth + 1)
  else if t = .symbol .rparen then (if depth = 0 then none else some (depth - 1))
  else some depth

/-- How many are open behind the word, if every closing one has a partner. -/
def depth? (depth : Nat) (ts : List Token) : Option Nat :=
  ts.foldlM depthStep? depth

/-- The more are open before a word, the more are open behind it. -/
theorem openAfter_mono {d d' : Nat} (h : d ≤ d') (ts : List Token) :
    openAfter d ts ≤ openAfter d' ts := by
  induction ts generalizing d d' with
  | nil => exact h
  | cons t ts ih =>
    unfold openAfter
    split
    · exact ih (by omega)
    · split
      · exact ih (by omega)
      · exact ih h

/-- What is closed at the end of a text is closed at the end of each last part of it. -/
theorem openAfter_suffix {ts us : List Token} (h : openAfter 0 ts = 0) (hSuffix : us <:+ ts) :
    openAfter 0 us = 0 := by
  obtain ⟨before, rfl⟩ := hSuffix
  induction before with
  | nil => exact h
  | cons t before ih =>
    rw [List.cons_append, openAfter] at h
    split at h
    · -- one more open at the start cannot mean fewer at the end
      have hLess := openAfter_mono (Nat.zero_le (0 + 1)) (before ++ us)
      exact ih (by omega)
    · split at h
      · exact ih h
      · exact ih h

theorem depth?_append (d : Nat) (ts us : List Token) :
    depth? d (ts ++ us) = (depth? d ts).bind fun k => depth? k us :=
  List.foldlM_append

theorem depth?_cons (d : Nat) (t : Token) (ts : List Token) :
    depth? d (t :: ts) = (depthStep? d t).bind fun k => depth? k ts :=
  List.foldlM_cons

/-! ## Pairs -/

/-- The parentheses of the word come in pairs. -/
inductive Balanced : List Token → Prop where
  | nil : Balanced []
  | plain {t : Token} {ts : List Token} (hOpen : t ≠ .symbol .lparen)
      (hClose : t ≠ .symbol .rparen) (hRest : Balanced ts) : Balanced (t :: ts)
  | nest {inner ts : List Token} (hInner : Balanced inner) (hRest : Balanced ts) :
      Balanced (.symbol .lparen :: (inner ++ .symbol .rparen :: ts))

/-- Two words with all their parentheses in pairs have them so together. -/
theorem Balanced.append {ts us : List Token} (h : Balanced ts) (h' : Balanced us) :
    Balanced (ts ++ us) := by
  induction h with
  | nil => exact h'
  | plain hOpen hClose hRest ih => exact .plain hOpen hClose ih
  | @nest inner ts hInner hRest ihInner ih =>
    rw [List.cons_append, List.append_assoc, List.cons_append]
    exact .nest hInner ih

/-- A balanced word leaves open what was open. -/
theorem Balanced.depth? {ts : List Token} (h : Balanced ts) (d : Nat) :
    depth? d ts = some d := by
  -- as a balanced text is made up: what is between parentheses is one deeper
  induction h generalizing d with
  | nil => rfl
  | plain hOpen hClose hRest ih =>
    rw [depth?_cons, depthStep?, if_neg hOpen, if_neg hClose]
    exact ih d
  | nest hInner hRest ihInner ih =>
    rw [depth?_cons, depthStep?, if_pos rfl, Option.bind_some, depth?_append, ihInner,
      Option.bind_some, depth?_cons]
    exact ih d

/-- **Partners.** If nothing is left open behind a word, then the innermost parenthesis that is open
before it is closed somewhere in it, and what stands before that place is balanced. -/
theorem exists_partner {d : Nat} {ts : List Token} (h : openAfter (d + 1) ts = 0) :
    ∃ inner after, ts = inner ++ .symbol .rparen :: after ∧ Balanced inner ∧
      openAfter d after = 0 := by
  -- an inner parenthesis is closed first, and the search goes on behind its partner
  induction hLength : ts.length using Nat.strong_induction_on generalizing d ts with
  | _ length ih =>
    subst hLength
    cases ts with
    | nil => cases h
    | cons t ts =>
      rw [openAfter] at h
      split at h
      · next hOpen =>
        obtain ⟨inner, later, rfl, hInner, hLater⟩ := ih ts.length (by simp) h rfl
        obtain ⟨inner', after, rfl, hInner', hAfter⟩ :=
          ih later.length (by simp; omega) hLater rfl
        refine ⟨t :: (inner ++ .symbol .rparen :: inner'), after, by simp, ?_, hAfter⟩
        rw [hOpen]
        exact .nest hInner hInner'
      · next hOpen =>
        split at h
        · next hClose => exact ⟨[], ts, by rw [hClose]; rfl, .nil, h⟩
        · next hClose =>
          obtain ⟨inner, after, rfl, hInner, hAfter⟩ := ih ts.length (by simp) h rfl
          exact ⟨t :: inner, after, rfl, .plain hOpen hClose hInner, hAfter⟩

/-! ## Skipping to the partner -/

/-- What is skipped between two parentheses: a pair with its inside, or another token. -/
def round (bound : Nat) : Parser Unit :=
  balancedUpTo bound <|> notParenthesis

instance (bound : Nat) : Composed .conditions (round bound) := by delta round; infer_instance

/-- Whatever is skipped between two parentheses, tokens are used up. -/
theorem round_shrinks (bound : Nat) : (round bound).Shrinks := by
  have hOther : notParenthesis.Takes fun _ w => w ≠ [] :=
    (takes_accept fun _ _ _ _ => List.cons_ne_nil _ _ : Takes _ fun _ w => w ≠ []).bind
      fun _ _ h => takes_pure (by rw [List.append_nil]; exact h)
  exact ((balancedUpTo_takes bound).orElse hOther).shrinks fun _ _ h => h

theorem outcome_balancedUpTo_succ {bound : Nat} {s : Span} {ts : Tokens} :
    (balancedUpTo (bound + 1)).outcome (⟨.symbol .lparen, s⟩ :: ts) =
      ((many (round bound)).outcome ts).bind fun r => (symbol .rparen).outcome r.2 := by
  simp [balancedUpTo, symbol, round]

/-- A balanced run starts with a parenthesis. -/
theorem outcome_balancedUpTo_of_ne {bound : Nat} {t : Token} {s : Span} {ts : Tokens}
    (h : t ≠ .symbol .lparen) : (balancedUpTo bound).outcome (⟨t, s⟩ :: ts) = none := by
  cases bound with
  | zero => rfl
  | succ bound => simp [balancedUpTo, symbol, h]

theorem outcome_notParenthesis {t : Token} {s : Span} {ts : Tokens} :
    notParenthesis.outcome (⟨t, s⟩ :: ts) =
      if t = .symbol .lparen ∨ t = .symbol .rparen then none else some ((), ts) := by
  by_cases h : t = .symbol .lparen ∨ t = .symbol .rparen <;> simp [notParenthesis, h]

/-- Inside parentheses all of a balanced word is skipped. -/
theorem outcome_many_round {inner : Tokens} (h : Balanced (values inner)) {bound : Nat}
    (hBound : inner.length ≤ bound) (s : Span) (rest : Tokens) :
    ∃ us, (many (round bound)).outcome (inner ++ ⟨.symbol .rparen, s⟩ :: rest) =
      some (us, ⟨.symbol .rparen, s⟩ :: rest) := by
  generalize hWord : values inner = word at h
  induction h generalizing inner bound s rest with
  | nil =>
    cases values_eq_nil hWord
    refine ⟨[], outcome_many_of_none ?_⟩
    rw [round, outcome_orElse, List.nil_append, outcome_balancedUpTo_of_ne (by simp),
      outcome_notParenthesis]
    rfl
  | @plain t word hOpen hClose hRest ih =>
    obtain ⟨s', inner, rfl, hInner⟩ := exists_of_values_eq_cons hWord
    rw [List.length_cons] at hBound
    obtain ⟨us, hRead⟩ := ih (Nat.le_of_succ_le hBound) s rest hInner
    have hToken : (round bound).outcome (⟨t, s'⟩ :: (inner ++ ⟨.symbol .rparen, s⟩ :: rest)) =
        some ((), inner ++ ⟨.symbol .rparen, s⟩ :: rest) := by
      rw [round, outcome_orElse, outcome_balancedUpTo_of_ne hOpen, outcome_notParenthesis,
        if_neg (not_or.mpr ⟨hOpen, hClose⟩)]
      rfl
    refine ⟨() :: us, ?_⟩
    rw [List.cons_append, outcome_many_of_some (round_shrinks bound) hToken, hRead]
    rfl
  | @nest word word' hInner hRest ihInner ih =>
    obtain ⟨s₁, _, rfl, hTail⟩ := exists_of_values_eq_cons hWord
    obtain ⟨inner, _, rfl, hFirst, hClose⟩ := exists_of_values_eq_append hTail
    obtain ⟨s₂, later, rfl, hLater⟩ := exists_of_values_eq_cons hClose
    rw [List.length_cons, List.length_append, List.length_cons] at hBound
    have hShort : later.length ≤ bound := by omega
    obtain ⟨us, hRead⟩ := ih hShort s rest hLater
    -- the pair itself takes one off the bound for its inside
    obtain ⟨bound, rfl⟩ : ∃ k, bound = k + 1 := Nat.exists_eq_succ_of_ne_zero (by omega)
    have hInside : inner.length ≤ bound := by omega
    obtain ⟨us', hInside⟩ :=
      ihInner hInside s₂ (later ++ ⟨.symbol .rparen, s⟩ :: rest) hFirst
    have hPair : (round (bound + 1)).outcome (⟨.symbol .lparen, s₁⟩ ::
          (inner ++ ⟨.symbol .rparen, s₂⟩ :: (later ++ ⟨.symbol .rparen, s⟩ :: rest))) =
        some ((), later ++ ⟨.symbol .rparen, s⟩ :: rest) := by
      rw [round, outcome_orElse, outcome_balancedUpTo_succ, hInside]
      simp [symbol]
    refine ⟨() :: us, ?_⟩
    rw [List.cons_append, List.append_assoc, List.cons_append,
      outcome_many_of_some (round_shrinks (bound + 1)) hPair, hRead]
    rfl

/-- From a parenthesis, everything up to its partner is skipped. -/
theorem outcome_balanced {inner : Tokens} (h : Balanced (values inner)) (s s' : Span)
    (after : Tokens) :
    balanced.outcome (⟨.symbol .lparen, s⟩ :: (inner ++ ⟨.symbol .rparen, s'⟩ :: after)) =
      some ((), after) := by
  let ts : Tokens := ⟨.symbol .lparen, s⟩ :: (inner ++ ⟨.symbol .rparen, s'⟩ :: after)
  show (balancedUpTo (ts.length + 1)).outcome ts = _
  -- the bound is large enough for all rounds inside
  have hLength : inner.length ≤ ts.length := by
    rw [List.length_cons, List.length_append]
    omega
  obtain ⟨us, hRead⟩ := outcome_many_round h hLength s' after
  rw [outcome_balancedUpTo_succ, hRead]
  simp [symbol]

/-! ## Words of predicates -/

/-- The parentheses of an operand come in pairs. -/
theorem balanced_operand (o : OperandForm) : Balanced o.tokens := by
  have hString : ∀ l : StringToken, Balanced [l.token] := by
    intro l
    cases l <;> exact .plain (by simp [StringToken.token]) (by simp [StringToken.token]) .nil
  -- the only parentheses are those around a layer
  have hCall : ∀ name (l : StringToken), Balanced (OperandForm.call name l) := fun name l =>
    .plain (by simp) (by simp) (.nest (hString l) .nil)
  have hDotted : ∀ name, Balanced (OperandForm.dotted name) := fun name =>
    .plain (by simp) (by simp) (.plain (by simp) (by simp) .nil)
  cases o with
  | my l part => exact (hCall _ l).append (hDotted _)
  | list l => exact (hCall _ l).append (hDotted _)
  | labels l length =>
    refine (hCall _ l).append ?_
    split
    · exact hDotted _
    · exact .nil
  | annotators l => exact hCall _ l
  | member object part => exact .plain (by simp) (by simp) (hDotted part)
  | bare name => exact .plain (by simp) (by simp) .nil
  | string l => exact hString l
  | number written => exact .plain (by simp) (by simp) .nil

/-- The parentheses of a right side come in pairs. -/
theorem balanced_right (r : Right) : Balanced r.tokens := by
  cases r with
  | one o => exact balanced_operand o
  | list first more =>
    have hMore : Balanced (itemTokens more) := by
      induction more with
      | nil => exact .nil
      | cons o more ih =>
        exact .plain (by simp) (by simp) ((balanced_operand o).append ih)
    exact .nest ((balanced_operand first).append hMore) .nil

/-- The parentheses of a comparison and its right side come in pairs. -/
theorem balanced_tail (tail : Option (Comparison × Right)) : Balanced (tailTokens tail) := by
  cases tail with
  | none => exact .nil
  | some t =>
    refine Balanced.append ?_ (balanced_right t.2)
    obtain ⟨c, r⟩ := t
    cases c with
    | notMatching | notIn => exact .plain (by simp) (by simp) (.plain (by simp) (by simp) .nil)
    | _ => exact .plain (by simp) (by simp) .nil

/-- A predicate is read from a balanced word. -/
theorem predicate_balanced : predicate.Takes fun _ w => Balanced w := by
  refine predicate_takes.mono fun g w h => ?_
  obtain ⟨lhs, tail, rfl, -⟩ := h
  exact (balanced_operand lhs).append (balanced_tail tail)

end AnnotationQuery.Parse
