import AnnotationQuery.Proofs.Compile.Pointing

/-!
# Order lists are read as far as they go

The grammar of order lists:

```
order := empty | key (',' key)*
key   := operand [ASC | DESC]
```

An order list that goes wrong is not lost: its longest front part that has a derivation is read, and
one complaint is made about the rest. What is read has a derivation, as always. That nothing longer
has one is about the parser stopping too early, and there are three places where it could. An
operand may be read as a shorter one, a separator may be taken without a key behind it, and a
list may end before its last key. The first does not happen because the longer forms are tried
first; the others because a key in front of a comma is read up to that comma.

Main results:

* `operand_reaches`, `orderTerm_reaches` — no stop before the end of a derivable front part.
* `orderTokens_injective` — one derivation at most.
* `order_reads_longest` — order lists.
-/

namespace AnnotationQuery

namespace Grammar

/-! ## The grammar -/

/-- `ASC | DESC`. -/
inductive Direction where
  | ascending
  | descending
deriving DecidableEq, Repr

namespace Direction

/-- The direction as a token. -/
def token : Direction → Token
  | ascending => .keyword .asc
  | descending => .keyword .desc

/-- Whether the direction is downwards. -/
def isDescending : Direction → Bool
  | ascending => false
  | descending => true

theorem token_inj {d d' : Direction} : d.token = d'.token ↔ d = d' := by
  cases d <;> cases d' <;> simp [token]

end Direction

/-- `key`. -/
structure SortKey where
  operand : OperandForm
  direction : Option Direction
deriving DecidableEq, Repr

namespace SortKey

/-- The word of a sort key. -/
def tokens (k : SortKey) : List Token :=
  k.operand.tokens ++ k.direction.toList.map Direction.token

/-- What a sort key means. Without a direction it is ascending. -/
def tree (k : SortKey) : OrderTerm :=
  ⟨⟨k.operand.tree, Span.nowhere⟩, k.direction.any Direction.isDescending⟩

end SortKey

/-- `(',' key)*`. -/
def keyTokens (keys : List SortKey) : List Token :=
  keys.flatMap fun k => .symbol .comma :: k.tokens

/-- The word of an order list. -/
def orderTokens : List SortKey → List Token
  | [] => []
  | k :: keys => k.tokens ++ keyTokens keys

/-! ## One derivation at most -/

/-- What follows a key in an order list: the end, or the comma of the next key. -/
theorem follows_keyTokens (keys : List SortKey) :
    Follows (· == .symbol .comma) (keyTokens keys) := by
  cases keys with
  | nil => exact follows_nil _
  | cons k keys => exact follows_cons.mpr rfl

/-- No direction and no comma is part of an operand. -/
theorem follows_direction (d : Option Direction) {r : List Token}
    (hr : Follows (· == .symbol .comma) r) :
    Follows afterOperand (d.toList.map Direction.token ++ r) := by
  cases d with
  | none => exact hr.mono fun t ht => by rw [beq_iff_eq.mp ht]; rfl
  | some d => cases d <;> exact follows_cons.mpr rfl

/-- Whether there is a direction, and which one, can be read off the word. -/
theorem direction_unambiguous {d d' : Option Direction} {r r' : List Token}
    (h : d.toList.map Direction.token ++ r = d'.toList.map Direction.token ++ r')
    (hr : Follows (· == .symbol .comma) r) (hr' : Follows (· == .symbol .comma) r') :
    d = d' ∧ r = r' := by
  -- where only one of them is there, the other word has to go on with a comma
  have hComma : ∀ (d : Direction) (w : List Token),
      ¬ Follows (· == .symbol .comma) (d.token :: w) := by
    intro d w hw
    cases d <;> cases follows_cons.mp hw
  rcases d with _ | d <;> rcases d' with _ | d'
  · exact ⟨rfl, h⟩
  · have hWord : r = d'.token :: r' := h
    exact absurd (hWord ▸ hr) (hComma d' r')
  · have hWord : d.token :: r = r' := h
    exact absurd (hWord ▸ hr') (hComma d r)
  · have hWord : d.token :: r = d'.token :: r' := h
    rw [List.cons.injEq] at hWord
    exact ⟨congrArg some (Direction.token_inj.mp hWord.1), hWord.2⟩

/-- Of two sort keys at the front of one word, both are the same. -/
theorem SortKey.unambiguous {k k' : SortKey} {r r' : List Token}
    (h : k.tokens ++ r = k'.tokens ++ r') (hr : Follows (· == .symbol .comma) r)
    (hr' : Follows (· == .symbol .comma) r') : k = k' ∧ r = r' := by
  obtain ⟨o, d⟩ := k
  obtain ⟨o', d'⟩ := k'
  simp only [tokens, List.append_assoc] at h
  -- the operand ends before a direction or a comma, and the direction before a comma
  obtain ⟨rfl, hRest⟩ := OperandForm.unambiguous h (follows_direction d hr)
    (follows_direction d' hr')
  obtain ⟨rfl, rfl⟩ := direction_unambiguous hRest hr hr'
  exact ⟨rfl, rfl⟩

/-- The keys behind the commas can be told from the word. -/
theorem keyTokens_injective {keys keys' : List SortKey} (h : keyTokens keys = keyTokens keys') :
    keys = keys' := by
  induction keys generalizing keys' with
  | nil =>
    cases keys' with
    | nil => rfl
    | cons k' keys' => cases h
  | cons k keys ih =>
    cases keys' with
    | nil => cases h
    | cons k' keys' =>
      -- a key ends where the next comma or the end is, so the keys agree one by one
      simp only [keyTokens, List.flatMap_cons, List.cons_append, List.cons.injEq, true_and] at h
      obtain ⟨rfl, hRest⟩ := SortKey.unambiguous h (follows_keyTokens keys)
        (follows_keyTokens keys')
      rw [ih hRest]

theorem SortKey.tokens_ne_nil (k : SortKey) : k.tokens ≠ [] := by
  obtain ⟨t, w, hTokens, -⟩ := k.operand.exists_tokens_eq_cons
  rw [tokens, hTokens]
  exact List.cons_ne_nil _ _

/-- An order list can be told from its word. -/
theorem orderTokens_injective {keys keys' : List SortKey}
    (h : orderTokens keys = orderTokens keys') : keys = keys' := by
  rcases keys with _ | ⟨k, keys⟩ <;> rcases keys' with _ | ⟨k', keys'⟩
  · rfl
  · exact absurd (List.append_eq_nil_iff.mp h.symm).1 k'.tokens_ne_nil
  · exact absurd (List.append_eq_nil_iff.mp h).1 k.tokens_ne_nil
  · obtain ⟨rfl, hMore⟩ := SortKey.unambiguous h (follows_keyTokens keys) (follows_keyTokens keys')
    rw [keyTokens_injective hMore]

end Grammar

/-- The sort key, at no place in particular. -/
def OrderTerm.unplaced (t : OrderTerm) : OrderTerm :=
  ⟨movedOperand (fun _ => Span.nowhere) t.operand, t.descending⟩

namespace Parse

open AnnotationQuery.Parse.Parser
open AnnotationQuery.Grammar

variable {source : String} {ts : Tokens}

/-! ## What is read has a derivation -/

theorem direction_takes :
    direction.Takes fun b w => ∃ d : Direction, w = [d.token] ∧ b = d.isDescending :=
  (takes_exactly.bind fun _ _ h => takes_pure ⟨.ascending, by rw [h]; rfl, rfl⟩).orElse
    (takes_exactly.bind fun _ _ h => takes_pure ⟨.descending, by rw [h]; rfl, rfl⟩)

/-- A sort key that is read is derived. -/
theorem orderTerm_takes :
    orderTerm.Takes fun t w => ∃ k : SortKey, k.tokens = w ∧ k.tree = t.unplaced := by
  refine operand_takes.bind fun o _ hOperand => ?_
  -- no direction is the same as an ascending one
  have hDirection : (Parser.optional direction).Takes fun b w => ∃ d : Option Direction,
      w = d.toList.map Direction.token ∧ b.getD false = d.any Direction.isDescending := by
    refine Takes.optional (direction_takes.mono fun b w hb => ?_) ⟨none, rfl, rfl⟩
    obtain ⟨d, rfl, rfl⟩ := hb
    exact ⟨some d, rfl, rfl⟩
  refine hDirection.bind fun b _ hb => takes_pure ?_
  obtain ⟨form, rfl, hTree⟩ := hOperand
  obtain ⟨d, rfl, hd⟩ := hb
  refine ⟨⟨form, d⟩, by rw [List.append_nil]; rfl, ?_⟩
  rw [SortKey.tree, OrderTerm.unplaced, movedOperand, hTree, hd]

/-- The sort keys behind the commas are derived, one by one. -/
theorem moreTerms_takes :
    (many (do symbol .comma; orderTerm)).Takes fun terms w => ∃ keys : List SortKey,
      keyTokens keys = w ∧ keys.map SortKey.tree = terms.map OrderTerm.unplaced := by
  have hItem : (do symbol .comma; orderTerm : Parser OrderTerm).Takes fun t w =>
      ∃ k : SortKey, .symbol .comma :: k.tokens = w ∧ k.tree = t.unplaced := by
    refine takes_exactly.bind fun _ _ hComma => orderTerm_takes.mono fun t w hKey => ?_
    obtain ⟨k, rfl, hTree⟩ := hKey
    exact ⟨k, by rw [hComma]; rfl, hTree⟩
  refine hItem.many ⟨[], rfl, rfl⟩ fun t w terms ws hKey hKeys => ?_
  obtain ⟨k, rfl, hTree⟩ := hKey
  obtain ⟨keys, rfl, hTrees⟩ := hKeys
  exact ⟨k :: keys, rfl, by rw [List.map_cons, List.map_cons, hTree, hTrees]⟩

/-- An order list that is read is derived. -/
theorem orderTerms_takes :
    orderTerms.Takes fun terms w => ∃ keys : List SortKey, orderTokens keys = w ∧
      keys.map SortKey.tree = terms.map OrderTerm.unplaced := by
  have hSome : (separatedBy orderTerm (symbol .comma)).Takes fun terms w =>
      ∃ keys : List SortKey, orderTokens keys = w ∧
        keys.map SortKey.tree = terms.map OrderTerm.unplaced := by
    refine orderTerm_takes.bind fun t _ hKey => moreTerms_takes.bind fun terms _ hKeys => ?_
    obtain ⟨k, rfl, hTree⟩ := hKey
    obtain ⟨keys, rfl, hTrees⟩ := hKeys
    refine takes_pure ⟨k :: keys, by rw [List.append_nil]; rfl, ?_⟩
    rw [List.map_cons, List.map_cons, hTree, hTrees]
  -- no keys at all are an order list as well
  have hAny : (Parser.optional (separatedBy orderTerm (symbol .comma))).Takes fun terms w =>
      ∃ keys : List SortKey, orderTokens keys = w ∧
        keys.map SortKey.tree = (terms.getD []).map OrderTerm.unplaced :=
    Takes.optional hSome ⟨[], rfl, rfl⟩
  refine hAny.bind fun terms _ hKeys => takes_pure ?_
  rw [List.append_nil]
  exact hKeys

/-! ## Nothing longer has one -/

theorem length_values (ts : Tokens) : (values ts).length = ts.length :=
  List.length_map _

/-- A parser that takes tokens off the front only leaves no more than there were. -/
theorem length_le_of_takes {α : Type} {p : Parser α} {R : α → List Token → Prop} (h : p.Takes R)
    {a : α} {rest : Tokens} (hRead : p.outcome ts = some (a, rest)) : rest.length ≤ ts.length := by
  obtain ⟨run, rfl, -⟩ := h hRead
  rw [List.length_append]
  omega

/-- An operand is read up to its end where no token behind it could belong to it. -/
theorem operand_exact (o : OperandForm) {w : List Token} (h : values ts = o.tokens ++ w)
    (hw : Follows o.after w) :
    ∃ x rest, operand.outcome ts = some (x, rest) ∧ values rest = w := by
  obtain ⟨run, rest, rfl, hRun, hRest⟩ := exists_of_values_eq_append h
  obtain ⟨x, hYields, -⟩ := operand_yields_form o hRun
  refine ⟨x, rest, ?_, hRest⟩
  have hRead := hYields Span.rigid_self (hRest ▸ hw)
  rwa [movedTokens_self, movedOperand_self] at hRead

/-- Wherever an operand stands, at least that much is read. -/
theorem operand_reaches (o : OperandForm) {w : List Token} (h : values ts = o.tokens ++ w) :
    ∃ x rest, operand.outcome ts = some (x, rest) ∧ rest.length ≤ w.length := by
  by_cases hw : Follows o.after w
  · obtain ⟨x, rest, hRead, hRest⟩ := operand_exact o h hw
    exact ⟨x, rest, hRead, by rw [← hRest, length_values]⟩
  · -- only a bare name and `labels('L')` can be the start of something longer
    cases o with
    | bare name =>
      obtain ⟨s, after, rfl, rfl⟩ := exists_of_values_eq_cons h
      obtain ⟨x, rest, hRead⟩ := exists_outcome_operand (rfl : startsOperand (.ident name) = true)
        s after
      have hLess := operand_shrinks hRead
      rw [List.length_cons] at hLess
      refine ⟨x, rest, hRead, ?_⟩
      rw [length_values]
      omega
    | labels l length =>
      cases length with
      | true => exact absurd (fun _ _ => rfl) hw
      | false =>
        simp only [OperandForm.tokens, Bool.false_eq_true, if_false, List.append_nil] at h
        obtain ⟨s, s₁, s₂, s₃, after, rfl, rfl⟩ := exists_of_values_eq_call h
        have hLength : (Parser.optional (do symbol .dot; word "length")).Takes fun _ _ => True :=
          Takes.optional (takes_exactly.bind fun _ _ _ => takes_exactly.mono fun _ _ _ => trivial)
            trivial
        obtain ⟨n, rest, hRead⟩ := exists_outcome_optional (do symbol .dot; word "length") after
        have hLess := length_le_of_takes hLength hRead
        have hOperand : ∃ x, operand.outcome (⟨.ident "labels", s⟩ :: ⟨.symbol .lparen, s₁⟩ ::
            ⟨l.token, s₂⟩ :: ⟨.symbol .rparen, s₃⟩ :: after) = some (x, rest) := by
          show ∃ x, (located operandForm).outcome _ = _
          rw [outcome_located, operandForm, outcome_orElse, outcome_orElse, outcome_orElse,
            myFunction_eq, listFunction_eq, labelsFunction_eq, outcome_layerCall_of_ne (by simp),
            outcome_layerCall_of_ne (by simp), outcome_layerCall, outcome_bind, hRead]
          exact ⟨_, rfl⟩
        obtain ⟨x, hx⟩ := hOperand
        exact ⟨x, rest, hx, by rwa [length_values]⟩
    | _ => exact absurd (fun _ _ => rfl) hw

theorem outcome_direction (d : Direction) (s : Span) (rest : Tokens) :
    direction.outcome (⟨d.token, s⟩ :: rest) = some (d.isDescending, rest) := by
  cases d <;> simp [direction, keyword, Direction.token, Direction.isDescending]

theorem outcome_direction_of_comma {s : Span} {rest : Tokens} :
    direction.outcome (⟨.symbol .comma, s⟩ :: rest) = none := by
  simp [direction, keyword]

/-- Wherever a sort key stands, at least that much is read, and no more if a comma comes next. -/
theorem orderTerm_reaches (k : SortKey) {w : List Token} (h : values ts = k.tokens ++ w) :
    ∃ t rest, orderTerm.outcome ts = some (t, rest) ∧ rest.length ≤ w.length ∧
      (w.head? = some (.symbol .comma) → values rest = w) := by
  obtain ⟨o, d⟩ := k
  rw [SortKey.tokens, List.append_assoc] at h
  cases d with
  | some d =>
    -- the direction ends the operand and the key
    have hAfter : Follows o.after (d.token :: w) :=
      follows_cons.mpr (o.after_of_afterOperand (by cases d <;> rfl))
    obtain ⟨x, mid, hRead, hMid⟩ := operand_exact o h hAfter
    obtain ⟨s, rest, rfl, rfl⟩ := exists_of_values_eq_cons hMid
    refine ⟨⟨x, d.isDescending⟩, rest, ?_, ?_, fun _ => rfl⟩
    · rw [orderTerm, outcome_bind, hRead, Option.bind_some, outcome_bind, outcome_optional,
        outcome_direction]
      rfl
    · rw [length_values]
  | none =>
    replace h : values ts = o.tokens ++ w := h
    by_cases hComma : w.head? = some (.symbol .comma)
    · -- the comma ends the operand, and it is no direction
      obtain ⟨w, rfl⟩ := List.head?_eq_some_iff.mp hComma
      have hAfter : Follows o.after (.symbol .comma :: w) :=
        follows_cons.mpr (o.after_of_afterOperand rfl)
      obtain ⟨x, rest, hRead, hRest⟩ := operand_exact o h hAfter
      obtain ⟨s, rest, rfl, rfl⟩ := exists_of_values_eq_cons hRest
      refine ⟨⟨x, false⟩, ⟨.symbol .comma, s⟩ :: rest, ?_, ?_, fun _ => rfl⟩
      · rw [orderTerm, outcome_bind, hRead, Option.bind_some, outcome_bind, outcome_optional,
          outcome_direction_of_comma]
        rfl
      · rw [List.length_cons, List.length_cons, length_values]
    · obtain ⟨x, mid, hRead, hMid⟩ := operand_reaches o h
      obtain ⟨d, rest, hDirection⟩ := exists_outcome_optional direction mid
      have hAny : (Parser.optional direction).Takes fun _ _ => True :=
        Takes.optional (direction_takes.mono fun _ _ _ => trivial) trivial
      have hLess := length_le_of_takes hAny hDirection
      refine ⟨⟨x, d.getD false⟩, rest, ?_, by omega, fun hHead => absurd hHead hComma⟩
      rw [orderTerm, outcome_bind, hRead, Option.bind_some, outcome_bind, hDirection]
      rfl

theorem orderTerm_shrinks : orderTerm.Shrinks := by
  refine orderTerm_takes.shrinks ?_
  rintro _ _ ⟨k, rfl, -⟩
  exact k.tokens_ne_nil

theorem shrinks_key : (do symbol .comma; orderTerm : Parser OrderTerm).Shrinks :=
  Shrinks.after_exactly orderTerm_shrinks _

/-- In front of any tokens, at least the keys that stand there are read: each key that another one
follows up to its comma, and the last one as far as it goes. -/
theorem keys_reached (k : SortKey) (keys : List SortKey) {w : List Token}
    (h : values ts = k.tokens ++ (keyTokens keys ++ w)) :
    ∃ t mid terms rest, orderTerm.outcome ts = some (t, mid) ∧
      (many (do symbol .comma; orderTerm)).outcome mid = some (terms, rest) ∧
      rest.length ≤ w.length := by
  -- on the keys behind the first: a comma ends the key before it, so each is read to its end
  induction keys generalizing k ts with
  | nil =>
    obtain ⟨t, mid, hTerm, hMid, -⟩ := orderTerm_reaches k h
    obtain ⟨terms, rest, hRead⟩ := exists_outcome_many (do symbol .comma; orderTerm) mid
    have hLess := length_le_of_takes moreTerms_takes hRead
    exact ⟨t, mid, terms, rest, hTerm, hRead, hLess.trans hMid⟩
  | cons k' keys ih =>
    obtain ⟨t, mid, hTerm, -, hExact⟩ := orderTerm_reaches k h
    obtain ⟨s, after, rfl, hAfter⟩ := exists_of_values_eq_cons (hExact rfl)
    obtain ⟨t', mid', terms, rest, hTerm', hRead, hLess⟩ := ih k'
      (by rw [hAfter, ← List.append_assoc]; rfl)
    have hItem : (do symbol .comma; orderTerm : Parser OrderTerm).outcome
        (⟨.symbol .comma, s⟩ :: after) = some (t', mid') := by
      rw [outcome_bind, symbol, outcome_exactly_cons, if_pos rfl, Option.bind_some, hTerm']
    refine ⟨t, _, t' :: terms, rest, hTerm, ?_, hLess⟩
    rw [outcome_many_of_some shrinks_key hItem, hRead]
    rfl

/-- No front part with a derivation goes further than what is read. -/
theorem orderTerms_reach {keys : List SortKey} {w : List Token}
    (h : values ts = orderTokens keys ++ w) {terms : List OrderTerm} {rest : Tokens}
    (hRead : orderTerms.outcome ts = some (terms, rest)) : rest.length ≤ w.length := by
  cases keys with
  | nil =>
    -- with no keys there is nothing to reach
    have hAll : values ts = w := h
    rw [← hAll, length_values]
    exact length_le_of_takes orderTerms_takes hRead
  | cons k keys =>
    rw [orderTokens, List.append_assoc] at h
    obtain ⟨t, mid, more, rest', hTerm, hMore, hLess⟩ := keys_reached k keys h
    rw [orderTerms, outcome_bind, outcome_optional, separatedBy, outcome_bind, hTerm,
      Option.bind_some, outcome_bind, hMore] at hRead
    cases hRead
    exact hLess

/-! ## Order lists -/

/-- **An order list is read as far as it goes.** For every text that falls into tokens there are
sort keys, and they are those of the longest front part of the tokens that has a derivation. There
is no complaint exactly if that is all of them. Otherwise there is one, and it points at everything
behind: from the start of the first token that is left to the end of the last. -/
theorem order_reads_longest (hLex : Token.lex source = .ok ts) :
    ∃ keys run rest terms,
      ts = run ++ rest ∧ orderTokens keys = values run ∧
      (∀ keys' run', run' <+: ts → orderTokens keys' = values run' →
        run' <+: run ∧ (run' = run → keys' = keys)) ∧
      (order source).output = some terms ∧
      terms.map OrderTerm.unplaced = keys.map SortKey.tree ∧ TermsOver terms run ∧
      ((order source).diagnostics = [] ↔ run = ts) ∧
      (∀ first last, rest.head? = some first → ts.getLast? = some last →
        ∃ d, (order source).diagnostics = [d] ∧
          d.message = "unexpected input after expression" ∧
          d.span = ⟨first.span.start, last.span.stop⟩) := by
  obtain ⟨terms, rest, hRead⟩ := exists_outcome_orderTerms ts
  have hOrder := order_of_outcome hLex hRead
  obtain ⟨run, hSplit, keys, hKeys, hTrees⟩ := orderTerms_takes hRead
  obtain ⟨run', hSplit', hOver⟩ := orderTerms_over hRead
  obtain rfl : run = run' := List.append_cancel_right (hSplit.symm.trans hSplit')
  refine ⟨keys, run, rest, terms, hSplit, hKeys, ?_, by rw [hOrder], hTrees.symm, hOver, ?_, ?_⟩
  · intro keys' run' hFront hWord
    refine ⟨?_, fun hRun => orderTokens_injective (by rw [hWord, hRun, hKeys])⟩
    -- both are front parts of the tokens, and what is left behind the other one is not less
    obtain ⟨rest', rfl⟩ := hFront
    have hLeft : rest.length ≤ (values rest').length :=
      orderTerms_reach (by rw [values_append, hWord]) hRead
    have hLength := congrArg List.length hSplit
    rw [List.length_append, List.length_append] at hLength
    rw [length_values] at hLeft
    exact List.prefix_of_prefix_length_le (List.prefix_append run' rest')
      (hSplit ▸ List.prefix_append run rest) (by omega)
  · rw [hOrder, hSplit]
    constructor
    · intro hNone
      rw [leftover_eq_nil hNone, List.append_nil]
    · intro hAll
      rw [List.self_eq_append_right.mp hAll]
      rfl
  · intro first last hFirst hLast
    obtain ⟨more, rfl⟩ := List.head?_eq_some_iff.mp hFirst
    rw [hSplit, List.getLast?_append_of_ne_nil _ (List.cons_ne_nil _ _)] at hLast
    refine ⟨⟨.leftover, hull (first :: more)⟩, by rw [hOrder]; rfl, rfl, ?_⟩
    show hull (first :: more) = _
    rw [hull, hLast]
    rfl

/-- A list that ends in a comma: some tokens are left, and there is one complaint. -/
theorem trailing_comma_left :
    ∃ ts run rest d, Token.lex "labels('x').length DESC, id," = .ok ts ∧ ts = run ++ rest ∧
      rest ≠ [] ∧ (∀ keys run', run' <+: ts → orderTokens keys = values run' → run' <+: run) ∧
      (order "labels('x').length DESC, id,").diagnostics = [d] ∧
      d.message = "unexpected input after expression" := by
  obtain ⟨hSome, hOk⟩ : (order "labels('x').length DESC, id,").diagnostics ≠ [] ∧
      (Token.lex "labels('x').length DESC, id,").isOk = true := by
    decide +kernel
  cases hLex : Token.lex "labels('x').length DESC, id," with
  | error d =>
    rw [hLex] at hOk
    cases hOk
  | ok ts =>
    obtain ⟨keys, run, rest, terms, hSplit, -, hLongest, -, -, -, hClean, hOne⟩ :=
      order_reads_longest hLex
    -- were nothing left over, there would be no complaint
    have hRest : rest ≠ [] := by
      rintro rfl
      exact hSome (hClean.mpr (by rw [hSplit, List.append_nil]))
    obtain ⟨first, more, rfl⟩ := List.exists_cons_of_ne_nil hRest
    obtain ⟨last, hLast⟩ : ∃ last, ts.getLast? = some last := by
      rw [hSplit, List.getLast?_append_of_ne_nil _ (List.cons_ne_nil _ _)]
      exact ⟨_, List.getLast?_cons⟩
    obtain ⟨d, hd, hMessage, -⟩ := hOne first last rfl hLast
    exact ⟨ts, run, first :: more, d, rfl, hSplit, hRest,
      fun keys' run' hFront hWord => (hLongest keys' run' hFront hWord).1, hd, hMessage⟩

end Parse

end AnnotationQuery
