import AnnotationQuery.Proofs.Parse.Parentheses
import AnnotationQuery.Proofs.Parse.Watch
import AnnotationQuery.Proofs.Token.Laid

/-!
# How far failures can lie

Tokens stand in a text one after the other, so a failure further on in the tokens lies
further on in the text. This makes it possible to say how far the failures of a parser
can lie. A parser that stops at certain tokens, read from a balanced word with such a
token behind it, has no failure behind that token: to get there it would have to close a
parenthesis that it did not open. And a parser that fails at its first token has no
failure but that one.

Main results:

* `Parser.Watched.inside` — failures in front of a token that stops.
* `predicate_rejects`, `group_rejects` — failures at the first token.
* `atLeastOne_skippedToken_skips` — the failure at the end of a term that is skipped.
-/

namespace AnnotationQuery.Parse

open AnnotationQuery.Parse.Parser
open AnnotationQuery.Grammar

/-! ## Offsets -/

/-- Where a place starts in a text of `size` bytes. No place is the end of the text. -/
def offsetOf (size : Nat) (place : Option Span) : Nat :=
  (place.map Span.start).getD size

/-- Where the tokens start. -/
def front (size : Nat) (ts : Tokens) : Nat :=
  offsetOf size (ts.head?.map Spanned.span)

/-- The tokens stand in a text of `size` bytes one after the other. -/
structure InOrder (size : Nat) (ts : Tokens) : Prop where
  sorted : ts.Pairwise fun t u => t.span.start ≤ u.span.start
  start_le : ∀ t ∈ ts, t.span.start ≤ size

section
variable {size : Nat} {ts us : Tokens}

theorem InOrder.suffix (h : InOrder size ts) (hSuffix : us <:+ ts) : InOrder size us :=
  ⟨h.sorted.sublist hSuffix.sublist, fun t ht => h.start_le t (hSuffix.subset ht)⟩

/-- The tokens of a text stand in it one after the other. -/
theorem inOrder_of_lex {source : String} (h : Token.lex source = .ok ts) :
    InOrder (Text.byteLength source.toList) ts := by
  have hLaid : Token.Laid 0 source.toList ts := Token.laid_iff.mpr h
  -- a token ends behind its start, and the next one starts behind that
  have hWithin : ∀ t ∈ ts, t.span.start ≤ t.span.stop ∧
      t.span.start ≤ Text.byteLength source.toList := by
    intro t ht
    obtain ⟨as, bs, rest, hText, -, hSpan⟩ := hLaid.within ht
    rw [hSpan, hText, Text.byteLength_append]
    exact ⟨Nat.le_add_right _ _, by simp⟩
  refine ⟨hLaid.ordered.imp_of_mem fun ht hu hLe => ?_, fun t ht => (hWithin t ht).2⟩
  exact (hWithin _ ht).1.trans hLe

/-- Further on, the front is further on. -/
theorem front_le (h : InOrder size ts) (hSuffix : us <:+ ts) : front size ts ≤ front size us := by
  obtain ⟨before, rfl⟩ := hSuffix
  cases before with
  | nil => exact Nat.le_refl _
  | cons t before =>
    cases us with
    | nil => exact h.start_le t List.mem_cons_self
    | cons u us =>
      rw [List.cons_append] at h
      exact List.rel_of_pairwise_cons h.sorted (List.mem_append_right _ List.mem_cons_self)

end

/-! ## Watching a part of a text -/

/-- From the start up to here, every closing parenthesis has a partner, at least `d` others are
open, and no other token was read that stops. -/
def Inside (start : Tokens) (stops : Token → Bool) (d : Nat) (ts : Tokens) : Prop :=
  ∃ read k, start = read ++ ts ∧ depth? 0 (values read) = some k ∧ d ≤ k ∧
    ∀ t ∈ read, stops t.value = true → t.value = .symbol .rparen

section
variable {start ts : Tokens} {stops : Token → Bool} {d : Nat}

theorem inside_start (ts : Tokens) (stops : Token → Bool) : Inside ts stops 0 ts :=
  ⟨[], 0, rfl, rfl, Nat.le_refl 0, nofun⟩

/-- One more token was read. -/
theorem Inside.read {d' : Nat} {t : Spanned Token} (h : Inside start stops d (t :: ts))
    (hStep : ∀ k, d ≤ k → ∃ k', depthStep? k t.value = some k' ∧ d' ≤ k')
    (hStop : stops t.value = true → t.value = .symbol .rparen) : Inside start stops d' ts := by
  obtain ⟨read, k, rfl, hDepth, hk, hRead⟩ := h
  obtain ⟨k', hk', hd'⟩ := hStep k hk
  refine ⟨read ++ [t], k', by simp, ?_, hd', fun u hu hStops => ?_⟩
  · -- one more token is read, at the depth after those before it
    rw [values_append, depth?_append, hDepth, Option.bind_some]
    show depth? k [t.value] = some k'
    rw [depth?_cons, hk']
    rfl
  · rcases List.mem_append.mp hu with hu | hu
    · exact hRead u hu hStops
    · rw [List.mem_singleton] at hu
      subst hu
      exact hStop hStops

/-- Behind a balanced word, at a token that stops, nothing more is read. -/
theorem Inside.suffix {body rest : Tokens} (h : Inside (body ++ rest) stops d ts)
    (hBody : Balanced (values body)) (hRest : Follows stops (values rest)) : rest <:+ ts := by
  obtain ⟨read, k, hSplit, hDepth, -, hRead⟩ := h
  rcases List.append_eq_append_iff.mp hSplit with ⟨more, rfl, rfl⟩ | ⟨left, rfl, rfl⟩
  · cases more with
    | nil => exact List.suffix_refl _
    | cons t more =>
      -- the token there would be a closing parenthesis without a partner
      have hStops : stops t.value = true := follows_cons.mp hRest
      have hClosing := hRead t (List.mem_append_right _ List.mem_cons_self) hStops
      rw [values_append, depth?_append, hBody.depth?, Option.bind_some] at hDepth
      have hNone : depth? 0 (values (t :: more)) = none := by
        show depth? 0 (t.value :: values more) = none
        rw [depth?_cons, hClosing]
        rfl
      rw [hNone] at hDepth
      cases hDepth
  · exact List.suffix_append left rest

/-- Every place up to there lies in front of what is not read. -/
theorem Inside.front_le {size : Nat} {body rest : Tokens} (h : Inside (body ++ rest) stops d ts)
    (hOrder : InOrder size (body ++ rest)) (hBody : Balanced (values body))
    (hRest : Follows stops (values rest)) : front size ts ≤ front size rest := by
  have hSuffix : rest <:+ ts := h.suffix hBody hRest
  obtain ⟨read, k, hSplit, -⟩ := h
  exact Parse.front_le (hOrder.suffix ⟨read, hSplit.symm⟩) hSuffix

/-- A token that does not stop leaves at least as many open. -/
theorem Inside.pass {t : Spanned Token} (h : Inside start stops d (t :: ts))
    (hClosing : stops (.symbol .rparen) = true) (hPass : stops t.value = false) :
    Inside start stops d ts := by
  refine h.read (fun k hk => ?_) fun hStop => ?_
  · -- closing would stop it, so the depth does not fall
    have hNot : t.value ≠ .symbol .rparen := by
      intro hValue
      rw [hValue, hClosing] at hPass
      cases hPass
    unfold depthStep?
    split
    · exact ⟨k + 1, rfl, Nat.le_succ_of_le hk⟩
    · exact ⟨k, rfl, hk⟩
  · rw [hPass] at hStop
    cases hStop

/-- An opening parenthesis makes one more open. -/
theorem Inside.opens {s : Span} (h : Inside start stops d (⟨.symbol .lparen, s⟩ :: ts))
    (hOpening : stops (.symbol .lparen) = false) : Inside start stops (d + 1) ts := by
  refine h.read (fun k hk => ⟨k + 1, rfl, Nat.succ_le_succ hk⟩) fun hStop => ?_
  rw [hOpening] at hStop
  cases hStop

/-- A closing parenthesis has a partner, as one is open. -/
theorem Inside.closes {s : Span} (h : Inside start stops (d + 1) (⟨.symbol .rparen, s⟩ :: ts)) :
    Inside start stops d ts := by
  -- at least one is open besides those that count, so there is a partner
  refine h.read (fun k hk => ⟨k - 1, ?_, by omega⟩) fun _ => rfl
  rw [depthStep?, if_neg (by simp), if_pos rfl, if_neg (by omega)]

end

/-- Watches the tokens `body ++ rest`, and is stopped at the front of `rest`. -/
def Watch.inside {size : Nat} {body rest : Tokens} {stops : Token → Bool}
    (hOrder : InOrder size (body ++ rest)) (hBody : Balanced (values body))
    (hRest : Follows stops (values rest)) (hClosing : stops (.symbol .rparen) = true)
    (hOpening : stops (.symbol .lparen) = false) : Watch where
  here := Inside (body ++ rest) stops
  fine _ place := offsetOf size place ≤ front size rest
  stops := stops
  fine_here h := h.front_le hOrder hBody hRest
  fine_seen h := h.front_le hOrder hBody hRest
  pass hPass h := h.pass hClosing hPass
  opens h := h.opens hOpening
  closes h := h.closes

/-- What is stopped at the front of `rest` has no failure behind that. -/
theorem Parser.Watched.inside {α : Type} {p : Parser α} {test : Token → Bool} (hp : p.Watched test)
    {size : Nat} {body rest : Tokens} (hOrder : InOrder size (body ++ rest))
    (hBody : Balanced (values body)) (hRest : Follows test (values rest))
    (hClosing : test (.symbol .rparen) = true) (hOpening : test (.symbol .lparen) = false) :
    p.Keeps (fun _ place => offsetOf size place ≤ front size rest)
      (Inside (body ++ rest) test 0) (Inside (body ++ rest) test 0) :=
  hp.keeps (Watch.inside hOrder hBody hRest hClosing hOpening) (fun _ h => h) 0

/-! ## Failing at the first token -/

/-- Offering a failure twice is offering it once. -/
theorem Notes.offer_offer (n : Notes) (f : Failure) : (n.offer f).offer f = n.offer f := by
  obtain ⟨_ | g, errors⟩ := n
  · simp [offer]
  · by_cases hLess : f.left < g.left
    · simp [offer, hLess]
    · by_cases hEq : f.left = g.left
      · simp [offer, hEq, Option.or_assoc]
      · simp [offer, hLess, hEq]

theorem Notes.rewind_offer (n : Notes) (f : Failure) : (n.offer f).rewind n = n.offer f := by
  rw [rewind, ← n.errors_offer f]

namespace Parser

variable {α β : Type} {ts : Tokens} {n : Notes}

/-- Two facts about one run hold together. -/
theorem wp_and {p : Parser α} {Q Q' : α → Tokens → Notes → Prop} {F F' : Notes → Prop}
    (h : p.wp Q F ts n) (h' : p.wp Q' F' ts n) :
    p.wp (fun a rest n' => Q a rest n' ∧ Q' a rest n') (fun n' => F n' ∧ F' n') ts n := by
  revert h h'
  unfold wp
  rcases p ts n with ⟨_ | ⟨a, rest⟩, n'⟩ <;> exact fun h h' => ⟨h, h'⟩

/-- A run of a steady parser gives its outcome. -/
theorem wp_of_outcome {p : Parser α} [p.Steady] {a : α} {rest : Tokens}
    (h : p.outcome ts = some (a, rest)) (n : Notes) :
    p.wp (fun a' rest' _ => a' = a ∧ rest' = rest) (fun _ => False) ts n := by
  -- what a steady parser reads does not depend on the notes it starts with
  have hResult := p.result_eq_outcome ts n
  rw [h] at hResult
  unfold wp
  rcases hRun : p ts n with ⟨result, n'⟩
  rw [hRun] at hResult
  cases hResult
  exact ⟨rfl, rfl⟩

/-- The parser fails at the front of the tokens, and looks no further. -/
def Rejects (p : Parser α) (ts : Tokens) : Prop :=
  ∀ n, p ts n = ⟨none, n.offer (.at ts)⟩

theorem Rejects.wp {p : Parser α} (h : p.Rejects ts) {Q : α → Tokens → Notes → Prop}
    {F : Notes → Prop} : p.wp Q F ts n ↔ F (n.offer (.at ts)) := by
  unfold Parser.wp
  rw [h n]

/-- A test that the first token does not pass fails there. -/
theorem rejects_accept {read : Token → Option β}
    (h : Follows (fun t => (read t).isNone) (values ts)) : (accept read).Rejects ts := by
  intro n
  cases ts with
  | nil => rfl
  | cons t ts =>
    have hNone : read t.value = none := Option.isNone_iff_eq_none.mp (follows_cons.mp h)
    dsimp only [accept]
    rw [hNone]

/-- A sequence fails where its first part does. -/
theorem Rejects.bind {p : Parser β} {f : β → Parser α} (h : p.Rejects ts) :
    (p >>= f).Rejects ts := by
  intro n
  show Parser.bind p f ts n = _
  unfold Parser.bind
  rw [h n]

/-- A token that does not come first fails there. -/
theorem rejects_exactly {t : Token} (h : Follows (· != t) (values ts)) :
    (exactly t).Rejects ts := by
  refine Rejects.bind (rejects_accept (h.mono fun u hu => ?_))
  rw [if_neg (bne_iff_ne.mp hu)]
  rfl

/-- If both alternatives fail at the first token, so do they together. -/
theorem Rejects.orElse {p q : Parser α} (hp : p.Rejects ts) (hq : q.Rejects ts) :
    (p <|> q).Rejects ts := by
  intro n
  show p.orElse q ts n = _
  unfold Parser.orElse
  rw [hp n]
  dsimp only
  rw [n.rewind_offer, hq, n.offer_offer]

theorem Rejects.withSpan {p : Parser (Span → α)} (h : p.Rejects ts) : (withSpan p).Rejects ts := by
  intro n
  unfold Parser.withSpan
  rw [h n]

theorem Rejects.located {p : Parser α} (h : p.Rejects ts) : (located p).Rejects ts :=
  Rejects.withSpan h.bind

/-- If also the stand-in fails at the first token, that is the failure. -/
theorem Rejects.recover {p q : Parser α} (hp : p.Rejects ts) (hq : q.Rejects ts) :
    (recover p q).Rejects ts := by
  intro n
  unfold Parser.recover
  rw [hp n]
  dsimp only
  rw [hq]
  dsimp only
  rw [n.rewind_offer]

end Parser

/-- Where no operand starts, all forms of operands fail at the first token. -/
theorem operand_rejects {ts : Tokens} (h : Follows (fun t => !startsOperand t) (values ts)) :
    operand.Rejects ts := by
  -- every form of an operand starts with a name, a string or a number
  have hWord : ∀ name, (word name).Rejects ts := fun name =>
    rejects_exactly (h.mono fun t ht => bne_iff_ne.mpr (by rintro rfl; cases ht))
  have hName : name.Rejects ts :=
    rejects_accept (h.mono fun t ht => by cases t <;> first | rfl | cases ht)
  have hString : string.Rejects ts :=
    rejects_accept (h.mono fun t ht => by cases t <;> first | rfl | cases ht)
  have hNumber : number.Rejects ts :=
    rejects_accept (h.mono fun t ht => by cases t <;> first | rfl | cases ht)
  exact Rejects.located <| (hWord "my").bind.orElse <| (hWord "list").bind.orElse <|
    (hWord "labels").bind.orElse <| (hWord "annotators").bind.orElse <| hName.bind.orElse <|
    hName.bind.orElse <| hString.bind.orElse hNumber.bind

/-- Where no operand starts, a predicate fails at the first token. -/
theorem predicate_rejects {ts : Tokens} (h : Follows (fun t => !startsOperand t) (values ts)) :
    predicate.Rejects ts :=
  (operand_rejects h).bind

/-- Where no parenthesis opens, a group fails at the first token, also as a skipped one. -/
theorem group_rejects (c : Parser Expr) {ts : Tokens}
    (h : Follows (· != .symbol .lparen) (values ts)) : (group c).Rejects ts := by
  have hOpen : (symbol .lparen).Rejects ts := rejects_exactly h
  have hBalanced : balanced.Rejects ts := fun n => hOpen.bind n
  exact Rejects.recover hOpen.bind hBalanced.bind

/-! ## Skipping a term -/

/-- What is left when a term is skipped. -/
def skipped (ts : Tokens) : Tokens :=
  ts.dropWhile fun t => !endsTerm t.value

theorem skipped_suffix (ts : Tokens) : skipped ts <:+ ts :=
  List.dropWhile_suffix _

theorem skipped_cons_of_not {t : Spanned Token} (h : endsTerm t.value = false) (ts : Tokens) :
    skipped (t :: ts) = skipped ts :=
  List.dropWhile_cons_of_pos (by rw [h]; rfl)

/-- Where a term ends, nothing is skipped. -/
theorem skipped_of_follows {ts : Tokens} (h : Follows endsTerm (values ts)) : skipped ts = ts := by
  cases ts with
  | nil => rfl
  | cons t ts => exact List.dropWhile_cons_of_neg (by rw [follows_cons.mp h]; simp)

/-- Where a term ends nothing is skipped. -/
theorem skippedToken_stops {ts : Tokens} (h : Follows endsTerm (values ts)) (n : Notes) :
    ∃ n', skippedToken ts n = ⟨none, n'⟩ := by
  cases ts with
  | nil => exact ⟨_, rfl⟩
  | cons t ts =>
    refine ⟨n.offer ⟨ts.length, some t.value, some t.span⟩, ?_⟩
    rw [skippedToken, if_pos (follows_cons.mp h)]

/-- Tokens are skipped up to one that ends a term, and that one is all that fails. -/
theorem many_skippedToken_skips (size : Nat) (ts : Tokens) (n : Notes) :
    (many skippedToken).wp
      (fun _ rest n' => rest = skipped ts ∧
        ∃ f, n' = n.offer f ∧ offsetOf size f.place = front size rest)
      (fun _ => False) ts n := by
  have hBounded : ∀ k ts, ts.length < k → (manyUpTo skippedToken k).wp
      (fun _ rest n' => rest = skipped ts ∧
        ∃ f, n' = n.offer f ∧ offsetOf size f.place = front size rest)
      (fun _ => False) ts n := by
    -- the bound is more than the number of tokens, so it is not what ends the skipping
    intro k
    induction k with
    | zero => exact fun ts hk => absurd hk (Nat.not_lt_zero _)
    | succ k ih =>
      intro ts hk
      rw [wp_manyUpTo_succ]
      cases ts with
      | nil => exact ⟨rfl, .at [], n.rewind_offer _, rfl⟩
      | cons t ts =>
        dsimp only [Parser.wp, skippedToken]
        cases hEnds : endsTerm t.value with
        | true =>
          have hStay : skipped (t :: ts) = t :: ts := skipped_of_follows (follows_cons.mpr hEnds)
          exact ⟨hStay.symm, ⟨ts.length, some t.value, some t.span⟩, n.rewind_offer _, rfl⟩
        | false =>
          rw [skipped_cons_of_not hEnds]
          exact ih ts (Nat.lt_of_succ_lt_succ hk)
  exact hBounded (ts.length + 1) ts (Nat.lt_succ_self _)

/-- Where a term does not end, at least one token is skipped. -/
theorem atLeastOne_skippedToken_skips (size : Nat) {ts : Tokens}
    (h : ¬ Follows endsTerm (values ts)) (n : Notes) :
    (atLeastOne skippedToken).wp
      (fun _ rest n' => rest = skipped ts ∧
        ∃ f, n' = n.offer f ∧ offsetOf size f.place = front size rest)
      (fun _ => False) ts n := by
  cases ts with
  | nil => exact absurd (follows_nil _) h
  | cons t ts =>
    have hEnds : endsTerm t.value = false := by
      rw [← Bool.not_eq_true]
      exact fun hEnds => h (follows_cons.mpr hEnds)
    -- the first token is skipped for certain, and the others as far as they go
    have hFirst : skippedToken (t :: ts) n = ⟨some ((), ts), n⟩ := by
      rw [skippedToken, hEnds]
      rfl
    unfold atLeastOne
    rw [wp_bind, Parser.wp, hFirst, skipped_cons_of_not hEnds]
    dsimp only
    rw [wp_bind]
    exact many_skippedToken_skips size ts n

end AnnotationQuery.Parse
