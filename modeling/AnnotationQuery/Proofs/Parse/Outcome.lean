import AnnotationQuery.Proofs.Parse.Calculus

/-!
# What is read, notes aside

Notes never decide what is read: no combinator looks at them. A parser for which
that is true is *steady*, and what it reads from a list of tokens is its *outcome*, a
function of the tokens alone. Every combinator has one equation for outcomes, so a
run over known tokens is computed by rewriting, whatever failures it remembers.

Repetition and nesting are bounded in the definitions. An outcome does not depend on
the bound once the bound is above the number of tokens, because each round uses up a
token. The equations for `many` say so: they have no bound in them.

Main results:

* `outcome_bind`, `outcome_orElse`, `outcome_optional`, `outcome_recover`, `outcome_withSpan` —
  the equations of the combinators.
* `outcome_many_of_none`, `outcome_many_of_some` — repetition, one round at a time.
* `outcome_chain` — a chain of connectives, its first member apart.
* `Covers`, `Takes` — the tokens that something was read from.
-/

namespace AnnotationQuery.Parse

/-- The tokens without their places. -/
def values (ts : Tokens) : List Token :=
  ts.map Spanned.value

@[simp] theorem values_append (ts us : Tokens) : values (ts ++ us) = values ts ++ values us :=
  List.map_append

namespace Parser

variable {α β : Type}

/-- The notes have no say in what is read. -/
class Steady (p : Parser α) : Prop where
  result_congr (ts : Tokens) (n n' : Notes) : (p ts n).result = (p ts n').result

/-- What is read from the tokens, and the tokens that are left. -/
def outcome (p : Parser α) (ts : Tokens) : Option (α × Tokens) :=
  (p ts Notes.empty).result

theorem result_eq_outcome (p : Parser α) [p.Steady] (ts : Tokens) (n : Notes) :
    (p ts n).result = p.outcome ts :=
  Steady.result_congr ts n Notes.empty

variable {p q : Parser α} {ts : Tokens}

/-! ## Sequence -/

/-- The second part runs on the tokens and the notes that the first part leaves. -/
theorem result_bind (p : Parser β) (f : β → Parser α) (ts : Tokens) (n : Notes) :
    ((p >>= f) ts n).result =
      (p ts n).result.bind fun r => (f r.1 r.2 (p ts n).notes).result := by
  show (Parser.bind p f ts n).result = _
  unfold Parser.bind
  rcases p ts n with ⟨_ | ⟨b, rest⟩, n'⟩ <;> rfl

instance (a : α) : (pure a : Parser α).Steady :=
  ⟨fun _ _ _ => rfl⟩

instance : (stop : Parser α).Steady :=
  ⟨fun _ _ _ => rfl⟩

/-- A sequence of steady parsers is steady. -/
theorem Steady.bind {p : Parser β} {f : β → Parser α} (hp : p.Steady) (hf : ∀ b, (f b).Steady) :
    (p >>= f).Steady := by
  refine ⟨fun ts n n' => ?_⟩
  rw [result_bind, result_bind, hp.result_congr ts n n']
  -- the second part starts from other notes, and they have no say either
  exact congrArg _ (funext fun r => (hf r.1).result_congr r.2 _ _)

instance {p : Parser β} {f : β → Parser α} [hp : p.Steady] [hf : ∀ b, (f b).Steady] :
    (p >>= f).Steady :=
  hp.bind hf

@[simp] theorem outcome_pure (a : α) (ts : Tokens) :
    (pure a : Parser α).outcome ts = some (a, ts) :=
  rfl

@[simp] theorem outcome_stop (ts : Tokens) : (stop : Parser α).outcome ts = none :=
  rfl

/-- A sequence: the second part reads what the first one leaves. -/
@[simp] theorem outcome_bind (p : Parser β) (f : β → Parser α) [∀ b, (f b).Steady] (ts : Tokens) :
    (p >>= f).outcome ts = (p.outcome ts).bind fun r => (f r.1).outcome r.2 := by
  unfold outcome
  rw [result_bind]
  exact congrArg _ (funext fun r => Steady.result_congr r.2 _ _)

/-! ## Single tokens -/

instance (read : Token → Option α) : (accept read).Steady := by
  refine ⟨fun ts n n' => ?_⟩
  cases ts with
  | nil => rfl
  | cons t rest =>
    dsimp only [accept]
    cases read t.value <;> rfl

@[simp] theorem outcome_accept_nil (read : Token → Option α) : (accept read).outcome [] = none :=
  rfl

@[simp] theorem outcome_accept_cons (read : Token → Option α) (t : Spanned Token) (ts : Tokens) :
    (accept read).outcome (t :: ts) = (read t.value).map fun a => (⟨a, t.span⟩, ts) := by
  dsimp only [outcome, accept]
  cases read t.value <;> rfl

instance (t : Token) : (exactly t).Steady := by
  unfold exactly
  infer_instance

instance (s : Symbol) : (symbol s).Steady :=
  inferInstanceAs (exactly _).Steady

instance (k : Keyword) : (keyword k).Steady :=
  inferInstanceAs (exactly _).Steady

instance (name : String) : (word name).Steady :=
  inferInstanceAs (exactly _).Steady

@[simp] theorem outcome_exactly_nil (t : Token) : (exactly t).outcome [] = none := by
  simp [exactly]

@[simp] theorem outcome_exactly_cons (t : Token) (u : Spanned Token) (ts : Tokens) :
    (exactly t).outcome (u :: ts) = if u.value = t then some ((), ts) else none := by
  by_cases hu : u.value = t <;> simp [exactly, hu]

/-! ## Alternatives -/

/-- The second alternative runs if the first has read nothing. -/
theorem result_orElse (p q : Parser α) (ts : Tokens) (n : Notes) :
    ((p <|> q) ts n).result = (p ts n).result.or (q ts ((p ts n).notes.rewind n)).result := by
  show (p.orElse q ts n).result = _
  unfold orElse
  rcases p ts n with ⟨_ | ⟨a, rest⟩, n'⟩ <;> rfl

instance [p.Steady] [q.Steady] : (p <|> q).Steady := by
  refine ⟨fun ts n n' => ?_⟩
  rw [result_orElse, result_orElse, result_eq_outcome p, result_eq_outcome p, result_eq_outcome q,
    result_eq_outcome q]

/-- The first alternative that reads something decides. -/
@[simp] theorem outcome_orElse (p q : Parser α) [q.Steady] (ts : Tokens) :
    (p <|> q).outcome ts = (p.outcome ts).or (q.outcome ts) := by
  unfold outcome
  rw [result_orElse, result_eq_outcome q]
  rfl

/-- An option reads what its parser reads, or nothing. -/
theorem result_optional (p : Parser α) (ts : Tokens) (n : Notes) :
    (optional p ts n).result =
      ((p ts n).result.map fun r => (some r.1, r.2)).or (some (none, ts)) := by
  unfold optional
  rcases p ts n with ⟨_ | ⟨a, rest⟩, n'⟩ <;> rfl

instance [p.Steady] : (optional p).Steady := by
  refine ⟨fun ts n n' => ?_⟩
  rw [result_optional, result_optional, Steady.result_congr ts n n']

/-- Nothing read leaves all tokens where they are. -/
@[simp] theorem outcome_optional (p : Parser α) (ts : Tokens) :
    (optional p).outcome ts =
      ((p.outcome ts).map fun r => (some r.1, r.2)).or (some (none, ts)) :=
  result_optional p ts Notes.empty

/-- A stand-in runs if the first attempt has read nothing. -/
theorem result_recover (p q : Parser α) (ts : Tokens) (n : Notes) :
    (recover p q ts n).result = (p ts n).result.or (q ts ⟨none, n.errors⟩).result := by
  unfold recover
  rcases p ts n with ⟨_ | ⟨a, rest⟩, n'⟩
  · rcases q ts ⟨none, n.errors⟩ with ⟨_ | r, n''⟩ <;> rfl
  · rfl

instance [p.Steady] [q.Steady] : (recover p q).Steady := by
  refine ⟨fun ts n n' => ?_⟩
  rw [result_recover, result_recover, result_eq_outcome p, result_eq_outcome p,
    result_eq_outcome q, result_eq_outcome q]

/-- A stand-in is one more alternative. -/
@[simp] theorem outcome_recover (p q : Parser α) (ts : Tokens) :
    (recover p q).outcome ts = (p.outcome ts).or (q.outcome ts) :=
  result_recover p q ts Notes.empty

/-! ## Places -/

/-- A place changes nothing about what is read. -/
theorem result_withSpan (p : Parser (Span → α)) (ts : Tokens) (n : Notes) :
    (withSpan p ts n).result =
      (p ts n).result.map fun r => (r.1 (hull (consumed ts r.2)), r.2) := by
  unfold withSpan
  rcases p ts n with ⟨_ | ⟨f, rest⟩, n'⟩ <;> rfl

instance {p : Parser (Span → α)} [p.Steady] : (withSpan p).Steady := by
  refine ⟨fun ts n n' => ?_⟩
  rw [result_withSpan, result_withSpan, Steady.result_congr ts n n']

/-- The value gets the place around the tokens that were used up. -/
@[simp] theorem outcome_withSpan (p : Parser (Span → α)) (ts : Tokens) :
    (withSpan p).outcome ts =
      (p.outcome ts).map fun r => (r.1 (hull (consumed ts r.2)), r.2) :=
  result_withSpan p ts Notes.empty

/-- The value of a located parser is that of its parser, with a place. -/
@[simp] theorem outcome_located (p : Parser α) (ts : Tokens) :
    (located p).outcome ts =
      (p.outcome ts).map fun r => (⟨r.1, hull (consumed ts r.2)⟩, r.2) := by
  unfold located
  rw [outcome_withSpan, outcome_bind]
  cases p.outcome ts <;> rfl

@[simp] theorem consumed_append (run rest : Tokens) : consumed (run ++ rest) rest = run := by
  simp [consumed]

/-! ## Repetition -/

/-- Whatever is read, fewer tokens are left. -/
def Shrinks (p : Parser α) : Prop :=
  ∀ ⦃ts a rest⦄, p.outcome ts = some (a, rest) → rest.length < ts.length

/-- One round of bounded repetition. -/
theorem result_manyUpTo (p : Parser α) (k : Nat) (ts : Tokens) (n : Notes) :
    (manyUpTo p (k + 1) ts n).result =
      match (p ts n).result with
      | none => some ([], ts)
      | some (a, rest) =>
        (manyUpTo p k rest (p ts n).notes).result.map fun s => (a :: s.1, s.2) := by
  dsimp only [manyUpTo]
  rcases p ts n with ⟨_ | ⟨a, rest⟩, n'⟩
  · rfl
  · -- the other rounds are read from what is left, under the notes so far
    show ((manyUpTo p k >>= fun as => pure (a :: as)) rest n').result =
      (manyUpTo p k rest n').result.map fun s => (a :: s.1, s.2)
    rw [result_bind]
    cases (manyUpTo p k rest n').result <;> rfl

instance [p.Steady] (k : Nat) : (manyUpTo p k).Steady := by
  induction k with
  | zero => exact inferInstanceAs (Steady (pure []))
  | succ k ih =>
    refine ⟨fun ts n n' => ?_⟩
    rw [result_manyUpTo, result_manyUpTo, Steady.result_congr ts n n']
    cases (p ts n').result with
    | none => rfl
    | some r =>
      dsimp only
      rw [ih.result_congr]

/-- Repetition ends where nothing more can be read. -/
theorem outcome_manyUpTo_of_none {k : Nat} (h : p.outcome ts = none) :
    (manyUpTo p k).outcome ts = some ([], ts) := by
  cases k with
  | zero => rfl
  | succ k =>
    unfold outcome at h ⊢
    rw [result_manyUpTo, h]

/-- A round that reads something is followed by the others, one fewer. -/
theorem outcome_manyUpTo_of_some [p.Steady] {k : Nat} {a : α} {rest : Tokens}
    (h : p.outcome ts = some (a, rest)) :
    (manyUpTo p (k + 1)).outcome ts =
      ((manyUpTo p k).outcome rest).map fun s => (a :: s.1, s.2) := by
  -- the second round starts with the notes of the first, which make no difference
  have hRest := result_eq_outcome (manyUpTo p k) rest (p ts Notes.empty).notes
  unfold outcome at h ⊢
  rw [result_manyUpTo, h]
  dsimp only
  rw [hRest]
  rfl

/-- A bound above the number of tokens is never the reason to stop. -/
theorem outcome_manyUpTo_eq_many [p.Steady] (hShrinks : p.Shrinks) {k : Nat}
    (hk : ts.length < k) : (manyUpTo p k).outcome ts = (many p).outcome ts := by
  show _ = (manyUpTo p (ts.length + 1)).outcome ts
  -- any two such bounds agree: a round leaves fewer tokens and takes one from either bound
  have hAgree : ∀ {k l : Nat} {ts : Tokens}, ts.length < k → ts.length < l →
      (manyUpTo p k).outcome ts = (manyUpTo p l).outcome ts := by
    intro k
    induction k with
    | zero => intro l ts hk; omega
    | succ k ih =>
      intro l ts hk hl
      obtain ⟨l, rfl⟩ := Nat.exists_eq_add_of_lt hl
      cases hRead : p.outcome ts with
      | none => rw [outcome_manyUpTo_of_none hRead, outcome_manyUpTo_of_none hRead]
      | some r =>
        have hLess := hShrinks hRead
        rw [outcome_manyUpTo_of_some hRead, outcome_manyUpTo_of_some hRead,
          ih (by omega) (by omega : r.2.length < ts.length + l)]
  exact hAgree hk (Nat.lt_succ_self _)

instance [p.Steady] : (many p).Steady :=
  ⟨fun ts => Steady.result_congr (p := manyUpTo p (ts.length + 1)) ts⟩

/-- Repetition ends where nothing more can be read. -/
theorem outcome_many_of_none (h : p.outcome ts = none) : (many p).outcome ts = some ([], ts) :=
  outcome_manyUpTo_of_none (k := ts.length + 1) h

/-- A round that reads something is followed by as many others as there are. -/
theorem outcome_many_of_some [p.Steady] (hShrinks : p.Shrinks) {a : α} {rest : Tokens}
    (h : p.outcome ts = some (a, rest)) :
    (many p).outcome ts = ((many p).outcome rest).map fun s => (a :: s.1, s.2) := by
  show (manyUpTo p (ts.length + 1)).outcome ts = _
  rw [outcome_manyUpTo_of_some h, outcome_manyUpTo_eq_many hShrinks (hShrinks h)]

/-- Repetition always comes to an end. -/
theorem exists_outcome_many (p : Parser α) [p.Steady] (ts : Tokens) :
    ∃ as rest, (many p).outcome ts = some (as, rest) := by
  have hBounded : ∀ (k : Nat) (ts : Tokens), ∃ as rest,
      (manyUpTo p k).outcome ts = some (as, rest) := by
    intro k
    -- by induction on the bound: each round leaves one fewer to come
    induction k with
    | zero => exact fun ts => ⟨[], ts, rfl⟩
    | succ k ih =>
      intro ts
      cases hRead : p.outcome ts with
      | none => exact ⟨[], ts, outcome_manyUpTo_of_none hRead⟩
      | some r =>
        obtain ⟨as, rest, hRest⟩ := ih r.2
        exact ⟨r.1 :: as, rest, by rw [outcome_manyUpTo_of_some hRead, hRest]; rfl⟩
  exact hBounded (ts.length + 1) ts

instance {separator : Parser Unit} [p.Steady] [separator.Steady] :
    (separatedBy p separator).Steady := by
  unfold separatedBy
  infer_instance

instance {connective : Parser Unit} {join : α → α → α} [p.Steady] [connective.Steady] :
    (chain p connective join).Steady := by
  unfold chain
  infer_instance

/-- A chain is its first member joined with those that come behind a connective. -/
theorem outcome_chain (p : Parser α) (connective : Parser Unit) (join : α → α → α) [p.Steady]
    [connective.Steady] (ts : Tokens) :
    (chain p connective join).outcome ts =
      (p.outcome ts).bind fun r =>
        ((many (do connective; p)).outcome r.2).map fun s => (s.1.foldl join r.1, s.2) := by
  unfold chain
  rw [outcome_bind]
  refine congrArg _ (funext fun r => ?_)
  rw [outcome_bind]
  cases (many (do connective; p)).outcome r.2 <;> rfl

/-! ## What is covered -/

/-- Whatever is read, a run of tokens was taken off the front for it, and `R` relates the two. -/
def Covers (p : Parser α) (R : α → Tokens → Prop) : Prop :=
  ∀ ⦃ts a rest⦄, p.outcome ts = some (a, rest) → ∃ run, ts = run ++ rest ∧ R a run

section
variable {R S : α → Tokens → Prop}

theorem Covers.mono (h : p.Covers R) (hRS : ∀ a run, R a run → S a run) : p.Covers S := by
  intro ts a rest hRead
  obtain ⟨run, hts, hR⟩ := h hRead
  exact ⟨run, hts, hRS a run hR⟩

theorem covers_pure {a : α} (h : R a []) : (pure a : Parser α).Covers R := by
  intro ts b rest hRead
  cases hRead
  exact ⟨[], rfl, h⟩

/-- What never reads covers whatever one likes. -/
theorem covers_stop : (stop : Parser α).Covers R := by
  intro ts a rest hRead
  cases hRead

/-- A sequence covers what its two parts cover, one after the other. -/
theorem Covers.bind {R : β → Tokens → Prop} {p : Parser β} {f : β → Parser α}
    [∀ b, (f b).Steady] (hp : p.Covers R)
    (hf : ∀ b run, R b run → (f b).Covers fun a run' => S a (run ++ run')) :
    (p >>= f).Covers S := by
  intro ts a rest hRead
  rw [outcome_bind] at hRead
  obtain ⟨⟨b, mid⟩, hb, ha⟩ := Option.bind_eq_some_iff.mp hRead
  obtain ⟨run, rfl, hR⟩ := hp hb
  obtain ⟨run', rfl, hS⟩ := hf b run hR ha
  exact ⟨run ++ run', (List.append_assoc ..).symm, hS⟩

/-- A single token covers itself. -/
theorem covers_accept {read : Token → Option β} {R : Spanned β → Tokens → Prop}
    (h : ∀ t b, read t.value = some b → R ⟨b, t.span⟩ [t]) : (accept read).Covers R := by
  intro ts a rest hRead
  cases ts with
  | nil => cases hRead
  | cons t ts =>
    rw [outcome_accept_cons] at hRead
    obtain ⟨b, hb, hEq⟩ := Option.map_eq_some_iff.mp hRead
    cases hEq
    exact ⟨[t], rfl, h t b hb⟩

/-- The one token covers itself, wherever it stands. -/
theorem covers_exactly {t : Token} : (exactly t).Covers fun _ run => ∃ s, run = [⟨t, s⟩] := by
  intro ts a rest hRead
  cases ts with
  | nil => cases hRead
  | cons u ts =>
    rw [outcome_exactly_cons] at hRead
    split at hRead
    · next hu =>
      cases hRead
      exact ⟨[u], rfl, u.span, by rw [← hu]⟩
    · cases hRead

/-- Alternatives that cover alike do so together. -/
theorem Covers.orElse [q.Steady] (hp : p.Covers R) (hq : q.Covers R) : (p <|> q).Covers R := by
  intro ts a rest hRead
  rw [outcome_orElse, Option.or_eq_some_iff] at hRead
  rcases hRead with hRead | ⟨-, hRead⟩
  · exact hp hRead
  · exact hq hRead

/-- A stand-in that covers like the first attempt covers like it in its stead. -/
theorem Covers.recover (hp : p.Covers R) (hq : q.Covers R) : (recover p q).Covers R := by
  intro ts a rest hRead
  rw [outcome_recover, Option.or_eq_some_iff] at hRead
  rcases hRead with hRead | ⟨-, hRead⟩
  · exact hp hRead
  · exact hq hRead

/-- Nothing read covers nothing. -/
theorem Covers.optional {p : Parser β} {R : Option β → Tokens → Prop}
    (hp : p.Covers fun b run => R (some b) run) (hNone : R none []) : (optional p).Covers R := by
  intro ts a rest hRead
  rw [outcome_optional, Option.or_eq_some_iff] at hRead
  rcases hRead with hRead | ⟨-, hRead⟩
  · obtain ⟨⟨b, r⟩, hb, hEq⟩ := Option.map_eq_some_iff.mp hRead
    cases hEq
    exact hp hb
  · cases hRead
    exact ⟨[], rfl, hNone⟩

/-- The place of a value is drawn around what it covers. -/
theorem Covers.withSpan {p : Parser (Span → α)} (hp : p.Covers fun f run => R (f (hull run)) run) :
    (withSpan p).Covers R := by
  intro ts a rest hRead
  rw [outcome_withSpan] at hRead
  obtain ⟨⟨f, r⟩, hf, hEq⟩ := Option.map_eq_some_iff.mp hRead
  cases hEq
  obtain ⟨run, rfl, hR⟩ := hp hf
  -- what was used up is the run
  exact ⟨run, rfl, by rw [consumed_append]; exact hR⟩

theorem Covers.located {p : Parser β} {R : Spanned β → Tokens → Prop}
    (hp : p.Covers fun b run => R ⟨b, hull run⟩ run) : (located p).Covers R := by
  refine Covers.withSpan (hp.bind fun b run hR => ?_)
  exact covers_pure (by rw [List.append_nil]; exact hR)

/-- Repetition covers what its rounds cover, one after the other. -/
theorem Covers.many {S : List α → Tokens → Prop} [p.Steady] (hp : p.Covers R) (hNil : S [] [])
    (hCons : ∀ a run as runs, R a run → S as runs → S (a :: as) (run ++ runs)) :
    (many p).Covers S := by
  -- by induction on the bound, which says nothing about what is covered
  have hBounded : ∀ k, (manyUpTo p k).Covers S := by
    intro k
    induction k with
    | zero => exact covers_pure hNil
    | succ k ih =>
      intro ts as rest hRead
      cases hRound : p.outcome ts with
      | none =>
        rw [outcome_manyUpTo_of_none hRound] at hRead
        cases hRead
        exact ⟨[], rfl, hNil⟩
      | some r =>
        rw [outcome_manyUpTo_of_some hRound] at hRead
        obtain ⟨⟨as', r'⟩, hRest, hEq⟩ := Option.map_eq_some_iff.mp hRead
        cases hEq
        obtain ⟨run, rfl, hR⟩ := hp hRound
        obtain ⟨run', hMid, hS⟩ := ih hRest
        exact ⟨run ++ run', by rw [hMid, List.append_assoc], hCons _ _ _ _ hR hS⟩
  intro ts as rest hRead
  exact hBounded (ts.length + 1) hRead

end

/-! ## What is taken -/

/-- Whatever is read, a word was taken off the front for it, and `R` relates the two. This is what
is covered, places aside, and so each rule is the one for coverings. -/
def Takes (p : Parser α) (R : α → List Token → Prop) : Prop :=
  ∀ ⦃ts a rest⦄, p.outcome ts = some (a, rest) → ∃ run, ts = run ++ rest ∧ R a (values run)

variable {R : α → List Token → Prop}

theorem Takes.mono {S : α → List Token → Prop} (h : p.Takes R) (hRS : ∀ a w, R a w → S a w) :
    p.Takes S :=
  Covers.mono h fun a run => hRS a (values run)

/-- If a word is never empty, there is always progress. -/
theorem Takes.shrinks (h : p.Takes R) (hR : ∀ a w, R a w → w ≠ []) : p.Shrinks := by
  intro ts a rest hRead
  obtain ⟨run, rfl, hRun⟩ := h hRead
  have hPos : 0 < run.length := by
    rw [List.length_pos_iff]
    rintro rfl
    exact hR a _ hRun rfl
  rw [List.length_append]
  omega

theorem takes_pure {a : α} (h : R a []) : (pure a : Parser α).Takes R :=
  covers_pure h

/-- What never reads takes whatever one likes. -/
theorem takes_stop : (stop : Parser α).Takes R :=
  covers_stop

/-- A sequence takes the words of its two parts, one after the other. -/
theorem Takes.bind {R : β → List Token → Prop} {S : α → List Token → Prop} {p : Parser β}
    {f : β → Parser α} [∀ b, (f b).Steady] (hp : p.Takes R)
    (hf : ∀ b w, R b w → (f b).Takes fun a w' => S a (w ++ w')) : (p >>= f).Takes S := by
  refine Covers.bind hp fun b run hR => Covers.mono (hf b _ hR) fun a run' hS => ?_
  rw [values_append]
  exact hS

theorem takes_accept {read : Token → Option β} {R : Spanned β → List Token → Prop}
    (h : ∀ t b s, read t = some b → R ⟨b, s⟩ [t]) : (accept read).Takes R :=
  covers_accept fun t b hb => h t.value b t.span hb

theorem takes_exactly {t : Token} : (exactly t).Takes fun _ w => w = [t] := by
  refine Covers.mono covers_exactly fun _ run hRun => ?_
  obtain ⟨s, rfl⟩ := hRun
  rfl

theorem Takes.orElse [q.Steady] (hp : p.Takes R) (hq : q.Takes R) : (p <|> q).Takes R :=
  Covers.orElse hp hq

theorem Takes.recover (hp : p.Takes R) (hq : q.Takes R) : (recover p q).Takes R :=
  Covers.recover hp hq

theorem Takes.optional {p : Parser β} {R : Option β → List Token → Prop}
    (hp : p.Takes fun b w => R (some b) w) (hNone : R none []) : (optional p).Takes R :=
  Covers.optional hp hNone

theorem Takes.withSpan {p : Parser (Span → α)} (hp : p.Takes fun f w => ∀ s, R (f s) w) :
    (withSpan p).Takes R :=
  Covers.withSpan (Covers.mono hp fun _ _ hR => hR _)

theorem Takes.located {p : Parser β} {R : Spanned β → List Token → Prop}
    (hp : p.Takes fun b w => ∀ s, R ⟨b, s⟩ w) : (located p).Takes R :=
  Covers.located (Covers.mono hp fun _ _ hR => hR _)

/-- Repetition takes what its rounds take, one after the other. -/
theorem Takes.many {S : List α → List Token → Prop} [p.Steady] (hp : p.Takes R) (hNil : S [] [])
    (hCons : ∀ a w as ws, R a w → S as ws → S (a :: as) (w ++ ws)) : (many p).Takes S := by
  refine Covers.many hp hNil fun a run as runs hR hS => ?_
  rw [values_append]
  exact hCons _ _ _ _ hR hS

end Parser

end AnnotationQuery.Parse
