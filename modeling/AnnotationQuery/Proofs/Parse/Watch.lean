import AnnotationQuery.Parse.Order
import AnnotationQuery.Proofs.Parse.Calculus
import AnnotationQuery.Proofs.Parse.Derived

/-!
# Watching a parser

A parser fails at the tokens that it looks at, so what is known of those tokens is known
of its failures. A `Watch` says of which tokens something is known, and how that goes
on when a token is read. It counts the parentheses that are open: closing one is
allowed only after opening one. Most parsers leave as many open as they found, and such
a parser keeps every watch that it does not break by reading a token that stops it.

Two watches matter later. One follows all the tokens of a text, so that every failure
gets a place in the text. The other follows a part of the text that closes all its
parentheses, and shows that no failure inside lies behind its end.

Main results:

* `predicate_quiet`, `orderTerms_quiet` — what never reports an error.
* `predicate_watched` — predicates stop no watch that stops at the ends of terms only.
* `condition_watched` — conditions stop no watch that stops at closing parentheses only.
* `Parser.Watched.stems` — every failure has a place in the text.
-/

namespace AnnotationQuery.Parse

/-! ## Notes -/

/-- Every failure that is remembered, by how many tokens it left and where it lies, is fine. -/
def Notes.All (fine : Nat → Option Span → Prop) (n : Notes) : Prop :=
  (∀ f ∈ n.furthest, fine f.left f.place) ∧ ∀ f ∈ n.errors, fine f.left f.place

theorem Failure.left_at (ts : Tokens) : (Failure.at ts).left = ts.length := by
  cases ts <;> rfl

theorem Failure.place_at (ts : Tokens) : (Failure.at ts).place = ts.head?.map Spanned.span := by
  cases ts <;> rfl

namespace Notes

variable {fine : Nat → Option Span → Prop} {n n' : Notes}

/-- A failure that is offered is not an error yet. -/
@[simp] theorem errors_offer (n : Notes) (f : Failure) : (n.offer f).errors = n.errors := by
  unfold offer
  split
  · rfl
  · split
    · rfl
    · split <;> rfl

/-- Of what is remembered and what is offered, one is remembered afterwards. -/
theorem furthest_offer (n : Notes) (f : Failure) :
    ∃ g, (n.offer f).furthest = some g ∧ g.left ≤ f.left ∧
      ((g.left = f.left ∧ g.place = f.place) ∨
        ∃ h ∈ n.furthest, g.left = h.left ∧ g.place = h.place) := by
  unfold offer
  split
  · exact ⟨f, rfl, Nat.le_refl _, Or.inl ⟨rfl, rfl⟩⟩
  · -- the remembered failure is replaced, joined or kept, by which of the two is further
    next h hn =>
    split
    · exact ⟨f, rfl, Nat.le_refl _, Or.inl ⟨rfl, rfl⟩⟩
    · split
      · next hLess hEq => exact ⟨_, rfl, Nat.le_of_eq hEq.symm, Or.inr ⟨h, hn, rfl, rfl⟩⟩
      · next hLess hEq => exact ⟨h, hn, by omega, Or.inr ⟨h, hn, rfl, rfl⟩⟩

/-- Fine failures stay fine when a fine one is offered. -/
theorem All.offer (h : n.All fine) {f : Failure} (hf : fine f.left f.place) :
    (n.offer f).All fine := by
  refine ⟨fun g hg => ?_, by rw [errors_offer]; exact h.2⟩
  obtain ⟨g', hg', -, hOne⟩ := n.furthest_offer f
  rw [hg'] at hg
  cases hg
  -- the one that is remembered now is one of the two
  rcases hOne with ⟨hLeft, hPlace⟩ | ⟨k, hk, hLeft, hPlace⟩
  · rw [hLeft, hPlace]
    exact hf
  · rw [hLeft, hPlace]
    exact h.1 k hk

/-- What is fine at the next token is fine when a test fails there. -/
theorem All.offer_at {ts : Tokens} (h : n.All fine)
    (hHere : fine ts.length (ts.head?.map Spanned.span)) : (n.offer (.at ts)).All fine := by
  refine h.offer ?_
  rw [Failure.left_at, Failure.place_at]
  exact hHere

theorem All.rewind (h : n.All fine) (h' : n'.All fine) : (n.rewind n').All fine :=
  ⟨h.1, h'.2⟩

end Notes

/-! ## What parsers keep -/

namespace Parser

variable {α β : Type} {fine : Nat → Option Span → Prop} {pre mid post : Tokens → Prop}

/-- From tokens in `pre` and fine failures, the parser gets to tokens in `post` or fails, and all
failures are still fine. -/
def Keeps (fine : Nat → Option Span → Prop) (pre post : Tokens → Prop) (p : Parser α) : Prop :=
  ∀ ⦃ts n⦄, pre ts → n.All fine →
    p.wp (fun _ rest n' => post rest ∧ n'.All fine) (fun n' => n'.All fine) ts n

theorem keeps_pure {a : α} (h : ∀ ts, pre ts → post ts) :
    (pure a : Parser α).Keeps fine pre post :=
  fun ts _ hts hn => ⟨h ts hts, hn⟩

/-- What never reads remembers nothing new. -/
theorem keeps_stop : (stop : Parser α).Keeps fine pre post :=
  fun _ _ _ hn => hn

/-- What the first part gets to is where the second part starts. -/
theorem Keeps.bind {p : Parser β} {f : β → Parser α} (hp : p.Keeps fine pre mid)
    (hf : ∀ b, (f b).Keeps fine mid post) : (p >>= f).Keeps fine pre post := by
  intro ts n hts hn
  rw [wp_bind]
  exact wp_mono (hp hts hn) (fun b _ _ h => hf b h.1 h.2) (fun _ h => h)

/-- A test that fails does so at the next token. -/
theorem keeps_accept {read : Token → Option β}
    (hHere : ∀ ts, pre ts → fine ts.length (ts.head?.map Spanned.span))
    (hPass : ∀ t ts, pre (t :: ts) → (read t.value).isSome = true → post ts) :
    (accept read).Keeps fine pre post := by
  intro ts n hts hn
  refine wp_accept (fun t rest b hCons hb => ?_) (hn.offer_at (hHere ts hts))
  subst hCons
  exact ⟨hPass t rest hts (by rw [hb]; rfl), hn⟩

/-- A token that is not there fails at the next token. -/
theorem keeps_exactly {t : Token}
    (hHere : ∀ ts, pre ts → fine ts.length (ts.head?.map Spanned.span))
    (hPass : ∀ s ts, pre (⟨t, s⟩ :: ts) → post ts) : (exactly t).Keeps fine pre post := by
  refine Keeps.bind (keeps_accept hHere fun u ts hts hu => ?_) fun _ => keeps_pure fun _ h => h
  by_cases hut : u.value = t
  · subst hut
    exact hPass u.span ts hts
  · simp [hut] at hu

/-- The second alternative starts from fine failures. -/
theorem Keeps.orElse {p q : Parser α} (hp : p.Keeps fine pre post) (hq : q.Keeps fine pre post) :
    (p <|> q).Keeps fine pre post := by
  intro ts n hts hn
  rw [wp_orElse]
  exact wp_mono (hp hts hn) (fun _ _ _ h => h) (fun n' h => hq hts (h.rewind hn))

/-- Nothing read leaves fine failures. -/
theorem Keeps.optional {p : Parser β} (hp : p.Keeps fine pre pre) :
    (optional p).Keeps fine pre pre := by
  intro ts n hts hn
  rw [wp_optional]
  exact wp_mono (hp hts hn) (fun _ _ _ h => h) (fun n' h => ⟨hts, h.rewind hn⟩)

/-- The furthest failure that becomes an error is a fine one. -/
theorem Keeps.recover {p q : Parser α} (hp : p.Keeps fine pre post)
    (hq : q.Keeps fine pre post) : (recover p q).Keeps fine pre post := by
  intro ts n hts hn
  rw [wp_recover]
  refine wp_mono (hp hts hn) (fun _ _ _ h => h) (fun n' h => ?_)
  have hEmpty : (⟨none, n.errors⟩ : Notes).All fine := ⟨by simp, hn.2⟩
  refine wp_mono (hq hts hEmpty) (fun _ rest n'' h' => ⟨h'.1, h'.2.1, fun f hf => ?_⟩)
    (fun _ _ => h.rewind hn)
  -- the new error was the furthest failure
  rcases List.mem_append.mp hf with hf | hf
  · exact h'.2.2 f hf
  · exact h.1 f (Option.mem_toList.mp hf)

/-- Places change no failure. -/
theorem Keeps.withSpan {p : Parser (Span → α)} (hp : p.Keeps fine pre post) :
    (withSpan p).Keeps fine pre post := by
  intro ts n hts hn
  rw [wp_withSpan]
  exact hp hts hn

/-- If each round keeps what is known, so do all of them. -/
theorem Keeps.many {p : Parser α} (hp : p.Keeps fine pre pre) : (many p).Keeps fine pre pre := by
  -- by induction on the bound
  have hBounded : ∀ k, (manyUpTo p k).Keeps fine pre pre := by
    intro k
    induction k with
    | zero => exact keeps_pure fun _ h => h
    | succ k ih =>
      intro ts n hts hn
      rw [wp_manyUpTo_succ]
      exact wp_mono (hp hts hn) (fun _ _ _ h => ih h.1 h.2) (fun n' h => ⟨hts, h.rewind hn⟩)
  exact fun ts _ hts hn => hBounded (ts.length + 1) hts hn

end Parser

/-! ## Watches -/

/-- What is known of the tokens ahead, by how many parentheses are open, and of the failures there.
It stays known when a token is read that does not stop the watch. -/
structure Watch where
  here : Nat → Tokens → Prop
  fine : Nat → Option Span → Prop
  stops : Token → Bool
  fine_here : ∀ {d ts}, here d ts → fine ts.length (ts.head?.map Spanned.span)
  /-- A token that was seen in passing counts as read. -/
  fine_seen : ∀ {d t ts}, here d (t :: ts) → fine ts.length (some t.span)
  pass : ∀ {d t ts}, stops t.value = false → here d (t :: ts) → here d ts
  opens : ∀ {d s ts}, here d (⟨.symbol .lparen, s⟩ :: ts) → here (d + 1) ts
  closes : ∀ {d s ts}, here (d + 1) (⟨.symbol .rparen, s⟩ :: ts) → here d ts

/-- A token outside the test stops no watch that only tokens of the test can stop. -/
theorem Watch.stops_eq_false {W : Watch} {test : Token → Bool}
    (hW : ∀ t, W.stops t = true → test t = true) {t : Token} (h : test t = false) :
    W.stops t = false := by
  by_contra hStop
  rw [Bool.not_eq_false] at hStop
  rw [hW t hStop] at h
  cases h

namespace Parser

variable {α β : Type} {test : Token → Bool}

/-- The parser keeps every watch that only tokens in `test` can stop, and leaves as many
parentheses open as it found. -/
class Watched (test : Token → Bool) {α : Type} (p : Parser α) : Prop where
  keeps : ∀ (W : Watch), (∀ t, W.stops t = true → test t = true) → ∀ d,
    p.Keeps W.fine (W.here d) (W.here d)

instance (a : α) : (pure a : Parser α).Watched test :=
  ⟨fun _ _ _ => keeps_pure fun _ h => h⟩

instance : (stop : Parser α).Watched test :=
  ⟨fun _ _ _ => keeps_stop⟩

instance {p : Parser β} {f : β → Parser α} [hp : p.Watched test] [hf : ∀ b, (f b).Watched test] :
    (p >>= f).Watched test :=
  ⟨fun W hW d => (hp.keeps W hW d).bind fun b => (hf b).keeps W hW d⟩

instance {p q : Parser α} [hp : p.Watched test] [hq : q.Watched test] : (p <|> q).Watched test :=
  ⟨fun W hW d => (hp.keeps W hW d).orElse (hq.keeps W hW d)⟩

instance {p : Parser α} [hp : p.Watched test] : (optional p).Watched test :=
  ⟨fun W hW d => (hp.keeps W hW d).optional⟩

instance {p q : Parser α} [hp : p.Watched test] [hq : q.Watched test] :
    (recover p q).Watched test :=
  ⟨fun W hW d => (hp.keeps W hW d).recover (hq.keeps W hW d)⟩

instance {p : Parser (Span → α)} [hp : p.Watched test] : (withSpan p).Watched test :=
  ⟨fun W hW d => (hp.keeps W hW d).withSpan⟩

instance {p : Parser α} [hp : p.Watched test] : (many p).Watched test :=
  ⟨fun W hW d => (hp.keeps W hW d).many⟩

instance {p : Parser α} [p.Watched test] : (atLeastOne p).Watched test := by
  unfold atLeastOne
  infer_instance

theorem Watched.mono {test' : Token → Bool} {p : Parser α} (h : p.Watched test)
    (hTest : ∀ t, test' t = true → test t = true) : p.Watched test' :=
  ⟨fun W hW d => h.keeps W (fun t ht => hTest t (hW t ht)) d⟩

/-- The bound is a function of the tokens, so for given tokens it is a number like any other. -/
theorem watched_bounded {q : Nat → Parser α} (h : ∀ bound, (q bound).Watched test) :
    Watched test (fun ts n => q (ts.length + 1) ts n : Parser α) :=
  ⟨fun W hW d ts _ hts hn => (h (ts.length + 1)).keeps W hW d hts hn⟩

theorem watched_accept {read : Token → Option β}
    (h : ∀ t, (read t).isSome = true → test t = false) : (accept read).Watched test :=
  ⟨fun _ hW _ => keeps_accept (fun _ => Watch.fine_here _) fun t _ hts ht =>
    Watch.pass _ (Watch.stops_eq_false hW (h t.value ht)) hts⟩

/-- A token that stops no watch keeps all of them. -/
theorem watched_exactly {t : Token} (h : test t = false) : (exactly t).Watched test := by
  unfold exactly
  have hAccept : (accept fun u => if u = t then some () else none).Watched test := by
    refine watched_accept fun u hu => ?_
    by_cases hut : u = t
    · rw [hut]
      exact h
    · simp [hut] at hu
  infer_instance

theorem keeps_open (W : Watch) (d : Nat) :
    (symbol .lparen).Keeps W.fine (W.here d) (W.here (d + 1)) :=
  keeps_exactly (fun _ => W.fine_here) fun _ _ => W.opens

theorem keeps_close (W : Watch) (d : Nat) :
    (symbol .rparen).Keeps W.fine (W.here (d + 1)) (W.here d) :=
  keeps_exactly (fun _ => W.fine_here) fun _ _ => W.closes

-- what is opened is closed again, so these leave as many parentheses open as they found
instance {p : Parser β} [hp : p.Watched test] :
    (do symbol .lparen; let _ ← p; symbol .rparen : Parser Unit).Watched test :=
  ⟨fun W hW d => (keeps_open W d).bind fun _ => (hp.keeps W hW (d + 1)).bind fun _ =>
    keeps_close W d⟩

instance {p : Parser β} {g : β → α} [hp : p.Watched test] :
    (do symbol .lparen; let b ← p; symbol .rparen; return g b : Parser α).Watched test :=
  ⟨fun W hW d => (keeps_open W d).bind fun _ => (hp.keeps W hW (d + 1)).bind fun _ =>
    (keeps_close W d).bind fun _ => keeps_pure fun _ h => h⟩

end Parser

open AnnotationQuery.Parse.Parser

/-! ## Terms are stopped by what ends a term -/

/-- What terms are put together with keeps a watch that only the end of a term can stop. -/
theorem watched_closedOnTerms : ClosedOnTerms (@Watched endsTerm) where
  pure _ := inferInstance
  bind _ _ := inferInstance
  accept h := watched_accept h
  orElse _ _ := inferInstance
  optional _ := inferInstance
  withSpan _ := inferInstance
  enclosed _ _ := inferInstance
  items _ := by
    have hComma : (symbol .comma).Watched endsTerm := watched_exactly rfl
    infer_instance

instance (priority := low) {α : Type} {p : Parser α} [hp : Composed .terms p] :
    p.Watched endsTerm :=
  hp.has (@Watched endsTerm) watched_closedOnTerms

/-- A predicate stops no watch that only the end of a term can stop. -/
theorem predicate_watched : predicate.Watched endsTerm :=
  inferInstance

/-- The token that a skipped term ends with is only seen in passing. -/
instance : skippedToken.Watched endsTerm := by
  refine ⟨fun W hW d ts n hts hn => ?_⟩
  cases ts with
  | nil => exact hn.offer (W.fine_here hts)
  | cons t ts =>
    dsimp only [wp, skippedToken]
    cases hEnds : endsTerm t.value with
    | true => exact hn.offer (f := ⟨ts.length, some t.value, some t.span⟩) (W.fine_seen hts)
    | false => exact ⟨W.pass (Watch.stops_eq_false hW hEnds) hts, hn⟩

/-! ## Terms report nothing -/

namespace Parser

variable {α β : Type}

/-- The parser leaves the errors as they were, also where it fails. -/
class Quiet (p : Parser α) : Prop where
  errors : ∀ ts n, p.wp (fun _ _ n' => n'.errors = n.errors) (fun n' => n'.errors = n.errors) ts n

instance (a : α) : (pure a : Parser α).Quiet :=
  ⟨fun _ _ => rfl⟩

instance : (stop : Parser α).Quiet :=
  ⟨fun _ _ => rfl⟩

instance {p : Parser β} {f : β → Parser α} [hp : p.Quiet] [hf : ∀ b, (f b).Quiet] :
    (p >>= f).Quiet := by
  refine ⟨fun ts n => ?_⟩
  rw [wp_bind]
  refine wp_mono (hp.errors ts n) (fun b rest n' h => ?_) (fun _ h => h)
  have hLater := (hf b).errors rest n'
  rw [h] at hLater
  exact hLater

instance {read : Token → Option β} : (accept read).Quiet :=
  ⟨fun _ n => wp_accept (fun _ _ _ _ _ => rfl) (n.errors_offer _)⟩

instance {t : Token} : (exactly t).Quiet := by unfold exactly; infer_instance

instance {s : Symbol} : (symbol s).Quiet := by unfold symbol; infer_instance

instance {p q : Parser α} [hp : p.Quiet] [hq : q.Quiet] : (p <|> q).Quiet := by
  refine ⟨fun ts n => ?_⟩
  rw [wp_orElse]
  exact wp_mono (hp.errors ts n) (fun _ _ _ h => h) (fun n' _ => hq.errors ts (n'.rewind n))

instance {p : Parser β} [hp : p.Quiet] : (optional p).Quiet := by
  refine ⟨fun ts n => ?_⟩
  rw [wp_optional]
  exact wp_mono (hp.errors ts n) (fun _ _ _ h => h) (fun _ _ => rfl)

instance {p : Parser (Span → α)} [hp : p.Quiet] : (withSpan p).Quiet := by
  refine ⟨fun ts n => ?_⟩
  rw [wp_withSpan]
  exact hp.errors ts n

instance {p : Parser α} {bound : Nat} [hp : p.Quiet] : (manyUpTo p bound).Quiet := by
  induction bound with
  | zero => exact inferInstanceAs (pure [] : Parser (List α)).Quiet
  | succ bound ih =>
    refine ⟨fun ts n => ?_⟩
    rw [wp_manyUpTo_succ]
    refine wp_mono (hp.errors ts n) (fun b rest n' h => ?_) (fun _ _ => rfl)
    have hLater := ih.errors rest n'
    rw [h] at hLater
    exact hLater

instance {p : Parser α} [p.Quiet] : (many p).Quiet :=
  ⟨fun ts n => Quiet.errors (p := manyUpTo p (ts.length + 1)) ts n⟩

/-- Nothing that terms are put together with reports an error. -/
theorem quiet_closed : ClosedOnTerms @Quiet where
  pure _ := inferInstance
  bind _ _ := inferInstance
  accept _ := inferInstance
  orElse _ _ := inferInstance
  optional _ := inferInstance
  withSpan _ := inferInstance
  enclosed _ _ := inferInstance
  items _ := inferInstance

instance (priority := low) {p : Parser α} [hp : Composed .terms p] : p.Quiet :=
  hp.has @Quiet quiet_closed

end Parser

instance : notParenthesis.Quiet := by delta notParenthesis; infer_instance

instance (bound : Nat) : (balancedUpTo bound).Quiet := by
  induction bound with
  | zero => exact inferInstanceAs (stop : Parser Unit).Quiet
  | succ bound ih => unfold balancedUpTo; infer_instance

instance : balanced.Quiet :=
  ⟨fun ts n => Quiet.errors (p := balancedUpTo (ts.length + 1)) ts n⟩

/-- A predicate reports no error, also where it fails. -/
theorem predicate_quiet : predicate.Quiet :=
  inferInstance

/-- Neither does an order list. -/
theorem orderTerms_quiet : orderTerms.Quiet :=
  inferInstance

/-! ## Conditions are stopped by closing parentheses only -/

/-- What conditions are put together with keeps a watch that only a closing parenthesis can stop. -/
theorem watched_closedOnConditions : ClosedOnConditions (@Watched isClosing) where
  pure _ := inferInstance
  bind _ _ := inferInstance
  accept h := watched_accept fun t ht => isClosing_eq_false (h t ht)
  orElse _ _ := inferInstance
  optional _ := inferInstance
  withSpan _ := inferInstance
  enclosed _ _ := inferInstance
  items _ := by
    have hComma : (symbol .comma).Watched isClosing := watched_exactly rfl
    infer_instance
  acceptOpen h := watched_accept h
  stop := inferInstance
  recover _ _ := inferInstance
  many _ := inferInstance
  bounded h := watched_bounded h
  balanced _ := inferInstance
  -- skipping stops at more tokens than the closing ones
  skipped := Watched.mono inferInstance fun _ => endsTerm_of_isClosing

instance (priority := low) {α : Type} {p : Parser α} [hp : Composed .conditions p] :
    p.Watched isClosing :=
  hp.has (@Watched isClosing) watched_closedOnConditions

/-- A condition stops no watch that only a closing parenthesis can stop. -/
theorem condition_watched : condition.Watched isClosing :=
  inferInstance

/-! ## Every failure lies in the text -/

/-- The failure is that of a test on the tokens, or of a token seen in passing. -/
inductive Stems (all : Tokens) : Nat → Option Span → Prop
  | tested {ts : Tokens} : ts <:+ all → Stems all ts.length (ts.head?.map Spanned.span)
  | seen {t : Spanned Token} {ts : Tokens} : t :: ts <:+ all → Stems all ts.length (some t.span)

/-- Watches all tokens of a text, and is stopped by none. -/
def Watch.text (all : Tokens) : Watch where
  here _ ts := ts <:+ all
  fine := Stems all
  stops _ := false
  fine_here h := .tested h
  fine_seen h := .seen h
  pass _ h := (List.suffix_cons _ _).trans h
  opens h := (List.suffix_cons _ _).trans h
  closes h := (List.suffix_cons _ _).trans h

/-- Every failure in the text stems from its tokens. -/
theorem Parser.Watched.stems {α : Type} {test : Token → Bool} {p : Parser α} (h : p.Watched test)
    (all : Tokens) : p.Keeps (Stems all) (· <:+ all) (· <:+ all) :=
  h.keeps (Watch.text all) (fun _ hStop => by cases hStop) 0

end AnnotationQuery.Parse
