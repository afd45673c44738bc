import AnnotationQuery.Parse.Basic

/-!
# A calculus for parsers

`Parser.wp p Q F ts n` says of one run that it ends well: either `p` reads a value
and `Q` holds of the value, the tokens left and the notes, or `p` fails and `F` holds of
the notes. Every combinator has one rule that takes `wp` of the whole apart into
`wp` of its parts, so nothing about a parser is proved by unfolding it.

Most parsers are used through a coarser contract, `Reads`. It relates what was
read to the number of errors that were reported on the way, and it says that a
failure leaves a furthest failure behind. The two belong together: `recover` turns
a furthest failure into an error, so there must be one.
-/

namespace AnnotationQuery.Parse

namespace Parser

variable {α β : Type}

/-! ## Weakest preconditions -/

/-- The run ends well: with a value, tokens and notes that satisfy `Q`, or in a failure with notes
that satisfy `F`. -/
def wp (p : Parser α) (Q : α → Tokens → Notes → Prop) (F : Notes → Prop) (ts : Tokens)
    (n : Notes) : Prop :=
  match p ts n with
  | ⟨none, n'⟩ => F n'
  | ⟨some (a, rest), n'⟩ => Q a rest n'

variable {Q : α → Tokens → Notes → Prop} {F : Notes → Prop} {ts : Tokens} {n : Notes}

/-- A run that ends well still does when less is asked of either end. -/
theorem wp_mono {p : Parser α} {Q' : α → Tokens → Notes → Prop} {F' : Notes → Prop}
    (h : p.wp Q F ts n) (hQ : ∀ a rest n', Q a rest n' → Q' a rest n')
    (hF : ∀ n', F n' → F' n') : p.wp Q' F' ts n := by
  unfold wp at h ⊢
  split
  · next n' hp => rw [hp] at h; exact hF n' h
  · next a rest n' hp => rw [hp] at h; exact hQ a rest n' h

theorem wp_pure {a : α} : (pure a : Parser α).wp Q F ts n ↔ Q a ts n := Iff.rfl

/-- A sequence ends well if its first part ends where the second part ends well from. A failure of
the first part is a failure of the whole. -/
theorem wp_bind {p : Parser β} {f : β → Parser α} :
    (p >>= f).wp Q F ts n ↔ p.wp (fun b rest n' => (f b).wp Q F rest n') F ts n := by
  show (Parser.bind p f).wp Q F ts n ↔ _
  unfold wp Parser.bind
  -- the first part fails or hands its value, tokens and notes on
  rcases p ts n with ⟨_ | ⟨b, rest⟩, n'⟩ <;> exact Iff.rfl

/-- A token is read or offered as the place of a failure. -/
theorem wp_accept {read : Token → Option β} {Q : Spanned β → Tokens → Notes → Prop}
    (hRead : ∀ t rest b, ts = t :: rest → read t.value = some b → Q ⟨b, t.span⟩ rest n)
    (hFail : F (n.offer (.at ts))) : (accept read).wp Q F ts n := by
  cases ts with
  | nil => exact hFail
  | cons t rest =>
    cases hb : read t.value with
    | none => simpa only [wp, accept, hb] using hFail
    | some b => simpa only [wp, accept, hb] using hRead t rest b rfl hb

/-- The one token is read or offered as the place of a failure, whatever the value. -/
theorem wp_exactly {t : Token} {Q : Unit → Tokens → Notes → Prop}
    (hRead : ∀ s rest, ts = ⟨t, s⟩ :: rest → Q () rest n)
    (hFail : F (n.offer (.at ts))) : (exactly t).wp Q F ts n := by
  unfold exactly
  rw [wp_bind]
  refine wp_accept (fun u rest b hts hu => ?_) hFail
  by_cases hut : u.value = t
  · exact hRead u.span rest (by rw [hts, ← hut])
  · simp [hut] at hu

/-- The second alternative runs on the same tokens, with the errors of the first taken back. -/
theorem wp_orElse {p q : Parser α} :
    (p <|> q).wp Q F ts n ↔ p.wp Q (fun n' => q.wp Q F ts (n'.rewind n)) ts n := by
  show (p.orElse q).wp Q F ts n ↔ _
  unfold wp orElse
  rcases p ts n with ⟨_ | ⟨a, rest⟩, n'⟩ <;> exact Iff.rfl

/-- A failure is as good as nothing read. -/
theorem wp_optional {p : Parser β} {Q : Option β → Tokens → Notes → Prop} :
    (optional p).wp Q F ts n ↔
      p.wp (fun b rest n' => Q (some b) rest n') (fun n' => Q none ts (n'.rewind n)) ts n := by
  unfold wp optional
  rcases p ts n with ⟨_ | ⟨b, rest⟩, n'⟩ <;> exact Iff.rfl

/-- The stand-in runs on the same tokens, without a furthest failure. If it reads something, the
furthest failure of the first attempt becomes an error; if not, the attempt counts. -/
theorem wp_recover {p standIn : Parser α} :
    (recover p standIn).wp Q F ts n ↔
      p.wp Q (fun n' => standIn.wp
        (fun a rest n'' => Q a rest ⟨n''.furthest, n''.errors ++ n'.furthest.toList⟩)
        (fun _ => F (n'.rewind n)) ts ⟨none, n.errors⟩) ts n := by
  unfold wp recover
  rcases p ts n with ⟨_ | ⟨a, rest⟩, n'⟩
  · rcases standIn ts ⟨none, n.errors⟩ with ⟨_ | ⟨a, rest⟩, n''⟩ <;> exact Iff.rfl
  · exact Iff.rfl

/-- The place is drawn around the tokens that were used up. -/
theorem wp_withSpan {p : Parser (Span → α)} :
    (withSpan p).wp Q F ts n ↔
      p.wp (fun f rest n' => Q (f (hull (consumed ts rest))) rest n') F ts n := by
  unfold wp withSpan
  rcases p ts n with ⟨_ | ⟨f, rest⟩, n'⟩ <;> exact Iff.rfl

/-- One round of repetition: what it reads comes before what the other rounds read. -/
theorem wp_manyUpTo_succ {p : Parser β} {k : Nat} {Q : List β → Tokens → Notes → Prop} :
    (manyUpTo p (k + 1)).wp Q F ts n ↔
      p.wp (fun b rest n' => (manyUpTo p k).wp (fun bs => Q (b :: bs)) F rest n')
        (fun n' => Q [] ts (n'.rewind n)) ts n := by
  dsimp only [wp, manyUpTo]
  rcases p ts n with ⟨_ | ⟨b, rest⟩, n'⟩
  · exact Iff.rfl
  · -- the other rounds start where this one ends
    show wp (manyUpTo p k >>= fun bs => pure (b :: bs)) Q F rest n' ↔ _
    rw [wp_bind]
    exact Iff.rfl

/-! ## The contract of a parser -/

/-- From these tokens the parser takes a front part away and reads a value `a` with `k` errors
reported such that `R a k`, or it fails and remembers a furthest failure. -/
def Reads (p : Parser α) (R : α → Nat → Prop) (ts : Tokens) : Prop :=
  ∀ n, p.wp (fun a rest n' => rest <:+ ts ∧ ∃ k, n'.errors.length = n.errors.length + k ∧ R a k)
    (fun n' => n'.furthest.isSome = true) ts n

variable {R : α → Nat → Prop}

/-- A contract may promise less. -/
theorem Reads.mono {S : α → Nat → Prop} {p : Parser α} (h : p.Reads R ts)
    (hRS : ∀ a k, R a k → S a k) : p.Reads S ts := by
  intro n
  refine wp_mono (h n) ?_ (fun _ hF => hF)
  rintro a rest n' ⟨hRest, k, hk, hR⟩
  exact ⟨hRest, k, hk, hRS a k hR⟩

/-- Only the runs from these tokens matter. -/
theorem Reads.congr {p q : Parser α} (hq : q.Reads R ts) (h : ∀ n, p ts n = q ts n) :
    p.Reads R ts := by
  intro n
  have hRun := hq n
  unfold wp at hRun ⊢
  rw [h n]
  exact hRun

theorem reads_pure {a : α} (h : R a 0) : (pure a : Parser α).Reads R ts := by
  intro n
  rw [wp_pure]
  exact ⟨List.suffix_refl ts, 0, rfl, h⟩

/-- Errors of the first part and errors of the second add up. -/
theorem Reads.bind {R : β → Nat → Prop} {S : α → Nat → Prop} {p : Parser β} {f : β → Parser α}
    (hp : p.Reads R ts)
    (hf : ∀ b k rest, R b k → rest <:+ ts → (f b).Reads (fun a j => S a (k + j)) rest) :
    (p >>= f).Reads S ts := by
  intro n
  rw [wp_bind]
  refine wp_mono (hp n) ?_ (fun _ hF => hF)
  rintro b rest n' ⟨hRest, k, hk, hR⟩
  refine wp_mono (hf b k rest hR hRest n') ?_ (fun _ hF => hF)
  rintro a rest' n'' ⟨hRest', j, hj, hS⟩
  exact ⟨hRest'.trans hRest, k + j, by omega, hS⟩

/-- The first part reports nothing. -/
theorem Reads.then {S : α → Nat → Prop} {P : β → Prop} {p : Parser β} {f : β → Parser α}
    (hp : p.Reads (fun b k => P b ∧ k = 0) ts)
    (hf : ∀ b rest, P b → rest <:+ ts → (f b).Reads S rest) : (p >>= f).Reads S ts := by
  refine hp.bind fun b k rest hb hRest => ?_
  rw [hb.2]
  simpa using hf b rest hb.1 hRest

/-- Once a failure has been offered there is a furthest one, be it an earlier one. -/
theorem isSome_furthest_offer (n : Notes) (f : Failure) : (n.offer f).furthest.isSome = true := by
  unfold Notes.offer
  split
  · rfl
  · -- the earlier failure stays, is replaced or shares the place
    next g hg =>
    split
    · rfl
    · split
      · rfl
      · rw [hg]; rfl

/-- A single token is read without errors. -/
theorem reads_accept {read : Token → Option β} {R : Spanned β → Nat → Prop}
    (h : ∀ t rest b, ts = t :: rest → read t.value = some b → R ⟨b, t.span⟩ 0) :
    (accept read).Reads R ts := by
  intro n
  refine wp_accept (fun t rest b hts hb => ?_) (isSome_furthest_offer n _)
  exact ⟨by rw [hts]; exact List.suffix_cons t rest, 0, rfl, h t rest b hts hb⟩

theorem reads_exactly {t : Token} : (exactly t).Reads (fun _ k => True ∧ k = 0) ts := by
  intro n
  refine wp_exactly (fun s rest hts => ?_) (isSome_furthest_offer n _)
  exact ⟨by rw [hts]; exact List.suffix_cons _ rest, 0, rfl, trivial, rfl⟩

/-- An exact token comes first; the rest is read from strictly fewer tokens. -/
theorem Reads.after_exactly {t : Token} {p : Parser α}
    (h : ∀ rest, rest <:+ ts → rest.length < ts.length → p.Reads R rest) :
    (do exactly t; p).Reads R ts := by
  intro n
  rw [wp_bind]
  refine wp_exactly (fun s rest hts => ?_) (isSome_furthest_offer n _)
  -- the token is gone, so whatever is left is shorter than the tokens were
  have hSuffix : rest <:+ ts := by rw [hts]; exact List.suffix_cons _ rest
  refine wp_mono (h rest hSuffix (by rw [hts]; simp) n) ?_ (fun _ hF => hF)
  rintro a rest' n' ⟨hRest', hR⟩
  exact ⟨hRest'.trans hSuffix, hR⟩

/-- Alternatives with one contract have it together. -/
theorem Reads.orElse {p q : Parser α} (hp : p.Reads R ts) (hq : q.Reads R ts) :
    (p <|> q).Reads R ts := by
  intro n
  rw [wp_orElse]
  -- the second alternative starts from the errors that there were before the first
  exact wp_mono (hp n) (fun _ _ _ hQ => hQ) (fun n' _ => hq (n'.rewind n))

/-- Nothing read is nothing reported. -/
theorem Reads.optional {p : Parser β} {R : Option β → Nat → Prop}
    (hp : p.Reads (fun b k => R (some b) k) ts) (hNone : R none 0) :
    (optional p).Reads R ts := by
  intro n
  rw [wp_optional]
  exact wp_mono (hp n) (fun _ _ _ hQ => hQ)
    (fun n' _ => ⟨List.suffix_refl ts, 0, rfl, hNone⟩)

/-- A stand-in is read with one more error than it reports itself, the furthest failure. -/
theorem Reads.recover {p standIn : Parser α} (hp : p.Reads R ts)
    (hs : standIn.Reads (fun a k => R a (k + 1)) ts) : (recover p standIn).Reads R ts := by
  intro n
  rw [wp_recover]
  refine wp_mono (hp n) (fun _ _ _ hQ => hQ) (fun n' hFurthest => ?_)
  refine wp_mono (hs ⟨none, n.errors⟩) ?_ (fun _ _ => hFurthest)
  rintro a rest n'' ⟨hRest, k, hk, hR⟩
  -- the first attempt has left a furthest failure behind, and that is the one more error
  obtain ⟨f, hf⟩ := Option.isSome_iff_exists.mp hFurthest
  refine ⟨hRest, k + 1, ?_, hR⟩
  simp [hf] at hk ⊢
  omega

/-- A contract that holds for every place holds for the one that is drawn. -/
theorem Reads.withSpan {p : Parser (Span → α)} (hp : p.Reads (fun f k => ∀ s, R (f s) k) ts) :
    (withSpan p).Reads R ts := by
  intro n
  rw [wp_withSpan]
  refine wp_mono (hp n) ?_ (fun _ hF => hF)
  rintro f rest n' ⟨hRest, k, hk, hR⟩
  exact ⟨hRest, k, hk, hR _⟩

/-- A value with its place is read as the value is. -/
theorem Reads.located {p : Parser β} {R : Spanned β → Nat → Prop}
    (hp : p.Reads (fun b k => ∀ s, R ⟨b, s⟩ k) ts) : (located p).Reads R ts := by
  refine Reads.withSpan (hp.bind fun b k rest hR _ => ?_)
  exact reads_pure fun s => by simpa using hR s

/-! ## Repetition -/

/-- The values are each related to a number, and the numbers add up to `k`. -/
def Each (R : α → Nat → Prop) : List α → Nat → Prop
  | [], k => k = 0
  | a :: as, k => ∃ i j, R a i ∧ Each R as j ∧ k = i + j

/-- If no value was read with an error, there is no error in all. -/
theorem each_silent {P : α → Prop} {as : List α} {k : Nat}
    (h : Each (fun a k => P a ∧ k = 0) as k) : (∀ a ∈ as, P a) ∧ k = 0 := by
  induction as generalizing k with
  | nil => exact ⟨by simp, h⟩
  | cons a as ih =>
    obtain ⟨i, j, ⟨ha, rfl⟩, hAs, rfl⟩ := h
    obtain ⟨hP, rfl⟩ := ih hAs
    exact ⟨by simpa using ⟨ha, hP⟩, rfl⟩

/-- Repetition up to a bound never fails, and the errors of its rounds add up. -/
theorem wp_manyUpTo {p : Parser α} (hp : ∀ rest, rest <:+ ts → p.Reads R rest) (bound : Nat) :
    (manyUpTo p bound).wp
      (fun as rest n' => rest <:+ ts ∧ ∃ k, n'.errors.length = n.errors.length + k ∧ Each R as k)
      (fun _ => False) ts n := by
  induction bound generalizing ts n with
  | zero => exact ⟨List.suffix_refl ts, 0, rfl, rfl⟩
  | succ bound ih =>
    rw [wp_manyUpTo_succ]
    refine wp_mono (hp ts (List.suffix_refl ts) n) ?_
      (fun n' _ => ⟨List.suffix_refl ts, 0, rfl, rfl⟩)
    -- the round's errors come on top of those of the rounds after it
    rintro a rest n' ⟨hRest, i, hi, hR⟩
    refine wp_mono (ih (n := n') fun r hr => hp r (hr.trans hRest)) ?_ (fun _ hF => hF)
    rintro as rest' n'' ⟨hRest', j, hj, hEach⟩
    exact ⟨hRest'.trans hRest, i + j, by omega, i, j, hR, hEach, rfl⟩

/-- Repetition reads values one after the other, each as its contract says. -/
theorem Reads.many {p : Parser α} (hp : ∀ rest, rest <:+ ts → p.Reads R rest) :
    (many p).Reads (Each R) ts := by
  -- the bound depends on the tokens, so it is fixed together with them
  have hBounded : (manyUpTo p (ts.length + 1)).Reads (Each R) ts := fun n =>
    wp_mono (wp_manyUpTo hp (ts.length + 1)) (fun _ _ _ hQ => hQ) (fun _ hF => hF.elim)
  exact hBounded.congr fun _ => rfl

/-- One value, and then as many as there are. -/
theorem Reads.atLeastOne {p : Parser α} (hp : ∀ rest, rest <:+ ts → p.Reads R rest) :
    (atLeastOne p).Reads (Each R) ts := by
  refine (hp ts (List.suffix_refl ts)).bind fun first i rest hFirst hRest => ?_
  refine (Reads.many fun r hr => hp r (hr.trans hRest)).bind fun more j _ hEach _ => ?_
  exact reads_pure ⟨i, j, hFirst, hEach, by omega⟩

/-- A list has an item, and its separators report nothing. -/
theorem Reads.separatedBy {p : Parser α} {separator : Parser Unit}
    (hp : ∀ rest, rest <:+ ts → p.Reads R rest)
    (hs : ∀ rest, separator.Reads (fun _ k => True ∧ k = 0) rest) :
    (separatedBy p separator).Reads (fun as k => as ≠ [] ∧ Each R as k) ts := by
  refine (hp ts (List.suffix_refl ts)).bind fun first i rest hFirst hRest => ?_
  -- a separator and the item after it are one round of the repetition
  have hMore : ∀ r, r <:+ rest → (do separator; p).Reads R r := fun r hr =>
    (hs r).then fun _ r' _ hr' => hp r' ((hr'.trans hr).trans hRest)
  refine (Reads.many hMore).bind fun more j _ hEach _ => ?_
  exact reads_pure ⟨List.cons_ne_nil _ _, i, j, hFirst, hEach, by omega⟩

/-- What is read in a row is joined from the left, one at a time. -/
theorem each_foldl {S : α → Nat → Prop} {join : α → α → α}
    (hJoin : ∀ a b i j, S a i → R b j → S (join a b) (i + j)) {as : List α} {a : α} {i j : Nat}
    (ha : S a i) (hAs : Each R as j) : S (as.foldl join a) (i + j) := by
  -- on the members: each is joined to what there is so far, and its errors are added
  induction as generalizing a i j with
  | nil =>
    have hj : j = 0 := hAs
    rw [hj]
    exact ha
  | cons b bs ih =>
    obtain ⟨k, l, hb, hBs, rfl⟩ := hAs
    rw [List.foldl_cons, ← Nat.add_assoc]
    exact ih (hJoin a b i k ha hb) hBs

/-- A chain is read if its first member is as the whole must be, and joining one more member keeps
it so. -/
theorem Reads.chain {S : α → Nat → Prop} {p : Parser α} {connective : Parser Unit}
    {join : α → α → α} (hp : ∀ rest, rest <:+ ts → p.Reads R rest)
    (hc : ∀ rest, connective.Reads (fun _ k => True ∧ k = 0) rest)
    (hFirst : ∀ a k, R a k → S a k)
    (hJoin : ∀ a b i j, S a i → R b j → S (join a b) (i + j)) :
    (chain p connective join).Reads S ts := by
  refine (hp ts (List.suffix_refl ts)).bind fun first i rest hR hRest => ?_
  -- a connective and the member after it are one round of the repetition
  have hMore : ∀ r, r <:+ rest → (do connective; p).Reads R r := fun r hr =>
    (hc r).then fun _ r' _ hr' => hp r' ((hr'.trans hr).trans hRest)
  refine (Reads.many hMore).bind fun more j _ hEach _ => ?_
  exact reads_pure (each_foldl hJoin (hFirst first i hR) hEach)

end Parser

end AnnotationQuery.Parse
