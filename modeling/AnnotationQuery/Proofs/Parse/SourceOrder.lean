import AnnotationQuery.Proofs.Parse.Confined
import AnnotationQuery.Proofs.Parse.Extend

/-!
# The order of complaints

An error is the furthest failure at the moment of a recovery. That failure may have been
met long before, and far from what is skipped; still the errors of a filter come in the
order of the text, if its parentheses are closed. The reason is that no failure lies
behind the end of the term or the group that it belongs to, and that the recovery ends
there as well. So by the time the next term is read, everything that was met before lies
in front of it.

`Orderly` says this of one parser, for all places where it can start. It is proved from
groups up to conditions: what a parser finds when it starts (`Ready`), what it
leaves when it has read something (`Settled`) and when it fails (`Refused`). Of the
furthest failure `Settled` speaks only if what was read may end there. Otherwise
the next token ends the condition, or the group that it stands in, and then that failure
is not looked at again or is cut off by the partner of the parenthesis.

With a parenthesis left open there is no such end. The failure at the end of the text is
then reported for a term far in front of it.

Main results:

* `group_settled`, `term_orderly`, `chain_orderly` — the parts of a condition.
* `condition_orderly` — conditions.
* `diagnostics_in_source_order` — filters.
-/

namespace AnnotationQuery.Parse

open AnnotationQuery.Parse.Parser
open AnnotationQuery.Grammar

/-! ## Runs that report in order -/

/-- Where a failure lies in a text of `size` bytes. -/
def Failure.offset (size : Nat) (f : Failure) : Nat :=
  offsetOf size f.place

theorem Failure.offset_at (size : Nat) (ts : Tokens) :
    (Failure.at ts).offset size = front size ts := by
  rw [offset, place_at]
  rfl

/-- Of two failures that lie no further than `x`, the one that stays lies no further either. -/
theorem Notes.near_offer {size x : Nat} {n : Notes} {f : Failure}
    (h : ∀ g ∈ n.furthest, g.offset size ≤ x) (hf : f.offset size ≤ x) :
    ∃ g, (n.offer f).furthest = some g ∧ g.left ≤ f.left ∧ g.offset size ≤ x := by
  obtain ⟨g, hg, hLeft, hOne⟩ := n.furthest_offer f
  refine ⟨g, hg, hLeft, ?_⟩
  -- the furthest error is the new one or stays the old one
  rcases hOne with ⟨-, hPlace⟩ | ⟨k, hk, -, hPlace⟩
  · rw [Failure.offset, hPlace]
    exact hf
  · rw [Failure.offset, hPlace]
    exact h k hk

/-- Nothing that can still fail when `ts` are left lies before `x`. -/
def Below (size : Nat) (all ts : Tokens) (x : Nat) : Prop :=
  ∀ ⦃left place⦄, Stems all left place → left ≤ ts.length → x ≤ offsetOf size place

/-- The errors lie one behind the other. -/
def Notes.Sorted (size : Nat) (n : Notes) : Prop :=
  (n.errors.map (Failure.offset size)).Pairwise (· ≤ ·)

/-- What was reported before `ts`: the errors are sorted, and lie before everything that can still
fail. -/
structure Reported (size : Nat) (all ts : Tokens) (n : Notes) : Prop where
  traced : n.All (Stems all)
  sorted : n.Sorted size
  below : ∀ f ∈ n.errors, Below size all ts (f.offset size)

/-- Before `ts` are read, the furthest failure does not lie behind their front. -/
structure Ready (size : Nat) (all ts : Tokens) (n : Notes) : Prop
    extends Reported size all ts n where
  near : ∀ f ∈ n.furthest, f.offset size ≤ front size ts

/-- After reading up to `rest`: the errors are sorted and do not lie behind the front of `rest`. Nor
does the furthest failure, if that front is as `after` says. -/
structure Settled (size : Nat) (all : Tokens) (after : Token → Bool) (rest : Tokens) (n : Notes) :
    Prop where
  traced : n.All (Stems all)
  sorted : n.Sorted size
  behind : ∀ f ∈ n.errors, f.offset size ≤ front size rest
  near : Follows after (values rest) → ∀ f ∈ n.furthest, f.offset size ≤ front size rest

/-- After failing at `ts`: the errors are as before, and the furthest failure lies at the front of
`ts` or before it. -/
structure Refused (size : Nat) (all ts : Tokens) (n n' : Notes) : Prop where
  traced : n'.All (Stems all)
  errors : n'.errors = n.errors
  stuck : Follows endsTerm (values ts)
  furthest : ∃ g, n'.furthest = some g ∧ g.left ≤ ts.length ∧ g.offset size ≤ front size ts

/-- The parser reports in order when it reads `ts`. -/
def Orderly (size : Nat) (all : Tokens) (after : Token → Bool) (p : Parser Expr) (ts : Tokens) :
    Prop :=
  ∀ ⦃n⦄, Ready size all ts n →
    p.wp (fun _ rest n' => rest <:+ ts ∧ Settled size all after rest n') (Refused size all ts n)
      ts n

section
variable {size : Nat} {all ts us rest : Tokens} {n n' : Notes} {after after' : Token → Bool}

/-- Only the runs from these tokens matter. -/
theorem Orderly.congr {p q : Parser Expr} (hq : Orderly size all after q ts)
    (h : ∀ n, p ts n = q ts n) : Orderly size all after p ts := by
  intro n hn
  have hRun := hq hn
  unfold Parser.wp at hRun ⊢
  rw [h n]
  exact hRun

theorem Below.mono {x : Nat} (h : Below size all ts x) (hLength : us.length ≤ ts.length) :
    Below size all us x :=
  fun _ _ hStems hLeft => h hStems (hLeft.trans hLength)

theorem Below.le_front {x : Nat} (h : Below size all ts x) (hTs : ts <:+ all)
    (hRest : rest <:+ ts) : x ≤ front size rest :=
  h (.tested (hRest.trans hTs)) hRest.length_le

/-- Once a token is read, what lies up to it is before everything else. -/
theorem below_of_le_front (hOrder : InOrder size all) {t : Spanned Token} (ht : t :: ts <:+ all)
    {x : Nat} (h : x ≤ front size (t :: ts)) : Below size all ts x := by
  intro left place hStems hLeft
  -- a place that stems from a token is that of the token or of one behind it
  cases hStems with
  | @tested us hus =>
    have hSuffix : us <:+ t :: ts :=
      List.suffix_of_suffix_length_le hus ht (hLeft.trans (Nat.le_succ _))
    exact h.trans (front_le (hOrder.suffix ht) hSuffix)
  | @seen u us hus =>
    have hSuffix : u :: us <:+ t :: ts :=
      List.suffix_of_suffix_length_le hus ht (Nat.succ_le_succ hLeft)
    exact h.trans (front_le (hOrder.suffix ht) hSuffix)

/-- What is ready here is ready further on. -/
theorem Ready.suffix (h : Ready size all ts n) (hOrder : InOrder size all) (hTs : ts <:+ all)
    (hus : us <:+ ts) : Ready size all us n where
  traced := h.traced
  sorted := h.sorted
  below f hf := (h.below f hf).mono hus.length_le
  near f hf := (h.near f hf).trans (front_le (hOrder.suffix hTs) hus)

/-- A failure at the front changes nothing. -/
theorem Ready.offer (h : Ready size all ts n) (hTs : ts <:+ all) :
    Ready size all ts (n.offer (.at ts)) where
  traced := h.traced.offer_at (.tested hTs)
  sorted := by rw [Notes.Sorted, n.errors_offer]; exact h.sorted
  below f hf := by rw [n.errors_offer] at hf; exact h.below f hf
  near f hf := by
    obtain ⟨g, hg, -, hNear⟩ := Notes.near_offer h.near (Failure.offset_at size ts).le
    rw [hg] at hf
    cases hf
    exact hNear

/-- What fails at the front of `ts` is refused. -/
theorem Ready.refused (h : Ready size all ts n) (hTs : ts <:+ all)
    (hStuck : Follows endsTerm (values ts)) : Refused size all ts n (n.offer (.at ts)) where
  traced := (h.offer hTs).traced
  errors := n.errors_offer _
  stuck := hStuck
  furthest := by
    obtain ⟨g, hg, hLeft, hNear⟩ := Notes.near_offer h.near (Failure.offset_at size ts).le
    rw [Failure.left_at] at hLeft
    exact ⟨g, hg, hLeft, hNear⟩

theorem Settled.mono (h : Settled size all after rest n)
    (hAfter : ∀ t, after' t = true → after t = true) : Settled size all after' rest n :=
  ⟨h.traced, h.sorted, h.behind, fun hFollows => h.near (hFollows.mono hAfter)⟩

/-- A failure at the front changes nothing here either. -/
theorem Settled.offer (h : Settled size all after rest n) (hRest : rest <:+ all) :
    Settled size all after rest (n.offer (.at rest)) where
  traced := h.traced.offer_at (.tested hRest)
  sorted := by rw [Notes.Sorted, n.errors_offer]; exact h.sorted
  behind f hf := by rw [n.errors_offer] at hf; exact h.behind f hf
  near hFollows f hf := by
    obtain ⟨g, hg, -, hNear⟩ := Notes.near_offer (h.near hFollows) (Failure.offset_at size rest).le
    rw [hg] at hf
    cases hf
    exact hNear

/-- Behind what was read comes a token that may come there, and then one reads on. -/
theorem Settled.ready {t : Spanned Token} (h : Settled size all after (t :: ts) n)
    (hOrder : InOrder size all) (ht : t :: ts <:+ all) (hAfter : after t.value = true) :
    Ready size all ts n where
  traced := h.traced
  sorted := h.sorted
  below f hf := below_of_le_front hOrder ht (h.behind f hf)
  near f hf := (h.near (follows_cons.mpr hAfter) f hf).trans
    (front_le (hOrder.suffix ht) (List.suffix_cons t ts))

/-- One more token was read behind what was read. -/
theorem Settled.skip {t : Spanned Token} (h : Settled size all after (t :: ts) n)
    (hOrder : InOrder size all) (ht : t :: ts <:+ all) (hAfter : after t.value = true) :
    Settled size all (fun _ => true) ts n := by
  have hLe : front size (t :: ts) ≤ front size ts :=
    front_le (hOrder.suffix ht) (List.suffix_cons t ts)
  exact ⟨h.traced, h.sorted, fun f hf => (h.behind f hf).trans hLe,
    fun _ f hf => (h.near (follows_cons.mpr hAfter) f hf).trans hLe⟩

/-- Errors that were there before stay where they are while one reads on. -/
theorem Reported.behind (h : Reported size all ts n) (hTs : ts <:+ all) (hRest : rest <:+ ts)
    {f : Failure} (hf : f ∈ n.errors) : f.offset size ≤ front size rest :=
  (h.below f hf).le_front hTs hRest

/-- A new error at the end of the others. -/
theorem Reported.sorted_concat (h : Reported size all ts n) {g : Failure}
    (hg : Stems all g.left g.place) (hLeft : g.left ≤ ts.length) (furthest : Option Failure) :
    Notes.Sorted size ⟨furthest, n.errors ++ [g]⟩ := by
  rw [Notes.Sorted, List.map_append, List.pairwise_append]
  refine ⟨h.sorted, List.pairwise_singleton _ _, fun x hx y hy => ?_⟩
  obtain ⟨f, hf, rfl⟩ := List.mem_map.mp hx
  rw [List.map_singleton, List.mem_singleton] at hy
  rw [hy]
  exact h.below f hf hg hLeft

/-- A recovery that ends at `rest`: the furthest failure `g` becomes an error, and what the stand-in
remembers takes its place. -/
theorem Reported.recovered (h : Reported size all ts n) (hTs : ts <:+ all) (hRest : rest <:+ ts)
    {g : Failure} (hg : Stems all g.left g.place) (hLeft : g.left ≤ ts.length)
    (hgRest : g.offset size ≤ front size rest) {furthest : Option Failure}
    (hTraced : ∀ f ∈ furthest, Stems all f.left f.place)
    (hNear : ∀ f ∈ furthest, f.offset size ≤ front size rest) :
    Settled size all after rest ⟨furthest, n.errors ++ [g]⟩ where
  traced := by
    refine ⟨hTraced, fun f hf => ?_⟩
    rcases List.mem_append.mp hf with hf | hf
    · exact h.traced.2 f hf
    · rw [List.mem_singleton.mp hf]
      exact hg
  -- the new error is not before the others, as it was met behind them
  sorted := h.sorted_concat hg hLeft furthest
  behind f hf := by
    rcases List.mem_append.mp hf with hf | hf
    · exact h.behind hTs hRest hf
    · rw [List.mem_singleton.mp hf]
      exact hgRest
  near _ := hNear

end

/-! ## Groups -/

/-- If the token is not ruled out, it comes next. -/
theorem exists_cons_of_not_follows {t : Token} {ts : Tokens}
    (h : ¬ Follows (· != t) (values ts)) : ∃ s us, ts = ⟨t, s⟩ :: us := by
  cases ts with
  | nil => exact absurd (follows_nil _) h
  | cons u us =>
    refine ⟨u.span, us, ?_⟩
    by_contra hOther
    exact h (follows_cons.mpr (bne_iff_ne.mpr fun hEq => hOther (by rw [← hEq])))

/-- A token that comes next is read. -/
theorem Parser.wp_exactly_cons {t : Token} {s : Span} {ts : Tokens} {n : Notes}
    {Q : Unit → Tokens → Notes → Prop} {F : Notes → Prop} :
    (exactly t).wp Q F (⟨t, s⟩ :: ts) n ↔ Q () ts n := by
  unfold exactly
  rw [wp_bind]
  simp [Parser.wp, accept]
  exact Iff.rfl

/-- Behind an opening parenthesis stand the tokens `ts`. Its partner is the first token of `close`,
and behind that comes `rest`. -/
structure Enclosed (ts inner close rest : Tokens) : Prop where
  split : ts = inner ++ close
  closing : ∃ s, close = ⟨.symbol .rparen, s⟩ :: rest
  balanced : Balanced (values inner)

/-- Where nothing is left open, an opening parenthesis has a partner. -/
theorem exists_enclosed {s : Span} {ts : Tokens}
    (h : openAfter 0 (values (⟨.symbol .lparen, s⟩ :: ts)) = 0) :
    ∃ inner close rest, Enclosed ts inner close rest := by
  have hOpen : openAfter (0 + 1) (values ts) = 0 := h
  obtain ⟨w, w', hWord, hBalanced, -⟩ := exists_partner hOpen
  obtain ⟨inner, close, hSplit, rfl, hClose⟩ := exists_of_values_eq_append hWord
  obtain ⟨s', rest, rfl, -⟩ := exists_of_values_eq_cons hClose
  exact ⟨inner, _, rest, hSplit, ⟨s', rfl⟩, hBalanced⟩

section
variable {size : Nat} {all ts inner close rest : Tokens} {s : Span} {n : Notes}

theorem Enclosed.follows (h : Enclosed ts inner close rest) : Follows isClosing (values close) := by
  obtain ⟨s, rfl⟩ := h.closing
  exact follows_token rfl

theorem Enclosed.close_suffix (h : Enclosed ts inner close rest) : close <:+ ts :=
  ⟨inner, h.split.symm⟩

theorem Enclosed.rest_suffix (h : Enclosed ts inner close rest) : rest <:+ close := by
  obtain ⟨s, rfl⟩ := h.closing
  exact List.suffix_cons _ _

/-- What stops at closing parentheses has no failure behind the partner. -/
theorem Enclosed.inside (h : Enclosed ts inner close rest) (hOrder : InOrder size ts) {α : Type}
    {p : Parser α} (hp : p.Watched isClosing) :
    p.Keeps (fun _ place => offsetOf size place ≤ front size close) (Inside ts isClosing 0)
      (Inside ts isClosing 0) := by
  rw [h.split] at hOrder ⊢
  exact hp.inside hOrder h.balanced h.follows rfl rfl

/-- The parenthesis that is expected at the end is no further than the partner. -/
theorem Enclosed.inside_close (h : Enclosed ts inner close rest) (hOrder : InOrder size ts) :
    (symbol .rparen).Keeps (fun _ place => offsetOf size place ≤ front size close)
      (Inside ts isClosing 0) (fun _ => True) := by
  rw [h.split] at hOrder ⊢
  exact keeps_exactly (fun _ => (Watch.inside hOrder h.balanced h.follows rfl rfl).fine_here)
    fun _ _ _ => trivial

/-- What is skipped from a parenthesis to its partner has no failure behind the partner. -/
theorem balanced_confined (h : Enclosed ts inner close rest) (hOrder : InOrder size ts)
    (hn : n.All fun _ place => offsetOf size place ≤ front size close) :
    balanced.wp (fun _ _ n' => n'.All fun _ place => offsetOf size place ≤ front size close)
      (fun _ => True) (⟨.symbol .lparen, s⟩ :: ts) n := by
  have hMany : (many (round (ts.length + 1))).Watched isClosing := inferInstance
  have hRun := (h.inside hOrder hMany).bind (fun _ => h.inside_close hOrder) (inside_start _ _) hn
  show (balancedUpTo (ts.length + 1 + 1)).wp _ _ _ _
  rw [balancedUpTo, wp_bind, symbol, wp_exactly_cons]
  exact wp_mono hRun (fun _ _ _ h => h.2) (fun _ _ => trivial)

/-- If a group cannot be read, everything up to the partner is skipped. -/
theorem skipped_group_settled (h : Enclosed ts inner close rest) (hOrder : InOrder size all)
    (hAll : ⟨.symbol .lparen, s⟩ :: ts <:+ all)
    (hn : Ready size all (⟨.symbol .lparen, s⟩ :: ts) n) {g : Failure}
    (hg : Stems all g.left g.place) (hLeft : g.left ≤ ts.length)
    (hNear : g.offset size ≤ front size close) :
    (do balanced; return Expr.malformed : Parser (Span → Expr)).wp
      (fun _ rest' n' => rest' <:+ ts ∧
        Settled size all (fun _ => true) rest' ⟨n'.furthest, n'.errors ++ [g]⟩)
      (fun _ => False) (⟨.symbol .lparen, s⟩ :: ts) ⟨none, n.errors⟩ := by
  have hTs : ts <:+ ⟨.symbol .lparen, s⟩ :: ts := List.suffix_cons _ _
  have hClose := h.close_suffix.trans hTs
  have hRest := h.rest_suffix.trans hClose
  have hBehind : front size close ≤ front size rest :=
    front_le (hOrder.suffix (hClose.trans hAll)) h.rest_suffix
  have hRead : balanced.outcome (⟨.symbol .lparen, s⟩ :: ts) = some ((), rest) := by
    obtain ⟨s', hClosing⟩ := h.closing
    rw [h.split, hClosing]
    exact outcome_balanced h.balanced s s' rest
  -- four facts about one run: where it ends, that it reports nothing, and where it can fail
  have hWhere := wp_of_outcome hRead ⟨none, n.errors⟩
  have hQuiet := Quiet.errors (p := balanced) (⟨.symbol .lparen, s⟩ :: ts) ⟨none, n.errors⟩
  have hWatched : balanced.Watched isClosing := inferInstance
  have hTraced : balanced.wp _ _ (⟨.symbol .lparen, s⟩ :: ts) ⟨none, n.errors⟩ :=
    hWatched.stems all hAll ⟨nofun, hn.traced.2⟩
  have hConfined : balanced.wp _ _ (⟨.symbol .lparen, s⟩ :: ts) ⟨none, n.errors⟩ :=
    balanced_confined h (hOrder.suffix (hTs.trans hAll))
      ⟨nofun, fun f hf => hn.behind hAll hClose hf⟩
  rw [wp_bind]
  refine wp_mono (wp_and (wp_and hWhere hQuiet) (wp_and hTraced hConfined)) ?_ (fun _ h => h.1.1)
  rintro _ _ n' ⟨⟨⟨-, rfl⟩, hErrors⟩, ⟨-, hStems⟩, hFine⟩
  refine ⟨h.rest_suffix.trans h.close_suffix, ?_⟩
  rw [hErrors]
  exact hn.recovered hAll hRest hg (hLeft.trans (Nat.le_succ _)) (hNear.trans hBehind) hStems.1
    fun f hf => (hFine.1 f hf).trans hBehind

/-- A group whose parenthesis has a partner is always read. -/
theorem group_settled {c : Parser Expr} [hWatched : c.Watched isClosing]
    (h : Enclosed ts inner close rest) (hOrder : InOrder size all)
    (hAll : ⟨.symbol .lparen, s⟩ :: ts <:+ all)
    (hc : Orderly size all (Nonterminal.chain .or).after c ts)
    (hn : Ready size all (⟨.symbol .lparen, s⟩ :: ts) n) :
    (group c).wp
      (fun _ rest' n' => rest' <:+ ts ∧ Settled size all (fun _ => true) rest' n')
      (fun _ => False) (⟨.symbol .lparen, s⟩ :: ts) n := by
  have hTs : ts <:+ ⟨.symbol .lparen, s⟩ :: ts := List.suffix_cons _ _
  have hClose := h.close_suffix.trans hTs
  have hSkip : ∀ (n' : Notes) (g : Failure), n'.furthest = some g → Stems all g.left g.place →
      g.left ≤ ts.length → g.offset size ≤ front size close →
      (do balanced; return Expr.malformed : Parser (Span → Expr)).wp
        (fun _ rest' n'' => rest' <:+ ts ∧
          Settled size all (fun _ => true) rest' ⟨n''.furthest, n''.errors ++ n'.furthest.toList⟩)
        (fun _ => False) (⟨.symbol .lparen, s⟩ :: ts) ⟨none, n.errors⟩ := by
    intro n' g hg hStems hLeft hNear
    rw [hg]
    exact skipped_group_settled h hOrder hAll hn hStems hLeft hNear
  have hFine : n.All fun _ place => offsetOf size place ≤ front size close :=
    ⟨fun f hf => (hn.near f hf).trans (front_le (hOrder.suffix hAll) hClose),
      fun f hf => hn.behind hAll hClose hf⟩
  unfold group
  rw [wp_recover, wp_bind, symbol, wp_exactly_cons, wp_bind]
  have hRun := wp_and (hc (hn.suffix hOrder hAll hTs))
    (h.inside (hOrder.suffix (hTs.trans hAll)) hWatched (inside_start _ _) hFine)
  refine wp_mono hRun ?_ ?_
  · rintro e rest' n' ⟨⟨hSuffix, hSettled⟩, hHere, hConfined⟩
    have hRest' := hSuffix.trans (hTs.trans hAll)
    rw [wp_bind]
    refine wp_exactly (fun s' rest'' hCons => ?_) ?_
    · -- the group ends here, at the partner or before it
      subst hCons
      exact ⟨(List.suffix_cons _ _).trans hSuffix, hSettled.skip hOrder hRest' rfl⟩
    · rw [h.split] at hHere
      have hFront : front size rest' ≤ front size close :=
        front_le (hOrder.suffix hRest') (hHere.suffix h.balanced h.follows)
      rw [← Failure.offset_at] at hFront
      obtain ⟨g, hg, hLeft, hNear⟩ := Notes.near_offer hConfined.1 hFront
      rw [Failure.left_at] at hLeft
      have hTraced : (n'.offer (.at rest')).All (Stems all) :=
        hSettled.traced.offer_at (.tested hRest')
      exact hSkip _ g hg (hTraced.1 g hg) (hLeft.trans hSuffix.length_le) hNear
  · rintro n' ⟨hRefused, hConfined⟩
    obtain ⟨g, hg, hLeft, -⟩ := hRefused.furthest
    exact hSkip n' g hg (hRefused.traced.1 g hg) hLeft (hConfined.1 g hg)

end

/-! ## Terms -/

section
variable {size : Nat} {all ts : Tokens} {n : Notes} {c : Parser Expr}

/-- A predicate reports nothing. If a term may end where it ends, it has no failure behind that. -/
theorem predicate_settled (hOrder : InOrder size all) (hTs : ts <:+ all)
    (hn : Ready size all ts n) {g : Span → Expr} {rest : Tokens}
    (hRead : predicate.outcome ts = some (g, rest)) :
    predicate.wp (fun _ rest' n' => rest' <:+ ts ∧ Settled size all endsTerm rest' n')
      (fun _ => False) ts n := by
  obtain ⟨run, rfl, hRun⟩ := predicate_balanced hRead
  have hRest : rest <:+ run ++ rest := List.suffix_append run rest
  have hErrors : ∀ f ∈ n.errors, f.offset size ≤ front size rest := fun f hf =>
    hn.behind hTs hRest hf
  have hFine : n.All fun _ place => offsetOf size place ≤ front size rest :=
    ⟨fun f hf => (hn.near f hf).trans (front_le (hOrder.suffix hTs) hRest), hErrors⟩
  have hNear : predicate.wp
      (fun _ _ n' => Follows endsTerm (values rest) →
        ∀ f ∈ n'.furthest, f.offset size ≤ front size rest)
      (fun _ => True) (run ++ rest) n := by
    by_cases hEnds : Follows endsTerm (values rest)
    · have hInside := predicate_watched.inside (hOrder.suffix hTs) hRun hEnds rfl rfl
      exact wp_mono (hInside (inside_start _ _) hFine) (fun _ _ _ h _ => h.2.1) (fun _ _ => trivial)
    · -- no term ends there, and then nothing is said about the furthest failure
      exact wp_mono (wp_of_outcome hRead n) (fun _ _ _ _ h => absurd h hEnds) (fun _ _ => trivial)
  refine wp_mono (wp_and (wp_and (wp_of_outcome hRead n) (predicate_quiet.errors _ n))
    (wp_and (predicate_watched.stems all hTs hn.traced) hNear)) ?_ (fun _ h => h.1.1)
  rintro _ _ n' ⟨⟨⟨-, rfl⟩, hSame⟩, ⟨-, hTraced⟩, hNear⟩
  refine ⟨hRest, hTraced, ?_, ?_, hNear⟩
  · rw [Notes.Sorted, hSame]
    exact hn.sorted
  · rw [hSame]
    exact hErrors

/-- A term that cannot be read is skipped, and the furthest failure is reported for it. -/
theorem skipped_term_settled (hTs : ts <:+ all) (hn : Reported size all ts n)
    (hReject : (group c <|> predicate).Rejects ts) (hSkip : ¬ Follows endsTerm (values ts))
    (hNear : ∀ f ∈ n.furthest, f.offset size ≤ front size (skipped ts))
    (hFront : front size ts ≤ front size (skipped ts)) :
    (term c).wp (fun _ rest n' => rest <:+ ts ∧ Settled size all endsTerm rest n')
      (fun _ => False) ts n := by
  rw [← Failure.offset_at] at hFront
  obtain ⟨g, hg, hLeft, hgNear⟩ := Notes.near_offer hNear hFront
  rw [Failure.left_at] at hLeft
  have hTraced : (n.offer (.at ts)).All (Stems all) :=
    hn.traced.offer_at (.tested hTs)
  -- both ways to read a term reject it, so the furthest error is recorded and the term is skipped
  unfold term
  rw [wp_withSpan, wp_recover, hReject.wp, hg]
  rw [wp_bind]
  have hWatched : (atLeastOne skippedToken).Watched endsTerm := inferInstance
  have hStems : (atLeastOne skippedToken).wp _ _ ts ⟨none, n.errors⟩ :=
    hWatched.stems all hTs ⟨nofun, hn.traced.2⟩
  refine wp_mono (wp_and (atLeastOne_skippedToken_skips size hSkip _) hStems) ?_ (fun _ h => h.1)
  -- what is noted while skipping is the token that ended it
  rintro _ _ _ ⟨⟨rfl, f, rfl, hf⟩, -, hAll⟩
  have hOffer : Notes.offer ⟨none, n.errors⟩ f = ⟨some f, n.errors⟩ := rfl
  rw [hOffer] at hAll ⊢
  refine ⟨skipped_suffix ts, ?_⟩
  refine hn.recovered hTs (skipped_suffix ts) (hTraced.1 g hg) hLeft hgNear hAll.1 ?_
  rintro _ ⟨⟩
  exact hf.le

/-- Where neither a group nor a predicate can start. -/
theorem term_rejects (hOpen : Follows (· != .symbol .lparen) (values ts))
    (hOperand : Follows (fun t => !startsOperand t) (values ts)) :
    (group c <|> predicate).Rejects ts :=
  (group_rejects c hOpen).orElse (predicate_rejects hOperand)

/-- A term reports in order if the conditions inside its groups do. -/
theorem term_orderly [c.Watched isClosing] (hOrder : InOrder size all) (hTs : ts <:+ all)
    (hClosed : openAfter 0 (values ts) = 0)
    (hc : ∀ t us, ts = t :: us → Orderly size all (Nonterminal.chain .or).after c us) :
    Orderly size all endsTerm (term c) ts := by
  intro n hn
  have hFront : front size ts ≤ front size (skipped ts) :=
    front_le (hOrder.suffix hTs) (skipped_suffix ts)
  by_cases hEnds : Follows endsTerm (values ts)
  · -- nothing can be read here, and nothing is skipped
    have hReject : (group c <|> predicate).Rejects ts := by
      refine term_rejects (hEnds.mono fun t ht => ?_) (hEnds.mono fun t ht => ?_)
      · exact bne_iff_ne.mpr (by rintro rfl; cases ht)
      · cases t <;> first | rfl | cases ht
    obtain ⟨n', hStop⟩ := skippedToken_stops hEnds ⟨none, n.errors⟩
    unfold term atLeastOne
    rw [wp_withSpan, wp_recover, hReject.wp, wp_bind, wp_bind, Parser.wp, hStop]
    dsimp only
    rw [n.rewind_offer]
    exact hn.refused hTs hEnds
  · obtain ⟨⟨t, s⟩, us, rfl⟩ : ∃ t us, ts = t :: us := by
      cases ts with
      | nil => exact absurd (follows_nil _) hEnds
      | cons t us => exact ⟨t, us, rfl⟩
    by_cases hOpen : t = .symbol .lparen
    · -- the parenthesis has a partner, so the group is read or skipped, but it never fails
      subst hOpen
      obtain ⟨inner, close, rest, hEnclosed⟩ := exists_enclosed hClosed
      unfold term
      rw [wp_withSpan, wp_recover, wp_orElse]
      refine wp_mono (group_settled hEnclosed hOrder hTs (hc _ _ rfl) hn) ?_ (fun _ h => h.elim)
      rintro _ rest' n' ⟨hRest, hSettled⟩
      exact ⟨hRest.trans (List.suffix_cons _ _), hSettled.mono fun _ _ => rfl⟩
    · have hNoGroup : Follows (· != .symbol .lparen) (values (⟨t, s⟩ :: us)) :=
        follows_cons.mpr (bne_iff_ne.mpr hOpen)
      cases hStarts : startsOperand t with
      | true =>
        -- one operand is a predicate already, so this cannot fail either
        obtain ⟨g, rest, hRead⟩ := exists_outcome_predicate hStarts s us
        unfold term
        rw [wp_withSpan, wp_recover, wp_orElse, (group_rejects c hNoGroup).wp, n.rewind_offer]
        exact wp_mono (predicate_settled hOrder hTs (hn.offer hTs) hRead) (fun _ _ _ h => h)
          (fun _ h => h.elim)
      | false =>
        -- no term starts with this token: it is skipped with what follows it
        have hReject := term_rejects (c := c) hNoGroup (follows_token (by rw [hStarts]; rfl))
        refine wp_mono (skipped_term_settled hTs hn.toReported hReject hEnds
          (fun f hf => (hn.near f hf).trans hFront) hFront) (fun _ _ _ h => h) (fun _ h => h.elim)

/-- Fewer tokens are left to the condition inside a group. -/
def OrderlyInside (size : Nat) (all : Tokens) (c : Parser Expr) (ts : Tokens) : Prop :=
  ∀ us, us <:+ ts → us.length < ts.length →
    Orderly size all (Nonterminal.chain .or).after c us

theorem OrderlyInside.suffix {us : Tokens} (h : OrderlyInside size all c ts) (hus : us <:+ ts) :
    OrderlyInside size all c us :=
  fun vs hvs hLength => h vs (hvs.trans hus) (hLength.trans_le hus.length_le)

/-- Negations report in order, up to any bound above the number of tokens. -/
theorem negationUpTo_orderly [c.Watched isClosing] (hOrder : InOrder size all) {bound : Nat}
    (hBound : ts.length < bound) (hTs : ts <:+ all) (hClosed : openAfter 0 (values ts) = 0)
    (hc : OrderlyInside size all c ts) : Orderly size all endsTerm (negationUpTo c bound) ts := by
  induction bound generalizing ts with
  | zero => exact absurd hBound (Nat.not_lt_zero _)
  | succ bound ih =>
    have hTerm : Orderly size all endsTerm (term c) ts := by
      refine term_orderly hOrder hTs hClosed fun t us hCons => ?_
      subst hCons
      exact hc us (List.suffix_cons t us) (Nat.lt_succ_self _)
    intro n hn
    unfold negationUpTo
    rw [wp_orElse]
    by_cases hNot : Follows (· != .keyword .not) (values ts)
    · -- without a `NOT` the first alternative fails at once
      have hReject : (keyword .not).Rejects ts := rejects_exactly hNot
      rw [hReject.bind.withSpan.wp, n.rewind_offer]
      refine wp_mono (hTerm (hn.offer hTs)) (fun _ _ _ h => h) (fun n' h => ?_)
      exact ⟨h.traced, h.errors.trans (n.errors_offer _), h.stuck, h.furthest⟩
    · obtain ⟨s, us, rfl⟩ := exists_cons_of_not_follows hNot
      have hus : us <:+ ⟨.keyword .not, s⟩ :: us := List.suffix_cons _ _
      have hClosed' : openAfter 0 (values us) = 0 := hClosed
      have hInner := ih (Nat.lt_of_succ_lt_succ hBound) (hus.trans hTs) hClosed' (hc.suffix hus)
        (hn.suffix hOrder hTs hus)
      rw [wp_withSpan, wp_bind, keyword, wp_exactly_cons, wp_bind]
      refine wp_mono hInner (fun _ _ _ h => ⟨h.1.trans hus, h.2⟩) (fun n' h => ?_)
      -- nothing stands behind the negation, so the negation itself is skipped
      obtain ⟨g, hg, -, hNear⟩ := h.furthest
      have hSame : n'.rewind n = n' := by rw [Notes.rewind, ← h.errors]
      have hSkipped : skipped (⟨.keyword .not, s⟩ :: us) = us := by
        rw [skipped_cons_of_not rfl, skipped_of_follows h.stuck]
      have hReported : Reported size all (⟨.keyword .not, s⟩ :: us) n' := by
        refine ⟨h.traced, ?_, ?_⟩
        · rw [Notes.Sorted, h.errors]
          exact hn.sorted
        · rw [h.errors]
          exact hn.below
      rw [hSame]
      refine wp_mono (skipped_term_settled hTs hReported (term_rejects (follows_token rfl)
        (follows_token rfl)) (fun hEnds => by cases follows_cons.mp hEnds) ?_ ?_) (fun _ _ _ h => h)
        (fun _ h => h.elim)
      · rw [hSkipped, hg]
        rintro _ ⟨⟩
        exact hNear
      · rw [hSkipped]
        exact front_le (hOrder.suffix hTs) hus

end

/-! ## Chains and conditions -/

section
variable {size : Nat} {all ts : Tokens}

/-- Each member of a chain starts behind a connective, so what was reported before lies before what
the member can report. -/
theorem chain_orderly {k : Connective} {p : Parser Expr} (hOrder : InOrder size all)
    (hTs : ts <:+ all) (hp : ∀ us, us <:+ ts → Orderly size all k.member.after p us) :
    Orderly size all (Nonterminal.chain k).after (chain p (exactly k.token) k.join) ts := by
  -- one more member, or the end of the chain
  have hMore : ∀ bound rest n, rest <:+ ts → Settled size all k.member.after rest n →
      (manyUpTo (do exactly k.token; p) bound).wp
        (fun _ rest' n' => rest' <:+ rest ∧ Settled size all (Nonterminal.chain k).after rest' n')
        (fun _ => False) rest n := by
    intro bound
    induction bound with
    | zero =>
      intro rest n hRest h
      exact ⟨List.suffix_refl _, h.mono fun _ => k.after_member_of_after_chain⟩
    | succ bound ih =>
      intro rest n hRest h
      rw [wp_manyUpTo_succ, wp_bind]
      have hEnd := h.mono fun _ => k.after_member_of_after_chain
      by_cases hToken : Follows (· != k.token) (values rest)
      · rw [(rejects_exactly hToken).wp, n.rewind_offer]
        exact ⟨List.suffix_refl _, hEnd.offer (hRest.trans hTs)⟩
      · obtain ⟨s, us, rfl⟩ := exists_cons_of_not_follows hToken
        have hus : us <:+ ⟨k.token, s⟩ :: us := List.suffix_cons _ _
        have hReady := h.ready hOrder (hRest.trans hTs) k.after_member_token
        rw [wp_exactly_cons]
        refine wp_mono (hp us (hus.trans hRest) hReady) ?_ (fun n' hRefused => ?_)
        · rintro e rest' n' ⟨hRest', hSettled⟩
          refine wp_mono (ih rest' n' (hRest'.trans (hus.trans hRest)) hSettled) ?_ (fun _ h => h)
          rintro _ rest'' n'' ⟨hRest'', hSettled'⟩
          exact ⟨hRest''.trans (hRest'.trans hus), hSettled'⟩
        · -- the connective is left over, and nothing is said about the furthest failure
          refine ⟨List.suffix_refl _, hRefused.traced.rewind h.traced, h.sorted, h.behind, ?_⟩
          exact fun hFollows => absurd hFollows.ne_token hToken
  intro n hn
  unfold chain
  rw [wp_bind]
  refine wp_mono (hp ts (List.suffix_refl ts) hn) ?_ (fun _ h => h)
  rintro e rest n' ⟨hRest, hSettled⟩
  rw [wp_bind]
  refine wp_mono (hMore (rest.length + 1) rest n' hRest hSettled) ?_ (fun _ h => h.elim)
  rintro _ rest' n'' ⟨hRest', hSettled'⟩
  exact ⟨hRest'.trans hRest, hSettled'⟩

/-- Conditions report in order, up to any bound above the number of tokens. -/
theorem conditionUpTo_orderly (hOrder : InOrder size all) {bound : Nat}
    (hBound : ts.length < bound) (hTs : ts <:+ all) (hClosed : openAfter 0 (values ts) = 0) :
    Orderly size all (Nonterminal.chain .or).after (conditionUpTo bound) ts := by
  induction bound generalizing ts with
  | zero => exact absurd hBound (Nat.not_lt_zero _)
  | succ bound ih =>
    have hSuffix : ∀ us, us <:+ ts → openAfter 0 (values us) = 0 := fun us hus =>
      openAfter_suffix hClosed (hus.map Spanned.value)
    -- the parenthesis of a group is a token, so inside there are fewer and the bound suffices
    have hInside : OrderlyInside size all (conditionUpTo bound) ts := fun us hus hLength =>
      ih (by omega) (hus.trans hTs) (hSuffix us hus)
    have hNegation : ∀ us, us <:+ ts →
        Orderly size all endsTerm (negation (conditionUpTo bound)) us :=
      fun us hus => (negationUpTo_orderly hOrder (Nat.lt_succ_self us.length) (hus.trans hTs)
        (hSuffix us hus) (hInside.suffix hus)).congr fun _ => rfl
    have hConjunction : ∀ us, us <:+ ts →
        Orderly size all (Nonterminal.chain .and).after (conjunction (conditionUpTo bound)) us :=
      fun us hus => chain_orderly (k := .and) hOrder (hus.trans hTs)
        fun vs hvs => hNegation vs (hvs.trans hus)
    exact chain_orderly (k := .or) hOrder hTs hConjunction

/-- A condition reports in order wherever nothing is left open. -/
theorem condition_orderly (hOrder : InOrder size all) (hTs : ts <:+ all)
    (hClosed : openAfter 0 (values ts) = 0) :
    Orderly size all (Nonterminal.chain .or).after condition ts :=
  (conditionUpTo_orderly hOrder (Nat.lt_succ_self ts.length) hTs hClosed).congr fun _ => rfl

end

/-! ## Whole texts -/

theorem start_diagnostic (size : Nat) (ts : Tokens) (f : Failure) :
    (f.diagnostic (endSpan size ts)).span.start = f.offset size := by
  obtain ⟨left, found, _ | s⟩ := f <;> rfl

/-- The complaint about what is left over starts at its front. -/
theorem starts_leftover (size : Nat) {t : Spanned Token} {rest : Tokens} :
    (leftover (t :: rest)).map (·.span.start) = [front size (t :: rest)] := by
  have hLast := List.getLast?_eq_some_getLast (List.cons_ne_nil t rest)
  show [(hull (t :: rest)).start] = _
  rw [hull, List.head?_cons, hLast]
  rfl

/-- Before anything is read, nothing was reported. -/
theorem ready_empty (size : Nat) (all : Tokens) : Ready size all all Notes.empty where
  traced := ⟨nofun, nofun⟩
  sorted := .nil
  below := nofun
  near := nofun

/-- A filter whose parentheses are all closed is read with its errors in order. -/
theorem filter_settled {source : String} {ts : Tokens} (hLex : Token.lex source = .ok ts)
    (hClosed : openAfter 0 (values ts) = 0) :
    ∃ (o : Option Expr) (rest : Tokens) (n : Notes), filter source =
      ⟨some o, n.errors.map (·.diagnostic (endSpan (Text.byteLength source.toList) ts)) ++
        leftover rest⟩ ∧
      Settled (Text.byteLength source.toList) ts (Nonterminal.chain .or).after rest n := by
  have hCondition := condition_orderly (inOrder_of_lex hLex) (List.suffix_refl ts) hClosed
    (ready_empty _ ts)
  have hRun : (Parser.optional condition).wp
      (fun _ rest n =>
        Settled (Text.byteLength source.toList) ts (Nonterminal.chain .or).after rest n)
      (fun _ => False) ts Notes.empty := by
    rw [wp_optional]
    refine wp_mono hCondition (fun _ _ _ h => h.2) (fun n' h => ?_)
    -- nothing was read, and nothing is reported for that
    obtain ⟨g, hg, -, hNear⟩ := h.furthest
    refine ⟨h.traced.rewind ⟨nofun, nofun⟩, .nil, nofun, fun _ f hf => ?_⟩
    rw [Notes.rewind, hg] at hf
    cases hf
    exact hNear
  unfold filter readSource
  rw [hLex]
  exact exists_of_readTokens _ hRun

/-- **Complaints come in the order of the text.** If every opening parenthesis of a filter is
closed, then the diagnostics start one behind the other, however much of the filter is malformed. -/
theorem diagnostics_in_source_order (source : String)
    (hClosed : ∀ ts, Token.lex source = .ok ts → openAfter 0 (values ts) = 0) :
    ((filter source).diagnostics.map (·.span.start)).Pairwise (· ≤ ·) := by
  cases hLex : Token.lex source with
  | error d =>
    have hOnly : (filter source).diagnostics = [d] := by simp [filter, readSource, hLex]
    rw [hOnly]
    exact List.pairwise_singleton _ _
  | ok ts =>
    obtain ⟨o, rest, n, hRead, hSettled⟩ := filter_settled hLex (hClosed ts hLex)
    have hErrors : (n.errors.map (·.diagnostic (endSpan (Text.byteLength source.toList) ts))).map
        (·.span.start) = n.errors.map (Failure.offset (Text.byteLength source.toList)) := by
      rw [List.map_map]
      exact List.map_congr_left fun f _ => start_diagnostic _ ts f
    rw [hRead, List.map_append, hErrors]
    cases rest with
    | nil =>
      rw [leftover, List.isEmpty_nil, if_pos rfl, List.map_nil, List.append_nil]
      exact hSettled.sorted
    | cons t rest =>
      -- what is left over starts where the last error may lie at most
      rw [starts_leftover (Text.byteLength source.toList), List.pairwise_append]
      refine ⟨hSettled.sorted, List.pairwise_singleton _ _, fun x hx y hy => ?_⟩
      obtain ⟨f, hf, rfl⟩ := List.mem_map.mp hx
      rw [List.mem_singleton.mp hy]
      exact hSettled.behind f hf

/-- A filter with malformed terms, a negation of nothing, groups that cannot be read inside each
other, and something left over. -/
def tangledSource : String :=
  "= é AND (my('x') y) OR NOT AND ((id id) OR > (z)) label"

theorem tangledSource_in_order :
    (∀ ts, Token.lex tangledSource = .ok ts → openAfter 0 (values ts) = 0) ∧
      (filter tangledSource).diagnostics.map (·.span.start) = [0, 18, 28, 37, 44, 49] ∧
      ((filter tangledSource).diagnostics.map (·.span.start)).Pairwise (· ≤ ·) := by
  obtain ⟨hOpen, hStarts⟩ :
      ((Token.lex tangledSource).toOption.map fun ts => openAfter 0 (values ts)) = some 0 ∧
        (filter tangledSource).diagnostics.map (·.span.start) = [0, 18, 28, 37, 44, 49] := by
    decide +kernel
  have hClosed : ∀ ts, Token.lex tangledSource = .ok ts → openAfter 0 (values ts) = 0 := by
    intro ts hLex
    rw [hLex] at hOpen
    exact Option.some.inj hOpen
  exact ⟨hClosed, hStarts, diagnostics_in_source_order _ hClosed⟩

/-- With a parenthesis left open the order can be another. The outer group cannot be skipped, so it
is skipped as a term, and the end of the text is reported before what is left over. -/
theorem unclosed_group_out_of_order :
    (filter "((id = 'a')").diagnostics =
        [⟨.endOfInput, ⟨11, 11⟩⟩, ⟨.leftover, ⟨10, 11⟩⟩] ∧
      ¬ ((filter "((id = 'a')").diagnostics.map (·.span.start)).Pairwise (· ≤ ·) := by
  have hDiagnostics : (filter "((id = 'a')").diagnostics =
      [⟨.endOfInput, ⟨11, 11⟩⟩, ⟨.leftover, ⟨10, 11⟩⟩] := by
    decide +kernel
  refine ⟨hDiagnostics, ?_⟩
  rw [hDiagnostics]
  decide

end AnnotationQuery.Parse
