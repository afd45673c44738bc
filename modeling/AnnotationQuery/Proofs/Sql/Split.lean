import AnnotationQuery.Proofs.Sql.Scan

/-!
# Splitting SQL at its connectives

`splitTop` cuts a text wherever a separator stands outside quotes and outside
parentheses. Texts that were joined by the separator come apart again, if none of
them has an occurrence of its own and none runs into the separator that follows it.

Both conditions follow from one on the characters read outside quotes: whenever the
first letter of the connective stands at depth zero, a character other than its
second letter comes right after. Unlike having no occurrence, this is kept by
concatenation, whatever stands at the seams (`guarded_append`).

Main results:

* `splitTop_whole` — a whole text is not cut.
* `splitTop_of_joined` — whole texts that were joined are found again.
* `splitTop_intercalate` — so are the texts of a list, if none has the character in it that
  the separator starts with.
-/

namespace AnnotationQuery.Sql

/-! ## Splitting -/

namespace Scan

/-- The pieces between the occurrences of a separator at depth zero outside quotes. The first `used`
characters belong to an occurrence that has been cut out. -/
def split (separator : List Char) (s : Scan) : (used : Nat) → List Char → List (List Char)
  | _, [] => [[]]
  | used + 1, c :: cs => (s.step c).split separator used cs
  | 0, c :: cs =>
    if s.quote.isNone && s.depth == 0 && separator.isPrefixOf (c :: cs) then
      [] :: (s.step c).split separator (separator.length - 1) cs
    else ((s.step c).split separator 0 cs).modifyHead (c :: ·)

end Scan

/-- The pieces of a text between the occurrences of a separator outside quotes and parentheses. -/
def splitTop (separator sql : String) : List String :=
  (Scan.start.split separator.toList 0 sql.toList).map String.ofList

/-- Whether `x` at depth zero is always followed, and never by `y` at depth zero. -/
def guarded (x y : Char) : List (Char × Nat) → Bool
  | [] => true
  | p :: ps => (p != (x, 0) || ps.head?.any (· != (y, 0))) && guarded x y ps

/-- A separator: a blank, then `x` and `y`, and nothing in it that quotes or groups. -/
structure Separates (separator : String) (x y : Char) : Prop where
  starts : ∃ tail, separator.toList = ' ' :: x :: y :: tail
  plain  : ∀ c ∈ separator.toList, isPlain c = true
  letter : x ≠ ' '

theorem separates_or : Separates " OR " 'O' 'R' :=
  ⟨⟨[' '], rfl⟩, List.all_eq_true.mp (by decide), by decide⟩

theorem separates_and : Separates " AND " 'A' 'N' :=
  ⟨⟨['D', ' '], rfl⟩, List.all_eq_true.mp (by decide), by decide⟩

/-! ## Texts that are not cut -/

/-- Two guarded texts, one behind the other, are guarded: the first does not end in `x`. -/
theorem guarded_append {x y : Char} {as bs : List (Char × Nat)} (ha : guarded x y as = true)
    (hb : guarded x y bs = true) : guarded x y (as ++ bs) = true := by
  induction as with
  | nil => exact hb
  | cons p ps ih =>
    rw [guarded, Bool.and_eq_true, Bool.or_eq_true] at ha
    rw [List.cons_append, guarded, ih ha.2, Bool.and_true, Bool.or_eq_true]
    refine ha.1.imp_right fun hNext => ?_
    -- what follows `x` follows it in the longer text as well
    cases ps with
    | nil => cases hNext
    | cons q qs => exact hNext

/-- A text without `x` at depth zero is guarded. -/
theorem guarded_of_notMem {x y : Char} {as : List (Char × Nat)} (h : ∀ p ∈ as, p ≠ (x, 0)) :
    guarded x y as = true := by
  induction as with
  | nil => rfl
  | cons p ps ih =>
    rw [List.forall_mem_cons] at h
    rw [guarded, ih h.2, Bool.and_true, Bool.or_eq_true, bne_iff_ne]
    exact Or.inl h.1

namespace Scan

variable {x y : Char} {tail : List Char}

theorem visible_of_isPlain {s : Scan} {c : Char} {cs : List Char} (hs : s.quote = none)
    (hd : s.depth = 0) (hc : isPlain c = true) : s.visible (c :: cs) = (c, 0) :: s.visible cs := by
  rw [visible, step_of_isPlain hs hc, hs, hd]
  rfl

/-- In a guarded text no occurrence of the separator starts, not even one that would end in what
comes after the text. -/
theorem not_cut_of_guarded {s : Scan} {c : Char} {cs rest : List Char}
    (hPlain : ∀ d ∈ ' ' :: x :: y :: tail, isPlain d = true)
    (hGuarded : guarded x y (s.visible (c :: cs)) = true) (hRest : rest.head? ≠ some x) :
    ¬(s.quote.isNone && s.depth == 0 &&
      (' ' :: x :: y :: tail).isPrefixOf (c :: (cs ++ rest))) = true := by
  intro hCut
  simp only [Bool.and_eq_true, Option.isNone_iff_eq_none, beq_iff_eq, List.isPrefixOf] at hCut
  obtain ⟨⟨hQuote, hDepth⟩, rfl, hNext⟩ := hCut
  have hx : isPlain x = true := hPlain x (by simp)
  have hy : isPlain y = true := hPlain y (by simp)
  cases cs with
  | nil =>
    -- `x` would be the first character after the text
    cases rest with
    | nil => cases hNext
    | cons r rs =>
      simp only [List.nil_append, List.isPrefixOf, Bool.and_eq_true, beq_iff_eq] at hNext
      exact hRest (by rw [hNext.1]; rfl)
  | cons d ds =>
    simp only [List.cons_append, List.isPrefixOf, Bool.and_eq_true, beq_iff_eq] at hNext
    obtain ⟨rfl, hNext⟩ := hNext
    rw [visible_of_isPlain hQuote hDepth (hPlain ' ' (by simp)),
      visible_of_isPlain hQuote hDepth hx] at hGuarded
    simp only [guarded, Bool.and_eq_true, Bool.or_eq_true, bne_iff_ne, ne_eq, not_true,
      false_or] at hGuarded
    have hFollowed := hGuarded.2.1
    cases ds with
    | nil => cases hFollowed
    | cons e es =>
      -- `y` would be right after `x`
      simp only [List.cons_append, List.isPrefixOf, Bool.and_eq_true, beq_iff_eq] at hNext
      obtain ⟨rfl, -⟩ := hNext
      rw [visible_of_isPlain hQuote hDepth hy] at hFollowed
      simp at hFollowed

/-- What is behind a character of a guarded text is guarded. -/
theorem guarded_tail {s : Scan} {c : Char} {cs : List Char}
    (h : guarded x y (s.visible (c :: cs)) = true) :
    guarded x y ((s.step c).visible cs) = true := by
  rw [visible] at h
  split at h
  · rw [guarded, Bool.and_eq_true] at h
    exact h.2
  · exact h

/-- A guarded text goes into the first piece as a whole. -/
theorem split_append {s : Scan} {cs rest : List Char}
    (hPlain : ∀ d ∈ ' ' :: x :: y :: tail, isPlain d = true)
    (hGuarded : guarded x y (s.visible cs) = true) (hRest : rest.head? ≠ some x) :
    s.split (' ' :: x :: y :: tail) 0 (cs ++ rest) =
      ((s.run cs).split (' ' :: x :: y :: tail) 0 rest).modifyHead (cs ++ ·) := by
  -- on the first text: it is guarded from every place on, so it is cut nowhere
  induction cs generalizing s with
  | nil =>
    show _ = List.modifyHead id _
    rw [List.modifyHead_id]
    rfl
  | cons c cs ih =>
    rw [List.cons_append, split, if_neg (not_cut_of_guarded hPlain hGuarded hRest),
      ih (guarded_tail hGuarded), List.modifyHead_modifyHead]
    rfl

/-- Characters that have been cut out are passed over. -/
theorem split_used (separator : List Char) (s : Scan) (cs rest : List Char) :
    s.split separator cs.length (cs ++ rest) = (s.run cs).split separator 0 rest := by
  -- on the characters that are left of the separator
  induction cs generalizing s with
  | nil => rfl
  | cons c cs ih => exact ih (s.step c)

/-- An occurrence of the separator ends a piece. -/
theorem split_separator {c : Char} {cs rest : List Char}
    (hPlain : ∀ d ∈ c :: cs, isPlain d = true) :
    start.split (c :: cs) 0 (c :: cs ++ rest) = [] :: start.split (c :: cs) 0 rest := by
  have hCut : (start.quote.isNone && start.depth == 0 &&
      (c :: cs).isPrefixOf (c :: (cs ++ rest))) = true := by
    simp [start]
  -- nothing in the separator quotes or groups
  have hBack : start.run (c :: cs) = start := (walk_plain hPlain).1
  have hUsed := split_used (c :: cs) (start.step c) cs rest
  rw [← run_cons, hBack] at hUsed
  rw [List.cons_append, split, if_pos hCut, ← hUsed]
  rfl

/-- A text that nowhere has the first character of the separator at depth zero goes into the first
piece as a whole. -/
theorem split_append_of_absent {s : Scan} {c : Char} {cs text rest : List Char}
    (hPlain : isPlain c = true) (hAbsent : ∀ p ∈ s.visible text, p ≠ (c, 0)) :
    s.split (c :: cs) 0 (text ++ rest) =
      ((s.run text).split (c :: cs) 0 rest).modifyHead (text ++ ·) := by
  induction text generalizing s with
  | nil =>
    show _ = List.modifyHead id _
    rw [List.modifyHead_id]
    rfl
  | cons d text ih =>
    -- a cut would need the first character of the separator at depth zero
    have hNotCut : ¬(s.quote.isNone && s.depth == 0 &&
        (c :: cs).isPrefixOf (d :: (text ++ rest))) = true := by
      intro hCut
      simp only [Bool.and_eq_true, Option.isNone_iff_eq_none, beq_iff_eq, List.isPrefixOf] at hCut
      obtain ⟨⟨hQuote, hDepth⟩, rfl, -⟩ := hCut
      rw [visible_of_isPlain hQuote hDepth hPlain] at hAbsent
      exact hAbsent _ List.mem_cons_self rfl
    have hTail : ∀ p ∈ (s.step d).visible text, p ≠ (c, 0) := by
      intro p hp
      refine hAbsent p ?_
      rw [visible]
      split
      · exact List.mem_cons_of_mem _ hp
      · exact hp
    rw [List.cons_append, split, if_neg hNotCut, ih hTail, List.modifyHead_modifyHead]
    rfl

end Scan

/-- A complete text without an occurrence of the separator that starts with `x` and `y`. -/
structure Whole (x y : Char) (sql : String) : Prop where
  complete : Complete sql
  guarded  : guarded x y (outside sql) = true

section
variable {separator : String} {x y : Char} {a b : String}

/-- A whole text before a separator is the first piece. -/
theorem splitTop_append (h : Separates separator x y) (ha : Whole x y a) (b : String) :
    splitTop separator (a ++ separator ++ b) = a :: splitTop separator b := by
  obtain ⟨tail, hText⟩ := h.starts
  have hPlain := h.plain
  rw [hText] at hPlain
  -- the separator starts with a blank, so the first text does not run into it
  have hRest : (separator.toList ++ b.toList).head? ≠ some x := by
    rw [hText]
    intro hEq
    exact h.letter (Option.some.inj hEq).symm
  rw [hText] at hRest
  unfold splitTop
  rw [String.toList_append, String.toList_append, List.append_assoc, hText,
    Scan.split_append hPlain ha.guarded hRest, ha.complete.returns, Scan.split_separator hPlain]
  simp

/-- A whole text is one piece. -/
theorem splitTop_whole (h : Separates separator x y) (ha : Whole x y a) :
    splitTop separator a = [a] := by
  obtain ⟨tail, hText⟩ := h.starts
  have hPlain := h.plain
  rw [hText] at hPlain
  -- nothing stands behind it that an `x` at the end could run into
  have hNothing : (([] : List Char).head? ≠ some x) := by simp
  have hSplit := Scan.split_append hPlain ha.guarded hNothing
  rw [List.append_nil, ha.complete.returns] at hSplit
  unfold splitTop
  rw [hText, hSplit]
  simp [Scan.split]

/-- The pieces are joined, one by one, with the separator between them. -/
inductive Joined (separator : String) : List String → String → Prop
  | one (a : String) : Joined separator [a] a
  | more {pieces : List String} {a : String} (h : Joined separator pieces a) (b : String) :
      Joined separator (pieces ++ [b]) (a ++ separator ++ b)

/-- Whole pieces that are joined are cut apart again, whatever stands behind them. -/
theorem splitTop_joined_append (h : Separates separator x y) {pieces : List String}
    (hJoined : Joined separator pieces a) (hWhole : ∀ p ∈ pieces, Whole x y p) (b : String) :
    splitTop separator (a ++ separator ++ b) = pieces ++ splitTop separator b := by
  -- on how the text was joined, with anything after it: the last piece goes over to the rest
  induction hJoined generalizing b with
  | one a => exact splitTop_append h (hWhole a List.mem_cons_self) b
  | more hJoined c ih =>
    rename_i pieces a
    have hLast : Whole x y c := hWhole c (by simp)
    have hFront : ∀ p ∈ pieces, Whole x y p := fun p hp => hWhole p (List.mem_append_left _ hp)
    calc splitTop separator (a ++ separator ++ c ++ separator ++ b)
        = splitTop separator (a ++ separator ++ (c ++ separator ++ b)) := by
          simp only [String.append_assoc]
      _ = pieces ++ splitTop separator (c ++ separator ++ b) := ih hFront _
      _ = pieces ++ [c] ++ splitTop separator b := by
          rw [splitTop_append h hLast, List.append_assoc, List.singleton_append]

/-- Whole texts that were joined come apart again. -/
theorem splitTop_of_joined (h : Separates separator x y) {pieces : List String}
    (hJoined : Joined separator pieces a) (hWhole : ∀ p ∈ pieces, Whole x y p) :
    splitTop separator a = pieces := by
  cases hJoined with
  | one => exact splitTop_whole h (hWhole a List.mem_cons_self)
  | more hJoined b =>
    rw [splitTop_joined_append h hJoined fun p hp => hWhole p (List.mem_append_left _ hp),
      splitTop_whole h (hWhole b (by simp))]

example : splitTop " OR " "a OR (b OR c) AND ' OR '" = ["a", "(b OR c) AND ' OR '"] := by
  decide

/-! ## Whole texts -/

theorem Whole.append (ha : Whole x y a) (hb : Whole x y b) : Whole x y (a ++ b) := by
  refine ⟨ha.complete.append hb.complete, ?_⟩
  rw [outside_append ha.complete]
  exact guarded_append ha.guarded hb.guarded

/-- A complete text in which a character does not stand outside quotes and parentheses. -/
structure FreeOf (x : Char) (sql : String) : Prop where
  complete : Complete sql
  absent   : ∀ p ∈ outside sql, p ≠ (x, 0)

theorem FreeOf.whole (h : FreeOf x a) : Whole x y a :=
  ⟨h.complete, guarded_of_notMem h.absent⟩

/-- Between parentheses nothing is at depth zero. -/
theorem Parenthesized.freeOf (h : Parenthesized a) (hx : x ≠ ')') : FreeOf x a := by
  obtain ⟨body, hBody, rfl⟩ := h
  refine ⟨hBody.parens, fun p hp => ?_⟩
  rw [outside_parens hBody, List.mem_cons, List.mem_append, List.mem_singleton] at hp
  rcases hp with rfl | hp | rfl
  · simp
  · obtain ⟨q, -, rfl⟩ := List.mem_map.mp hp
    simp [Scan.sink]
  · simp [hx.symm]

theorem Parenthesized.whole (h : Parenthesized a) (hx : x ≠ ')') : Whole x y a :=
  (h.freeOf hx).whole

theorem whole_ofList {cs : List Char}
    (h : (Scan.start.meetsPartners cs && decide (Scan.start.run cs = Scan.start)) = true)
    (hGuarded : guarded x y (Scan.start.visible cs) = true) : Whole x y (String.ofList cs) :=
  ⟨complete_ofList h, by rw [outside, String.toList_ofList]; exact hGuarded⟩

/-! ## Lists -/

theorem FreeOf.append (ha : FreeOf x a) (hb : FreeOf x b) : FreeOf x (a ++ b) := by
  refine ⟨ha.complete.append hb.complete, ?_⟩
  rw [outside_append ha.complete]
  exact List.forall_mem_append.mpr ⟨ha.absent, hb.absent⟩

/-- A plain text is free of a character that it does not have. -/
theorem freeOf_of_plain (hPlain : ∀ c ∈ a.toList, isPlain c = true) (hx : x ∉ a.toList) :
    FreeOf x a := by
  refine ⟨complete_of_plain hPlain, ?_⟩
  rw [outside_of_plain hPlain, List.forall_mem_map]
  intro c hc hEq
  exact hx ((Prod.mk.inj hEq).1 ▸ hc)

/-- Texts without the first character of the separator come apart again after they were listed. -/
theorem splitTop_intercalate {tail : List Char} (hText : separator.toList = x :: tail)
    (hPlain : ∀ c ∈ separator.toList, isPlain c = true) {pieces : List String}
    (hSome : pieces ≠ []) (hFree : ∀ p ∈ pieces, FreeOf x p) :
    splitTop separator (separator.intercalate pieces) = pieces := by
  rw [hText] at hPlain
  induction pieces with
  | nil => exact absurd rfl hSome
  | cons p ps ih =>
    rw [List.forall_mem_cons] at hFree
    -- a piece shows no separator, so it goes to the first piece of what follows
    have hFront : ∀ rest, Scan.start.split (x :: tail) 0 (p.toList ++ rest) =
        (Scan.start.split (x :: tail) 0 rest).modifyHead (p.toList ++ ·) := by
      intro rest
      rw [Scan.split_append_of_absent (hPlain x List.mem_cons_self) hFree.1.absent,
        hFree.1.complete.returns]
    unfold splitTop at ih ⊢
    rw [hText] at ih ⊢
    cases ps with
    | nil =>
      rw [String.intercalate_singleton, ← List.append_nil p.toList, hFront]
      simp [Scan.split]
    | cons q qs =>
      have hRest := ih (List.cons_ne_nil q qs) hFree.2
      rw [String.intercalate_cons_cons, String.toList_append, String.toList_append,
        List.append_assoc, hText, hFront, Scan.split_separator hPlain, List.modifyHead_cons,
        List.map_cons, hRest, List.append_nil, String.ofList_toList]

example : splitTop ", " "(a, b) DESC, 'c, d', e" = ["(a, b) DESC", "'c, d'", "e"] := by
  decide

end

end AnnotationQuery.Sql
