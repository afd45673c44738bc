import AnnotationQuery.Proofs.Text.Quoted
import AnnotationQuery.Sql.Identifier

/-!
# Quoted identifiers and the walk over SQL

An identifier is quoted by writing every backtick in it twice. A walk takes a doubled backtick
for the end of one quote and the start of the next, so it is inside a quote again behind
it, and nothing of the identifier but these backticks is read outside quotes. But quoting leaves
backslashes alone, and the walk lets a backslash escape inside every kind of quote. Behind
an odd run of them the first of two backticks is skipped and the second one ends the quote;
or the closing backtick is skipped and ends nothing.

From such a place on the walk is astray. All backticks that are still to come, except the
last, come in pairs, and outside quotes and inside other quotes a pair does nothing; so the last one
opens a quote instead of closing it. There is no way back: an identifier is read as quoted
exactly if no backtick of it, nor the one that closes it, stands behind an odd run of
backslashes.

Main results:

* `Scan.walk_bare`, `Scan.quote_run_of_not_bare` — the walk over a name in backticks.
* `sealed_quoteIdentifier` — names that are read as quoted.
* `quoteIdentifier_opaque_iff` — exactly these.
-/

namespace AnnotationQuery.Sql

open Text (isEscapedAfter endsEscaped)

/-! ## Bare backticks -/

/-- Whether no backtick, nor the end, stands behind an odd run of backslashes, after a run that is
odd iff `odd`. -/
def isBare (odd : Bool) : List Char → Bool
  | [] => !odd
  | c :: cs => !(odd && c == '\x60') && isBare (isEscapedAfter odd c) cs

/-- No backtick of the name, nor the one behind it, stands behind an odd number of backslashes. -/
def BackticksBare (name : String) : Prop :=
  ∀ before after, name ++ "`" = before ++ "`" ++ after →
    Text.trailingBackslashes before.toList % 2 = 0

/-- The test for bare backticks, in terms of where a name can be cut at one. -/
theorem isBare_iff {odd : Bool} {cs : List Char} :
    isBare odd cs = true ↔
      ∀ before after, cs ++ ['\x60'] = before ++ '\x60' :: after →
        endsEscaped odd before = false := by
  -- on the name, with the run of backslashes before it
  induction cs generalizing odd with
  | nil =>
    rw [List.nil_append, Text.forall_split_cons, isBare, Bool.not_eq_true']
    simp
  | cons c cs ih =>
    rw [List.cons_append, Text.forall_split_cons, isBare, Bool.and_eq_true, ih]
    refine and_congr ?_ Iff.rfl
    cases odd <;> simp

/-- The backticks of a name are bare exactly if the test says so. -/
theorem backticksBare_iff {name : String} :
    BackticksBare name ↔ isBare false name.toList = true := by
  have hEven : ∀ before : List Char,
      endsEscaped false before = false ↔ Text.trailingBackslashes before % 2 = 0 := by
    intro before
    rw [Text.endsEscaped_eq_trailingBackslashes, beq_eq_false_iff_ne]
    omega
  rw [isBare_iff]
  -- both sides cut the name at a backtick, once as a text and once as characters
  constructor
  · intro h before after hSplit
    rw [hEven, ← String.toList_ofList (l := before)]
    refine h _ (String.ofList after) ?_
    rw [← String.toList_inj]
    simpa using hSplit
  · intro h before after hSplit
    rw [← hEven]
    refine h before.toList after.toList ?_
    rw [← String.toList_inj] at hSplit
    simpa using hSplit

/-- Without backslashes all backticks are bare. -/
theorem isBare_of_notMem {cs : List Char} (h : '\\' ∉ cs) : isBare false cs = true := by
  rw [isBare_iff]
  intro before after hSplit
  refine Text.endsEscaped_of_notMem fun hMem => h ?_
  have hWhole : '\\' ∈ cs ++ ['\x60'] := hSplit ▸ List.mem_append_left _ hMem
  simpa using hWhole

/-! ## Names that are read as quoted -/

theorem doubleBackticks_cons_of_ne {c : Char} (h : c ≠ '\x60') (cs : List Char) :
    doubleBackticks (c :: cs) = c :: doubleBackticks cs := by
  rw [doubleBackticks, if_neg h]

namespace Scan

/-- Inside backticks, whatever is neither a backtick nor escaped leaves the walk there. -/
theorem step_inside_backticks {c : Char} (h : c ≠ '\x60') (d : Nat) (odd : Bool) :
    (Scan.mk d (some '\x60') odd).step c = ⟨d, some '\x60', isEscapedAfter odd c⟩ := by
  by_cases hSlash : c = '\\'
  · cases odd <;> simp [step, hSlash, isEscapedAfter]
  · cases odd <;> simp [step, hSlash, h, isEscapedAfter]

/-- The walk closes the quote at the closing backtick, and reads no more than backticks before
it. -/
theorem walk_bare {odd : Bool} {cs : List Char} (h : isBare odd cs = true) (d : Nat) :
    (Scan.mk d (some '\x60') odd).run (doubleBackticks cs ++ ['\x60']) = ⟨d, none, false⟩ ∧
      (Scan.mk d (some '\x60') odd).meetsPartners (doubleBackticks cs ++ ['\x60']) = true ∧
      (Scan.mk d (some '\x60') odd).marks (doubleBackticks cs ++ ['\x60']) = 0 := by
  induction cs generalizing odd with
  | nil =>
    rw [isBare, Bool.not_eq_true'] at h
    subst h
    exact ⟨rfl, rfl, rfl⟩
  | cons c cs ih =>
    rw [isBare, Bool.and_eq_true] at h
    by_cases hTick : c = '\x60'
    · -- the quote is closed and opened again
      subst hTick
      have hOdd : odd = false := by simpa using h.1
      subst hOdd
      exact ih h.2
    · have hStep := step_inside_backticks hTick d odd
      obtain ⟨hRun, hPartners, hMarks⟩ := ih h.2
      rw [doubleBackticks_cons_of_ne hTick, List.cons_append]
      refine ⟨?_, ?_, ?_⟩
      · rw [run_cons, hStep, hRun]
      · rw [meetsPartners, hStep, hPartners]
        rfl
      · rw [marks, visible, hStep]
        exact hMarks

/-! ## Names that lead the walk astray -/

/-- The walk is outside quotes or inside quotes of another kind. -/
structure Astray (s : Scan) : Prop where
  settled : s.isSettled = true
  other   : s.quote ≠ some '\x60'

/-- Inside quotes of another kind a backtick means nothing. -/
theorem quote_step_backtick {s : Scan} {q : Char} (hs : s.quote = some q) (hq : q ≠ '\x60') :
    (s.step '\x60').quote = some q := by
  obtain ⟨d, _, e⟩ := s
  cases hs
  cases e <;> simp [step, Ne.symm hq]

/-- A doubled backtick leaves the walk astray. -/
theorem Astray.pair {s : Scan} (h : s.Astray) : ((s.step '\x60').step '\x60').Astray := by
  refine ⟨isSettled_step _ (isSettled_step _ h.settled), ?_⟩
  cases hQuote : s.quote with
  | none =>
    -- a quote that is opened and closed again
    have hPlain : s.escaped = false := by simpa [isSettled, hQuote] using h.settled
    simp [Scan.step, hQuote, hPlain, isQuote]
  | some q =>
    have hq : q ≠ '\x60' := fun hq => h.other (by rw [hQuote, hq])
    rw [quote_step_backtick (quote_step_backtick hQuote hq) hq, ← hQuote]
    exact h.other

/-- Any other character leaves the walk astray. -/
theorem Astray.step {s : Scan} (h : s.Astray) {c : Char} (hc : c ≠ '\x60') : (s.step c).Astray := by
  refine ⟨isSettled_step c h.settled, ?_⟩
  -- only a backtick opens the quote in question, and only the open quote can be closed
  obtain ⟨d, _ | q, e⟩ := s
  · simp only [Scan.step]
    repeat' split
    all_goals simp [hc]
  · have hq : q ≠ '\x60' := fun hq => h.other (by rw [hq])
    simp only [Scan.step]
    repeat' split
    all_goals simp [hq]

/-- What was meant to close the quote opens one, or is inside another one. -/
theorem Astray.closing {s : Scan} (h : s.Astray) : (s.step '\x60').quote ≠ none := by
  cases hQuote : s.quote with
  | none => simp [Scan.step, hQuote, isQuote]
  | some q =>
    rw [quote_step_backtick hQuote fun hq => h.other (by rw [hQuote, hq])]
    exact Option.some_ne_none q

/-- A walk that is astray does not get out of quotes by the end of the name. -/
theorem Astray.run {s : Scan} (h : s.Astray) (cs : List Char) :
    (s.run (doubleBackticks cs ++ ['\x60'])).quote ≠ none := by
  -- on the name: a backtick in it is doubled, and so comes as a pair
  induction cs generalizing s with
  | nil => exact h.closing
  | cons c cs ih =>
    by_cases hTick : c = '\x60'
    · subst hTick
      exact ih h.pair
    · rw [doubleBackticks_cons_of_ne hTick]
      exact ih (h.step hTick)

/-- A backtick behind an odd run of backslashes leaves a quote open at the end. -/
theorem quote_run_of_not_bare {odd : Bool} {cs : List Char} (h : isBare odd cs = false) (d : Nat) :
    ((Scan.mk d (some '\x60') odd).run (doubleBackticks cs ++ ['\x60'])).quote ≠ none := by
  induction cs generalizing odd with
  | nil =>
    rw [isBare, Bool.not_eq_false'] at h
    subst h
    exact Option.some_ne_none _
  | cons c cs ih =>
    by_cases hTick : c = '\x60'
    · subst hTick
      cases odd with
      | true =>
        -- the first backtick is skipped, the second one closes the quote
        have hOutside : (Scan.mk d none false).Astray := ⟨rfl, (Option.some_ne_none _).symm⟩
        exact hOutside.run cs
      | false => exact ih h
    · have hRest : isBare (isEscapedAfter odd c) cs = false := by
        simpa [isBare, hTick] using h
      rw [doubleBackticks_cons_of_ne hTick, List.cons_append, run_cons,
        step_inside_backticks hTick]
      exact ih hRest

end Scan

/-! ## Quoted identifiers -/

theorem toList_quoteIdentifier (name : String) :
    (quoteIdentifier name).toList = '\x60' :: (doubleBackticks name.toList ++ ['\x60']) := by
  simp [quoteIdentifier]

/-- A quoted name with bare backticks lets nothing out. -/
theorem sealed_quoteIdentifier {name : String} (h : BackticksBare name) :
    Sealed (quoteIdentifier name) := by
  obtain ⟨hRun, hPartners, hMarks⟩ := Scan.walk_bare (backticksBare_iff.mp h) 0
  refine ⟨⟨?_, ?_⟩, ?_⟩
  · rw [toList_quoteIdentifier]
    exact hPartners
  · rw [toList_quoteIdentifier]
    exact hRun
  · rw [placeholderCount, toList_quoteIdentifier]
    exact hMarks

/-- If a quoted name ends outside quotes, its backticks are bare. -/
theorem backticksBare_of_endsOutside {name : String}
    (h : endsOutside (quoteIdentifier name) = true) : BackticksBare name := by
  rw [backticksBare_iff]
  by_contra hNot
  rw [Bool.not_eq_true] at hNot
  rw [endsOutside, toList_quoteIdentifier, Option.isNone_iff_eq_none] at h
  exact Scan.quote_run_of_not_bare hNot 0 h

/-- Behind a text that ends inside a quote a placeholder is not seen. -/
theorem placeholderCount_append_mark {a : String} (h : endsOutside a = false) :
    placeholderCount (a ++ "?") = placeholderCount a := by
  show Scan.start.marks (a ++ "?").toList = Scan.start.marks a.toList
  rw [String.toList_append, Scan.marks_append]
  have hHidden : (Scan.start.run a.toList).marks ['?'] = 0 := by
    rw [endsOutside] at h
    simp [Scan.marks, Scan.visible, h]
  exact congrArg (Scan.start.marks a.toList + ·) hHidden

/-- **A quoted identifier is opaque exactly if its backticks are bare.** If no backtick of the name,
nor the one that closes it, stands behind an odd number of backslashes, then the quoted name is read
as complete, nothing in it is counted, and what follows is read as if it were not there. If there is
such a backtick, the walk ends inside a quote, and there is a text that is not read in the same way
behind the name. -/
theorem quoteIdentifier_opaque_iff (name : String) :
    ((∀ rest, placeholderCount (quoteIdentifier name ++ rest) = placeholderCount rest) ↔
      BackticksBare name) ∧
    (Sealed (quoteIdentifier name) ↔ BackticksBare name) ∧
    (endsOutside (quoteIdentifier name) = true ↔ BackticksBare name) := by
  refine ⟨⟨fun h => ?_, fun h rest => ?_⟩, ⟨fun h => ?_, sealed_quoteIdentifier⟩,
    ⟨backticksBare_of_endsOutside, fun h => (sealed_quoteIdentifier h).toComplete.endsOutside⟩⟩
  · -- a placeholder right behind the name tells the difference
    apply backticksBare_of_endsOutside
    by_contra hInside
    rw [Bool.not_eq_true] at hInside
    have hNothing := h ""
    rw [String.append_empty] at hNothing
    have hMark := h "?"
    rw [placeholderCount_append_mark hInside, hNothing] at hMark
    revert hMark
    decide
  · have hSealed := sealed_quoteIdentifier h
    show Scan.start.marks (quoteIdentifier name ++ rest).toList = Scan.start.marks rest.toList
    rw [String.toList_append, Scan.marks_append, hSealed.returns]
    have hNone : Scan.start.marks (quoteIdentifier name).toList = 0 := hSealed.unmarked
    rw [hNone, Nat.zero_add]
  · exact backticksBare_of_endsOutside h.toComplete.endsOutside

/-- A name that ends in a backslash takes its closing backtick along, and the placeholder behind it
is not seen. -/
theorem backslash_hides_placeholder :
    placeholderCount (quoteIdentifier "a\\" ++ "?") ≠ placeholderCount "?" := by
  decide

end AnnotationQuery.Sql
