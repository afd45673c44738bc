import AnnotationQuery.Proofs.Sql.Placeholder
import AnnotationQuery.Text.Quoted
import Mathlib.Data.List.Induction

/-!
# Quoted text and the walk over SQL

Escaping counts backslashes, and so does a walk inside quotes: both keep one bit,
whether the run of backslashes just passed is odd. `endsEscaped` is that bit by
itself. Escaping is written so that the walk over the escaped text carries the
same bit as the walk over the text (`walk_escapeAfter`); no quote inside can then
be taken for the closing one.

Main results:

* `isQuotable_iff_endsEscaped` — a text can be quoted exactly if the bit is off at its end.
* `complete_quote`, `outside_quote` — a quoted text is complete, and all that is
  read of it outside quotes is its opening quote.
* `escape_escape` — escaping twice is escaping once.
-/

namespace AnnotationQuery.Text

open AnnotationQuery.Sql (Scan Complete Sealed outside)

/-! ## Runs of backslashes -/

/-- Whether the run of backslashes before the next character is odd. -/
def isEscapedAfter (odd : Bool) (c : Char) : Bool :=
  c == '\\' && !odd

/-- Whether the run of backslashes at the end of a text is odd, after one that is odd iff `odd`. -/
def endsEscaped (odd : Bool) (cs : List Char) : Bool :=
  cs.foldl isEscapedAfter odd

@[simp] theorem endsEscaped_nil (odd : Bool) : endsEscaped odd [] = odd := rfl

@[simp] theorem endsEscaped_cons (odd : Bool) (c : Char) (cs : List Char) :
    endsEscaped odd (c :: cs) = endsEscaped (isEscapedAfter odd c) cs := rfl

theorem isEscapedAfter_backslash (odd : Bool) : isEscapedAfter odd '\\' = !odd := by
  simp [isEscapedAfter]

theorem isEscapedAfter_of_ne {c : Char} (odd : Bool) (h : c ≠ '\\') :
    isEscapedAfter odd c = false := by
  simp [isEscapedAfter, h]

theorem endsEscaped_append (odd : Bool) (as bs : List Char) :
    endsEscaped odd (as ++ bs) = endsEscaped (endsEscaped odd as) bs :=
  List.foldl_append

/-- Without a backslash there is no odd run of them. -/
theorem endsEscaped_of_notMem {cs : List Char} (h : '\\' ∉ cs) : endsEscaped false cs = false := by
  induction cs with
  | nil => rfl
  | cons c cs ih =>
    rw [List.mem_cons, not_or] at h
    rw [endsEscaped_cons, isEscapedAfter_of_ne false (Ne.symm h.1), ih h.2]

/-- A place where `q` stands is the first character or a place in the rest. -/
theorem forall_split_cons {q c : Char} {cs : List Char} {P : List Char → Prop} :
    (∀ before after, c :: cs = before ++ q :: after → P before) ↔
      (c = q → P []) ∧ ∀ before after, cs = before ++ q :: after → P (c :: before) := by
  constructor
  · intro h
    refine ⟨?_, fun before after hSplit => h (c :: before) after (by rw [hSplit]; rfl)⟩
    rintro rfl
    exact h [] cs rfl
  · rintro ⟨hFirst, hLater⟩ before after hSplit
    -- the cut is at the first character or behind it
    cases before with
    | nil => exact hFirst (List.cons.inj hSplit).1
    | cons b before =>
      obtain ⟨rfl, hTail⟩ := List.cons.inj hSplit
      exact hLater before after hTail

/-- One more character makes the run of backslashes longer or ends it. -/
theorem trailingBackslashes_concat (cs : List Char) (c : Char) :
    trailingBackslashes (cs ++ [c]) = if c = '\\' then trailingBackslashes cs + 1 else 0 := by
  rw [trailingBackslashes, List.reverse_append, List.reverse_singleton, List.singleton_append,
    List.takeWhile_cons]
  by_cases hc : c = '\\' <;> simp [hc, trailingBackslashes]

/-- The run at the end is odd exactly if the number of its backslashes is. -/
theorem endsEscaped_eq_trailingBackslashes (cs : List Char) :
    endsEscaped false cs = (trailingBackslashes cs % 2 == 1) := by
  -- from the end, where the run is
  induction cs using List.reverseRecOn with
  | nil => rfl
  | append_singleton cs c ih =>
    rw [endsEscaped_append, ih, trailingBackslashes_concat]
    show isEscapedAfter (trailingBackslashes cs % 2 == 1) c = _
    by_cases hc : c = '\\'
    · rw [if_pos hc, isEscapedAfter, hc, Bool.eq_iff_iff]
      simp
      omega
    · simp [isEscapedAfter, hc]

/-- A text can be quoted exactly if the run at its end is not odd. -/
theorem isQuotable_iff_endsEscaped (s : String) :
    isQuotable s = true ↔ endsEscaped false s.toList = false := by
  rw [endsEscaped_eq_trailingBackslashes, isQuotable, beq_iff_eq, beq_eq_false_iff_ne]
  omega

/-! ## Walking over escaped text -/

/-- Inside single quotes, the walk over escaped text reads nothing outside quotes, keeps the quote
open and carries the bit of the text itself. -/
theorem walk_escapeAfter (d : Nat) (odd : Bool) (cs : List Char) :
    (Scan.mk d (some '\'') odd).run (escapeAfter odd cs) = ⟨d, some '\'', endsEscaped odd cs⟩ ∧
      (Scan.mk d (some '\'') odd).visible (escapeAfter odd cs) = [] ∧
      (Scan.mk d (some '\'') odd).meetsPartners (escapeAfter odd cs) = true := by
  induction cs generalizing odd with
  | nil => exact ⟨rfl, rfl, rfl⟩
  | cons c cs ih =>
    rw [escapeAfter, endsEscaped_cons]
    by_cases hb : c = '\\'
    · -- the run grows by one on both sides
      subst hb
      rw [if_pos rfl, isEscapedAfter_backslash]
      cases odd <;> simpa [Scan.visible, Scan.meetsPartners, Scan.step] using ih _
    · rw [if_neg hb, isEscapedAfter_of_ne odd hb]
      by_cases hq : c = '\''
      · -- a quote is escaped here, by its own backslash or by the inserted one
        subst hq
        cases odd <;> simpa [Scan.visible, Scan.meetsPartners, Scan.step] using ih false
      · cases odd <;> simpa [Scan.visible, Scan.meetsPartners, Scan.step, hb, hq] using ih false

/-- A quoted text: its characters, escaped, between single quotes. -/
theorem toList_quote (s : String) :
    (quote s).toList = '\'' :: (escapeAfter false s.toList ++ ['\'']) := by
  simp [quote, escape]

/-- A text that can be quoted ends its quotes exactly at the closing one. -/
theorem complete_quote {s : String} (h : isQuotable s = true) : Complete (quote s) := by
  rw [isQuotable_iff_endsEscaped] at h
  obtain ⟨hRun, -, hPartners⟩ := walk_escapeAfter 0 false s.toList
  -- the last backslash does not take the closing quote along
  rw [h] at hRun
  constructor
  · rw [toList_quote, Scan.meetsPartners]
    show (true && (Scan.mk 0 (some '\'') false).meetsPartners _) = true
    rw [Scan.meetsPartners_append, hPartners, hRun]
    rfl
  · rw [toList_quote, Scan.run_cons]
    show (Scan.mk 0 (some '\'') false).run _ = Scan.start
    rw [Scan.run_append, hRun]
    rfl

/-- Of a quoted text only the first quote is read outside quotes. -/
theorem outside_quote {s : String} (h : isQuotable s = true) : outside (quote s) = [('\'', 0)] := by
  rw [isQuotable_iff_endsEscaped] at h
  obtain ⟨hRun, hVisible, -⟩ := walk_escapeAfter 0 false s.toList
  rw [h] at hRun
  rw [outside, toList_quote, Scan.visible]
  show ('\'', 0) :: (Scan.mk 0 (some '\'') false).visible _ = _
  rw [Scan.visible_append, hVisible, hRun]
  rfl

/-- Whatever a text holds, in quotes it is no placeholder. -/
theorem sealed_quote {s : String} (h : isQuotable s = true) : Sealed (quote s) := by
  refine ⟨complete_quote h, ?_⟩
  show (outside (quote s)).countP _ = 0
  rw [outside_quote h]
  rfl

/-! ## Escaping twice -/

/-- After an odd run of backslashes a character is left alone, whatever it is. -/
theorem escapeAfter_true_cons (c : Char) (cs : List Char) :
    escapeAfter true (c :: cs) = c :: escapeAfter false cs := by
  rw [escapeAfter]
  by_cases hSlash : c = '\\'
  · rw [if_pos hSlash]
    rfl
  · rw [if_neg hSlash]
    by_cases hQuote : c = '\''
    · rw [if_pos hQuote, if_pos rfl]
    · rw [if_neg hQuote]

theorem escapeAfter_false_backslash (cs : List Char) :
    escapeAfter false ('\\' :: cs) = '\\' :: escapeAfter true cs :=
  rfl

theorem escapeAfter_false_quote (cs : List Char) :
    escapeAfter false ('\'' :: cs) = '\\' :: '\'' :: escapeAfter false cs :=
  rfl

theorem escapeAfter_false_cons {c : Char} (hSlash : c ≠ '\\') (hQuote : c ≠ '\'')
    (cs : List Char) : escapeAfter false (c :: cs) = c :: escapeAfter false cs := by
  rw [escapeAfter, if_neg hSlash, if_neg hQuote]

/-- What is escaped already is left alone. -/
theorem escapeAfter_escapeAfter (odd : Bool) (cs : List Char) :
    escapeAfter odd (escapeAfter odd cs) = escapeAfter odd cs := by
  induction cs generalizing odd with
  | nil => rfl
  | cons c cs ih =>
    cases odd with
    | true => rw [escapeAfter_true_cons, escapeAfter_true_cons, ih]
    | false =>
      by_cases hSlash : c = '\\'
      · subst hSlash
        rw [escapeAfter_false_backslash, escapeAfter_false_backslash, ih]
      by_cases hQuote : c = '\''
      · -- the backslash that was put in makes the run odd
        subst hQuote
        rw [escapeAfter_false_quote, escapeAfter_false_backslash, escapeAfter_true_cons, ih]
      · rw [escapeAfter_false_cons hSlash hQuote, escapeAfter_false_cons hSlash hQuote, ih]

/-- Escaping twice is escaping once. -/
theorem escape_escape (s : String) : escape (escape s) = escape s := by
  rw [escape, escape, String.toList_ofList, escapeAfter_escapeAfter]

theorem quote_escape (s : String) : quote (escape s) = quote s := by
  rw [quote, escape_escape, quote]

end AnnotationQuery.Text
