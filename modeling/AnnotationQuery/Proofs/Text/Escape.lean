import AnnotationQuery.Proofs.Text.Quoted

/-!
# Where escaping puts backslashes

Escaping is one walk with one bit of memory: whether the run of backslashes just passed is
odd. The bit is about the text that is read. The text that is written has more backslashes
in it, but each of these stands right before a quote, and behind the quote every run starts
afresh, so both texts carry the same bit at the same places (`endsEscaped_escapeAfter`).

This gives escaping a second description, without a walk: a character is written as it is,
with a backslash before it if it is a quote and the text up to it ends in an even number of
backslashes (`withBackslashes`). It also says how far escaping looks back. What is escaped
in two parts is escaped as a whole, unless the cut goes through an odd run of backslashes.

Main results:

* `escapeAfter_append` — a text that is escaped in parts.
* `escapeAfter_eq_withBackslashes` — which characters get a backslash.
* `escape_eq_self_iff` — the texts that escaping leaves alone.
* `escape_minimal` — the laws of escaping, for every text.
-/

namespace AnnotationQuery.Text

/-! ## One character at a time -/

/-- A character as it is escaped, behind a run of backslashes whose length is odd iff `odd`. -/
def escapedChar (odd : Bool) (c : Char) : List Char :=
  if c = '\'' ∧ odd = false then ['\\', c] else [c]

/-- A text is escaped character by character, with the run of backslashes kept in mind. -/
theorem escapeAfter_cons (odd : Bool) (c : Char) (cs : List Char) :
    escapeAfter odd (c :: cs) = escapedChar odd c ++ escapeAfter (isEscapedAfter odd c) cs := by
  rw [escapeAfter, escapedChar]
  -- a backslash is left alone and counted, a quote is looked at, and anything else ends the run
  by_cases hSlash : c = '\\'
  · subst hSlash
    rw [if_pos rfl, if_neg (fun h => absurd h.1 (by decide)), isEscapedAfter_backslash]
    rfl
  · rw [if_neg hSlash, isEscapedAfter_of_ne odd hSlash]
    by_cases hQuote : c = '\''
    · cases odd <;> simp [hQuote]
    · simp [hQuote]

/-- The backslash that is put in goes with its quote, so neither counts for what follows. -/
theorem endsEscaped_escapedChar (odd : Bool) (c : Char) :
    endsEscaped odd (escapedChar odd c) = isEscapedAfter odd c := by
  rw [escapedChar]
  split
  · next h =>
    obtain ⟨rfl, rfl⟩ := h
    rfl
  · rfl

/-- Escaping does not change the run of backslashes at the end. -/
theorem endsEscaped_escapeAfter (odd : Bool) (cs : List Char) :
    endsEscaped odd (escapeAfter odd cs) = endsEscaped odd cs := by
  induction cs generalizing odd with
  | nil => rfl
  | cons c cs ih =>
    rw [escapeAfter_cons, endsEscaped_append, endsEscaped_escapedChar, ih, endsEscaped_cons]

/-- The second part is escaped with the bit that the first part ends in. -/
theorem escapeAfter_append (odd : Bool) (as bs : List Char) :
    escapeAfter odd (as ++ bs) = escapeAfter odd as ++ escapeAfter (endsEscaped odd as) bs := by
  induction as generalizing odd with
  | nil => rfl
  | cons c as ih =>
    rw [List.cons_append, escapeAfter_cons, escapeAfter_cons, ih, endsEscaped_cons,
      List.append_assoc]

theorem isQuotable_escape (s : String) : isQuotable (escape s) = isQuotable s := by
  rw [Bool.eq_iff_iff, isQuotable_iff_endsEscaped, isQuotable_iff_endsEscaped, escape,
    String.toList_ofList, endsEscaped_escapeAfter]

/-- A text that can be quoted and one behind it are escaped each for itself. -/
theorem escape_append {a : String} (h : isQuotable a = true) (b : String) :
    escape (a ++ b) = escape a ++ escape b := by
  rw [isQuotable_iff_endsEscaped] at h
  rw [escape, String.toList_append, escapeAfter_append, h, String.ofList_append]
  rfl

/-! ## Which characters get a backslash -/

/-- The characters with a backslash put before each single quote that stands behind an even number
of backslashes. -/
def withBackslashes (cs : List Char) : List Char :=
  cs.zipIdx.flatMap fun p =>
    if p.1 = '\'' ∧ trailingBackslashes (cs.take p.2) % 2 = 0 then ['\\', p.1] else [p.1]

/-- What stands behind a character has no say in how it is written. -/
theorem withBackslashes_concat (cs : List Char) (c : Char) :
    withBackslashes (cs ++ [c]) = withBackslashes cs ++
      if c = '\'' ∧ trailingBackslashes cs % 2 = 0 then ['\\', c] else [c] := by
  -- what stands before a character stays the same
  have hFront : ∀ p ∈ cs.zipIdx, (cs ++ [c]).take p.2 = cs.take p.2 := by
    intro p hp
    have hBound : p.2 < cs.length := by
      have := List.snd_lt_of_mem_zipIdx hp
      omega
    exact List.take_append_of_le_length (by omega)
  rw [withBackslashes, List.zipIdx_append, List.flatMap_append]
  congr 1
  · refine List.flatMap_congr fun p hp => ?_
    rw [hFront p hp]
  · simp

/-- Which characters get a backslash, by counting the backslashes before them. -/
theorem escapedChar_endsEscaped (cs : List Char) (c : Char) :
    escapedChar (endsEscaped false cs) c =
      if c = '\'' ∧ trailingBackslashes cs % 2 = 0 then ['\\', c] else [c] := by
  have hEven : endsEscaped false cs = false ↔ trailingBackslashes cs % 2 = 0 := by
    rw [endsEscaped_eq_trailingBackslashes, beq_eq_false_iff_ne]
    omega
  rw [escapedChar]
  simp only [hEven]

/-- Escaping puts in the backslashes that are missing, and nothing else. -/
theorem escapeAfter_eq_withBackslashes (cs : List Char) :
    escapeAfter false cs = withBackslashes cs := by
  -- from the front, since it is the text before a character that decides
  induction cs using List.reverseRecOn with
  | nil => rfl
  | append_singleton cs c ih =>
    rw [escapeAfter_append, escapeAfter_cons, withBackslashes_concat, ih,
      escapedChar_endsEscaped]
    exact congrArg (withBackslashes cs ++ ·) (List.append_nil _)

/-! ## Texts that escaping leaves alone -/

/-- Escaping leaves a text alone exactly if each quote stands behind an odd run. -/
theorem escapeAfter_eq_self_iff {odd : Bool} {cs : List Char} :
    escapeAfter odd cs = cs ↔
      ∀ before after, cs = before ++ '\'' :: after → endsEscaped odd before = true := by
  induction cs generalizing odd with
  | nil => simp [escapeAfter]
  | cons c cs ih =>
    -- a quote is the first character or one of those behind
    rw [forall_split_cons]
    simp only [endsEscaped_nil, endsEscaped_cons]
    rw [← ih]
    by_cases hSlash : c = '\\'
    · subst hSlash
      simp [escapeAfter, isEscapedAfter_backslash]
    · rw [isEscapedAfter_of_ne odd hSlash]
      by_cases hQuote : c = '\''
      · subst hQuote
        cases odd <;> simp [escapeAfter]
      · simp [escapeAfter, hSlash, hQuote]

/-- Escaping changes nothing exactly if every quote has a backslash that is its own. -/
theorem escape_eq_self_iff {s : String} :
    escape s = s ↔ ∀ before after, s = before ++ "'" ++ after → isQuotable before = false := by
  have hChars : escape s = s ↔ escapeAfter false s.toList = s.toList := by
    rw [escape, ← String.toList_inj, String.toList_ofList]
  rw [hChars, escapeAfter_eq_self_iff]
  -- to stand behind an odd run is to stand behind a text that cannot be quoted
  constructor
  · rintro h before after rfl
    have hEscaped := h before.toList after.toList (by simp)
    rw [Bool.eq_false_iff, ne_eq, isQuotable_iff_endsEscaped, hEscaped]
    exact Bool.noConfusion
  · intro h before after hSplit
    have hQuotable := h (String.ofList before) (String.ofList after)
      (by rw [← String.toList_inj, hSplit]; simp)
    rwa [Bool.eq_false_iff, ne_eq, isQuotable_iff_endsEscaped, String.toList_ofList,
      Bool.not_eq_false] at hQuotable

/-- Every single quote of the text stands behind an odd number of backslashes. -/
def QuotesEscaped (s : String) : Prop :=
  ∀ before after, s = before ++ "'" ++ after → trailingBackslashes before.toList % 2 = 1

/-- All quotes are escaped exactly if escaping leaves the text alone. -/
theorem quotesEscaped_iff {s : String} : QuotesEscaped s ↔ escape s = s := by
  have hOdd : ∀ before : String,
      isQuotable before = false ↔ trailingBackslashes before.toList % 2 = 1 := by
    intro before
    rw [isQuotable, beq_eq_false_iff_ne]
    omega
  rw [escape_eq_self_iff, QuotesEscaped]
  simp only [hOdd]

/-! ## The laws of escaping -/

/-- What escaping does to a text. It puts one backslash before each quote that stands behind an even
number of them and changes nothing else. After it every quote stands behind an odd number, so
escaping again changes nothing, and the texts that it leaves alone are exactly those where this was
so before. It does not change whether a text can be quoted; and of two texts where the first can be,
it escapes each for itself. -/
structure EscapeLaws (s : String) : Prop where
  inserted   : escape s = String.ofList (withBackslashes s.toList)
  escaped    : QuotesEscaped (escape s)
  idempotent : escape (escape s) = escape s
  fixed_iff  : escape s = s ↔ QuotesEscaped s
  quotable   : isQuotable (escape s) = isQuotable s
  appended   : isQuotable s = true → ∀ t, escape (s ++ t) = escape s ++ escape t

/-- **Escaping does no more than it has to.** -/
theorem escape_minimal (s : String) : EscapeLaws s where
  inserted := by rw [escape, escapeAfter_eq_withBackslashes]
  escaped := by
    rw [quotesEscaped_iff]
    exact escape_escape s
  idempotent := escape_escape s
  fixed_iff := quotesEscaped_iff.symm
  quotable := isQuotable_escape s
  appended := escape_append

/-- Quotes side by side, runs of backslashes of either length, and an even run at the end. -/
theorem escape_minimal_awkward :
    isQuotable "''\\'\\\\'\\\\" = true ∧
      ∀ t, escape ("''\\'\\\\'\\\\" ++ t) = "\\'\\'\\'\\\\\\'\\\\" ++ escape t :=
  ⟨by decide, (escape_minimal "''\\'\\\\'\\\\").appended (by decide)⟩

-- a cut through an odd run of backslashes takes the quote's own backslash away
example : escape ("\\" ++ "'") ≠ escape "\\" ++ escape "'" := by decide

end AnnotationQuery.Text
