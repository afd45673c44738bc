import AnnotationQuery.Proofs.Sql.Scan

/-!
# Placeholders in texts that are put together

Placeholders are counted by one walk over a whole statement, so what is counted in a part of
it depends on where the walk stands when it gets there. All that matters is whether it is
inside a quote. A part that ends outside quotes leaves the walk as it was found, up to the
depth of parentheses, and depth has no say in what is read: the placeholders of such
parts add up.

`Holds` is the count of a part together with that condition, and it adds up without a second
look. A compiled piece is more: it is complete, and it has no placeholder at all (`Sealed`).

Main results:

* `Holds.append`, `Holds.trim` — counts of parts.
* `Sealed.append`, `Sealed.parens`, `sealed_intercalate` — texts without placeholders.
-/

namespace AnnotationQuery.Sql

namespace Scan

/-! ## Walks at different depths -/

/-- The two walks stand in the same quote, or both outside, with the same thing escaped. -/
structure Level (s t : Scan) : Prop where
  quote   : s.quote = t.quote
  escaped : s.escaped = t.escaped

/-- Whether the next character is read outside quotes, and what it does to them, does not depend on
the depth. -/
theorem Level.step {s t : Scan} (h : Level s t) (c : Char) : Level (s.step c) (t.step c) := by
  obtain ⟨d, q, e⟩ := s
  obtain ⟨d', q', e'⟩ := t
  -- the depth decides nothing about quotes
  obtain ⟨rfl, rfl⟩ : q = q' ∧ e = e' := ⟨h.quote, h.escaped⟩
  cases q with
  | none =>
    simp only [Scan.step]
    repeat' split
    all_goals exact ⟨rfl, rfl⟩
  | some q =>
    simp only [Scan.step]
    repeat' split
    all_goals exact ⟨rfl, rfl⟩

theorem Level.run {s t : Scan} (h : Level s t) (cs : List Char) : Level (s.run cs) (t.run cs) := by
  induction cs generalizing s t with
  | nil => exact h
  | cons c cs ih => exact ih (h.step c)

/-- The number of placeholders that a walk reads. -/
def marks (s : Scan) (cs : List Char) : Nat :=
  (s.visible cs).countP fun (c, _) => c == '?'

theorem marks_append (s : Scan) (as bs : List Char) :
    s.marks (as ++ bs) = s.marks as + (s.run as).marks bs := by
  rw [marks, visible_append, List.countP_append]
  rfl

/-- Walks at different depths read the same placeholders. -/
theorem Level.marks {s t : Scan} (h : Level s t) (cs : List Char) : s.marks cs = t.marks cs := by
  induction cs generalizing s t with
  | nil => rfl
  | cons c cs ih =>
    have hRest := ih (h.step c)
    unfold Scan.marks at hRest ⊢
    rw [visible, visible, h.quote]
    split
    · rw [List.countP_cons, List.countP_cons, hRest]
    · exact hRest

/-- What a walk shows is a character of the text. -/
theorem mem_of_mem_visible {s : Scan} {cs : List Char} {p : Char × Nat} (h : p ∈ s.visible cs) :
    p.1 ∈ cs := by
  induction cs generalizing s with
  | nil => cases h
  | cons c cs ih =>
    rw [visible] at h
    split at h
    · rcases List.mem_cons.mp h with rfl | h
      · exact List.mem_cons_self
      · exact List.mem_cons_of_mem c (ih h)
    · exact List.mem_cons_of_mem c (ih h)

theorem marks_eq_zero_iff {s : Scan} {cs : List Char} :
    s.marks cs = 0 ↔ ∀ p ∈ s.visible cs, p.1 ≠ '?' := by
  rw [marks, List.countP_eq_zero]
  simp

/-- What has no question mark in it has no placeholder, wherever the walk stands. -/
theorem marks_of_notMem {cs : List Char} (h : '?' ∉ cs) (s : Scan) : s.marks cs = 0 := by
  rw [marks_eq_zero_iff]
  intro p hp hMark
  exact h (hMark ▸ mem_of_mem_visible hp)

/-- Blanks neither open nor close a quote. -/
theorem quote_run_blanks {s : Scan} {cs : List Char} (hSettled : s.isSettled = true)
    (hBlank : ∀ c ∈ cs, Text.isBlank c = true) : (s.run cs).quote = s.quote := by
  induction cs generalizing s with
  | nil => rfl
  | cons c cs ih =>
    rw [List.forall_mem_cons] at hBlank
    have hPlain := isPlain_of_isBlank hBlank.1
    have hStep : (s.step c).quote = s.quote := by
      obtain ⟨d, _ | q, e⟩ := s
      · rw [step_of_isPlain rfl hPlain]
      · -- the quote that is open is a quote character, and no blank is one
        have hq : c ≠ q := by
          rintro rfl
          have hQuote : isQuote c = true := hSettled
          simp [isPlain, hQuote] at hPlain
        simp only [step, hq, if_false]
        repeat' split
        all_goals rfl
    rw [run_cons, ih (isSettled_step c hSettled) hBlank.2, hStep]

end Scan

/-! ## Parts of a statement -/

/-- Whether a walk over the text ends outside quotes. -/
def endsOutside (sql : String) : Bool :=
  (Scan.start.run sql.toList).quote.isNone

/-- The text ends outside quotes and has `n` placeholders. -/
structure Holds (sql : String) (n : Nat) : Prop where
  ends  : endsOutside sql = true
  count : placeholderCount sql = n

section
variable {a b : String} {m n : Nat}

/-- A walk that ends outside quotes is level with one that starts. -/
theorem level_start_of_endsOutside (h : endsOutside a = true) :
    (Scan.start.run a.toList).Level Scan.start := by
  have hQuote : (Scan.start.run a.toList).quote = none := Option.isNone_iff_eq_none.mp h
  have hSettled := Scan.isSettled_run a.toList (rfl : Scan.start.isSettled = true)
  rw [Scan.isSettled, hQuote] at hSettled
  exact ⟨hQuote, (Bool.not_eq_true' _).mp hSettled⟩

/-- Behind a text that ends outside quotes, everything is read as at the start. -/
theorem Holds.append (ha : Holds a m) (hb : Holds b n) : Holds (a ++ b) (m + n) := by
  -- the second text starts outside quotes, if not at depth zero
  have hLevel := level_start_of_endsOutside ha.ends
  constructor
  · have hEnds := hb.ends
    rw [endsOutside] at hEnds ⊢
    rw [String.toList_append, Scan.run_append, (hLevel.run b.toList).quote]
    exact hEnds
  · show Scan.start.marks (a ++ b).toList = m + n
    rw [String.toList_append, Scan.marks_append, hLevel.marks, ← ha.count, ← hb.count]
    rfl

/-- Blanks around a text hold nothing. -/
theorem Holds.trim (h : Holds a n) : Holds (Text.trim a) n := by
  obtain ⟨before, after, hText, hBefore, hAfter⟩ := Text.exists_trimBlanks a.toList
  have hUnmarked : ∀ cs : List Char, (∀ c ∈ cs, Text.isBlank c = true) → '?' ∉ cs := by
    intro cs hBlank hMem
    have hMark : Text.isBlank '?' = true := hBlank _ hMem
    revert hMark
    decide
  obtain ⟨hRun, -, -⟩ := Scan.walk_plain fun c hc => isPlain_of_isBlank (hBefore c hc)
  -- blanks at the end neither open nor close a quote, so before them it was closed
  have hSettled := Scan.isSettled_run (Text.trimBlanks a.toList)
    (rfl : Scan.start.isSettled = true)
  have hEnds := h.ends
  have hCount : Scan.start.marks a.toList = n := h.count
  rw [endsOutside, hText, Scan.run_append, hRun, Scan.run_append,
    Scan.quote_run_blanks hSettled hAfter] at hEnds
  rw [hText, Scan.marks_append, hRun, Scan.marks_append,
    Scan.marks_of_notMem (hUnmarked before hBefore),
    Scan.marks_of_notMem (hUnmarked after hAfter), Nat.zero_add, Nat.add_zero] at hCount
  constructor
  · rw [endsOutside, Text.trim, String.toList_ofList]
    exact hEnds
  · show Scan.start.marks (Text.trim a).toList = n
    rw [Text.trim, String.toList_ofList, hCount]

end

/-! ## Texts without placeholders -/

/-- A complete text without a placeholder outside its quotes. -/
structure Sealed (sql : String) : Prop extends Complete sql where
  unmarked : placeholderCount sql = 0

section
variable {a b : String}

theorem Complete.endsOutside (h : Complete a) : endsOutside a = true := by
  rw [Sql.endsOutside, h.returns]
  rfl

theorem Sealed.holds (h : Sealed a) : Holds a 0 :=
  ⟨h.toComplete.endsOutside, h.unmarked⟩

/-- Whether a text is sealed can be computed from its characters. -/
theorem sealed_ofList {cs : List Char}
    (h : (Scan.start.meetsPartners cs && decide (Scan.start.run cs = Scan.start) &&
      Scan.start.marks cs == 0) = true) : Sealed (String.ofList cs) := by
  rw [Bool.and_eq_true, beq_iff_eq] at h
  refine ⟨complete_ofList h.1, ?_⟩
  show Scan.start.marks (String.ofList cs).toList = 0
  rw [String.toList_ofList, h.2]

theorem sealed_empty : Sealed "" :=
  ⟨complete_empty, rfl⟩

/-- Sealed texts, one behind the other, are sealed. -/
theorem Sealed.append (ha : Sealed a) (hb : Sealed b) : Sealed (a ++ b) :=
  ⟨ha.toComplete.append hb.toComplete, (ha.holds.append hb.holds).count⟩

/-- A sealed text in parentheses is sealed. -/
theorem Sealed.parens (ha : Sealed a) : Sealed ("(" ++ a ++ ")") := by
  have hOpen : Holds "(" 0 := ⟨rfl, rfl⟩
  have hClose : Holds ")" 0 := ⟨rfl, rfl⟩
  exact ⟨ha.toComplete.parens, ((hOpen.append ha.holds).append hClose).count⟩

/-- Sealed pieces with a sealed separator between them are sealed. -/
theorem sealed_intercalate {separator : String} {pieces : List String}
    (hSeparator : Sealed separator) (h : ∀ p ∈ pieces, Sealed p) :
    Sealed (separator.intercalate pieces) :=
  intercalate_closed sealed_empty Sealed.append hSeparator h

theorem sealed_of_plain (h : ∀ c ∈ a.toList, isPlain c = true) (hMark : '?' ∉ a.toList) :
    Sealed a :=
  ⟨complete_of_plain h, Scan.marks_of_notMem hMark Scan.start⟩

/-- A sealed text in parentheses. -/
def Enclosure (sql : String) : Prop :=
  ∃ body, Sealed body ∧ sql = "(" ++ body ++ ")"

theorem Enclosure.parenthesized (h : Enclosure a) : Parenthesized a := by
  obtain ⟨body, hBody, rfl⟩ := h
  exact ⟨body, hBody.toComplete, rfl⟩

theorem Enclosure.isEnclosed (h : Enclosure a) : isEnclosed a = true :=
  h.parenthesized.isEnclosed

theorem Enclosure.sealed (h : Enclosure a) : Sealed a := by
  obtain ⟨body, hBody, rfl⟩ := h
  exact hBody.parens

end

end AnnotationQuery.Sql
