import AnnotationQuery.Proofs.Text.Blank
import AnnotationQuery.Sql.Query

/-!
# Texts that are complete in themselves

A walk over SQL text depends on where it starts: inside a quote everything reads
differently. A text is *complete* if a walk that starts outside quotes never meets
a closing parenthesis without a partner and comes back to where it started. What
follows a complete text is read as if the text were not there, so compiled
pieces that are complete can be put together without a second look.

The one fact behind it is that a walk which meets no unmatched parenthesis does
not depend on its starting depth (`run_deeper`, `visible_deeper`).

Main results:

* `Complete.append`, `Complete.parens` — complete texts are closed under
  concatenation and under a pair of parentheses.
* `outside_append`, `outside_parens`, `outside_intercalate` — what is read outside quotes is
  put together in the same way.
* `Parenthesized.isEnclosed`, `parenthesized_of_isEnclosed` — a text is enclosed exactly
  if it is a complete text in parentheses, blanks around it aside.
-/

namespace AnnotationQuery.Sql

namespace Scan

/-! ## Walks -/

/-- Whether a walk meets no closing parenthesis at depth zero. -/
def meetsPartners (s : Scan) : List Char → Bool
  | [] => true
  | c :: cs => !(s.quote.isNone && c == ')' && s.depth == 0) && (s.step c).meetsPartners cs

/-- The same place `k` parentheses further in. -/
def deeper (s : Scan) (k : Nat) : Scan :=
  { s with depth := s.depth + k }

/-- A character read outside quotes, `k` parentheses further in. -/
def sink (k : Nat) (p : Char × Nat) : Char × Nat :=
  (p.1, p.2 + k)

@[simp] theorem run_nil (s : Scan) : s.run [] = s := rfl

@[simp] theorem run_cons (s : Scan) (c : Char) (cs : List Char) :
    s.run (c :: cs) = (s.step c).run cs := rfl

theorem run_append (s : Scan) (as bs : List Char) :
    s.run (as ++ bs) = (s.run as).run bs := by
  unfold run
  exact List.foldl_append

/-- What a walk over two texts shows is what it shows of each. -/
theorem visible_append (s : Scan) (as bs : List Char) :
    s.visible (as ++ bs) = s.visible as ++ (s.run as).visible bs := by
  induction as generalizing s with
  | nil => rfl
  | cons c cs ih =>
    rw [List.cons_append, visible, visible, run_cons, ih]
    split <;> simp

/-- A walk over two texts meets only partners if it does so in each. -/
theorem meetsPartners_append (s : Scan) (as bs : List Char) :
    s.meetsPartners (as ++ bs) = (s.meetsPartners as && (s.run as).meetsPartners bs) := by
  induction as generalizing s with
  | nil => simp [meetsPartners]
  | cons c cs ih =>
    rw [List.cons_append, meetsPartners, meetsPartners, run_cons, ih]
    exact (Bool.and_assoc _ _ _).symm

/-- One step further in is the same step, unless it closes a parenthesis without a partner. -/
theorem step_deeper {s : Scan} {c : Char} (k : Nat)
    (h : (s.quote.isNone && c == ')' && s.depth == 0) = false) :
    (s.deeper k).step c = (s.step c).deeper k := by
  obtain ⟨d, _ | q, e⟩ := s
  · simp only [step, deeper]
    split
    · rfl
    · split
      · rw [Nat.add_right_comm]
      · split
        · next hc =>
          -- a parenthesis that closes has one open, so the depth does not stop at zero
          have hd : d ≠ 0 := by simpa [hc] using h
          rw [Nat.sub_add_comm (by omega)]
        · rfl
  · cases e with
    | true => rfl
    | false =>
      by_cases hb : c = '\\'
      · simp [step, deeper, hb]
      · by_cases hc : c = q
        · subst hc
          simp [step, deeper, hb]
        · simp [step, deeper, hb, hc]

/-- The whole walk is the same further in, if every closing parenthesis has a partner. -/
theorem run_deeper {s : Scan} {cs : List Char} (k : Nat) (h : s.meetsPartners cs = true) :
    (s.deeper k).run cs = (s.run cs).deeper k := by
  -- on the text, from anywhere
  induction cs generalizing s with
  | nil => rfl
  | cons c cs ih =>
    rw [meetsPartners, Bool.and_eq_true, Bool.not_eq_true'] at h
    rw [run_cons, run_cons, step_deeper k h.1, ih h.2]

/-- A walk further in shows the same characters, further in. -/
theorem visible_deeper {s : Scan} {cs : List Char} (k : Nat) (h : s.meetsPartners cs = true) :
    (s.deeper k).visible cs = (s.visible cs).map (sink k) := by
  induction cs generalizing s with
  | nil => rfl
  | cons c cs ih =>
    rw [meetsPartners, Bool.and_eq_true, Bool.not_eq_true'] at h
    rw [visible, visible, step_deeper k h.1, ih h.2]
    cases hq : s.quote <;> simp [deeper, sink, hq]

/-- Further in, every closing parenthesis has a partner still. -/
theorem meetsPartners_deeper {s : Scan} {cs : List Char} (k : Nat) (h : s.meetsPartners cs = true) :
    (s.deeper k).meetsPartners cs = true := by
  induction cs generalizing s with
  | nil => rfl
  | cons c cs ih =>
    rw [meetsPartners, Bool.and_eq_true, Bool.not_eq_true'] at h
    rw [meetsPartners, step_deeper k h.1, ih h.2, Bool.and_true, Bool.not_eq_true']
    -- at depth zero there was no closing one, and deeper there is always a partner
    by_cases hd : s.depth = 0
    · have hc : (s.quote.isNone && c == ')') = false := by simpa [hd] using h.1
      simp only [deeper, hc, Bool.false_and]
    · have hk : (s.depth + k == 0) = false := by
        rw [beq_eq_false_iff_ne]
        omega
      simp only [deeper, hk, Bool.and_false]

/-- Outside quotes nothing is escaped, and what is open inside is a quote. Every walk from the start
keeps to this. -/
def isSettled (s : Scan) : Bool :=
  match s.quote with
  | none => !s.escaped
  | some q => isQuote q

/-- A character keeps a walk settled. -/
theorem isSettled_step {s : Scan} (c : Char) (h : s.isSettled = true) :
    (s.step c).isSettled = true := by
  -- outside quotes only a quote changes anything, and inside only the same quote
  obtain ⟨d, _ | q, e⟩ := s
  · have he : e = false := by simpa [isSettled] using h
    simp only [step, he]
    split
    · next hc => exact hc
    · repeat' split
      all_goals rfl
  · simp only [step]
    split
    · exact h
    · next he =>
      split
      · exact h
      · split
        · simpa [isSettled] using he
        · exact h

/-- A text keeps a walk settled. -/
theorem isSettled_run {s : Scan} (cs : List Char) (h : s.isSettled = true) :
    (s.run cs).isSettled = true := by
  induction cs generalizing s with
  | nil => exact h
  | cons c cs ih => exact ih (isSettled_step c h)

/-- A walk inside one pair of parentheses that closes it with the last character has read a text
that comes back to depth zero by itself. -/
theorem exists_body_of_closesAtEnd {s : Scan} {cs : List Char} (hSettled : s.isSettled = true)
    (h : (s.deeper 1).closesAtEnd cs = true) :
    ∃ body, cs = body ++ [')'] ∧ s.meetsPartners body = true ∧ s.run body = start := by
  induction cs generalizing s with
  | nil => simp [closesAtEnd] at h
  | cons c cs ih =>
    rw [closesAtEnd] at h
    by_cases hClose : (s.quote.isNone && c == ')' && s.depth == 0) = true
    · -- the parenthesis that was open is closed here, so nothing may follow
      simp only [Bool.and_eq_true, Option.isNone_iff_eq_none, beq_iff_eq] at hClose
      obtain ⟨⟨hq, rfl⟩, hd⟩ := hClose
      have hEmpty : cs = [] := by simpa [deeper, step, isQuote, hq, hd] using h
      have hStart : s = start := by
        have he : s.escaped = false := by simpa [isSettled, hq] using hSettled
        rw [start, ← hq, ← hd, ← he]
      exact ⟨[], by rw [hEmpty]; rfl, rfl, hStart⟩
    · rw [Bool.not_eq_true] at hClose
      rw [step_deeper 1 hClose] at h
      have hOpen : ((s.step c).deeper 1).depth ≠ 0 := by simp [deeper]
      simp only [beq_eq_false_iff_ne.mpr hOpen, Bool.and_false, Bool.false_eq_true, if_false] at h
      obtain ⟨body, rfl, hBody, hRun⟩ := ih (isSettled_step c hSettled) h
      exact ⟨c :: body, rfl, by rw [meetsPartners, hClose, hBody]; rfl, hRun⟩

/-- Inside one pair of parentheses, a text that meets its own partners does not close it. -/
theorem closesAtEnd_append {s : Scan} {body rest : List Char} (h : s.meetsPartners body = true) :
    (s.deeper 1).closesAtEnd (body ++ rest) = ((s.run body).deeper 1).closesAtEnd rest := by
  induction body generalizing s with
  | nil => rfl
  | cons c cs ih =>
    rw [meetsPartners, Bool.and_eq_true, Bool.not_eq_true'] at h
    rw [List.cons_append, closesAtEnd, step_deeper 1 h.1, run_cons, ← ih h.2]
    have hOpen : ((s.step c).deeper 1).depth ≠ 0 := by simp [deeper]
    simp only [beq_eq_false_iff_ne.mpr hOpen, Bool.and_false, Bool.false_eq_true, if_false]

end Scan

/-! ## Complete texts -/

/-- The characters of a text that are read outside its quotes, each with the depth after it. -/
def outside (sql : String) : List (Char × Nat) :=
  Scan.start.visible sql.toList

/-- A walk from the start meets no closing parenthesis without a partner and ends where it began:
outside parentheses, outside quotes, nothing escaped. -/
structure Complete (sql : String) : Prop where
  partners : Scan.start.meetsPartners sql.toList = true
  returns  : Scan.start.run sql.toList = Scan.start

instance (sql : String) : Decidable (Complete sql) :=
  decidable_of_iff
    (Scan.start.meetsPartners sql.toList = true ∧ Scan.start.run sql.toList = Scan.start)
    ⟨fun h => ⟨h.1, h.2⟩, fun h => ⟨h.partners, h.returns⟩⟩

/-- Whether a text is complete can be computed from its characters. -/
theorem complete_ofList {cs : List Char}
    (h : (Scan.start.meetsPartners cs && decide (Scan.start.run cs = Scan.start)) = true) :
    Complete (String.ofList cs) := by
  rw [Bool.and_eq_true, decide_eq_true_eq] at h
  exact ⟨by rw [String.toList_ofList]; exact h.1, by rw [String.toList_ofList]; exact h.2⟩

theorem complete_empty : Complete "" :=
  ⟨rfl, rfl⟩

/-- Complete texts, one behind the other, are complete. -/
theorem Complete.append {a b : String} (ha : Complete a) (hb : Complete b) :
    Complete (a ++ b) := by
  constructor
  · rw [String.toList_append, Scan.meetsPartners_append, ha.partners, ha.returns, hb.partners]
    rfl
  · rw [String.toList_append, Scan.run_append, ha.returns, hb.returns]

/-- What stands outside quotes, of a complete text and one behind it. -/
theorem outside_append {a : String} (ha : Complete a) (b : String) :
    outside (a ++ b) = outside a ++ outside b := by
  rw [outside, String.toList_append, Scan.visible_append, ha.returns]
  rfl

/-- What the empty text has, and every text put together from two that have it, is had by a list of
such texts with such a text between any two. -/
theorem intercalate_closed {P : String → Prop} (hEmpty : P "")
    (hAppend : ∀ {a b : String}, P a → P b → P (a ++ b)) {separator : String}
    {pieces : List String} (hSeparator : P separator) (h : ∀ p ∈ pieces, P p) :
    P (separator.intercalate pieces) := by
  induction pieces with
  | nil => exact hEmpty
  | cons p ps ih =>
    rw [List.forall_mem_cons] at h
    cases ps with
    | nil =>
      rw [String.intercalate_singleton]
      exact h.1
    | cons q qs =>
      rw [String.intercalate_cons_cons]
      exact hAppend (hAppend h.1 hSeparator) (ih h.2)

theorem complete_intercalate {separator : String} {pieces : List String}
    (hSeparator : Complete separator) (h : ∀ p ∈ pieces, Complete p) :
    Complete (separator.intercalate pieces) :=
  intercalate_closed complete_empty Complete.append hSeparator h

/-- What stands outside the quotes of joined pieces is what stands outside those of each. -/
theorem outside_intercalate {separator : String} {pieces : List String}
    (hSeparator : Complete separator) (h : ∀ p ∈ pieces, Complete p) :
    outside (separator.intercalate pieces) =
      (outside separator).intercalate (pieces.map outside) := by
  induction pieces with
  | nil => rfl
  | cons p ps ih =>
    rw [List.forall_mem_cons] at h
    cases ps with
    | nil => rw [String.intercalate_singleton, List.map_singleton, List.intercalate_singleton]
    | cons q qs =>
      rw [String.intercalate_cons_cons, outside_append (h.1.append hSeparator),
        outside_append h.1, ih h.2, List.map_cons, List.map_cons, List.map_cons,
        List.intercalate_cons_cons]

theorem toList_parens (a : String) : ("(" ++ a ++ ")").toList = '(' :: (a.toList ++ [')']) := by
  rw [String.toList_append, String.toList_append]
  rfl

/-- A complete text in parentheses is complete. -/
theorem Complete.parens {a : String} (ha : Complete a) : Complete ("(" ++ a ++ ")") := by
  -- inside, the walk is one parenthesis further in from start to end
  have hRun : (Scan.start.deeper 1).run a.toList = Scan.start.deeper 1 := by
    rw [Scan.run_deeper 1 ha.partners, ha.returns]
  constructor
  · rw [toList_parens, Scan.meetsPartners]
    show (true && (Scan.start.deeper 1).meetsPartners (a.toList ++ [')'])) = true
    rw [Scan.meetsPartners_append, Scan.meetsPartners_deeper 1 ha.partners, hRun]
    rfl
  · rw [toList_parens, Scan.run_cons]
    show (Scan.start.deeper 1).run (a.toList ++ [')']) = Scan.start
    rw [Scan.run_append, hRun]
    rfl

/-- Parentheses around a complete text put all it shows one further in. -/
theorem outside_parens {a : String} (ha : Complete a) :
    outside ("(" ++ a ++ ")") = ('(', 1) :: ((outside a).map (Scan.sink 1) ++ [(')', 0)]) := by
  have hRun : (Scan.start.deeper 1).run a.toList = Scan.start.deeper 1 := by
    rw [Scan.run_deeper 1 ha.partners, ha.returns]
  rw [outside, toList_parens, Scan.visible]
  show ('(', 1) :: (Scan.start.deeper 1).visible (a.toList ++ [')']) = _
  rw [Scan.visible_append, Scan.visible_deeper 1 ha.partners, hRun]
  rfl

/-! ## Text without quotes and parentheses -/

/-- Whether a character leaves a walk outside quotes where it is. -/
def isPlain (c : Char) : Bool :=
  !Scan.isQuote c && c != '(' && c != ')'

/-- A class of characters that has neither quotes nor parentheses in it is plain. -/
theorem isPlain_of_class {p : Char → Bool} {c : Char} (h : p c = true)
    (hp : ['\'', '"', '\x60', '(', ')'].all (fun d => !p d) = true) : isPlain c = true := by
  have hNe : ∀ d ∈ ['\'', '"', '\x60', '(', ')'], c ≠ d := by
    rintro d hd rfl
    have hNot := List.all_eq_true.mp hp c hd
    rw [h] at hNot
    cases hNot
  simp only [List.forall_mem_cons] at hNe
  simp [isPlain, Scan.isQuote, hNe]

theorem Scan.step_of_isPlain {s : Scan} {c : Char} (hs : s.quote = none) (hc : isPlain c = true) :
    s.step c = s := by
  simp only [isPlain, Bool.and_eq_true, Bool.not_eq_true', bne_iff_ne] at hc
  simp [step, hs, hc.1.1, hc.1.2, hc.2]

/-- A plain text moves nothing and shows all its characters at depth zero. -/
theorem Scan.walk_plain {cs : List Char} (h : ∀ c ∈ cs, isPlain c = true) :
    start.run cs = start ∧ start.meetsPartners cs = true ∧
      start.visible cs = cs.map fun c => (c, 0) := by
  -- every character leaves the walk at the start
  induction cs with
  | nil => exact ⟨rfl, rfl, rfl⟩
  | cons c cs ih =>
    obtain ⟨hRun, hPartners, hVisible⟩ := ih fun d hd => h d (List.mem_cons_of_mem c hd)
    have hc : isPlain c = true := h c List.mem_cons_self
    have hStep : start.step c = start := step_of_isPlain rfl hc
    have hClose : c ≠ ')' := by
      rintro rfl
      cases hc
    refine ⟨?_, ?_, ?_⟩
    · rw [run_cons, hStep, hRun]
    · rw [meetsPartners, hStep, hPartners, beq_eq_false_iff_ne.mpr hClose]
      rfl
    · rw [visible, hStep, hVisible]
      rfl

theorem complete_of_plain {sql : String} (h : ∀ c ∈ sql.toList, isPlain c = true) :
    Complete sql :=
  ⟨(Scan.walk_plain h).2.1, (Scan.walk_plain h).1⟩

theorem outside_of_plain {sql : String} (h : ∀ c ∈ sql.toList, isPlain c = true) :
    outside sql = sql.toList.map fun c => (c, 0) :=
  (Scan.walk_plain h).2.2

/-! ## Blanks around a text -/

theorem isPlain_of_isBlank {c : Char} (h : Text.isBlank c = true) : isPlain c = true :=
  isPlain_of_class h (by decide)

/-- Blanks do not close a quote, so a walk that they end at the start was there before them. -/
theorem Scan.eq_start_of_run_blanks {s : Scan} {cs : List Char} (hSettled : s.isSettled = true)
    (hBlank : ∀ c ∈ cs, Text.isBlank c = true) (h : s.run cs = start) : s = start := by
  induction cs generalizing s with
  | nil => exact h
  | cons c cs ih =>
    rw [List.forall_mem_cons] at hBlank
    have hStep : s.step c = start := ih (isSettled_step c hSettled) hBlank.2 h
    have hPlain := isPlain_of_isBlank hBlank.1
    obtain ⟨d, _ | q, e⟩ := s
    · rw [← hStep, step_of_isPlain rfl hPlain]
    · have hq : c ≠ q := by
        rintro rfl
        have hQuote : isQuote c = true := hSettled
        simp [isPlain, hQuote] at hPlain
      -- inside a quote the step would leave it open, but the walk is at the start
      exfalso
      simp only [step, hq, if_false] at hStep
      split at hStep
      · simp [start] at hStep
      · split at hStep <;> simp [start] at hStep

/-- A complete text is complete without the blanks around it. -/
theorem Complete.trim {sql : String} (h : Complete sql) : Complete (Text.trim sql) := by
  obtain ⟨before, after, hText, hBefore, hAfter⟩ := Text.exists_trimBlanks sql.toList
  obtain ⟨hRun, -, -⟩ := Scan.walk_plain fun c hc => isPlain_of_isBlank (hBefore c hc)
  have hPartners := h.partners
  have hReturns := h.returns
  rw [hText, Scan.meetsPartners_append, Scan.meetsPartners_append, hRun, Bool.and_eq_true,
    Bool.and_eq_true] at hPartners
  rw [hText, Scan.run_append, hRun, Scan.run_append] at hReturns
  -- before the blanks at the end the walk was back at the start already
  have hSettled := Scan.isSettled_run (Text.trimBlanks sql.toList)
    (rfl : Scan.start.isSettled = true)
  constructor
  · rw [Text.trim, String.toList_ofList]
    exact hPartners.2.1
  · rw [Text.trim, String.toList_ofList]
    exact Scan.eq_start_of_run_blanks hSettled hAfter hReturns

/-! ## Enclosed texts -/

/-- A complete text in parentheses. -/
def Parenthesized (sql : String) : Prop :=
  ∃ body, Complete body ∧ sql = "(" ++ body ++ ")"

theorem Parenthesized.complete {sql : String} (h : Parenthesized sql) : Complete sql := by
  obtain ⟨body, hBody, rfl⟩ := h
  exact hBody.parens

/-- There are no blanks around a text in parentheses. -/
theorem trimBlanks_parens (body : List Char) :
    Text.trimBlanks ('(' :: (body ++ [')'])) = '(' :: (body ++ [')']) := by
  have hOpen : Text.isBlank '(' = false := by decide
  have hClose : Text.isBlank ')' = false := by decide
  simp [Text.trimBlanks, hOpen, hClose]

/-- A complete text in parentheses is found to be enclosed. -/
theorem Parenthesized.isEnclosed {sql : String} (h : Parenthesized sql) :
    isEnclosed sql = true := by
  obtain ⟨a, ha, rfl⟩ := h
  rw [Sql.isEnclosed, toList_parens, trimBlanks_parens]
  show (Scan.start.deeper 1).closesAtEnd (a.toList ++ [')']) = true
  rw [Scan.closesAtEnd_append ha.partners, ha.returns]
  rfl

/-- What is enclosed is a complete text in parentheses, blanks around it aside. -/
theorem parenthesized_of_isEnclosed {sql : String} (h : isEnclosed sql = true) :
    Parenthesized (Text.trim sql) := by
  unfold isEnclosed at h
  split at h
  · next cs hTrim =>
    have h' : (Scan.start.deeper 1).closesAtEnd cs = true := h
    -- the parenthesis that is open first is closed last
    obtain ⟨body, rfl, hPartners, hRun⟩ := Scan.exists_body_of_closesAtEnd rfl h'
    refine ⟨String.ofList body, ⟨?_, ?_⟩, ?_⟩
    · rw [String.toList_ofList, hPartners]
    · rw [String.toList_ofList, hRun]
    · rw [← String.toList_inj, toList_parens, Text.trim, hTrim]
      simp
  · cases h

end AnnotationQuery.Sql
