import AnnotationQuery.Proofs.Sql.Scan
import AnnotationQuery.Proofs.Token.Lexer

/-!
# Enclosed texts and their grammar

Whether a text is enclosed is found out by counting: the walk keeps a depth, and the
parenthesis that brings it back to zero has to be the last character. Counting does not say
which parenthesis belongs to which. `WellNested` does. It is the grammar of texts whose
parentheses pair up and whose quotes are closed, with no walk in it.

The two agree: a walk returns to its start without meeting a parenthesis that has no partner
exactly over the texts of the grammar. In one direction every rule of the grammar is a
way to put complete texts together. In the other, the first character decides on the
rule, and the walk is cut where it first comes back: at the next quote that is not escaped, or at
the parenthesis that closes the first one.

Main results:

* `complete_iff_wellNested` — what the walk accepts.
* `isEnclosed_exactly` — which texts are enclosed.
-/

namespace AnnotationQuery.Sql

open Token (isBody)

/-! ## The grammar -/

/-- Parentheses pair up and quotes are closed. Inside a quote a backslash takes the next character
along, and a parenthesis is a character like any other. -/
inductive WellNested : List Char → Prop where
  | nil : WellNested []
  | plain {c : Char} {cs : List Char} (hPlain : c ∉ ['\'', '"', '\x60', '(', ')'])
      (hRest : WellNested cs) : WellNested (c :: cs)
  | quoted {q : Char} {body cs : List Char} (hQuote : q ∈ ['\'', '"', '\x60'])
      (hBody : isBody q body = true) (hRest : WellNested cs) :
      WellNested (q :: (body ++ q :: cs))
  | parens {inner cs : List Char} (hInner : WellNested inner) (hRest : WellNested cs) :
      WellNested ('(' :: (inner ++ ')' :: cs))

theorem isQuote_iff {c : Char} : Scan.isQuote c = true ↔ c ∈ ['\'', '"', '\x60'] := by
  simp [Scan.isQuote, or_assoc]

theorem isPlain_iff {c : Char} : isPlain c = true ↔ c ∉ ['\'', '"', '\x60', '(', ')'] := by
  simp [isPlain, Scan.isQuote, and_assoc]

theorem ne_backslash_of_isQuote {q : Char} (h : Scan.isQuote q = true) : q ≠ '\\' := by
  rintro rfl
  revert h
  decide

/-! ## Walking over a quote -/

namespace Scan

/-- Inside a quote, a backslash and the character behind it leave the walk where it was. -/
theorem step_pair (d : Nat) (q c : Char) :
    ((Scan.mk d (some q) false).step '\\').step c = ⟨d, some q, false⟩ :=
  rfl

theorem step_inside {q c : Char} (hSlash : c ≠ '\\') (hc : c ≠ q) (d : Nat) :
    (Scan.mk d (some q) false).step c = ⟨d, some q, false⟩ := by
  simp [step, hSlash, hc]

theorem step_closing {q : Char} (hq : q ≠ '\\') (d : Nat) :
    (Scan.mk d (some q) false).step q = ⟨d, none, false⟩ := by
  simp [step, hq]

/-- The walk is still inside the quote after what can stand there. -/
theorem walk_body {q : Char} {body : List Char} (h : isBody q body = true) (d : Nat) :
    (Scan.mk d (some q) false).run body = ⟨d, some q, false⟩ ∧
      (Scan.mk d (some q) false).meetsPartners body = true := by
  -- as a body is made up: a backslash takes the next character along
  induction body using Token.isBody.induct with
  | case1 => exact ⟨rfl, rfl⟩
  | case2 => cases h
  | case3 c cs ih =>
    rw [isBody] at h
    rw [run_cons, run_cons, meetsPartners, meetsPartners, step_pair]
    exact ih h
  | case4 c cs hNot hNotPair ih =>
    have hSlash : c ≠ '\\' := Token.ne_backslash_of_unpaired hNot hNotPair
    rw [Token.isBody_cons_of_ne hSlash, Bool.and_eq_true, bne_iff_ne] at h
    rw [run_cons, meetsPartners, step_inside hSlash h.1]
    exact ih h.2

/-- A walk that leaves the quote does so at the first quote that is not escaped. -/
theorem exists_closing_quote {q : Char} {d : Nat} {cs : List Char}
    (h : ((Scan.mk d (some q) false).run cs).quote = none) :
    ∃ body rest, cs = body ++ q :: rest ∧ isBody q body = true := by
  induction cs using Token.isBody.induct with
  | case1 => cases h
  | case2 => cases h
  | case3 c cs ih =>
    rw [run_cons, run_cons, step_pair] at h
    obtain ⟨body, rest, rfl, hBody⟩ := ih h
    exact ⟨'\\' :: c :: body, rest, rfl, by rw [isBody, hBody]⟩
  | case4 c cs hNot hNotPair ih =>
    have hSlash : c ≠ '\\' := Token.ne_backslash_of_unpaired hNot hNotPair
    -- the first quote that nothing escapes closes it
    by_cases hc : c = q
    · exact ⟨[], cs, by rw [hc]; rfl, rfl⟩
    · rw [run_cons, step_inside hSlash hc] at h
      obtain ⟨body, rest, rfl, hBody⟩ := ih h
      refine ⟨c :: body, rest, rfl, ?_⟩
      rw [Token.isBody_cons_of_ne hSlash, hBody, Bool.and_true]
      exact bne_iff_ne.mpr hc

/-! ## Walking over a pair of parentheses -/

/-- A walk that starts inside a parenthesis and ends outside closes it somewhere. Up to there it
comes back to where it started, and from there on to where it ends. -/
theorem exists_closing_parenthesis {s : Scan} {cs : List Char} (hSettled : s.isSettled = true)
    (hPartners : (s.deeper 1).meetsPartners cs = true) (hReturns : (s.deeper 1).run cs = start) :
    ∃ inner rest, cs = inner ++ ')' :: rest ∧ s.meetsPartners inner = true ∧
      s.run inner = start ∧ start.meetsPartners rest = true ∧ start.run rest = start := by
  induction cs generalizing s with
  | nil => cases hReturns
  | cons c cs ih =>
    rw [meetsPartners, Bool.and_eq_true] at hPartners
    rw [run_cons] at hReturns
    by_cases hClose : (s.quote.isNone && c == ')' && s.depth == 0) = true
    · -- here the parenthesis is closed, and what is left of `s` is the start
      simp only [Bool.and_eq_true, Option.isNone_iff_eq_none, beq_iff_eq] at hClose
      obtain ⟨⟨hq, rfl⟩, hd⟩ := hClose
      have he : s.escaped = false := by simpa [isSettled, hq] using hSettled
      have hStart : s = start := by rw [start, ← hq, ← hd, ← he]
      subst hStart
      exact ⟨[], cs, rfl, rfl, rfl, hPartners.2, hReturns⟩
    · rw [Bool.not_eq_true] at hClose
      rw [step_deeper 1 hClose] at hPartners hReturns
      obtain ⟨inner, rest, rfl, hInner, hRun, hRest⟩ :=
        ih (isSettled_step c hSettled) hPartners.2 hReturns
      exact ⟨c :: inner, rest, rfl, by rw [meetsPartners, hClose, hInner]; rfl, hRun, hRest⟩

end Scan

/-! ## The grammar and the walk -/

/-- A quoted text is complete. -/
theorem complete_quoted {q : Char} {body : List Char} (hq : Scan.isQuote q = true)
    (hBody : isBody q body = true) : Complete (String.ofList (q :: (body ++ [q]))) := by
  have hOpen : Scan.start.step q = ⟨0, some q, false⟩ := by simp [Scan.start, Scan.step, hq]
  have hPlace : (Scan.start.quote.isNone && q == ')' && Scan.start.depth == 0) = false := by
    have hNe : q ≠ ')' := by
      rintro rfl
      revert hq
      decide
    simp [hNe]
  obtain ⟨hRun, hPartners⟩ := Scan.walk_body hBody 0
  constructor
  · rw [String.toList_ofList, Scan.meetsPartners, hPlace, hOpen, Scan.meetsPartners_append,
      hPartners, hRun]
    rfl
  · rw [String.toList_ofList, Scan.run_cons, hOpen, Scan.run_append, hRun, Scan.run_cons,
      Scan.step_closing (ne_backslash_of_isQuote hq)]
    rfl

/-- Each rule of the grammar puts complete texts together. -/
theorem complete_of_wellNested {cs : List Char} (h : WellNested cs) :
    Complete (String.ofList cs) := by
  -- each rule puts something complete in front of a complete text
  induction h with
  | nil => exact complete_empty
  | @plain c cs hPlain hRest ih =>
    have hOne : Complete (String.ofList [c]) :=
      complete_of_plain fun d hd => by
        rw [String.toList_ofList, List.mem_singleton] at hd
        rw [hd, isPlain_iff]
        exact hPlain
    have hText : String.ofList (c :: cs) = String.ofList [c] ++ String.ofList cs := by
      rw [← String.ofList_append]
      rfl
    rw [hText]
    exact hOne.append ih
  | @quoted q body cs hQuote hBody hRest ih =>
    have hText : String.ofList (q :: (body ++ q :: cs)) =
        String.ofList (q :: (body ++ [q])) ++ String.ofList cs := by
      rw [← String.ofList_append, List.cons_append, List.append_assoc]
      rfl
    rw [hText]
    exact (complete_quoted (isQuote_iff.mpr hQuote) hBody).append ih
  | @parens inner cs hInner hRest ihInner ihRest =>
    have hText : String.ofList ('(' :: (inner ++ ')' :: cs)) =
        "(" ++ String.ofList inner ++ ")" ++ String.ofList cs := by
      rw [← String.toList_inj]
      simp
    rw [hText]
    exact ihInner.parens.append ihRest

/-- The first character decides on the rule. -/
theorem wellNested_of_walk (cs : List Char) (hPartners : Scan.start.meetsPartners cs = true)
    (hReturns : Scan.start.run cs = Scan.start) : WellNested cs := by
  -- what comes behind a quote or a pair of parentheses is shorter, but no tail
  match cs with
  | [] => exact .nil
  | c :: cs =>
    rw [Scan.meetsPartners, Bool.and_eq_true, Bool.not_eq_true'] at hPartners
    rw [Scan.run_cons] at hReturns
    by_cases hQuote : Scan.isQuote c = true
    · have hOpen : Scan.start.step c = ⟨0, some c, false⟩ := by
        simp [Scan.start, Scan.step, hQuote]
      rw [hOpen] at hPartners hReturns
      have hLeft : ((Scan.mk 0 (some c) false).run cs).quote = none := by
        rw [hReturns]
        rfl
      obtain ⟨body, rest, rfl, hBody⟩ := Scan.exists_closing_quote hLeft
      obtain ⟨hRun, -⟩ := Scan.walk_body hBody 0
      have hClosed := Scan.step_closing (ne_backslash_of_isQuote hQuote) 0
      rw [Scan.run_append, hRun, Scan.run_cons, hClosed] at hReturns
      have hRest := hPartners.2
      rw [Scan.meetsPartners_append, hRun, Bool.and_eq_true, Scan.meetsPartners, hClosed,
        Bool.and_eq_true] at hRest
      exact .quoted (isQuote_iff.mp hQuote) hBody (wellNested_of_walk rest hRest.2.2 hReturns)
    · by_cases hOpen : c = '('
      · subst hOpen
        obtain ⟨inner, rest, rfl, hInner, hRun, hRest, hBack⟩ :=
          Scan.exists_closing_parenthesis (s := Scan.start) rfl hPartners.2 hReturns
        exact .parens (wellNested_of_walk inner hInner hRun) (wellNested_of_walk rest hRest hBack)
      · have hClose : c ≠ ')' := by
          rintro rfl
          exact Bool.noConfusion hPartners.1
        have hPlain : isPlain c = true := by
          simp [isPlain, hQuote, hOpen, hClose]
        rw [Scan.step_of_isPlain rfl hPlain] at hPartners hReturns
        exact .plain (isPlain_iff.mp hPlain) (wellNested_of_walk cs hPartners.2 hReturns)
termination_by cs.length

/-- The walk returns to its start exactly over the texts of the grammar. -/
theorem complete_iff_wellNested {sql : String} : Complete sql ↔ WellNested sql.toList := by
  constructor
  · intro h
    exact wellNested_of_walk sql.toList h.partners h.returns
  · intro h
    rw [← String.ofList_toList (s := sql)]
    exact complete_of_wellNested h

/-! ## Enclosed texts -/

/-- A text is found to be enclosed exactly if parentheses stand around a complete one, blanks aside.
-/
theorem isEnclosed_iff {sql : String} :
    isEnclosed sql = true ↔ ∃ body, Complete body ∧ Text.trim sql = "(" ++ body ++ ")" := by
  constructor
  · exact parenthesized_of_isEnclosed
  · intro h
    -- only the trimmed text is looked at, and it is trimmed already
    have hTrimmed : isEnclosed (Text.trim sql) = true := Parenthesized.isEnclosed h
    rw [isEnclosed, Text.trim, String.toList_ofList, Text.trimBlanks_trimBlanks] at hTrimmed
    exact hTrimmed

/-- What closes the first parenthesis before the end encloses nothing. -/
theorem isEnclosed_of_closed_early {body : String} (h : Complete body) (rest : String) :
    isEnclosed ("(" ++ body ++ ")" ++ rest ++ ")") = false := by
  have hText : ("(" ++ body ++ ")" ++ rest ++ ")").toList =
      '(' :: ((body.toList ++ ')' :: rest.toList) ++ [')']) := by
    simp
  rw [isEnclosed, hText, trimBlanks_parens]
  show (Scan.start.deeper 1).closesAtEnd ((body.toList ++ ')' :: rest.toList) ++ [')']) = false
  -- the first parenthesis is closed behind the body, and that is not the end
  rw [List.append_assoc, Scan.closesAtEnd_append h.partners, h.returns]
  show (rest.toList ++ [')']).isEmpty = false
  simp

/-- **What counts as enclosed is exactly what one pair of parentheses encloses.** A text is taken as
enclosed if and only if, trimmed, it is a body in parentheses such that a walk over the body meets
no closing parenthesis without a partner and ends as it started; these bodies are those of the
grammar. So every such body in parentheses is enclosed, and a text that closes its first parenthesis
before its end is not, whatever comes between. -/
theorem isEnclosed_exactly (sql : String) :
    (isEnclosed sql = true ↔ ∃ body, Complete body ∧ Text.trim sql = "(" ++ body ++ ")") ∧
    ∀ body, (Complete body ↔ WellNested body.toList) ∧
      (Complete body → isEnclosed ("(" ++ body ++ ")") = true ∧
        ∀ rest, isEnclosed ("(" ++ body ++ ")" ++ rest ++ ")") = false) := by
  refine ⟨isEnclosed_iff, fun body => ⟨complete_iff_wellNested, fun h => ⟨?_, ?_⟩⟩⟩
  · exact Parenthesized.isEnclosed ⟨body, h, rfl⟩
  · exact isEnclosed_of_closed_early h

/-- Parentheses of all kinds: paired, quoted, and quoted behind an escaped quote. -/
def mixedBody : String :=
  "a = ')' OR (b = \"\\\")\")"

theorem isEnclosed_exactly_quoted :
    Complete mixedBody ∧ isEnclosed ("(" ++ mixedBody ++ ")") = true ∧
      ∀ rest, isEnclosed ("(" ++ mixedBody ++ ")" ++ rest ++ ")") = false := by
  have h : Complete mixedBody := by decide
  exact ⟨h, ((isEnclosed_exactly mixedBody).2 mixedBody).2 h⟩

end AnnotationQuery.Sql
