import AnnotationQuery.Parse.Operand
import AnnotationQuery.Proofs.Text.Quoted
import AnnotationQuery.Token.Lexer
import Mathlib.Data.List.TakeWhile

/-!
# What the lexer gives

Reading a text into tokens leaves the body of a string as written. Still, not
every list of characters is a body: a backslash always has a character after it,
and the closing quote does not occur by itself. `isBody` says so, and it is what
makes the value of a string safe to quote again, whichever quotes it was read
from (`isQuotable_of_stringValue?`).

Main results:

* `wellFormed_of_lex` — every token of a text is well formed.
* `lex_eq_nil_iff` — the texts without tokens are the blank ones.
-/

namespace AnnotationQuery.Token

/-! ## Bodies of strings -/

/-- Whether the characters can stand between two quotes `q`: each backslash takes the next
character along, and no other `q` occurs. -/
def isBody (q : Char) : List Char → Bool
  | [] => true
  | ['\\'] => false
  | '\\' :: _ :: cs => isBody q cs
  | c :: cs => c != q && isBody q cs

/-- How the test of a body goes on with a character other than a backslash. -/
theorem isBody_cons_of_ne {q c : Char} {cs : List Char} (h : c ≠ '\\') :
    isBody q (c :: cs) = (c != q && isBody q cs) := by
  rw [isBody]
  · intro hc
    exact absurd hc h
  · intro d ds hc
    exact absurd hc h

/-- A backslash goes with the next character, so what has no partner is none. -/
theorem ne_backslash_of_unpaired {c : Char} {cs : List Char} (hNot : c = '\\' → cs = [] → False)
    (hNotPair : ∀ d ds, c = '\\' → cs = d :: ds → False) : c ≠ '\\' := by
  intro hc
  cases cs with
  | nil => exact hNot hc rfl
  | cons d ds => exact hNotPair d ds hc rfl

/-- What is read between quotes can stand there. -/
theorem isBody_of_quotedBody? {q : Char} {cs body : List Char} (h : quotedBody? q cs = some body) :
    isBody q body = true := by
  -- as the body is read: a pair, the closing quote, or any other character
  fun_induction quotedBody? q cs generalizing body with
  | case1 => cases h
  | case2 => cases h
  | case3 c cs ih =>
    obtain ⟨b, hb, rfl⟩ := Option.map_eq_some_iff.mp h
    rw [isBody]
    exact ih hb
  | case4 cs hNot hNotPair =>
    cases h
    rfl
  | case5 c cs hNot hNotPair hc ih =>
    obtain ⟨b, hb, rfl⟩ := Option.map_eq_some_iff.mp h
    have hSlash : c ≠ '\\' := ne_backslash_of_unpaired hNot hNotPair
    rw [isBody_cons_of_ne hSlash, ih hb]
    simpa using hc

/-- A body does not end in an odd run of backslashes. -/
theorem endsEscaped_of_isBody {q : Char} {body : List Char} (h : isBody q body = true) :
    Text.endsEscaped false body = false := by
  -- as a body is made up: a backslash in it is never alone
  fun_induction isBody q body with
  | case1 => rfl
  | case2 => cases h
  | case3 c cs ih =>
    rw [Text.endsEscaped_cons, Text.endsEscaped_cons, Text.isEscapedAfter_backslash]
    simpa [Text.isEscapedAfter] using ih h
  | case4 c cs hNot hNotPair ih =>
    rw [Bool.and_eq_true] at h
    have hSlash : c ≠ '\\' := ne_backslash_of_unpaired hNot hNotPair
    rw [Text.endsEscaped_cons, Text.isEscapedAfter_of_ne false hSlash]
    exact ih h.2

/-- A double quote cannot start a body in double quotes, so reading it in order never joins
a backslash with a quote that is not its own. -/
theorem unescapeDouble_cons_of_isBody {c : Char} {cs : List Char} (h : isBody '"' cs = true) :
    Parse.unescapeDouble (c :: cs) = c :: Parse.unescapeDouble cs := by
  rw [Parse.unescapeDouble]
  rintro ds rfl rfl
  rw [isBody_cons_of_ne (by decide)] at h
  simp at h

/-- A backslash and a character other than a quote are both kept. -/
theorem unescapeDouble_pair_of_isBody {c : Char} {cs : List Char} (hc : c ≠ '"')
    (h : isBody '"' cs = true) :
    Parse.unescapeDouble ('\\' :: c :: cs) = '\\' :: c :: Parse.unescapeDouble cs := by
  rw [Parse.unescapeDouble, unescapeDouble_cons_of_isBody h]
  rintro ds - hd
  exact hc (List.cons.inj hd).1

/-- Nor does the body of a string in double quotes, once its quotes are unescaped. -/
theorem endsEscaped_unescapeDouble {body : List Char} (h : isBody '"' body = true) :
    Text.endsEscaped false (Parse.unescapeDouble body) = false := by
  fun_induction isBody '"' body with
  | case1 => rfl
  | case2 => cases h
  | case3 c cs ih =>
    by_cases hc : c = '"'
    · -- `\"` loses its backslash
      subst hc
      rw [Parse.unescapeDouble, Text.endsEscaped_cons, Text.isEscapedAfter_of_ne false (by decide)]
      exact ih h
    · rw [unescapeDouble_pair_of_isBody hc h, Text.endsEscaped_cons, Text.endsEscaped_cons,
        Text.isEscapedAfter_backslash]
      simpa [Text.isEscapedAfter] using ih h
  | case4 c cs hNot hNotPair ih =>
    rw [Bool.and_eq_true] at h
    have hSlash : c ≠ '\\' := ne_backslash_of_unpaired hNot hNotPair
    rw [unescapeDouble_cons_of_isBody h.2, Text.endsEscaped_cons,
      Text.isEscapedAfter_of_ne false hSlash]
    exact ih h.2

/-! ## Numbers -/

/-- Whether a character can stand in a number. -/
def isNumeric (c : Char) : Bool :=
  c.isDigit || c == '-' || c == '.'

theorem isNumeric_of_mem_takeWhile {c : Char} {cs : List Char}
    (h : c ∈ cs.takeWhile Char.isDigit) : isNumeric c = true := by
  have hDigit : c.isDigit = true := List.mem_takeWhile_imp h
  simp [isNumeric, hDigit]

/-- The characters of a fraction can stand in a number. -/
theorem isNumeric_of_mem_fraction {c : Char} {cs : List Char} (h : c ∈ fraction cs) :
    isNumeric c = true := by
  unfold fraction at h
  split at h
  · next ds =>
    by_cases hEmpty : (ds.takeWhile Char.isDigit).isEmpty = true
    · simp [hEmpty] at h
    · simp only [hEmpty, Bool.false_eq_true, if_false, List.mem_cons] at h
      rcases h with rfl | h
      · rfl
      · exact isNumeric_of_mem_takeWhile h
  · cases h

/-- Digits that are read are some, and can stand in a number. -/
theorem unsigned?_spec {cs ds : List Char} (h : unsigned? cs = some ds) :
    ds ≠ [] ∧ ∀ c ∈ ds, isNumeric c = true := by
  unfold unsigned? at h
  by_cases hEmpty : (cs.takeWhile Char.isDigit).isEmpty = true
  · simp [hEmpty] at h
  · simp only [hEmpty, Bool.false_eq_true, if_false, Option.some.injEq] at h
    subst h
    refine ⟨?_, fun c hc => ?_⟩
    · intro hNil
      rw [List.append_eq_nil_iff] at hNil
      exact hEmpty (by rw [hNil.1]; rfl)
    · rcases List.mem_append.mp hc with hc | hc
      · exact isNumeric_of_mem_takeWhile hc
      · exact isNumeric_of_mem_fraction hc

/-- A number that is read is not empty, and its characters can stand in a number. -/
theorem number?_spec {cs ds : List Char} (h : number? cs = some ds) :
    ds ≠ [] ∧ ∀ c ∈ ds, isNumeric c = true := by
  unfold number? at h
  split at h
  · obtain ⟨es, hes, rfl⟩ := Option.map_eq_some_iff.mp h
    refine ⟨List.cons_ne_nil _ _, fun c hc => ?_⟩
    rcases List.mem_cons.mp hc with rfl | hc
    · rfl
    · exact (unsigned?_spec hes).2 c hc
  · exact unsigned?_spec h

/-! ## Whole texts -/

/-- What is known of a token that was read from text. -/
def WellFormed : Token → Prop
  | single body => isBody '\'' body.toList = true
  | double body => isBody '"' body.toList = true
  | number written => written.toList ≠ [] ∧ ∀ c ∈ written.toList, isNumeric c = true
  | keyword _ | ident _ | symbol _ => True

/-- Whichever quotes a string stands in, its value can be quoted again. -/
theorem isQuotable_of_stringValue? {t : Token} {v : String} (hWf : t.WellFormed)
    (h : Parse.stringValue? t = some v) : Text.isQuotable v = true := by
  rw [Text.isQuotable_iff_endsEscaped]
  unfold Parse.stringValue? at h
  split at h
  · cases h
    exact endsEscaped_of_isBody hWf
  · cases h
    rw [String.toList_ofList]
    exact endsEscaped_unescapeDouble hWf
  · cases h

theorem wellFormed_ofWord (word : List Char) : (ofWord word).WellFormed := by
  unfold ofWord
  split <;> trivial

/-- A token read from the front of a text is well-formed. -/
theorem wellFormed_of_lexeme? {cs : List Char} {l : Lexeme} (h : lexeme? cs = some l) :
    l.token.WellFormed := by
  unfold lexeme? at h
  split at h
  · cases h
  · next c cs =>
    -- a word, a string in single or double quotes, a number or a symbol
    split at h
    · cases h
      exact wellFormed_ofWord _
    · split at h
      · next hc =>
        obtain ⟨body, hBody, rfl⟩ := Option.map_eq_some_iff.mp h
        subst hc
        simpa [WellFormed] using isBody_of_quotedBody? hBody
      · split at h
        · next hc =>
          obtain ⟨body, hBody, rfl⟩ := Option.map_eq_some_iff.mp h
          subst hc
          simpa [WellFormed] using isBody_of_quotedBody? hBody
        · split at h
          · next digits hDigits =>
            cases h
            simpa [WellFormed] using number?_spec hDigits
          · obtain ⟨s, -, rfl⟩ := Option.map_eq_some_iff.mp h
            trivial

/-- Tokens are well-formed, from inside a token on as well. -/
theorem wellFormed_of_lexFrom {cs : List Char} {offset used : Nat} {ts : List (Spanned Token)}
    (h : lexFrom offset used cs = .ok ts) : ∀ t ∈ ts, t.value.WellFormed := by
  -- on the text, also from inside a token
  induction cs generalizing offset used ts with
  | nil =>
    cases h
    simp
  | cons c cs ih =>
    cases used with
    | succ left => exact ih h
    | zero =>
      rw [lexFrom] at h
      split at h
      · exact ih h
      · split at h
        · cases h
        · next l hl =>
          cases hRest : lexFrom (offset + c.utf8Size) (l.written.length - 1) cs with
          | error d => simp [hRest, Except.map] at h
          | ok rest =>
            rw [hRest] at h
            cases h
            intro t ht
            rcases List.mem_cons.mp ht with rfl | ht
            · exact wellFormed_of_lexeme? hl
            · exact ih hRest t ht

/-- All tokens of a text are well-formed. -/
theorem wellFormed_of_lex {source : String} {ts : List (Spanned Token)}
    (h : lex source = .ok ts) : ∀ t ∈ ts, t.value.WellFormed :=
  wellFormed_of_lexFrom h

/-- A text without tokens is blank. -/
theorem isBlank_of_lexFrom_nil {cs : List Char} {offset : Nat} (h : lexFrom offset 0 cs = .ok []) :
    cs.all Text.isBlank = true := by
  induction cs generalizing offset with
  | nil => rfl
  | cons c cs ih =>
    rw [lexFrom] at h
    split at h
    · next hc => rw [List.all_cons, hc, ih h, Bool.and_self]
    · split at h
      · cases h
      · next l hl =>
        -- a token at the front would be among the tokens
        cases hRest : lexFrom (offset + c.utf8Size) (l.written.length - 1) cs with
        | error d => simp [hRest, Except.map] at h
        | ok rest => simp [hRest, Except.map] at h

/-- A blank text has no tokens. -/
theorem lexFrom_of_isBlank {cs : List Char} (h : cs.all Text.isBlank = true) (offset : Nat) :
    lexFrom offset 0 cs = .ok [] := by
  induction cs generalizing offset with
  | nil => rfl
  | cons c cs ih =>
    rw [List.all_cons, Bool.and_eq_true] at h
    rw [lexFrom]
    simp only [h.1, if_true]
    exact ih h.2 _

/-- A text has no tokens exactly if it is blank. -/
theorem lex_eq_nil_iff {source : String} :
    lex source = .ok [] ↔ Text.isBlankText source = true :=
  ⟨isBlank_of_lexFrom_nil, fun h => lexFrom_of_isBlank h 0⟩

end AnnotationQuery.Token
