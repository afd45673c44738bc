import AnnotationQuery.Proofs.Token.Laid
import Mathlib.Data.List.Forall2

/-!
# Writing the same tokens in other ways

A token has one spelling, unless it is a keyword: the letters of a keyword may be capitals
or not, each for itself. Tokens are kept apart by blanks, as many and of whatever kind. A
text that writes the tokens of another text down in such a way has the same tokens.

Two things come together here. A spelling is read as its token when it stands alone: for a
keyword because case is all that is ignored, for any other token because that is how it
was written in the first text, and a token is still read when everything behind it is
taken away. And a blank behind it makes no token longer, so it does not matter what
follows the blank.

Main results:

* `readable_of_lex` — the tokens of a text, by themselves.
* `lex_of_relaid` — the same tokens, written in another way.
-/

namespace AnnotationQuery.Token

open Parse (Tokens values)

/-! ## Spellings -/

/-- The word spells the token. A letter of a keyword may be written as a small letter. -/
def Spells : Token → String → Prop
  | keyword k, word => List.Forall₂ (fun c d => d = c ∨ d = c.toLower) k.text.toList word.toList
  | t, word => word = t.text

instance (t : Token) (word : String) : Decidable (Spells t word) :=
  match t with
  | keyword _ => inferInstanceAs (Decidable (List.Forall₂ _ _ _))
  | ident _ | single _ | double _ | number _ | symbol _ => inferInstanceAs (Decidable (_ = _))

/-- The token is read from each of its spellings. -/
def Readable (t : Token) : Prop :=
  ∀ word, Spells t word → lexeme? word.toList = some ⟨t, word.toList⟩

/-- A letter of a keyword is a letter in either case, and is the same letter in capitals. -/
def isKeywordLetter (c : Char) : Bool :=
  [c, c.toLower].all fun d =>
    Text.isIdentifierStart d && Text.isIdentifierPart d && d.toUpper == c

/-- The keywords are written in letters like these. -/
theorem isKeywordLetter_of_mem {k : Keyword} {c : Char} (h : c ∈ k.text.toList) :
    isKeywordLetter c = true := by
  have hAll : Keyword.all.all (fun k => k.text.toList.all isKeywordLetter) = true := by
    decide
  have hk : k ∈ Keyword.all := by cases k <;> decide
  exact List.all_eq_true.mp (List.all_eq_true.mp hAll k hk) c h

/-- A word that is a keyword in capitals is that keyword. -/
theorem ofWord_of_toUpper {k : Keyword} {word : List Char}
    (h : word.map Char.toUpper = k.text.toList) : ofWord word = keyword k := by
  have hFound : Keyword.ofWord? word = some k := by
    rw [Keyword.ofWord?, h]
    cases k <;> decide
  rw [ofWord, hFound]

/-- What is known of the letters of a keyword is known of the letters of its spellings. -/
theorem letters_of_cased {letters word : List Char}
    (h : List.Forall₂ (fun c d => d = c ∨ d = c.toLower) letters word)
    (hLetters : ∀ c ∈ letters, isKeywordLetter c = true) :
    word.map Char.toUpper = letters ∧
      ∀ d ∈ word, Text.isIdentifierStart d = true ∧ Text.isIdentifierPart d = true := by
  induction h with
  | nil => exact ⟨rfl, fun d hd => (nomatch hd)⟩
  | @cons c d letters word hCase hRest ih =>
    -- `c` is the capital letter and `d` the one in the word
    rw [List.forall_mem_cons] at hLetters
    obtain ⟨hUpper, hWord⟩ := ih hLetters.2
    have hBoth := List.all_eq_true.mp hLetters.1
    have hd : d ∈ [c, c.toLower] := by
      rcases hCase with rfl | rfl
      · exact List.mem_cons_self
      · exact List.mem_cons_of_mem _ (List.mem_singleton_self _)
    have hHere := hBoth d hd
    simp only [Bool.and_eq_true, beq_iff_eq] at hHere
    rw [List.map_cons, hUpper, hHere.2, List.forall_mem_cons]
    exact ⟨rfl, hHere.1, hWord⟩

/-- A keyword is read in any mixture of case. -/
theorem readable_keyword (k : Keyword) : Readable (keyword k) := by
  intro word hWord
  obtain ⟨hUpper, hLetters⟩ := letters_of_cased hWord fun c hc => isKeywordLetter_of_mem hc
  generalize word.toList = word at hUpper hLetters ⊢
  cases word with
  | nil => cases k <;> cases hUpper
  | cons d word =>
    rw [List.forall_mem_cons] at hLetters
    -- all of its letters are letters of a word, in either case
    have hAll : word.takeWhile Text.isIdentifierPart = word :=
      List.takeWhile_eq_self_iff.mpr fun c hc => (hLetters.2 c hc).2
    simp only [lexeme?, hLetters.1.1, if_true, hAll, ofWord_of_toUpper hUpper]

/-- What is read is a word of identifier characters, or else it is neither a keyword nor a name, and
was written the way it is written. -/
theorem word_or_text {cs : List Char} {l : Lexeme} (h : lexeme? cs = some l) :
    (l.token = ofWord l.written ∧
      ∀ c ∈ l.written, Text.isIdentifierStart c = true ∨ Text.isIdentifierPart c = true) ∨
    (∀ k, l.token ≠ keyword k) ∧ (∀ name, l.token ≠ ident name) ∧
      l.written = l.token.text.toList := by
  cases cs with
  | nil => cases h
  | cons c cs =>
    simp only [lexeme?] at h
    split at h
    · next hStart =>
      cases h
      refine .inl ⟨rfl, List.forall_mem_cons.mpr ⟨.inl hStart, ?_⟩⟩
      exact fun d hd => .inr (List.mem_takeWhile_imp hd)
    · -- a string, a number or a symbol, which is written in one way
      right
      split at h
      · next hc =>
        obtain ⟨body, -, rfl⟩ := Option.map_eq_some_iff.mp h
        subst hc
        exact ⟨by rintro k ⟨⟩, by rintro name ⟨⟩, by simp [text]⟩
      · split at h
        · next hc =>
          obtain ⟨body, -, rfl⟩ := Option.map_eq_some_iff.mp h
          subst hc
          exact ⟨by rintro k ⟨⟩, by rintro name ⟨⟩, by simp [text]⟩
        · split at h
          · cases h
            exact ⟨by rintro k ⟨⟩, by rintro name ⟨⟩, (String.toList_ofList).symm⟩
          · obtain ⟨s, -, rfl⟩ := Option.map_eq_some_iff.mp h
            exact ⟨by rintro k ⟨⟩, by rintro name ⟨⟩, rfl⟩

/-- Unless it is a keyword, a token was written the way it is written. -/
theorem written_eq_text {cs : List Char} {l : Lexeme} (h : lexeme? cs = some l) :
    (∃ k, l.token = keyword k) ∨ l.written = l.token.text.toList := by
  rcases word_or_text h with ⟨hWord, -⟩ | ⟨-, -, hText⟩
  · rw [hWord]
    unfold ofWord
    split
    · next k hk => exact .inl ⟨k, rfl⟩
    · exact .inr (String.toList_ofList).symm
  · exact .inr hText

/-- What was read from some text is read from its spellings. -/
theorem readable_of_lexeme? {cs : List Char} {l : Lexeme} (h : lexeme? cs = some l) :
    Readable l.token := by
  rcases written_eq_text h with ⟨k, hk⟩ | hWritten
  · rw [hk]
    exact readable_keyword k
  · intro word hWord
    obtain ⟨rest, rfl⟩ := written_front h
    have hAlone : lexeme? l.written = some l := lexeme?_of_append h (List.prefix_refl _)
    cases hToken : l.token with
    -- a keyword that happens to be written in capitals is still spelled in all ways
    | keyword k =>
      rw [hToken] at hWord
      exact readable_keyword k word hWord
    | _ =>
      rw [hToken] at hWord hWritten
      cases (hWord : word = _)
      rw [← hWritten, ← hToken, hAlone]

/-- The tokens of a text can be read from each of their spellings. -/
theorem Laid.readable {offset : Nat} {cs : List Char} {ts : Tokens} (h : Laid offset cs ts) :
    ∀ t ∈ ts, t.value.Readable := by
  induction h with
  | nil => exact fun t ht => (nomatch ht)
  | blank hBlank hRest ih => exact ih
  | token hLexeme hRest ih =>
    rw [List.forall_mem_cons]
    exact ⟨readable_of_lexeme? hLexeme, ih⟩

/-- The tokens of a text can be read by themselves, however they are spelled. -/
theorem readable_of_lex {source : String} {ts : Tokens} (h : lex source = .ok ts) :
    ∀ t ∈ values ts, t.Readable := by
  intro t ht
  obtain ⟨u, hu, rfl⟩ := List.mem_map.mp ht
  exact (laid_iff.mpr h).readable u hu

/-! ## Layouts -/

/-- The text of words with blanks behind them. -/
def layOut : List (String × String) → String
  | [] => ""
  | (word, gap) :: pieces => word ++ gap ++ layOut pieces

/-- The words spell the tokens, each with blanks behind it. Only behind the last one there may be
none. -/
def Spaced : List Token → List (String × String) → Prop
  | [], pieces => pieces = []
  | _ :: _, [] => False
  | t :: ts, (word, gap) :: pieces =>
    t.Spells word ∧ Text.isBlankText gap = true ∧ (ts ≠ [] → gap ≠ "") ∧ Spaced ts pieces

instance : (ts : List Token) → (pieces : List (String × String)) → Decidable (Spaced ts pieces)
  | [], pieces => inferInstanceAs (Decidable (pieces = []))
  | _ :: _, [] => inferInstanceAs (Decidable False)
  | t :: ts, (word, gap) :: pieces =>
    have : Decidable (Spaced ts pieces) := instDecidableSpaced ts pieces
    inferInstanceAs (Decidable (t.Spells word ∧ Text.isBlankText gap = true ∧
      (ts ≠ [] → gap ≠ "") ∧ Spaced ts pieces))

/-- The text is these tokens in some spelling, with blanks between them and around them. -/
def Relaid (ts : List Token) (text : String) : Prop :=
  ∃ lead pieces, text = lead ++ layOut pieces ∧ Text.isBlankText lead = true ∧ Spaced ts pieces

/-- What stands behind a spelling makes it no longer. -/
theorem breaks_of_spaced {ts : List Token} {gap : String} {pieces : List (String × String)}
    (hGap : Text.isBlankText gap = true) (hApart : ts ≠ [] → gap ≠ "") (h : Spaced ts pieces) :
    Breaks (gap.toList ++ (layOut pieces).toList) := by
  cases hChars : gap.toList with
  | cons c cs =>
    rw [Text.isBlankText, hChars, List.all_cons, Bool.and_eq_true] at hGap
    rintro _ ⟨⟩
    exact Text.isJoining_of_isBlank hGap.1
  | nil =>
    -- without a blank there is no further token
    cases ts with
    | nil =>
      cases (h : pieces = [])
      rintro c ⟨⟩
    | cons t ts => exact absurd (String.toList_eq_nil_iff.mp hChars) (hApart (List.cons_ne_nil _ _))

/-- Words that spell tokens, with blanks between them, have these tokens. -/
theorem hasTokens_of_spaced {ts : List Token} {pieces : List (String × String)}
    (h : Spaced ts pieces) (hReadable : ∀ t ∈ ts, t.Readable) :
    HasTokens (layOut pieces).toList ts := by
  induction ts generalizing pieces with
  | nil =>
    cases (h : pieces = [])
    exact fun _ => ⟨[], rfl, rfl⟩
  | cons t ts ih =>
    cases pieces with
    | nil => exact absurd h id
    | cons piece pieces =>
      obtain ⟨word, gap⟩ := piece
      obtain ⟨hWord, hGap, hApart, hMore⟩ := h
      rw [List.forall_mem_cons] at hReadable
      have hText : (layOut ((word, gap) :: pieces)).toList =
          word.toList ++ (gap.toList ++ (layOut pieces).toList) := by
        simp [layOut]
      -- the blanks end the word, and only move what follows
      have hRest : HasTokens (gap.toList ++ (layOut pieces).toList) ts :=
        (ih hMore hReadable.2).after_blanks hGap
      rw [hText]
      exact (hasTokens_of_whole (hReadable.1 word hWord)).append hRest
        (breaks_of_spaced hGap hApart hMore)

/-- **A text in another layout has the same tokens.** -/
theorem lex_of_relaid {source text : String} {ts : Tokens} (hLex : lex source = .ok ts)
    (h : Relaid (values ts) text) : ∃ us, lex text = .ok us ∧ values us = values ts := by
  obtain ⟨lead, pieces, rfl, hLead, hSpaced⟩ := h
  have hTokens := (hasTokens_of_spaced hSpaced (readable_of_lex hLex)).after_blanks hLead
  rw [← String.toList_append] at hTokens
  exact hTokens 0

end AnnotationQuery.Token
