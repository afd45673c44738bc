import AnnotationQuery.Proofs.Token.Spelling

/-!
# Nothing is lost between a text and its tokens

A text that falls into tokens can be put together again from them: what is read for a
token is the part of the text at the token's place, and all the rest is blanks. No
character is left out and none is read twice, so the places of the tokens do not overlap
and every byte outside of them is part of a blank.

A blank may take up to three bytes, and a place is a range of bytes. So whether a byte is
outside of all places says nothing of characters yet; `Text.charOfByte?` gives the
character that a byte is part of.

Main results:

* `Laid.blank_outside` — the bytes between the tokens.
* `Laid.rebuilt` — the text from the parts at the places of the tokens and the blanks behind them.
* `lex_lossless` — the two for a whole text, with the places and spellings of the tokens.
-/

namespace AnnotationQuery

open Parse (Tokens)

/-! ## Bytes -/

namespace Text

/-- The character that a byte of a text is part of. -/
def charOfByte? : List Char → Nat → Option Char
  | [], _ => none
  | c :: cs, n => if n < c.utf8Size then some c else charOfByte? cs (n - c.utf8Size)

/-- The bytes of the second of two texts are those behind the first. -/
theorem charOfByte?_append_right (as bs : List Char) (n : Nat) :
    charOfByte? (as ++ bs) (byteLength as + n) = charOfByte? bs n := by
  induction as with
  | nil => rw [List.nil_append, byteLength, Nat.zero_add]
  | cons c as ih =>
    have hBehind : ¬ c.utf8Size + byteLength as + n < c.utf8Size := by omega
    have hLeft : c.utf8Size + byteLength as + n - c.utf8Size = byteLength as + n := by omega
    rw [List.cons_append, byteLength, charOfByte?, if_neg hBehind, hLeft, ih]

end Text

/-- The byte at an offset is in the span. -/
def Span.Holds (s : Span) (offset : Nat) : Prop :=
  s.start ≤ offset ∧ offset < s.stop

namespace Token

/-! ## What was written for a token -/

/-- A character is the capital letter of itself or the small letter of that. -/
theorem eq_toUpper_or_toLower (d : Char) : d = d.toUpper ∨ d = d.toUpper.toLower := by
  by_cases hSmall : 'a'.val ≤ d.val ∧ d.val ≤ 'z'.val
  · right
    have hUpper : d.toUpper.val = d.val + ('A'.val - 'a'.val) := by
      show (dite ('a'.val ≤ d.val ∧ d.val ≤ 'z'.val) _ _ : Char).val = _
      rw [dif_pos hSmall]
    -- the capital letter of a small one is one of the letters that have a small one
    have hCapital : d.toUpper.val ≥ 'A'.val ∧ d.toUpper.val ≤ 'Z'.val := by
      have ha : 'a'.val.toNat = 97 := rfl
      have hz : 'z'.val.toNat = 122 := rfl
      have hA : 'A'.val.toNat = 65 := rfl
      have hZ : 'Z'.val.toNat = 90 := rfl
      have hBack : ('A'.val - 'a'.val).toNat = 2 ^ 32 - 32 := rfl
      simp only [hUpper, ge_iff_le, UInt32.le_iff_toNat_le, UInt32.toNat_add] at hSmall ⊢
      omega
    apply Char.ext
    show d.val = (dite (d.toUpper.val ≥ 'A'.val ∧ d.toUpper.val ≤ 'Z'.val) _ _ : Char).val
    rw [dif_pos hCapital]
    show d.val = d.toUpper.val + ('a'.val - 'A'.val)
    rw [hUpper, UInt32.add_assoc]
    exact (UInt32.add_zero _).symm
  · left
    show d = dite ('a'.val ≤ d.val ∧ d.val ≤ 'z'.val) _ _
    rw [dif_neg hSmall]

/-- A word that is read as a keyword is that keyword in capitals. -/
theorem toUpper_of_ofWord {word : List Char} {k : Keyword} (h : ofWord word = keyword k) :
    word.map Char.toUpper = k.text.toList := by
  unfold ofWord at h
  split at h
  · next k' hFound =>
    cases h
    unfold Keyword.ofWord? at hFound
    have hSame := List.find?_some hFound
    exact (beq_iff_eq.mp hSame).symm
  · cases h

/-- What is read for a token spells it. -/
theorem spells_written {cs : List Char} {l : Lexeme} (h : lexeme? cs = some l) :
    l.token.Spells (String.ofList l.written) := by
  cases hToken : l.token with
  | keyword k =>
    -- only a word can be a keyword
    have hWord : ofWord l.written = keyword k := by
      rcases word_or_text h with ⟨hWord, -⟩ | ⟨hOther, -⟩
      · rw [← hWord, hToken]
      · exact absurd hToken (hOther k)
    show List.Forall₂ _ k.text.toList (String.ofList l.written).toList
    rw [String.toList_ofList, ← toUpper_of_ofWord hWord, List.forall₂_map_left_iff,
      List.forall₂_same]
    exact fun d _ => eq_toUpper_or_toLower d
  | _ =>
    rcases written_eq_text h with ⟨k, hk⟩ | hWritten
    · rw [hToken] at hk
      cases hk
    · rw [hToken] at hWritten
      show String.ofList l.written = _
      rw [hWritten, String.ofList_toList]

/-! ## Whole texts -/

section
variable {source : String} {offset : Nat} {cs : List Char} {ts : Tokens}

/-- A byte that is in none of the places is part of a blank. -/
theorem Laid.blank_outside (h : Laid offset cs ts) {n : Nat} (hn : n < Text.byteLength cs)
    (hOutside : ∀ t ∈ ts, ¬ t.span.Holds (offset + n)) :
    ∃ c, Text.charOfByte? cs n = some c ∧ Text.isBlank c = true := by
  induction h generalizing n with
  | nil => exact absurd hn (Nat.not_lt_zero n)
  | @blank offset c cs ts hBlank hRest ih =>
    rw [Text.charOfByte?]
    split
    · exact ⟨c, rfl, hBlank⟩
    · next hBehind =>
      rw [Text.byteLength] at hn
      refine ih (by omega) fun t ht => ?_
      have hSame : offset + c.utf8Size + (n - c.utf8Size) = offset + n := by omega
      rw [hSame]
      exact hOutside t ht
  | @token offset l cs ts hLexeme hRest ih =>
    rw [List.forall_mem_cons] at hOutside
    -- the byte is not in the first token, so it is behind it
    have hBehind : Text.byteLength l.written ≤ n := by
      by_contra hBefore
      exact hOutside.1 ⟨Nat.le_add_right _ _, by simp only; omega⟩
    obtain ⟨m, rfl⟩ := Nat.exists_eq_add_of_le hBehind
    rw [Text.byteLength_append] at hn
    rw [Text.charOfByte?_append_right]
    refine ih (by omega) fun t ht => ?_
    rw [Nat.add_assoc]
    exact hOutside.2 t ht

/-- The token stands on this part of the text, which spells it, and this gap is blank. -/
structure Stands (source : String) (t : Spanned Token) (piece : String × String) : Prop where
  slice : t.span.slice? source = some piece.1
  spells : t.value.Spells piece.1
  gap : Text.isBlankText piece.2 = true

/-- The rest of a text, from the parts that its tokens stand on. -/
theorem Laid.rebuilt (h : Laid offset cs ts) (front : List Char)
    (hText : source.toList = front ++ cs) (hOffset : Text.byteLength front = offset) :
    ∃ lead pieces, String.ofList cs = lead ++ layOut pieces ∧ Text.isBlankText lead = true ∧
      List.Forall₂ (Stands source) ts pieces := by
  induction h generalizing front with
  | nil => exact ⟨"", [], rfl, rfl, .nil⟩
  | @blank offset c cs ts hBlank hRest ih =>
    have hFront : Text.byteLength (front ++ [c]) = offset + c.utf8Size := by
      rw [Text.byteLength_append, hOffset]
      rfl
    obtain ⟨lead, pieces, hRebuilt, hLead, hStands⟩ :=
      ih (front ++ [c]) (by rw [hText, List.append_assoc]; rfl) hFront
    refine ⟨String.ofList [c] ++ lead, pieces, ?_, ?_, hStands⟩
    · rw [String.append_assoc, ← hRebuilt, ← String.ofList_append]
      rfl
    · rw [Text.isBlankText, String.toList_append, String.toList_ofList, List.all_append,
        List.all_cons, hBlank]
      exact hLead
  | @token offset l cs ts hLexeme hRest ih =>
    have hFront : Text.byteLength (front ++ l.written) = offset + Text.byteLength l.written := by
      rw [Text.byteLength_append, hOffset]
    obtain ⟨gap, pieces, hRebuilt, hGap, hStands⟩ :=
      ih (front ++ l.written) (by rw [hText, List.append_assoc]) hFront
    -- the blanks before the next token are the gap behind this one
    refine ⟨"", (String.ofList l.written, gap) :: pieces, ?_, rfl, .cons ⟨?_, ?_, hGap⟩ hStands⟩
    · rw [String.ofList_append, hRebuilt, layOut, String.empty_append, String.append_assoc]
    · subst hOffset
      exact Span.slice?_of_append hText
    · exact spells_written hLexeme

end

/-- The tokens are all that there is in the text, besides blanks. -/
structure Lossless (source : String) (ts : Tokens) : Prop where
  /-- No token stands on nothing. -/
  nonempty : ∀ t ∈ ts, t.span.start < t.span.stop
  /-- Tokens stand on whole characters of the text. -/
  within : ∀ t ∈ ts, Text.isBoundary source t.span.start = true ∧
    Text.isBoundary source t.span.stop = true ∧ t.span.stop ≤ Text.byteLength source.toList
  /-- A token starts where the one before it ends, or behind. -/
  apart : ts.Pairwise fun t u => t.span.stop ≤ u.span.start
  /-- What a token stands on is its text, up to the case of the letters of a keyword. -/
  spelled : ∀ t ∈ ts, ∃ word, t.span.slice? source = some word ∧ t.value.Spells word
  /-- A byte on which no token stands is part of a blank. -/
  blank : ∀ n < Text.byteLength source.toList, (∀ t ∈ ts, ¬ t.span.Holds n) →
    ∃ c, Text.charOfByte? source.toList n = some c ∧ Text.isBlank c = true
  /-- The text is what its tokens stand on, one after the other, with blanks before each and behind
  the last. -/
  rebuilt : ∃ lead pieces, source = lead ++ layOut pieces ∧ Text.isBlankText lead = true ∧
    List.Forall₂ (Stands source) ts pieces

/-- **The lexer is lossless.** The tokens of a text stand on parts of it that are not empty, lie on
character boundaries and follow each other without overlap. The part that a token stands on is the
token as it is written, except that a keyword may be in any mixture of case. All else is blanks,
byte by byte, so the text can be put together again from these parts and the gaps between them. -/
theorem lex_lossless {source : String} {ts : Tokens} (h : lex source = .ok ts) :
    Lossless source ts := by
  have hLaid : Laid 0 source.toList ts := laid_iff.mpr h
  obtain ⟨lead, pieces, hRebuilt, hLead, hStands⟩ :=
    hLaid.rebuilt [] (List.nil_append _).symm rfl
  rw [String.ofList_toList] at hRebuilt
  refine ⟨?_, ?_, hLaid.ordered, ?_, ?_, ⟨lead, pieces, hRebuilt, hLead, hStands⟩⟩
  · -- a token has at least one character, and that has at least one byte
    intro t ht
    obtain ⟨as, bs, rest, -, hSome, hSpan⟩ := hLaid.within ht
    obtain ⟨c, bs, rfl⟩ := List.exists_cons_of_ne_nil hSome
    have hPos := c.utf8Size_pos
    rw [hSpan, Text.byteLength]
    simp only
    omega
  · intro t ht
    obtain ⟨as, bs, rest, hText, -, hSpan⟩ := hLaid.within ht
    have hStop : source.toList = (as ++ bs) ++ rest := by rw [hText, List.append_assoc]
    rw [hSpan, Nat.zero_add, ← Text.byteLength_append]
    exact ⟨Text.isBoundary_of_append hText, Text.isBoundary_of_append hStop,
      Text.byteLength_le_of_append hStop⟩
  · -- each token stands on its piece, and the piece spells it
    have hEach : List.Forall₂ (fun t piece =>
        (∃ word, t.span.slice? source = some word ∧ t.value.Spells word) ∧ Stands source t piece)
        ts pieces :=
      hStands.imp fun t piece hPiece => ⟨⟨piece.1, hPiece.slice, hPiece.spells⟩, hPiece⟩
    exact ((List.forall₂_and_left _ _).mp hEach).1
  · intro n hn hOutside
    refine hLaid.blank_outside hn fun t ht => ?_
    rw [Nat.zero_add]
    exact hOutside t ht

/-- A text with blanks of one, two and three bytes, keywords in odd case, strings with a quote in
them, and a number before a dot that is not part of it. -/
def tightText : String :=
  "\u2003'é\\''nOt\u00a0iN(\"\\\"\",-1.5,2.x) "

/-- The tokens of that text. -/
def tightTokens : Tokens :=
  [⟨single "é\\'", 3, 9⟩, ⟨keyword .not, 9, 12⟩, ⟨keyword .isIn, 14, 16⟩, ⟨symbol .lparen, 16, 17⟩,
    ⟨double "\\\"", 17, 21⟩, ⟨symbol .comma, 21, 22⟩, ⟨number "-1.5", 22, 26⟩,
    ⟨symbol .comma, 26, 27⟩, ⟨number "2", 27, 28⟩, ⟨symbol .dot, 28, 29⟩, ⟨ident "x", 29, 30⟩,
    ⟨symbol .rparen, 30, 31⟩]

theorem tightText_lossless : lex tightText = .ok tightTokens ∧ Lossless tightText tightTokens := by
  have hLex : lex tightText = .ok tightTokens := by decide +kernel
  exact ⟨hLex, lex_lossless hLex⟩

end Token

end AnnotationQuery
