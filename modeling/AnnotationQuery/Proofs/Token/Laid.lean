import AnnotationQuery.Proofs.Token.Layout

/-!
# How tokens lie in a text

A text that falls into tokens is blanks and the characters of its tokens, in turn, and
`Laid` says just that. It is the lexer without its counting: everything about places is
an induction over it. Places are sizes of front parts, so they are boundaries of
characters, and they come in the order of the tokens.

A part of a text that begins and ends with a token is a text of its own, with the same
tokens. This takes an argument, because a token is the longest text of its kind: when
the text is cut off behind a token, what was read for it must still be the longest. It
is, since a shorter text offers less to choose from.

Main results:

* `laid_iff` — the lexer and the layout.
* `Laid.ordered`, `Laid.within` — the places of tokens.
* `Laid.slice` — a run of tokens by itself.
* `HasTokens.append` — texts put together.
* `within_of_lexFrom_error` — the place of what is no token.
-/

namespace AnnotationQuery

open Parse (Tokens movedTokens values)

/-! ## Offsets -/

namespace Text

/-- A text can be split at the size of a text in front of it. -/
theorem splitAtByte?_append (as bs : List Char) :
    splitAtByte? (byteLength as) (as ++ bs) = some (as, bs) := by
  induction as with
  | nil => rw [byteLength, List.nil_append, splitAtByte?]
  | cons c as ih =>
    -- a character takes at least one byte, so the offset is not zero
    obtain ⟨k, hk⟩ := Nat.exists_eq_succ_of_ne_zero
      (Nat.pos_iff_ne_zero.mp (Nat.add_pos_left c.utf8Size_pos (byteLength as)))
    have hFits : c.utf8Size ≤ k + 1 := by omega
    have hLeft : k + 1 - c.utf8Size = byteLength as := by omega
    rw [List.cons_append, byteLength, hk, splitAtByte?, if_pos hFits, hLeft, ih]
    rfl

/-- Whether an offset lies between two characters of a text or at one of its ends. -/
def isBoundary (source : String) (offset : Nat) : Bool :=
  (splitAtByte? offset source.toList).isSome

theorem isBoundary_of_append {source : String} {as bs : List Char}
    (h : source.toList = as ++ bs) : isBoundary source (byteLength as) = true := by
  rw [isBoundary, h, splitAtByte?_append]
  rfl

theorem byteLength_le_of_append {source : String} {as bs : List Char}
    (h : source.toList = as ++ bs) : byteLength as ≤ byteLength source.toList := by
  rw [h, byteLength_append]
  exact Nat.le_add_right _ _

end Text

/-- The slice at the place of a part is that part. -/
theorem Span.slice?_of_append {source : String} {as bs cs : List Char}
    (h : source.toList = as ++ (bs ++ cs)) :
    (Span.mk (Text.byteLength as) (Text.byteLength as + Text.byteLength bs)).slice? source =
      some (String.ofList bs) := by
  have hForward : (Span.mk (Text.byteLength as)
      (Text.byteLength as + Text.byteLength bs)).isForward = true :=
    decide_eq_true (Nat.le_add_right _ _)
  rw [slice?, if_pos hForward, h, Text.splitAtByte?_append]
  show (Text.splitAtByte? _ (bs ++ cs)).bind _ = _
  rw [Nat.add_sub_cancel_left, Text.splitAtByte?_append]
  rfl

namespace Token

/-! ## One token -/

/-- No token starts with a blank. -/
theorem lexeme?_of_isBlank {c : Char} (h : Text.isBlank c = true) (cs : List Char) :
    lexeme? (c :: cs) = none := by
  -- there are few blanks: none of them is a character that a token starts with
  have hAll : ∀ n ∈ Text.blankCodes, Text.isIdentifierStart (Char.ofNat n) = false ∧
      (Char.ofNat n).isDigit = false ∧
      Char.ofNat n ∉ ['\'', '"', '-', '<', '>', '=', '(', ')', ',', '.'] := by
    decide +kernel
  have hc := hAll c.toNat (Text.mem_blankCodes h)
  rw [Char.ofNat_toNat] at hc
  obtain ⟨hStart, hDigit, hOther⟩ := hc
  simp only [List.mem_cons, List.not_mem_nil, or_false, not_or] at hOther
  obtain ⟨hSingle, hDouble, hMinus, hLt, hGt, hEq, hOpen, hClose, hComma, hDot⟩ := hOther
  have hNumber : number? (c :: cs) = none := by
    simp [number?, hMinus, unsigned?, hDigit]
  have hSymbol : symbol? (c :: cs) = none := by
    simp [symbol?, hLt, hGt, hEq, hOpen, hClose, hComma, hDot]
  simp [lexeme?, hStart, hSingle, hDouble, hNumber, hSymbol]

/-- A token is written with at least one character. -/
theorem written_ne_nil {cs : List Char} {l : Lexeme} (h : lexeme? cs = some l) :
    l.written ≠ [] := by
  cases cs with
  | nil => cases h
  | cons c cs =>
    simp only [lexeme?] at h
    -- a word, a string in single or double quotes, a number or a symbol
    split at h
    · cases h
      exact List.cons_ne_nil _ _
    · split at h
      · obtain ⟨body, -, rfl⟩ := Option.map_eq_some_iff.mp h
        exact List.cons_ne_nil _ _
      · split at h
        · obtain ⟨body, -, rfl⟩ := Option.map_eq_some_iff.mp h
          exact List.cons_ne_nil _ _
        · split at h
          · next hDigits =>
            cases h
            exact (number?_spec hDigits).1
          · obtain ⟨s, -, rfl⟩ := Option.map_eq_some_iff.mp h
            cases s <;> exact List.cons_ne_nil _ _

/-- The characters of a token that was read are passed over. -/
theorem lexFrom_used (offset : Nat) (as bs : List Char) :
    lexFrom offset as.length (as ++ bs) = lexFrom (offset + Text.byteLength as) 0 bs := by
  induction as generalizing offset with
  | nil => rfl
  | cons c as ih =>
    rw [List.cons_append, List.length_cons, lexFrom, ih, Text.byteLength, Nat.add_assoc]

/-- Reading one token, and then what follows it. -/
theorem lexFrom_lexeme {l : Lexeme} {rest : List Char} (h : lexeme? (l.written ++ rest) = some l)
    (offset : Nat) :
    lexFrom offset 0 (l.written ++ rest) =
      (lexFrom (offset + Text.byteLength l.written) 0 rest).map
        (⟨l.token, offset, offset + Text.byteLength l.written⟩ :: ·) := by
  obtain ⟨c, w, hWritten⟩ := List.exists_cons_of_ne_nil (written_ne_nil h)
  -- a token does not start with a blank, so it is looked for here
  have hBlank : Text.isBlank c = false := by
    rw [Bool.eq_false_iff]
    intro hBlank
    rw [hWritten, List.cons_append, lexeme?_of_isBlank hBlank] at h
    cases h
  have hUsed := lexFrom_used (offset + c.utf8Size) w rest
  rw [hWritten, List.cons_append] at h ⊢
  rw [lexFrom]
  simp only [hBlank, Bool.false_eq_true, if_false, h, hWritten, List.length_cons,
    Nat.add_sub_cancel, hUsed, Text.byteLength, Nat.add_assoc]

/-- Reading a text that is one token. -/
theorem lexFrom_of_whole {t : Token} {cs : List Char} (h : lexeme? cs = some ⟨t, cs⟩)
    (offset : Nat) :
    lexFrom offset 0 cs = .ok [⟨t, offset, offset + Text.byteLength cs⟩] := by
  let l : Lexeme := ⟨t, cs⟩
  have hLexeme : lexeme? (l.written ++ []) = some l := by
    rw [List.append_nil]
    exact h
  have hRead := lexFrom_lexeme hLexeme offset
  rwa [List.append_nil] at hRead

/-! ## Whole texts -/

/-- The characters are blanks and the characters of the tokens, in turn. -/
inductive Laid : Nat → List Char → Tokens → Prop where
  | nil {offset : Nat} : Laid offset [] []
  | blank {offset : Nat} {c : Char} {cs : List Char} {ts : Tokens} (hBlank : Text.isBlank c = true)
      (hRest : Laid (offset + c.utf8Size) cs ts) : Laid offset (c :: cs) ts
  | token {offset : Nat} {l : Lexeme} {cs : List Char} {ts : Tokens}
      (hLexeme : lexeme? (l.written ++ cs) = some l)
      (hRest : Laid (offset + Text.byteLength l.written) cs ts) :
      Laid offset (l.written ++ cs) (⟨l.token, offset, offset + Text.byteLength l.written⟩ :: ts)

/-- Characters laid out as tokens are read as these tokens. -/
theorem lexFrom_of_laid {offset : Nat} {cs : List Char} {ts : Tokens} (h : Laid offset cs ts) :
    lexFrom offset 0 cs = .ok ts := by
  induction h with
  | nil => rfl
  | blank hBlank hRest ih =>
    rw [Token.lexFrom]
    simp only [hBlank, if_true]
    exact ih
  | token hLexeme hRest ih =>
    rw [lexFrom_lexeme hLexeme, ih]
    rfl

/-- What is read as tokens is laid out as them. -/
theorem laid_of_lexFrom {offset : Nat} {cs : List Char} {ts : Tokens}
    (h : lexFrom offset 0 cs = .ok ts) : Laid offset cs ts := by
  -- a token takes several characters at once, so the induction is on their number
  induction hLength : cs.length using Nat.strong_induction_on generalizing offset cs ts with
  | _ length ih =>
    subst hLength
    cases cs with
    | nil =>
      cases h
      exact .nil
    | cons c cs =>
      cases hBlank : Text.isBlank c with
      | true =>
        rw [Token.lexFrom] at h
        simp only [hBlank, if_true] at h
        exact .blank hBlank (ih _ (Nat.lt_succ_self _) h rfl)
      | false =>
        cases hLexeme : lexeme? (c :: cs) with
        | none =>
          rw [Token.lexFrom] at h
          simp only [hBlank, Bool.false_eq_true, if_false, hLexeme] at h
          cases h
        | some l =>
          obtain ⟨rest, hRest⟩ := written_front hLexeme
          rw [← hRest] at hLexeme h ⊢
          rw [lexFrom_lexeme hLexeme] at h
          have hShorter : rest.length < (c :: cs).length := by
            have hPos := List.length_pos_iff.mpr (written_ne_nil hLexeme)
            rw [← hRest, List.length_append]
            omega
          cases hTokens : lexFrom (offset + Text.byteLength l.written) 0 rest with
          | error d =>
            rw [hTokens] at h
            cases h
          | ok us =>
            rw [hTokens] at h
            cases h
            exact .token hLexeme (ih _ hShorter hTokens rfl)

/-- The lexer reads what is laid out, and nothing else. -/
theorem laid_iff {offset : Nat} {cs : List Char} {ts : Tokens} :
    Laid offset cs ts ↔ lexFrom offset 0 cs = .ok ts :=
  ⟨lexFrom_of_laid, laid_of_lexFrom⟩

/-! ## Places -/

section
variable {offset : Nat} {cs : List Char} {ts : Tokens}

/-- A token stands on characters of the text, at least one. -/
theorem Laid.within (h : Laid offset cs ts) {t : Spanned Token} (ht : t ∈ ts) :
    ∃ as bs rest, cs = as ++ (bs ++ rest) ∧ bs ≠ [] ∧
      t.span = ⟨offset + Text.byteLength as, offset + Text.byteLength as + Text.byteLength bs⟩ := by
  -- on how the text is laid out: what is passed over goes to the part in front
  induction h with
  | nil => cases ht
  | @blank offset c cs ts hBlank hRest ih =>
    obtain ⟨as, bs, rest, rfl, hSome, hSpan⟩ := ih ht
    refine ⟨c :: as, bs, rest, rfl, hSome, ?_⟩
    rw [hSpan, Text.byteLength, Nat.add_assoc offset]
  | @token offset l cs ts hLexeme hRest ih =>
    rcases List.mem_cons.mp ht with rfl | ht
    · exact ⟨[], l.written, cs, rfl, written_ne_nil hLexeme, rfl⟩
    · obtain ⟨as, bs, rest, rfl, hSome, hSpan⟩ := ih ht
      refine ⟨l.written ++ as, bs, rest, (List.append_assoc ..).symm, hSome, ?_⟩
      rw [hSpan, Text.byteLength_append, Nat.add_assoc offset]

/-- Tokens stand one behind the other. -/
theorem Laid.ordered (h : Laid offset cs ts) :
    ts.Pairwise fun t u => t.span.stop ≤ u.span.start := by
  induction h with
  | nil => exact .nil
  | blank hBlank hRest ih => exact ih
  | token hLexeme hRest ih =>
    refine .cons (fun u hu => ?_) ih
    -- every later token is in the text behind this one
    obtain ⟨as, bs, rest, -, -, hSpan⟩ := hRest.within hu
    rw [hSpan]
    exact Nat.le_add_right _ _

/-- What is laid out further on in a text is a text by itself. -/
theorem Laid.alone (h : Laid offset cs ts) :
    ∃ us, lexFrom 0 0 cs = .ok us ∧ ts = movedTokens (Span.shift offset) us := by
  -- which characters make a token does not depend on where they stand
  have hSome : ∀ k, ∃ us, Laid k cs us := by
    induction h with
    | nil => exact fun k => ⟨[], .nil⟩
    | blank hBlank hRest ih =>
      intro k
      obtain ⟨us, hUs⟩ := ih (k + _)
      exact ⟨us, .blank hBlank hUs⟩
    | token hLexeme hRest ih =>
      intro k
      obtain ⟨us, hUs⟩ := ih (k + _)
      exact ⟨_, .token hLexeme hUs⟩
  obtain ⟨us, hUs⟩ := hSome 0
  have hShift := lexFrom_shift (laid_iff.mp hUs) offset
  rw [Nat.zero_add, laid_iff.mp h] at hShift
  exact ⟨us, laid_iff.mp hUs, Except.ok.inj hShift⟩

/-! ## Cutting a text off behind a token -/

/-- A run that ends in the first of two texts is the run of that text alone. -/
theorem takeWhile_of_append {p : Char → Bool} {as bs : List Char}
    (h : (as ++ bs).takeWhile p <+: as) : as.takeWhile p = (as ++ bs).takeWhile p := by
  rw [List.takeWhile_append] at h ⊢
  split
  · next hAll =>
    rw [if_pos hAll] at h
    -- all of the first text passes, and of the second nothing, as there is no room for it
    have hNone : bs.takeWhile p = [] := by
      have hLength := h.length_le
      rw [List.length_append] at hLength
      exact List.length_eq_zero_iff.mp (by omega)
    have hFront : as.takeWhile p <+: as := List.takeWhile_prefix p
    rw [hNone, List.append_nil]
    exact hFront.eq_of_length hAll
  · rfl

/-- A body is read up to the quote behind it. -/
theorem quotedBody?_of_isBody {q : Char} (hq : q ≠ '\\') {body : List Char}
    (h : isBody q body = true) (rest : List Char) :
    quotedBody? q (body ++ q :: rest) = some body := by
  fun_induction isBody q body with
  | case1 => rw [List.nil_append, quotedBody?_cons_of_ne hq, if_pos rfl]
  | case2 => cases h
  | case3 c cs ih =>
    rw [List.cons_append, List.cons_append, quotedBody?, ih h]
    rfl
  | case4 c cs hNot hNotPair ih =>
    rw [Bool.and_eq_true, bne_iff_ne] at h
    have hSlash : c ≠ '\\' := ne_backslash_of_unpaired hNot hNotPair
    rw [List.cons_append, quotedBody?_cons_of_ne hSlash, if_neg h.1, ih h.2]
    rfl

/-- A body that ends in the first of two texts is read from that text alone. -/
theorem quotedBody?_of_append {q : Char} (hq : q ≠ '\\') {as bs body : List Char}
    (h : quotedBody? q (as ++ bs) = some body) (hFront : body ++ [q] <+: as) :
    quotedBody? q as = some body := by
  obtain ⟨rest, rfl⟩ := hFront
  rw [List.append_assoc]
  exact quotedBody?_of_isBody hq (isBody_of_quotedBody? h) rest

/-- A fraction that ends in the first of two texts is read from that text alone. -/
theorem fraction_of_append {as bs : List Char} (h : fraction (as ++ bs) <+: as) :
    fraction as = fraction (as ++ bs) := by
  cases as with
  | nil =>
    rw [List.prefix_nil.mp h]
    rfl
  | cons c as =>
    by_cases hc : c = '.'
    · subst hc
      rw [List.cons_append, fraction] at h ⊢
      rw [fraction]
      by_cases hDigits : ((as ++ bs).takeWhile Char.isDigit).isEmpty = true
      · -- no digit behind the point, so none in less text either
        rw [List.isEmpty_iff] at hDigits
        rw [takeWhile_of_append (by rw [hDigits]; exact List.nil_prefix)]
      · rw [if_neg hDigits, List.cons_prefix_cons] at h
        rw [takeWhile_of_append h.2]
    · have hNone : ∀ ds, fraction (c :: ds) = [] := by
        intro ds
        rw [fraction]
        intro es hCons
        exact hc (List.cons.inj hCons).1
      rw [List.cons_append, hNone, hNone]

/-- Digits that end in the first of two texts are read from that text alone. -/
theorem unsigned?_of_append {as bs ds : List Char} (h : unsigned? (as ++ bs) = some ds)
    (hFront : ds <+: as) : unsigned? as = some ds := by
  unfold unsigned? at h ⊢
  dsimp only at h ⊢
  split at h
  · cases h
  · next hSome =>
    cases h
    have hWhole : as.takeWhile Char.isDigit = (as ++ bs).takeWhile Char.isDigit :=
      takeWhile_of_append ((List.prefix_append _ _).trans hFront)
    -- behind the digits, the two texts go on alike as far as the first one goes
    have hRest : (as ++ bs).dropWhile Char.isDigit = as.dropWhile Char.isDigit ++ bs := by
      have hSplit := List.takeWhile_append_dropWhile (p := Char.isDigit) (l := as ++ bs)
      have hSplit' := List.takeWhile_append_dropWhile (p := Char.isDigit) (l := as)
      rw [← hWhole] at hSplit
      nth_rewrite 3 [← hSplit'] at hSplit
      rw [List.append_assoc] at hSplit
      exact List.append_cancel_left hSplit
    have hFraction : fraction (as.dropWhile Char.isDigit) =
        fraction ((as ++ bs).dropWhile Char.isDigit) := by
      rw [hRest]
      refine fraction_of_append ?_
      rw [hRest, ← hWhole] at hFront
      nth_rewrite 3 [← List.takeWhile_append_dropWhile (p := Char.isDigit) (l := as)] at hFront
      exact (List.prefix_append_right_inj _).mp hFront
    rw [hWhole, if_neg hSome, hFraction]

/-- A number that ends in the first of two texts is read from that text alone. -/
theorem number?_of_append {as bs ds : List Char} (h : number? (as ++ bs) = some ds)
    (hFront : ds <+: as) : number? as = some ds := by
  cases as with
  | nil => exact absurd (List.prefix_nil.mp hFront) (number?_spec h).1
  | cons c as =>
    by_cases hc : c = '-'
    · subst hc
      obtain ⟨es, hes, rfl⟩ := Option.map_eq_some_iff.mp h
      rw [number?, unsigned?_of_append hes (List.cons_prefix_cons.mp hFront).2]
      rfl
    · rw [List.cons_append, number?_cons_of_ne hc] at h
      rw [number?_cons_of_ne hc]
      exact unsigned?_of_append h hFront

/-- If no digits stand at the front of a longer text, none stand at the front of a shorter one. -/
theorem unsigned?_none_of_append {as bs : List Char} (h : unsigned? (as ++ bs) = none) :
    unsigned? as = none := by
  unfold unsigned? at h ⊢
  dsimp only at h ⊢
  split at h
  · next hNone =>
    have hEmpty := List.isEmpty_iff.mp hNone
    rw [takeWhile_of_append (by rw [hEmpty]; exact List.nil_prefix), if_pos hNone]
  · cases h

/-- If no number stands at the front of a longer text, none stands at the front of a shorter one. -/
theorem number?_none_of_append {as bs : List Char} (h : number? (as ++ bs) = none) :
    number? as = none := by
  cases as with
  | nil => rfl
  | cons c as =>
    by_cases hc : c = '-'
    · subst hc
      rw [number?, unsigned?_none_of_append (Option.map_eq_none_iff.mp h)]
      rfl
    · rw [List.cons_append, number?_cons_of_ne hc] at h
      rw [number?_cons_of_ne hc]
      exact unsigned?_none_of_append h

/-- A symbol that ends in the first of two texts is read from that text alone. -/
theorem symbol?_of_append {as bs : List Char} {s : Symbol} (h : symbol? (as ++ bs) = some s)
    (hFront : s.text.toList <+: as) : symbol? as = some s := by
  cases as with
  | nil => cases s <;> cases List.prefix_nil.mp hFront
  | cons c as =>
    by_cases hPair : c = '<' ∨ c = '>'
    · cases as with
      | nil =>
        -- one character is left, so the symbol has one
        rcases hPair with rfl | rfl
        · have hOne : s = .lt := by revert hFront; cases s <;> decide
          rw [hOne]
          rfl
        · have hOne : s = .gt := by revert hFront; cases s <;> decide
          rw [hOne]
          rfl
      | cons d as =>
        rcases hPair with rfl | rfl
        · rw [← h]
          by_cases hEq : d = '='
          · subst hEq; rfl
          by_cases hGt : d = '>'
          · subst hGt; rfl
          simp [symbol?, hEq, hGt]
        · rw [← h]
          by_cases hEq : d = '='
          · subst hEq; rfl
          simp [symbol?, hEq]
    · rw [not_or] at hPair
      rw [← h]
      exact symbol?_cons_congr hPair.1 hPair.2 _ _

/-- A token is still read when the text is cut off somewhere behind it. -/
theorem lexeme?_of_append {as bs : List Char} {l : Lexeme} (h : lexeme? (as ++ bs) = some l)
    (hFront : l.written <+: as) : lexeme? as = some l := by
  cases as with
  | nil => exact absurd (List.prefix_nil.mp hFront) (written_ne_nil h)
  | cons c as =>
    rw [List.cons_append] at h
    simp only [lexeme?] at h ⊢
    -- a word, a string in single or double quotes, a number or a symbol, each of which ends in the
    -- first text
    split at h
    · next hStart =>
      cases h
      rw [if_pos hStart, takeWhile_of_append (List.cons_prefix_cons.mp hFront).2]
    · next hStart =>
      rw [if_neg hStart]
      split at h
      · next hSingle =>
        obtain ⟨body, hBody, rfl⟩ := Option.map_eq_some_iff.mp h
        rw [if_pos hSingle, quotedBody?_of_append (by rw [hSingle]; decide) hBody
          (List.cons_prefix_cons.mp hFront).2]
        rfl
      · next hSingle =>
        rw [if_neg hSingle]
        split at h
        · next hDouble =>
          obtain ⟨body, hBody, rfl⟩ := Option.map_eq_some_iff.mp h
          rw [if_pos hDouble, quotedBody?_of_append (by rw [hDouble]; decide) hBody
            (List.cons_prefix_cons.mp hFront).2]
          rfl
        · next hDouble =>
          rw [if_neg hDouble]
          rw [← List.cons_append] at h
          split at h
          · next digits hDigits =>
            cases h
            rw [number?_of_append hDigits hFront]
          · next hNone =>
            obtain ⟨s, hSymbol, rfl⟩ := Option.map_eq_some_iff.mp h
            rw [number?_none_of_append hNone, symbol?_of_append hSymbol hFront]
            rfl

/-! ## Runs of tokens -/

/-- Before the first token there are blanks only, which may go. -/
theorem Laid.skip {t : Spanned Token} (h : Laid offset cs (t :: ts)) :
    ∃ as bs, cs = as ++ bs ∧ t.span.start = offset + Text.byteLength as ∧
      Laid (offset + Text.byteLength as) bs (t :: ts) := by
  generalize hAll : t :: ts = all at h
  induction h with
  | nil => cases hAll
  | @blank offset c cs all hBlank hRest ih =>
    obtain ⟨as, bs, rfl, hStart, hBs⟩ := ih hAll
    rw [Nat.add_assoc] at hStart hBs
    exact ⟨c :: as, bs, rfl, hStart, hBs⟩
  | @token offset l cs us hLexeme hRest ih =>
    cases hAll
    exact ⟨[], _, rfl, rfl, .token hLexeme hRest⟩

/-- Behind some of the tokens, the rest of the text is laid out as the rest of the tokens. -/
theorem Laid.drop {before : Tokens} (h : Laid offset cs (before ++ ts)) :
    ∃ as bs, cs = as ++ bs ∧ Laid (offset + Text.byteLength as) bs ts := by
  generalize hAll : before ++ ts = all at h
  -- on how the text is laid out: blanks go to the part in front
  induction h generalizing before with
  | nil =>
    cases (List.append_eq_nil_iff.mp hAll).2
    exact ⟨[], [], rfl, .nil⟩
  | @blank offset c cs all hBlank hRest ih =>
    obtain ⟨as, bs, rfl, hBs⟩ := ih hAll
    rw [Nat.add_assoc] at hBs
    exact ⟨c :: as, bs, rfl, hBs⟩
  | @token offset l cs us hLexeme hRest ih =>
    cases before with
    | nil =>
      cases hAll
      exact ⟨[], _, rfl, .token hLexeme hRest⟩
    | cons t before =>
      obtain ⟨-, hTail⟩ := List.cons.inj hAll
      obtain ⟨as, bs, rfl, hBs⟩ := ih hTail
      rw [Nat.add_assoc, ← Text.byteLength_append] at hBs
      exact ⟨l.written ++ as, bs, (List.append_assoc ..).symm, hBs⟩

/-- A text can be cut off right behind a token. -/
theorem Laid.take {run after : Tokens} {last : Spanned Token}
    (h : Laid offset cs (run ++ after)) (hLast : run.getLast? = some last) :
    ∃ as bs, cs = as ++ bs ∧ last.span.stop = offset + Text.byteLength as ∧ Laid offset as run ∧
      Laid (offset + Text.byteLength as) bs after := by
  generalize hAll : run ++ after = all at h
  induction h generalizing run with
  | nil =>
    cases (List.append_eq_nil_iff.mp hAll).1
    cases hLast
  | @blank offset c cs all hBlank hRest ih =>
    obtain ⟨as, bs, rfl, hStop, hAs, hBs⟩ := ih hLast hAll
    rw [Nat.add_assoc] at hStop hBs
    exact ⟨c :: as, bs, rfl, hStop, .blank hBlank hAs, hBs⟩
  | @token offset l cs us hLexeme hRest ih =>
    cases run with
    | nil => cases hLast
    | cons t run =>
      obtain ⟨rfl, hTail⟩ := List.cons.inj hAll
      cases run with
      | nil =>
        -- the token is the last one: what was read for it is all that is kept
        cases hLast
        cases hTail
        have hAlone : lexeme? (l.written ++ []) = some l := by
          rw [List.append_nil]
          exact lexeme?_of_append hLexeme (List.prefix_refl _)
        refine ⟨l.written, cs, rfl, rfl, ?_, hRest⟩
        have hLaid : Laid offset (l.written ++ []) _ := .token hAlone .nil
        rwa [List.append_nil] at hLaid
      | cons u run =>
        rw [List.getLast?_cons_cons] at hLast
        obtain ⟨as, bs, rfl, hStop, hAs, hBs⟩ := ih hLast hTail
        rw [← List.append_assoc] at hLexeme
        rw [Nat.add_assoc, ← Text.byteLength_append] at hStop hBs
        exact ⟨l.written ++ as, bs, (List.append_assoc ..).symm, hStop,
          .token (lexeme?_of_append hLexeme (List.prefix_append _ _)) hAs, hBs⟩

/-- Behind the last token there are blanks only. -/
theorem Laid.blanks_behind {last : Spanned Token} (h : Laid offset cs ts)
    (hLast : ts.getLast? = some last) :
    ∃ as gap, cs = as ++ gap ∧ gap.all Text.isBlank = true ∧
      last.span.stop = offset + Text.byteLength as := by
  rw [← List.append_nil ts] at h
  obtain ⟨as, gap, rfl, hStop, -, hGap⟩ := Laid.take h hLast
  exact ⟨as, gap, rfl, isBlank_of_lexFrom_nil (laid_iff.mp hGap), hStop⟩

/-- The part of a text from one token to another has these tokens and those between. -/
theorem Laid.slice {run : Tokens} (h : Laid offset cs ts) (hRun : run <:+: ts) (hSome : run ≠ []) :
    ∃ as bs rest, cs = as ++ (bs ++ rest) ∧ Laid (offset + Text.byteLength as) bs run ∧
      Parse.Parser.hull run =
        ⟨offset + Text.byteLength as, offset + Text.byteLength as + Text.byteLength bs⟩ := by
  obtain ⟨before, after, rfl⟩ := hRun
  obtain ⟨first, more, rfl⟩ := List.exists_cons_of_ne_nil hSome
  have hLast := List.getLast?_eq_some_getLast hSome
  rw [List.append_assoc] at h
  -- leave out what stands before the run, then the blanks there, then what stands behind it
  obtain ⟨as, us, rfl, hUs⟩ := h.drop
  obtain ⟨as', vs, rfl, hStart, hVs⟩ := hUs.skip
  obtain ⟨bs, rest, rfl, hStop, hBs, -⟩ := Laid.take hVs hLast
  have hOffset : offset + Text.byteLength as + Text.byteLength as' =
      offset + Text.byteLength (as ++ as') := by
    rw [Text.byteLength_append, Nat.add_assoc]
  rw [hOffset] at hStart hStop hBs
  refine ⟨as ++ as', bs, rest, (List.append_assoc ..).symm, hBs, ?_⟩
  unfold Parse.Parser.hull
  rw [hLast, ← hStop, ← hStart]
  rfl

/-! ## Texts by their tokens -/

/-- Wherever the characters start, these are their tokens. -/
def HasTokens (cs : List Char) (w : List Token) : Prop :=
  ∀ offset, ∃ ts, lexFrom offset 0 cs = .ok ts ∧ values ts = w

/-- A text has the tokens that are read from it, wherever it starts. -/
theorem hasTokens_of_lex {source : String} (h : lex source = .ok ts) :
    HasTokens source.toList (values ts) := by
  intro offset
  have hShift := lexFrom_shift h offset
  rw [Nat.zero_add] at hShift
  exact ⟨_, hShift, Parse.values_movedTokens _ _⟩

theorem hasTokens_of_whole {t : Token} (h : lexeme? cs = some ⟨t, cs⟩) : HasTokens cs [t] :=
  fun offset => ⟨_, lexFrom_of_whole h offset, rfl⟩

/-- What makes no token longer can be put behind. -/
theorem HasTokens.append {as bs : List Char} {v w : List Token} (ha : HasTokens as v)
    (hb : HasTokens bs w) (hBreak : Breaks bs) : HasTokens (as ++ bs) (v ++ w) := by
  intro offset
  obtain ⟨ts, hTs, rfl⟩ := ha offset
  obtain ⟨us, hUs, rfl⟩ := hb (offset + Text.byteLength as)
  refine ⟨ts ++ us, ?_, Parse.values_append ts us⟩
  rw [lexFrom_append hTs (Nat.zero_le _) hBreak, hUs]
  rfl

/-- Blanks in front do not change the tokens. -/
theorem HasTokens.after_blanks {gap : List Char} {w : List Token} (h : HasTokens cs w)
    (hGap : gap.all Text.isBlank = true) : HasTokens (gap ++ cs) w := by
  intro offset
  rw [lexFrom_blanks hGap]
  exact h _

/-! ## What is no token -/

/-- The complaint about a character covers that character. -/
theorem stuckOn_within (offset : Nat) (cs : List Char) :
    ∃ bs rest, cs = bs ++ rest ∧
      (stuckOn offset cs).span = ⟨offset, offset + Text.byteLength bs⟩ := by
  cases cs with
  | nil => exact ⟨[], [], rfl, rfl⟩
  | cons c cs => exact ⟨[c], cs, rfl, rfl⟩

/-- The complaint about what is no token covers characters from there on. -/
theorem stuckAt_within (offset : Nat) (cs : List Char) :
    ∃ as bs rest, cs = as ++ (bs ++ rest) ∧ (stuckAt offset cs).span =
      ⟨offset + Text.byteLength as, offset + Text.byteLength as + Text.byteLength bs⟩ := by
  unfold stuckAt
  split
  · -- behind a sign, it is the next character that does not fit
    next cs =>
    obtain ⟨bs, rest, rfl, hSpan⟩ := stuckOn_within (offset + '-'.utf8Size) cs
    exact ⟨['-'], bs, rest, rfl, hSpan⟩
  · obtain ⟨bs, rest, rfl, hSpan⟩ := stuckOn_within offset cs
    exact ⟨[], bs, rest, rfl, hSpan⟩

/-- Where no token is found, the complaint covers characters of the text. -/
theorem within_of_lexFrom_error {used : Nat} {d : Diagnostic}
    (h : lexFrom offset used cs = .error d) :
    ∃ as bs rest, cs = as ++ (bs ++ rest) ∧
      d.span = ⟨offset + Text.byteLength as, offset + Text.byteLength as + Text.byteLength bs⟩ := by
  induction cs generalizing offset used with
  | nil => cases h
  | cons c cs ih =>
    -- whatever is done with the first character, the error is further on
    have hLater : ∀ {used}, lexFrom (offset + c.utf8Size) used cs = .error d →
        ∃ as bs rest, c :: cs = as ++ (bs ++ rest) ∧ d.span =
          ⟨offset + Text.byteLength as, offset + Text.byteLength as + Text.byteLength bs⟩ := by
      intro used hError
      obtain ⟨as, bs, rest, rfl, hSpan⟩ := ih hError
      refine ⟨c :: as, bs, rest, rfl, ?_⟩
      rw [hSpan, Text.byteLength, Nat.add_assoc offset]
    cases used with
    | succ left => exact hLater h
    | zero =>
      rw [lexFrom] at h
      split at h
      · exact hLater h
      · split at h
        · cases h
          exact stuckAt_within offset (c :: cs)
        · next l hl =>
          cases hRest : lexFrom (offset + c.utf8Size) (l.written.length - 1) cs with
          | error e =>
            rw [hRest] at h
            cases h
            exact hLater hRest
          | ok us =>
            rw [hRest] at h
            cases h

end

end Token

end AnnotationQuery
