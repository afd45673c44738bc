import AnnotationQuery.Proofs.Parse.Place
import AnnotationQuery.Proofs.Text.Run
import AnnotationQuery.Proofs.Token.Lexer

/-!
# Texts with blanks between them

A token is the longest text of its kind, so what follows can make it longer. A blank
cannot: no token but a string has a blank in it, and a string ends at its quote. So the
tokens of a text stay the same when a blank follows and then anything else, and what
stands behind the blank is read as if it stood alone, only further on.

Main results:

* `lexeme?_append` — one token, with a blank behind it.
* `lex_gap` — two texts with blanks between them.
-/

namespace AnnotationQuery

namespace Text

/-- The code points of the blank characters. -/
def blankCodes : List Nat :=
  List.range' 0x09 5 ++ [0x20, 0x85, 0xA0, 0x1680] ++ List.range' 0x2000 11 ++
    [0x2028, 0x2029, 0x202F, 0x205F, 0x3000]

/-- A blank has one of these code points. -/
theorem mem_blankCodes {c : Char} (h : isBlank c = true) : c.toNat ∈ blankCodes := by
  simp only [isBlank, Bool.or_eq_true, Bool.and_eq_true, decide_eq_true_eq, beq_iff_eq] at h
  simp only [blankCodes, List.mem_append, List.mem_range'_1, List.mem_cons, List.not_mem_nil,
    or_false]
  omega

/-- Whether a character can make a token longer that it stands behind. -/
def isJoining (c : Char) : Bool :=
  isIdentifierPart c || c.isDigit || c == '.' || c == '=' || c == '>'

theorem isJoining_of_isBlank {c : Char} (h : isBlank c = true) : isJoining c = false := by
  have hAll : ∀ n ∈ blankCodes, isJoining (Char.ofNat n) = false := by decide +kernel
  have hc := hAll c.toNat (mem_blankCodes h)
  rwa [Char.ofNat_toNat] at hc

/-- The size of two texts is the sum of their sizes. -/
theorem byteLength_append (as bs : List Char) :
    byteLength (as ++ bs) = byteLength as + byteLength bs := by
  induction as with
  | nil => exact (Nat.zero_add _).symm
  | cons c as ih => rw [List.cons_append, byteLength, byteLength, ih, Nat.add_assoc]

end Text

namespace Token

/-- The text ends here or goes on with a character that makes no token longer. -/
def Breaks (cs : List Char) : Prop :=
  ∀ c ∈ cs.head?, Text.isJoining c = false

section
variable {as bs : List Char}

/-! ## Tokens with a blank behind them -/

/-- Where no token goes on, no run of characters of a token does. -/
theorem Breaks.stops {p : Char → Bool} (h : Breaks bs)
    (hp : ∀ c, p c = true → Text.isJoining c = true) : Text.Stops p bs :=
  Text.Stops.mono h hp

theorem isJoining_of_isDigit (c : Char) (h : c.isDigit = true) : Text.isJoining c = true := by
  simp [Text.isJoining, h]

theorem isJoining_of_isIdentifierPart (c : Char) (h : Text.isIdentifierPart c = true) :
    Text.isJoining c = true := by
  simp [Text.isJoining, h]

/-- How a body goes on with a character other than a backslash. -/
theorem quotedBody?_cons_of_ne {q c : Char} {cs : List Char} (h : c ≠ '\\') :
    quotedBody? q (c :: cs) = if c = q then some [] else (quotedBody? q cs).map (c :: ·) := by
  rw [quotedBody?]
  · intro hc
    exact absurd hc h
  · intro d ds hc
    exact absurd hc h

/-- A string ends at its quote, whatever follows. -/
theorem quotedBody?_append {q : Char} {body : List Char} (h : quotedBody? q as = some body)
    (bs : List Char) :
    quotedBody? q (as ++ bs) = some body ∧ body ++ [q] <+: as := by
  fun_induction quotedBody? q as generalizing body with
  | case1 => cases h
  | case2 => cases h
  | case3 c cs ih =>
    -- a backslash and the character that it takes along
    obtain ⟨b, hb, rfl⟩ := Option.map_eq_some_iff.mp h
    obtain ⟨hAppend, hFront⟩ := ih hb
    refine ⟨?_, by simpa using hFront⟩
    rw [List.cons_append, List.cons_append, quotedBody?, hAppend]
    rfl
  | case4 cs hNot hNotPair =>
    cases h
    have hSlash : q ≠ '\\' := ne_backslash_of_unpaired hNot hNotPair
    exact ⟨by rw [List.cons_append, quotedBody?_cons_of_ne hSlash, if_pos rfl], by simp⟩
  | case5 c cs hNot hNotPair hc ih =>
    obtain ⟨b, hb, rfl⟩ := Option.map_eq_some_iff.mp h
    obtain ⟨hAppend, hFront⟩ := ih hb
    have hSlash : c ≠ '\\' := ne_backslash_of_unpaired hNot hNotPair
    refine ⟨?_, by simpa using hFront⟩
    rw [List.cons_append, quotedBody?_cons_of_ne hSlash, if_neg hc, hAppend]
    rfl

/-- What stands behind a break is no part of a fraction. -/
theorem fraction_append (hBreak : Breaks bs) : fraction (as ++ bs) = fraction as := by
  cases as with
  | nil =>
    cases bs with
    | nil => rfl
    | cons c bs =>
      -- a point would join the digits before it
      have hc : c ≠ '.' := by
        rintro rfl
        simp [Breaks, Text.isJoining] at hBreak
      rw [List.nil_append, fraction]
      · rfl
      · intro cs hCons
        exact hc (List.cons.inj hCons).1
  | cons c as =>
    by_cases hc : c = '.'
    · subst hc
      rw [List.cons_append, fraction, fraction,
        Text.takeWhile_append_of_stops as (hBreak.stops isJoining_of_isDigit)]
    · rw [List.cons_append, fraction, fraction]
      · intro cs hCons
        exact hc (List.cons.inj hCons).1
      · intro cs hCons
        exact hc (List.cons.inj hCons).1

/-- What stands behind a break is no part of the digits. -/
theorem unsigned?_append (hBreak : Breaks bs) : unsigned? (as ++ bs) = unsigned? as := by
  unfold unsigned?
  have hDigits := hBreak.stops isJoining_of_isDigit
  rw [Text.takeWhile_append_of_stops as hDigits, Text.dropWhile_append_of_stops as hDigits,
    fraction_append hBreak]

theorem number?_cons_of_ne {c : Char} (hc : c ≠ '-') (cs : List Char) :
    number? (c :: cs) = unsigned? (c :: cs) := by
  rw [number?]
  intro ds hCons
  exact hc (List.cons.inj hCons).1

/-- What stands behind a break is no part of a number. -/
theorem number?_append (hBreak : Breaks bs) (c : Char) :
    number? (c :: as ++ bs) = number? (c :: as) := by
  by_cases hc : c = '-'
  · subst hc
    rw [List.cons_append, number?, number?, unsigned?_append hBreak]
  · rw [List.cons_append, number?_cons_of_ne hc, number?_cons_of_ne hc, ← List.cons_append,
      unsigned?_append hBreak]

/-- All symbols but two kinds are told by their first character. -/
theorem symbol?_cons_congr {c : Char} (hLt : c ≠ '<') (hGt : c ≠ '>') (as bs : List Char) :
    symbol? (c :: as) = symbol? (c :: bs) := by
  -- the other symbols have one character
  by_cases hEq : c = '='
  · subst hEq; rfl
  by_cases hOpen : c = '('
  · subst hOpen; rfl
  by_cases hClose : c = ')'
  · subst hClose; rfl
  by_cases hComma : c = ','
  · subst hComma; rfl
  by_cases hDot : c = '.'
  · subst hDot; rfl
  simp [symbol?, hLt, hGt, hEq, hOpen, hClose, hComma, hDot]

/-- What stands behind a break is no part of a symbol. -/
theorem symbol?_append (hBreak : Breaks bs) (c : Char) :
    symbol? (c :: as ++ bs) = symbol? (c :: as) := by
  -- the second character of a symbol is one of these two
  have hNext : ∀ d ∈ bs.head?, d ≠ '=' ∧ d ≠ '>' := by
    intro d hd
    have hJoin := hBreak d hd
    constructor <;> (rintro rfl; simp [Text.isJoining] at hJoin)
  -- two characters can start a symbol of two
  by_cases hLt : c = '<'
  · subst hLt
    cases as with
    | nil => cases bs <;> simp_all [symbol?]
    | cons d as =>
      by_cases hEq : d = '='
      · subst hEq; rfl
      by_cases hGt : d = '>'
      · subst hGt; rfl
      simp [symbol?, hEq, hGt]
  by_cases hGt : c = '>'
  · subst hGt
    cases as with
    | nil => cases bs <;> simp_all [symbol?]
    | cons d as =>
      by_cases hEq : d = '='
      · subst hEq; rfl
      simp [symbol?, hEq]
  exact symbol?_cons_congr hLt hGt _ _

/-- A token is not made longer by a blank behind it. -/
theorem lexeme?_append {l : Lexeme} (h : lexeme? as = some l) (hBreak : Breaks bs) :
    lexeme? (as ++ bs) = some l := by
  cases as with
  | nil => cases h
  | cons c as =>
    -- words, numbers and symbols stop at the break, and a string has its own end
    have hWord : (as ++ bs).takeWhile Text.isIdentifierPart = as.takeWhile Text.isIdentifierPart :=
      Text.takeWhile_append_of_stops as (hBreak.stops isJoining_of_isIdentifierPart)
    have hNumber : number? (c :: (as ++ bs)) = number? (c :: as) := number?_append hBreak c
    have hSymbol : symbol? (c :: (as ++ bs)) = symbol? (c :: as) := symbol?_append hBreak c
    rw [List.cons_append]
    simp only [lexeme?, hWord, hNumber, hSymbol] at h ⊢
    split at h
    · next hStart => rw [if_pos hStart]; exact h
    · next hStart =>
      rw [if_neg hStart]
      split at h
      · next hSingle =>
        obtain ⟨body, hBody, rfl⟩ := Option.map_eq_some_iff.mp h
        rw [if_pos hSingle, (quotedBody?_append hBody bs).1]
        rfl
      · next hSingle =>
        rw [if_neg hSingle]
        split at h
        · next hDouble =>
          obtain ⟨body, hBody, rfl⟩ := Option.map_eq_some_iff.mp h
          rw [if_pos hDouble, (quotedBody?_append hBody bs).1]
          rfl
        · next hDouble => rw [if_neg hDouble]; exact h

/-! ## What a token is read from -/

/-- A fraction is read from the front of the text. -/
theorem fraction_front (cs : List Char) : fraction cs <+: cs := by
  unfold fraction
  split
  · next ds =>
    dsimp only
    split
    · exact List.nil_prefix
    · exact List.cons_prefix_cons.mpr ⟨rfl, List.takeWhile_prefix _⟩
  · exact List.nil_prefix

/-- Digits are read from the front of the text. -/
theorem unsigned?_front {cs ds : List Char} (h : unsigned? cs = some ds) : ds <+: cs := by
  unfold unsigned? at h
  dsimp only at h
  split at h
  · cases h
  · cases h
    -- digits, and behind them a fraction if there is one
    have hRest := fraction_front (cs.dropWhile Char.isDigit)
    rw [← List.prefix_append_right_inj (cs.takeWhile Char.isDigit),
      List.takeWhile_append_dropWhile] at hRest
    exact hRest

/-- A number is read from the front of the text. -/
theorem number?_front {cs ds : List Char} (h : number? cs = some ds) : ds <+: cs := by
  unfold number? at h
  split at h
  · obtain ⟨es, hes, rfl⟩ := Option.map_eq_some_iff.mp h
    exact List.cons_prefix_cons.mpr ⟨rfl, unsigned?_front hes⟩
  · exact unsigned?_front h

/-- A symbol is read from the front of the text. -/
theorem symbol?_front {cs : List Char} {s : Symbol} (h : symbol? cs = some s) :
    s.text.toList <+: cs := by
  unfold symbol? at h
  split at h
  all_goals cases h
  all_goals exact ⟨_, rfl⟩

/-- The characters of a token stand at the front. -/
theorem written_front {l : Lexeme} (h : lexeme? as = some l) : l.written <+: as := by
  cases as with
  | nil => cases h
  | cons c as =>
    -- the two kinds of strings differ in the quote only
    have hQuoted : ∀ {body}, quotedBody? c as = some body → c :: (body ++ [c]) <+: c :: as :=
      fun hBody => List.cons_prefix_cons.mpr ⟨rfl, (quotedBody?_append hBody []).2⟩
    simp only [lexeme?] at h
    split at h
    · cases h
      exact List.cons_prefix_cons.mpr ⟨rfl, List.takeWhile_prefix _⟩
    · split at h
      · obtain ⟨body, hBody, rfl⟩ := Option.map_eq_some_iff.mp h
        exact hQuoted hBody
      · split at h
        · obtain ⟨body, hBody, rfl⟩ := Option.map_eq_some_iff.mp h
          exact hQuoted hBody
        · split at h
          · next hDigits =>
            cases h
            exact number?_front hDigits
          · obtain ⟨s, hSymbol, rfl⟩ := Option.map_eq_some_iff.mp h
            exact symbol?_front hSymbol

/-! ## Whole texts -/

/-- With a break between them, two texts have the tokens of the one and then of the other. -/
theorem lexFrom_append {offset used : Nat} {ts : List (Spanned Token)}
    (h : lexFrom offset used as = .ok ts) (hUsed : used ≤ as.length) (hBreak : Breaks bs) :
    lexFrom offset used (as ++ bs) =
      (lexFrom (offset + Text.byteLength as) 0 bs).map (ts ++ ·) := by
  -- on the first text, also from inside a token of it
  induction as generalizing offset used ts with
  | nil =>
    -- no token reaches past the end, so the second text starts fresh
    cases h
    cases Nat.le_zero.mp hUsed
    show lexFrom offset 0 bs = (lexFrom offset 0 bs).map fun us => us
    cases lexFrom offset 0 bs <;> rfl
  | cons c as ih =>
    rw [Text.byteLength, ← Nat.add_assoc]
    cases used with
    | succ left => exact ih h (Nat.le_of_succ_le_succ hUsed)
    | zero =>
      rw [List.cons_append]
      rw [lexFrom] at h ⊢
      split at h
      · next hBlank =>
        simp only [hBlank, if_true]
        exact ih h (Nat.zero_le _)
      · next hBlank =>
        simp only [hBlank, Bool.false_eq_true, if_false]
        split at h
        · cases h
        · next l hl =>
          -- the token stays as it is, and all its characters are in the first text
          have hSame : lexeme? (c :: (as ++ bs)) = some l := lexeme?_append hl hBreak
          have hLength : l.written.length - 1 ≤ as.length := by
            have hFront := (written_front hl).length_le
            rw [List.length_cons] at hFront
            omega
          rw [hSame]
          cases hRest : lexFrom (offset + c.utf8Size) (l.written.length - 1) as with
          | error d =>
            rw [hRest] at h
            cases h
          | ok rest =>
            rw [hRest] at h
            cases h
            simp only [ih hRest hLength]
            cases lexFrom (offset + c.utf8Size + Text.byteLength as) 0 bs <;> rfl

end

/-- Blanks in front only move the tokens. -/
theorem lexFrom_blanks {gap : List Char} (h : gap.all Text.isBlank = true) (offset : Nat)
    (cs : List Char) :
    lexFrom offset 0 (gap ++ cs) = lexFrom (offset + Text.byteLength gap) 0 cs := by
  induction gap generalizing offset with
  | nil => rfl
  | cons c gap ih =>
    rw [List.all_cons, Bool.and_eq_true] at h
    rw [List.cons_append, lexFrom, Text.byteLength, ← Nat.add_assoc]
    simp only [h.1, if_true]
    exact ih h.2 _

/-- Further on in a text, everything is read the same, only further on. -/
theorem lexFrom_shift {cs : List Char} {offset used : Nat} {ts : List (Spanned Token)}
    (h : lexFrom offset used cs = .ok ts) (k : Nat) :
    lexFrom (offset + k) used cs = .ok (Parse.movedTokens (Span.shift k) ts) := by
  -- on the text, also from inside a token: only the offset takes part in the places
  induction cs generalizing offset used ts with
  | nil =>
    cases h
    rfl
  | cons c cs ih =>
    have hNext : offset + k + c.utf8Size = offset + c.utf8Size + k := Nat.add_right_comm _ _ _
    cases used with
    | succ left =>
      rw [lexFrom, hNext]
      exact ih h
    | zero =>
      rw [lexFrom] at h ⊢
      rw [hNext]
      split at h
      · next hBlank =>
        simp only [hBlank, if_true]
        exact ih h
      · next hBlank =>
        simp only [hBlank, Bool.false_eq_true, if_false]
        split at h
        · cases h
        · next l hl =>
          cases hRest : lexFrom (offset + c.utf8Size) (l.written.length - 1) cs with
          | error d =>
            rw [hRest] at h
            cases h
          | ok rest =>
            rw [hRest] at h
            cases h
            rw [ih hRest, Nat.add_right_comm offset k (Text.byteLength l.written)]
            rfl

/-- Whether the text holds blanks only, and at least one. -/
def isGap (s : String) : Bool :=
  !s.toList.isEmpty && Text.isBlankText s

/-- Behind a gap, a text is read as if it stood alone. -/
theorem lex_gap {a gap : String} {ts : List (Spanned Token)} (ha : lex a = .ok ts)
    (hGap : isGap gap = true) (b : String) :
    lex (a ++ gap ++ b) =
      (lexFrom (Text.byteLength (a ++ gap).toList) 0 b.toList).map (ts ++ ·) := by
  rw [isGap, Bool.and_eq_true] at hGap
  -- the gap is not empty, so a blank comes first
  have hBreak : Breaks (gap.toList ++ b.toList) := by
    intro c hc
    have hFront : c ∈ gap.toList := by
      cases hList : gap.toList with
      | nil => simp [hList] at hGap
      | cons d ds =>
        rw [hList] at hc
        cases hc
        exact List.mem_cons_self
    exact Text.isJoining_of_isBlank (List.all_eq_true.mp hGap.2 c hFront)
  have hBoth : (a ++ gap ++ b).toList = a.toList ++ (gap.toList ++ b.toList) := by
    rw [String.toList_append, String.toList_append, List.append_assoc]
  rw [lex, hBoth, lexFrom_append ha (Nat.zero_le _) hBreak, lexFrom_blanks hGap.2,
    String.toList_append, Text.byteLength_append, Nat.zero_add]

/-- Three texts with gaps between them, of which the second is a single token. -/
theorem lex_joined {a c gap gap' : String} {ts : List (Spanned Token)} {t : Token} {s : Span}
    (ha : lex a = .ok ts) (hGap : isGap gap = true) (hc : lex c = .ok [⟨t, s⟩])
    (hGap' : isGap gap' = true) (b : String) :
    lex (a ++ gap ++ c ++ gap' ++ b) =
      (lexFrom (Text.byteLength (a ++ gap ++ c ++ gap').toList) 0 b.toList).map fun us =>
        ts ++ ⟨t, s.shift (Text.byteLength (a ++ gap).toList)⟩ :: us := by
  -- the token between the gaps is moved behind the first of them
  have hFront : lex (a ++ gap ++ c) =
      .ok (ts ++ [⟨t, s.shift (Text.byteLength (a ++ gap).toList)⟩]) := by
    have hShift := lexFrom_shift hc (Text.byteLength (a ++ gap).toList)
    rw [Nat.zero_add] at hShift
    rw [lex_gap ha hGap, hShift]
    rfl
  rw [lex_gap hFront hGap']
  cases lexFrom (Text.byteLength (a ++ gap ++ c ++ gap').toList) 0 b.toList with
  | error d => rfl
  | ok us => exact congrArg Except.ok (List.append_assoc _ _ _)

end Token

end AnnotationQuery
