import AnnotationQuery.Document.Json.Reader
import AnnotationQuery.Document.Json.Writer
import AnnotationQuery.Proofs.Text.Run
import Mathlib.Data.List.DropRight
import Mathlib.Data.List.Forall2

/-!
# Reading JSON that was written

A value that was written is read as that value, in whatever layout it was written, as long
as the layout puts nothing but blanks between the parts.

A reader is described by what it does on a text with something behind it: `Reads r cs a`
says that `r` takes `cs` and gives `a`. What is behind must not make a number longer, and
that is all that has to be known of it. Blanks need no such care. Whatever reads a value
skips the blanks before it, so that a text with blanks in front is read like the text
without them.

Nesting and the number of parts are bounded by the length of the text. A part of a written
value is shorter than the value, since the brackets are missing, and this is what the
induction on the value goes down with.

Main results:

* `string_writeText`, `number_repr` — texts and integers.
* `separated_inner` — the parts of a list or record.
* `parse?_write` — values.
-/

namespace AnnotationQuery.Json

open DocumentReader

/-! ## Readers -/

/-- No number goes on with this text. -/
def Ends (cs : List Char) : Prop :=
  ∀ c ∈ cs.head?, c.isDigit = false ∧ c ≠ '.' ∧ c ≠ 'e' ∧ c ≠ 'E'

/-- The reader takes these characters and gives this value, whatever ends it. -/
def Reads {α : Type} (r : DocumentReader α) (cs : List Char) (a : α) : Prop :=
  ∀ rest, Ends rest → r (cs ++ rest) = some (a, rest)

/-- To the reader, blanks in front make no difference. -/
def Skips {α : Type} (r : DocumentReader α) : Prop :=
  ∀ cs, r cs = r (cs.dropWhile isBlank)

section

variable {α β : Type} {r : DocumentReader α} {f : α → DocumentReader β} {a : α}
variable {cs rest lead : List Char} {c : Char}

theorem bind_of_read (h : r cs = some (a, rest)) : (r >>= f) cs = f a rest := by
  show (r cs).bind (fun p => f p.1 p.2) = f a rest
  rw [h]
  rfl

theorem exactly_cons (c : Char) (rest : List Char) : exactly [c] (c :: rest) = some ((), rest) := by
  rw [exactly, if_pos rfl]
  cases rest <;> rfl

theorem peek_cons (c : Char) (rest : List Char) : peek (c :: rest) = some (some c, c :: rest) :=
  rfl

theorem charsWhile_stop {test : Char → Bool} (h : Text.Stops test rest) :
    charsWhile test rest = some ([], rest) := by
  rw [charsWhile, Text.takeWhile_of_stops h, Text.dropWhile_of_stops h]

theorem charsWhile_append {test : Char → Bool} (h : ∀ c ∈ cs, test c = true)
    (hRest : Text.Stops test rest) : charsWhile test (cs ++ rest) = some (cs, rest) := by
  rw [charsWhile, Text.takeWhile_run h hRest, Text.dropWhile_run h hRest]

theorem dropWhile_lead (h : lead.all isBlank = true) (cs : List Char) :
    (lead ++ cs).dropWhile isBlank = cs.dropWhile isBlank :=
  List.dropWhile_append_of_pos (List.all_eq_true.mp h)

theorem blanks_cons (hc : isBlank c = false) : blanks (c :: cs) = some ((), c :: cs) := by
  show some ((), (c :: cs).dropWhile isBlank) = _
  rw [List.dropWhile_cons_of_neg (by rw [hc]; exact Bool.false_ne_true)]

theorem Skips.of_lead (h : Skips r) (hLead : lead.all isBlank = true) (cs : List Char) :
    r (lead ++ cs) = r cs := by
  rw [h (lead ++ cs), dropWhile_lead hLead, ← h cs]

theorem skips_blanks : Skips blanks := by
  intro cs
  show some ((), cs.dropWhile isBlank) = some ((), (cs.dropWhile isBlank).dropWhile isBlank)
  rw [List.dropWhile_idempotent]

theorem Skips.bind (h : Skips r) (f : α → DocumentReader β) : Skips (r >>= f) := by
  intro cs
  show (r cs).bind (fun p => f p.1 p.2) = (r (cs.dropWhile isBlank)).bind fun p => f p.1 p.2
  rw [h cs]

end

/-! ## Texts -/

/-- A code unit that is no half of a surrogate pair stands for itself. -/
theorem textOfUnits?_code {n : Nat} (h : n < 0xD800) (us : List TextUnit) :
    textOfUnits? (.code n :: us) =
      (charOfCode? n).bind fun c => (textOfUnits? us).map (c :: ·) := by
  have hHigh : isHighSurrogate n = false := by
    simp only [isHighSurrogate, Bool.and_eq_false_iff, decide_eq_false_iff_not]
    omega
  -- two code units are a pair only if the first is a first half
  have hAlone : ∀ us, textOfUnits? (.code n :: us) = (do
      let c ← charOfCode? n
      return c :: (← textOfUnits? us)) := by
    rintro (_ | ⟨_ | m, us⟩)
    · rfl
    · conv_lhs => rw [textOfUnits?.eq_def]
    · rw [textOfUnits?, hHigh]
      rfl
  rw [hAlone]
  cases charOfCode? n with
  | none => rfl
  | some c => cases textOfUnits? us <;> rfl

/-- The four hexadecimal digits of a control character stand for its code. -/
theorem hexValue?_hexByte {n : Nat} (h : n < 0x20) :
    hexValue? ('0' :: '0' :: hexByte n) = some n := by
  -- there are few control characters: each of them is tried
  have hAll : ∀ m : Fin 0x20, hexValue? ('0' :: '0' :: hexByte m) = some (m : Nat) := by
    decide
  exact hAll ⟨n, h⟩

/-- A character is written as one unit, which stands for the character. -/
theorem exists_unit (c : Char) :
    ∃ u : TextUnit, (∀ cs, unitsFrom (escapeChar c ++ cs) =
        (unitsFrom cs).map fun p => (u :: p.1, p.2)) ∧
      ∀ us, textOfUnits? (u :: us) = (textOfUnits? us).map (c :: ·) := by
  have hMore : ∀ (u : TextUnit) cs, ((unitsFrom cs).bind fun p => some (u :: p.1, p.2)) =
      (unitsFrom cs).map fun p => (u :: p.1, p.2) := by
    intro u cs
    cases unitsFrom cs <;> rfl
  unfold escapeChar
  split
  -- seven characters have an escape with a letter or sign of its own
  iterate 7
    · exact ⟨.char _, hMore _, fun _ => rfl⟩
  · next hQuote hBackslash _ _ _ _ _ =>
    split
    · -- the other control characters are given by their code
      next hControl =>
      refine ⟨.code c.toNat, fun cs => ?_, fun us => ?_⟩
      · show ((hexValue? ('0' :: '0' :: hexByte c.toNat)).bind fun n =>
          (unitsFrom cs).bind fun p => some (TextUnit.code n :: p.1, p.2)) = _
        rw [hexValue?_hexByte hControl]
        exact hMore _ cs
      · rw [textOfUnits?_code (by omega)]
        have hChar : charOfCode? c.toNat = some c := by
          rw [charOfCode?, if_pos (show c.toNat.isValidChar from c.valid), Char.ofNat_toNat]
        rw [hChar]
        rfl
    · -- and the rest stand for themselves
      next hPlain =>
      refine ⟨.char c, fun cs => ?_, fun _ => rfl⟩
      rw [List.singleton_append, unitsFrom, if_neg hPlain]
      · exact hMore _ cs
      · exact hQuote
      · rintro _ _ _ _ _ rfl
        exact absurd rfl hBackslash
      · rintro _ _ rfl
        exact absurd rfl hBackslash

/-- The units of an escaped text end at the closing quote and make up the text. -/
theorem unitsFrom_escaped (cs rest : List Char) :
    ∃ units, unitsFrom (cs.flatMap escapeChar ++ '"' :: rest) = some (units, rest) ∧
      textOfUnits? units = some cs := by
  -- on the text: each of its characters is one unit
  induction cs with
  | nil => exact ⟨[], rfl, rfl⟩
  | cons c cs ih =>
    obtain ⟨units, hUnits, hText⟩ := ih
    obtain ⟨u, hUnit, hChar⟩ := exists_unit c
    refine ⟨u :: units, ?_, ?_⟩
    · rw [List.flatMap_cons, List.append_assoc, hUnit, hUnits]
      rfl
    · rw [hChar, hText]
      rfl

theorem toList_writeText (s : String) :
    (writeText s).toList = '"' :: (s.toList.flatMap escapeChar ++ ['"']) := by
  simp [writeText]

/-- A text is read as what was written, whatever is behind it. -/
theorem string_writeText (s : String) (rest : List Char) :
    string ((writeText s).toList ++ rest) = some (some s, rest) := by
  obtain ⟨units, hUnits, hText⟩ := unitsFrom_escaped s.toList rest
  rw [toList_writeText, List.cons_append, List.append_assoc, List.singleton_append]
  unfold string
  rw [bind_of_read (exactly_cons '"' _), bind_of_read hUnits, hText]
  show some (some (String.ofList s.toList), rest) = _
  rw [String.ofList_toList]

/-! ## Integers -/

/-- The decimal digits of a number: at least one, and nothing but digits. -/
theorem exists_digits (n : Nat) :
    ∃ d ds, Nat.toDigits 10 n = d :: ds ∧ ∀ c ∈ d :: ds, c.isDigit = true := by
  obtain ⟨d, ds, hDigits⟩ := List.exists_cons_of_ne_nil (Nat.toDigits_ne_nil (n := n) (b := 10))
  refine ⟨d, ds, hDigits, fun c hc => ?_⟩
  rw [← hDigits] at hc
  exact Nat.isDigit_of_mem_toDigits (by omega) (by omega) hc

/-- Only the number zero starts with the digit. -/
theorem toDigits_zero_first {n : Nat} {cs : List Char} (h : Nat.toDigits 10 n = '0' :: cs) :
    n = 0 := by
  induction n using Nat.strongRecOn generalizing cs with
  | _ n ih =>
    rw [Nat.toDigits_eq_if (by omega)] at h
    split at h
    · next hSmall =>
      have hDigit : n.digitChar.toNat = 48 := by
        rw [(List.cons.inj h).1]
        rfl
      rw [Nat.toNat_digitChar_of_lt_ten hSmall] at hDigit
      omega
    · -- the first digit is that of the number without its last one, which is not zero
      next hLarge =>
      obtain ⟨d, ds, hDigits, -⟩ := exists_digits (n / 10)
      rw [hDigits, List.cons_append] at h
      have hZero := ih (n / 10) (by omega) (hDigits.trans (by rw [(List.cons.inj h).1]))
      omega

/-- The value of the decimal digits of a number is that number. -/
theorem decimalValue_toDigits (n : Nat) : decimalValue (Nat.toDigits 10 n) = n := by
  have hDigits := Nat.ofDigitChars_toDigits (b := 10) (n := n) (by omega) (by omega)
  rw [Nat.ofDigitChars_eq_foldl] at hDigits
  rw [decimalValue, ofDigits, List.foldl_map]
  simpa only [Nat.mul_comm] using hDigits

section

variable {rest : List Char}

/-- There is no fraction where a number ends. -/
theorem fraction_of_ends (h : Ends rest) : fraction rest = some ([], rest) := by
  cases rest with
  | nil => rfl
  | cons c rest =>
    have hPoint : c ≠ '.' := (h c rfl).2.1
    unfold fraction
    rw [bind_of_read (peek_cons c rest)]
    refine congrFun (?_ : _ = (pure [] : DocumentReader (List Char))) _
    split
    · next hc => exact absurd (Option.some.inj hc) hPoint
    · rfl

/-- There is no exponent where a number ends. -/
theorem exponent_of_ends (h : Ends rest) : exponent rest = some ([], rest) := by
  have hMark : charsWhile (fun c => c == 'e' || c == 'E') rest = some ([], rest) := by
    refine charsWhile_stop fun c hc => ?_
    have hNone := (h c hc).2.2
    simp [hNone.1, hNone.2]
  unfold exponent
  rw [bind_of_read hMark]
  rfl

/-- The digits of a number are read as its whole part. -/
theorem wholePart_toDigits (n : Nat) (h : Ends rest) :
    wholePart (Nat.toDigits 10 n ++ rest) = some (Nat.toDigits 10 n, rest) := by
  obtain ⟨d, ds, hDigits, hAll⟩ := exists_digits n
  unfold wholePart
  rw [hDigits, List.cons_append, bind_of_read (peek_cons d _)]
  by_cases hZero : d = '0'
  · -- a number that starts with zero is zero, so there is no other digit
    subst hZero
    cases toDigits_zero_first hDigits
    cases hDigits
    rfl
  · refine (congrFun (?_ : _ = someWhile Char.isDigit) _).trans ?_
    · split
      · next hd => exact absurd (Option.some.inj hd) hZero
      · rfl
    unfold someWhile
    rw [← List.cons_append, bind_of_read (charsWhile_append hAll fun c hc => (h c hc).1)]
    rfl

/-- The digits of a number are read with the sign before them. -/
theorem number_signed {sign : List Char} (m : Nat) (hSign : sign = [] ∨ sign = ['-'] ∧ m ≠ 0)
    (h : Ends rest) : number (sign ++ (Nat.toDigits 10 m ++ rest)) =
      some (.whole (if sign.isEmpty then (m : Int) else -m), rest) := by
  obtain ⟨d, ds, hDigits, hAll⟩ := exists_digits m
  have hRead : charsWhile (· == '-') (sign ++ (Nat.toDigits 10 m ++ rest)) =
      some (sign, Nat.toDigits 10 m ++ rest) := by
    refine charsWhile_append ?_ ?_
    · rcases hSign with rfl | ⟨rfl, -⟩ <;> simp
    · rw [hDigits]
      rintro c ⟨⟩
      rw [beq_eq_false_iff_ne]
      rintro rfl
      cases hAll '-' List.mem_cons_self
  unfold number
  rw [bind_of_read hRead]
  have hShort : ¬ 1 < sign.length := by rcases hSign with rfl | ⟨rfl, -⟩ <;> decide
  simp only [if_neg hShort]
  rw [bind_of_read (wholePart_toDigits m h), bind_of_read (fraction_of_ends h),
    bind_of_read (exponent_of_ends h)]
  -- a zero has no sign, so the number is an integer
  have hWhole : ¬ (sign = ['-'] ∧ Nat.toDigits 10 m = ['0']) := by
    rintro ⟨rfl, hZero⟩
    rcases hSign with hNone | ⟨-, hSome⟩
    · cases hNone
    · exact hSome (toDigits_zero_first hZero)
  rw [if_pos ⟨rfl, hWhole⟩, decimalValue_toDigits]
  rfl

/-- An integer is read as what was written. -/
theorem number_repr (n : Int) : Reads number n.repr.toList (.whole n) := by
  intro rest h
  rcases n with m | m
  · show number (m.repr.toList ++ rest) = _
    rw [Nat.toList_repr]
    exact number_signed m (.inl rfl) h
  · show number (("-" ++ m.succ.repr).toList ++ rest) = _
    rw [String.toList_append, Nat.toList_repr, List.append_assoc]
    exact number_signed (m + 1) (.inr ⟨rfl, Nat.succ_ne_zero m⟩) h

/-- Different integers are written differently, because each can be read again. -/
theorem repr_injective : Function.Injective Int.repr := by
  intro m n h
  have hFirst := number_repr m [] nofun
  rw [h, number_repr n [] nofun] at hFirst
  cases hFirst
  rfl

end

/-! ## Lists of parts -/

/-- The text starts with something that is neither a blank nor a closing bracket. -/
def Starts (cs : List Char) : Prop :=
  ∃ c more, cs = c :: more ∧ isBlank c = false ∧ c ≠ ']' ∧ c ≠ '\x7d'

/-- The parts behind the first one, each with a comma before it. -/
def further (lead : List Char) (parts : List (List Char)) : List Char :=
  parts.flatMap fun p => ',' :: (lead ++ p)

section

variable {α : Type} {item : DocumentReader α} {close : Char} {lead trail : List Char}

/-- What ends a number ends it behind blanks as well: a blank ends it too. -/
theorem ends_of_lead (hLead : lead.all isBlank = true) {c : Char} {rest : List Char}
    (h : Ends (c :: rest)) : Ends (lead ++ c :: rest) := by
  cases lead with
  | nil => exact h
  | cons b lead =>
    rw [List.all_cons, Bool.and_eq_true] at hLead
    rintro _ ⟨⟩
    have hBlank := hLead.1
    simp only [isBlank, Bool.or_eq_true, beq_iff_eq] at hBlank
    -- there are four blanks, and none of them goes on with a number
    rcases hBlank with ((rfl | rfl) | rfl) | rfl <;> decide

/-- A list of items skips blanks if its items do. -/
theorem skips_separatedUpTo (hSkips : Skips item) (close : Char) (bound : Nat) :
    Skips (separatedUpTo item close bound) := by
  intro cs
  cases bound with
  | zero => rfl
  | succ k =>
    rw [separatedUpTo]
    exact hSkips.bind _ cs

/-- Parts with commas between them are read up to the closing bracket. The induction is on the parts
behind the first one. -/
theorem separatedUpTo_further (hSkips : Skips item) (hLead : lead.all isBlank = true)
    (hTrail : trail.all isBlank = true) (hClose : close = ']' ∨ close = '\x7d')
    {parts : List (List Char)} {as : List α} (h : List.Forall₂ (Reads item) parts as)
    {p : List Char} {a : α} (hFirst : Reads item p a) {bound : Nat} (hBound : parts.length < bound)
    (rest : List Char) :
    separatedUpTo item close bound (p ++ (further lead parts ++ (trail ++ close :: rest))) =
      some (a :: as, rest) := by
  -- on the parts behind the first, with the bound one less for each
  induction h generalizing p a bound with
  | nil =>
    obtain ⟨k, rfl⟩ := Nat.exists_eq_succ_of_ne_zero (Nat.ne_of_gt hBound)
    -- the last part ends at the bracket, whatever blanks are before it
    have hEnds : Ends (trail ++ close :: rest) := by
      refine ends_of_lead hTrail ?_
      rintro _ ⟨⟩
      rcases hClose with rfl | rfl <;> decide
    have hBlank : isBlank close = false := by rcases hClose with rfl | rfl <;> rfl
    have hBlanks : blanks (trail ++ close :: rest) = some ((), close :: rest) :=
      (skips_blanks.of_lead hTrail _).trans (blanks_cons hBlank)
    rw [separatedUpTo, further, List.flatMap_nil, List.nil_append, bind_of_read (hFirst _ hEnds),
      bind_of_read hBlanks, bind_of_read (peek_cons _ _)]
    rcases hClose with rfl | rfl <;> rfl
  | @cons q b parts as hHere hMore ih =>
    obtain ⟨k, rfl⟩ := Nat.exists_eq_succ_of_ne_zero (Nat.ne_of_gt (Nat.zero_lt_of_lt hBound))
    have hRest := ih hHere (Nat.lt_of_succ_lt_succ hBound)
    -- any other part ends at its comma
    have hEnds : ∀ cs, Ends (',' :: cs) := by
      rintro cs _ ⟨⟩
      decide
    have hText : further lead (q :: parts) ++ (trail ++ close :: rest) =
        ',' :: (lead ++ (q ++ (further lead parts ++ (trail ++ close :: rest)))) := by
      simp [further]
    rw [separatedUpTo, hText, bind_of_read (hFirst _ (hEnds _)), bind_of_read (blanks_cons rfl),
      bind_of_read (peek_cons _ _)]
    show (exactly [','] >>= fun _ => separatedUpTo item close k >>= fun bs => pure (a :: bs)) _ = _
    rw [bind_of_read (exactly_cons _ _),
      bind_of_read (((skips_separatedUpTo hSkips close k).of_lead hLead _).trans hRest)]
    rfl

end

/-- What stands between the brackets of a list or record at a depth. -/
def inner (l : Layout) (depth : Nat) : List (List Char) → List Char
  | [] => []
  | p :: parts =>
    (l.lead (depth + 1)).toList ++
      (p ++ (further (l.lead (depth + 1)).toList parts ++ (l.lead depth).toList))

/-- The layout puts nothing but blanks between the parts. -/
structure Layout.Blank (l : Layout) : Prop where
  lead : ∀ depth, (l.lead depth).toList.all isBlank = true
  colon : ∃ before after, l.colon.toList = before ++ ':' :: after ∧
    before.all isBlank = true ∧ after.all isBlank = true

section

variable {l : Layout}

/-- Parts with commas between them are the first part and the further ones. -/
theorem intercalate_comma (lead p : List Char) (parts : List (List Char)) :
    [','].intercalate ((p :: parts).map (lead ++ ·)) = lead ++ (p ++ further lead parts) := by
  induction parts generalizing p with
  | nil => simp [further, List.intercalate]
  | cons q parts ih =>
    rw [List.map_cons, List.map_cons, List.intercalate_cons_cons, ← List.map_cons, ih]
    simp [further]

/-- The text of a list or record: its brackets and what stands between them. -/
theorem toList_bracketed {β : Type} (l : Layout) (depth : Nat) (opening closing : String)
    (xs : List β) (w : β → String) : (bracketed l depth opening closing (xs.map w)).toList =
      opening.toList ++ (inner l depth (xs.map fun x => (w x).toList) ++ closing.toList) := by
  cases xs with
  | nil => simp [bracketed, inner]
  | cons x xs =>
    -- each part is written with what leads up to it, so that goes into the part
    have hParts : (((x :: xs).map w).map (l.lead (depth + 1) ++ ·)).map String.toList =
        ((x :: xs).map fun x => (w x).toList).map ((l.lead (depth + 1)).toList ++ ·) := by
      simp
    have hComma : ",".toList = [','] := rfl
    rw [bracketed, if_neg (by simp), String.toList_append, String.toList_append,
      String.toList_append, String.toList_intercalate, hComma, hParts, List.map_cons,
      intercalate_comma, inner]
    simp only [List.append_assoc]

/-- The further parts are neither more nor longer than their text. -/
theorem length_le_further (lead : List Char) (parts : List (List Char)) :
    parts.length ≤ (further lead parts).length ∧
      ∀ p ∈ parts, p.length ≤ (further lead parts).length := by
  induction parts with
  | nil => exact ⟨Nat.le_refl _, fun p hp => (nomatch hp)⟩
  | cons q parts ih =>
    have hText : (further lead (q :: parts)).length =
        lead.length + q.length + 1 + (further lead parts).length := by
      simp [further]
      omega
    rw [List.forall_mem_cons, hText, List.length_cons]
    refine ⟨by omega, by omega, fun p hp => ?_⟩
    have hHere := ih.2 p hp
    omega

/-- A part is not longer than what stands between the brackets. -/
theorem length_le_inner (l : Layout) (depth : Nat) {parts : List (List Char)} {p : List Char}
    (hp : p ∈ parts) :
    p.length ≤ (inner l depth parts).length := by
  cases parts with
  | nil => cases hp
  | cons q parts =>
    simp only [inner, List.length_append]
    rcases List.mem_cons.mp hp with rfl | hp
    · omega
    · have hHere := (length_le_further (l.lead (depth + 1)).toList parts).2 p hp
      omega

/-- The parts between brackets are read up to the closing one. -/
theorem separated_inner {α β : Type} {item : DocumentReader α} {close : Char} (hl : l.Blank)
    (hSkips : Skips item) (hClose : close = ']' ∨ close = '\x7d') {xs : List β}
    {w : β → List Char} {g : β → α} (hReads : ∀ x ∈ xs, Reads item (w x) (g x))
    (hStarts : ∀ x ∈ xs, Starts (w x)) (depth : Nat) (rest : List Char) :
    separated item close (inner l depth (xs.map w) ++ close :: rest) = some (xs.map g, rest) := by
  have hBlank : isBlank close = false := by rcases hClose with rfl | rfl <;> rfl
  cases xs with
  | nil =>
    show separated item close (close :: rest) = _
    unfold separated
    rw [bind_of_read (blanks_cons hBlank), bind_of_read (peek_cons _ _), if_pos rfl,
      bind_of_read (exactly_cons _ _)]
    rfl
  | cons x xs =>
    rw [List.forall_mem_cons] at hReads hStarts
    obtain ⟨c, more, hFirst, hc, hSquare, hCurly⟩ := hStarts.1
    have hOther : c ≠ close := by rcases hClose with rfl | rfl <;> assumption
    have hMore : List.Forall₂ (Reads item) (xs.map w) (xs.map g) := by
      rw [List.forall₂_map_left_iff, List.forall₂_map_right_iff, List.forall₂_same]
      exact hReads.2
    have hText : inner l depth ((x :: xs).map w) ++ close :: rest =
        (l.lead (depth + 1)).toList ++ (w x ++ (further (l.lead (depth + 1)).toList (xs.map w) ++
          ((l.lead depth).toList ++ close :: rest))) := by
      simp [inner]
    generalize hTail : further (l.lead (depth + 1)).toList (xs.map w) ++
      ((l.lead depth).toList ++ close :: rest) = tail at hText
    have hBlanks : blanks ((l.lead (depth + 1)).toList ++ (w x ++ tail)) =
        some ((), w x ++ tail) := by
      rw [skips_blanks.of_lead (hl.lead _), hFirst]
      exact blanks_cons hc
    have hPeek : peek (w x ++ tail) = some (some c, w x ++ tail) := by
      rw [hFirst]
      rfl
    unfold separated
    rw [hText, bind_of_read hBlanks, bind_of_read hPeek,
      if_neg (fun hSame => hOther (Option.some.inj hSame)), ← hTail]
    -- there are enough commas for the bound
    refine separatedUpTo_further hSkips (hl.lead _) (hl.lead _) hClose hMore hReads.1 ?_ rest
    have hCount := (length_le_further (l.lead (depth + 1)).toList (xs.map w)).1
    simp only [List.length_append]
    omega

end

/-! ## Values -/

/-- Every number in the document is an integer. -/
inductive Integral : Node → Prop where
  | null : Integral .null
  | bool (b : Bool) : Integral (.bool b)
  | whole (n : Int) : Integral (.whole n)
  | text (s : String) : Integral (.text s)
  | broken : Integral .broken
  | items {values : List Node} (h : ∀ v ∈ values, Integral v) : Integral (.items values)
  | fields {entries : List (String × Node)} (h : ∀ e ∈ entries, Integral e.2) :
      Integral (.fields entries)

section

variable {l : Layout} {n : Node}

/-- A value skips the blanks in front of it. -/
theorem skips_valueUpTo (bound : Nat) : Skips (valueUpTo bound) := by
  cases bound with
  | zero => exact fun _ => rfl
  | succ k =>
    rw [valueUpTo]
    exact skips_blanks.bind _

theorem skips_entry (value : DocumentReader Node) : Skips (entry value) :=
  skips_blanks.bind _

/-- A list is written as its values between brackets. -/
theorem write_items (l : Layout) (depth : Nat) (values : List Node) :
    (write l depth (.items values)).toList =
      '[' :: (inner l depth (values.map fun v => (write l (depth + 1) v).toList) ++ [']']) := by
  -- the values are written one by one
  have hMap : writeItems l (depth + 1) values = values.map (write l (depth + 1)) := by
    induction values with
    | nil => rfl
    | cons v values ih => rw [writeItems, ih, List.map_cons]
  rw [write, hMap, toList_bracketed]
  rfl

/-- A record is written as its entries between braces. -/
theorem write_fields (l : Layout) (depth : Nat) (entries : List (String × Node)) :
    (write l depth (.fields entries)).toList =
      '\x7b' :: (inner l depth (entries.map fun e =>
        (writeText e.1).toList ++ (l.colon.toList ++ (write l (depth + 1) e.2).toList)) ++
          ['\x7d']) := by
  have hMap : writeFields l (depth + 1) entries =
      entries.map fun e => writeText e.1 ++ (l.colon ++ write l (depth + 1) e.2) := by
    induction entries with
    | nil => rfl
    | cons e entries ih => rw [writeFields, ih, List.map_cons, String.append_assoc]
  rw [write, hMap, toList_bracketed]
  simp only [String.toList_append]
  rfl

theorem starts_writeText (s : String) (cs : List Char) : Starts ((writeText s).toList ++ cs) := by
  rw [toList_writeText]
  exact ⟨'"', _, rfl, rfl, by decide, by decide⟩

/-- A number starts with a digit or a sign. -/
theorem repr_first (n : Int) :
    ∃ c cs, n.repr.toList = c :: cs ∧ ∀ d, d.isDigit = false → d ≠ '-' → c ≠ d := by
  rcases n with m | m
  · show ∃ c cs, m.repr.toList = c :: cs ∧ _
    rw [Nat.toList_repr]
    obtain ⟨c, cs, hDigits, hAll⟩ := exists_digits m
    refine ⟨c, cs, hDigits, ?_⟩
    rintro d hd - rfl
    rw [hAll c List.mem_cons_self] at hd
    cases hd
  · -- below zero there is a sign in front
    exact ⟨'-', m.succ.repr.toList, by simp [Int.repr], fun d _ hd => hd.symm⟩

theorem starts_repr (n : Int) : Starts n.repr.toList := by
  obtain ⟨c, cs, hText, hc⟩ := repr_first n
  refine ⟨c, cs, hText, ?_, hc _ rfl (by decide), hc _ rfl (by decide)⟩
  simp [isBlank, hc ' ' rfl (by decide), hc '\t' rfl (by decide), hc '\n' rfl (by decide),
    hc '\r' rfl (by decide)]

/-- A written document starts with something that closes nothing. -/
theorem starts_write (h : Integral n) (depth : Nat) : Starts (write l depth n).toList := by
  cases h with
  | null =>
    rw [write]
    exact ⟨'n', _, rfl, rfl, by decide, by decide⟩
  | bool b =>
    cases b
    · rw [write]
      exact ⟨'f', _, rfl, rfl, by decide, by decide⟩
    · rw [write]
      exact ⟨'t', _, rfl, rfl, by decide, by decide⟩
  | whole n =>
    rw [write]
    exact starts_repr n
  | text s =>
    rw [write, ← List.append_nil (writeText s).toList]
    exact starts_writeText s []
  | broken =>
    rw [write]
    exact ⟨'"', _, rfl, rfl, by decide, by decide⟩
  | items h =>
    rw [write_items]
    exact ⟨'[', _, rfl, rfl, by decide, by decide⟩
  | fields h =>
    rw [write_fields]
    exact ⟨'\x7b', _, rfl, rfl, by decide, by decide⟩

/-- A written integer is read as that integer. -/
theorem valueUpTo_whole (n : Int) (k : Nat) :
    Reads (valueUpTo (k + 1)) n.repr.toList (.whole n) := by
  intro rest hRest
  have hNumber := number_repr n rest hRest
  obtain ⟨c, cs, hText, hBlank, -⟩ := starts_repr n
  obtain ⟨c', cs', hText', hc⟩ := repr_first n
  cases hText.symm.trans hText'
  rw [hText, List.cons_append] at hNumber ⊢
  rw [valueUpTo, bind_of_read (blanks_cons hBlank), bind_of_read (peek_cons _ _)]
  refine (congrFun (?_ : _ = number) _).trans hNumber
  split
  -- it starts with a digit or a sign, and so like no other kind of value
  iterate 6
    · next h => exact absurd (Option.some.inj h) (hc _ rfl (by decide))
  · rfl

/-- An entry of a record is read if its value is. -/
theorem entry_read (hl : l.Blank) {value : DocumentReader Node} (hSkips : Skips value)
    (key : String) {cs : List Char} (h : Reads value cs n) :
    Reads (entry value) ((writeText key).toList ++ (l.colon.toList ++ cs)) (some key, n) := by
  intro rest hRest
  obtain ⟨before, after, hColon, hBefore, hAfter⟩ := hl.colon
  -- blanks may stand on both sides of the colon, and are skipped on both
  have hText : (writeText key).toList ++ (l.colon.toList ++ cs) ++ rest =
      (writeText key).toList ++ (before ++ ':' :: (after ++ (cs ++ rest))) := by
    rw [hColon]
    simp
  have hFirst : blanks ((writeText key).toList ++ (before ++ ':' :: (after ++ (cs ++ rest)))) =
      some ((), (writeText key).toList ++ (before ++ ':' :: (after ++ (cs ++ rest)))) := by
    rw [toList_writeText]
    exact blanks_cons rfl
  unfold entry
  rw [hText, bind_of_read hFirst, bind_of_read (string_writeText key _),
    bind_of_read ((skips_blanks.of_lead hBefore _).trans (blanks_cons rfl)),
    bind_of_read (exactly_cons _ _), bind_of_read ((hSkips.of_lead hAfter _).trans (h rest hRest))]
  rfl

/-- Entries with readable names make a record. -/
theorem record_of_entries (entries : List (String × Node)) :
    record (entries.map fun e => (some e.1, e.2)) = .fields entries := by
  -- one name that cannot be read would spoil the record
  have hAll : (entries.map fun e => (some e.1, e.2)).mapM
      (fun p : Option String × Node => p.1.map (·, p.2)) = some entries := by
    induction entries with
    | nil => rfl
    | cons e entries ih =>
      rw [List.map_cons, List.mapM_cons, ih]
      rfl
  unfold record
  split
  · next read hRead =>
    cases hAll.symm.trans hRead
    rfl
  · next hRead => cases hAll.symm.trans hRead

/-- A bound on the length of a document is not zero. -/
theorem exists_bound (h : Integral n) {depth bound : Nat}
    (hBound : (write l depth n).toList.length ≤ bound) : ∃ k, bound = k + 1 := by
  obtain ⟨c, cs, hText, -⟩ := starts_write (l := l) h depth
  rw [hText, List.length_cons] at hBound
  exact ⟨bound - 1, by omega⟩

/-- A written list is read as that list, if its values are. -/
theorem items_read (hl : l.Blank) {values : List Node} (h : ∀ v ∈ values, Integral v)
    {depth k : Nat} (hReads : ∀ v ∈ values, Reads (valueUpTo k) (write l (depth + 1) v).toList v) :
    Reads (valueUpTo (k + 1)) (write l depth (.items values)).toList (.items values) := by
  intro rest _
  have hInner := separated_inner (g := id) hl (skips_valueUpTo k) (.inl rfl) hReads
    (fun v hv => starts_write (h v hv) (depth + 1)) depth rest
  rw [List.map_id] at hInner
  rw [write_items, List.cons_append, List.append_assoc, valueUpTo, bind_of_read (blanks_cons rfl),
    bind_of_read (peek_cons _ _)]
  show (exactly ['['] >>= fun _ => separated (valueUpTo k) ']' >>= fun vs =>
    pure (Node.items vs)) _ = _
  rw [bind_of_read (exactly_cons _ _)]
  exact bind_of_read hInner

/-- A written record is read as that record, if the values of its entries are. -/
theorem fields_read (hl : l.Blank) {entries : List (String × Node)} {depth k : Nat}
    (hReads : ∀ e ∈ entries, Reads (valueUpTo k) (write l (depth + 1) e.2).toList e.2) :
    Reads (valueUpTo (k + 1)) (write l depth (.fields entries)).toList (.fields entries) := by
  intro rest _
  have hEntries : ∀ e ∈ entries, Reads (entry (valueUpTo k))
      ((writeText e.1).toList ++ (l.colon.toList ++ (write l (depth + 1) e.2).toList))
      (some e.1, e.2) :=
    fun e he => entry_read hl (skips_valueUpTo k) e.1 (hReads e he)
  have hInner := separated_inner hl (skips_entry (valueUpTo k)) (.inr rfl) hEntries
    (fun e _ => starts_writeText e.1 _) depth rest
  rw [write_fields, List.cons_append, List.append_assoc, valueUpTo, bind_of_read (blanks_cons rfl),
    bind_of_read (peek_cons _ _)]
  show (exactly ['\x7b'] >>= fun _ => separated (entry (valueUpTo k)) '\x7d' >>= fun es =>
    pure (record es)) _ = _
  rw [bind_of_read (exactly_cons _ _), ← record_of_entries]
  exact bind_of_read hInner

/-- A value that was written is read as that value. The induction is on the value; what is left of
the bound is enough for the parts, since they are shorter. -/
theorem write_read (hl : l.Blank) (h : Integral n) :
    ∀ depth bound, (write l depth n).toList.length ≤ bound →
      Reads (valueUpTo bound) (write l depth n).toList n := by
  induction h with
  | null =>
    intro depth bound hBound rest _
    obtain ⟨k, rfl⟩ := exists_bound .null hBound
    rw [write]
    rfl
  | bool b =>
    intro depth bound hBound rest _
    obtain ⟨k, rfl⟩ := exists_bound (.bool b) hBound
    cases b <;> rw [write] <;> rfl
  | whole n =>
    intro depth bound hBound
    obtain ⟨k, rfl⟩ := exists_bound (.whole n) hBound
    rw [write]
    exact valueUpTo_whole n k
  | text s =>
    intro depth bound hBound rest _
    obtain ⟨k, rfl⟩ := exists_bound (.text s) hBound
    have hString := string_writeText s rest
    rw [write]
    rw [toList_writeText, List.cons_append] at hString ⊢
    rw [valueUpTo, bind_of_read (blanks_cons rfl), bind_of_read (peek_cons _ _)]
    exact bind_of_read hString
  | broken =>
    intro depth bound hBound rest _
    obtain ⟨k, rfl⟩ := exists_bound .broken hBound
    rw [write]
    rfl
  | @items values h ih =>
    intro depth bound hBound
    obtain ⟨k, rfl⟩ := exists_bound (.items h) hBound
    rw [write_items, List.length_cons, List.length_append] at hBound
    refine items_read hl h fun v hv => ih v hv (depth + 1) k ?_
    have hPart := length_le_inner l depth
      (List.mem_map_of_mem (f := fun v => (write l (depth + 1) v).toList) hv)
    omega
  | @fields entries h ih =>
    intro depth bound hBound
    obtain ⟨k, rfl⟩ := exists_bound (.fields h) hBound
    rw [write_fields, List.length_cons, List.length_append] at hBound
    refine fields_read hl fun e he => ih e he (depth + 1) k ?_
    have hPart := length_le_inner l depth (List.mem_map_of_mem (f := fun e =>
      (writeText e.1).toList ++ (l.colon.toList ++ (write l (depth + 1) e.2).toList)) he)
    simp only [List.length_append] at hPart
    omega

/-- **What was written is read.** In any layout that puts nothing but blanks between the parts, the
text of a value in which all numbers are integers is read as that value. -/
theorem parse?_write (hl : l.Blank) (h : Integral n) : parse? (write l 0 n) = some n := by
  have hValue := write_read hl h 0 ((write l 0 n).toList.length + 1) (Nat.le_succ _) []
    (fun c hc => (nomatch hc))
  rw [List.append_nil] at hValue
  -- the bound is the length of the text and one more, which is enough for any depth
  have hDocument : document (write l 0 n).toList = some (n, []) := by
    unfold document
    show (valueUpTo ((write l 0 n).toList.length + 1) >>= fun v => blanks >>= fun _ => pure v) _ = _
    rw [bind_of_read hValue]
    rfl
  show (document (write l 0 n).toList).bind
    (fun p => if p.2.isEmpty then some p.1 else none) = some n
  rw [hDocument]
  rfl

theorem compact_blank : compact.Blank where
  lead _ := rfl
  colon := ⟨[], [], rfl, rfl, rfl⟩

theorem indented_blank : indented.Blank where
  lead depth := by simp [indented, isBlank]
  colon := ⟨[], [' '], rfl, rfl, rfl⟩

end

end AnnotationQuery.Json
