import AnnotationQuery.Proofs.Text.Run
import AnnotationQuery.Settings
import Mathlib.Data.List.Forall2

/-!
# Expansion is one pass from left to right

A text falls into *parts*: characters that are no dollar sign, references in braces and
without, and at the end perhaps a reference whose closing brace is missing. How far a part
reaches is settled by the text alone: a name in braces ends at the next closing brace, a
name without braces ends where no further character can belong to it. So there is one way
to read a text as parts, and the environment has no say in it.

Expansion then replaces part by part. A value is copied as it is, whatever it holds, and
the first part that cannot be replaced ends the pass with its error.

A text can be put behind another one and expanded alone, unless it makes the last name of
the first one longer or opens a brace behind its last dollar sign.

Main results:

* `exists_reading`, `Part.Reading.unique` — the parts of a text.
* `Part.Reading.append` — the parts of two texts, one behind the other.
* `resolveAll_cons` — one step of the pass.
* `expandIn_eq_ok_iff`, `expandIn_eq_error_iff` — what a text expands to.
* `expand_one_pass` — all of this for a whole text.
-/

namespace AnnotationQuery.Settings

/-- A text expanded in a fixed environment. -/
def expandIn (env : String → Option String) (source : String) : Except SettingsError String :=
  Id.run (expand env source)

/-! ## The parts of a text -/

/-- A part of a text, as it is written. -/
inductive Part where
  /-- A character that is no dollar sign. -/
  | other (c : Char)
  /-- A name in braces. -/
  | braced (name : List Char)
  /-- A name without braces. -/
  | bare (name : List Char)
  /-- A name in braces of which the closing one is missing. -/
  | unclosed (name : List Char)
deriving DecidableEq, Repr

namespace Part

/-- What stands in the text for a part. -/
def written : Part → List Char
  | other c => [c]
  | braced name => '$' :: '\x7b' :: (name ++ ['\x7d'])
  | bare name => '$' :: name
  | unclosed name => '$' :: '\x7b' :: name

/-- What stands in the text for parts, one behind the other. -/
def writtenAll (ps : List Part) : List Char :=
  ps.flatMap written

/-- The part ends where it should when this text stands behind it. -/
def Fits (rest : List Char) : Part → Prop
  | other c => c ≠ '$'
  | braced name => '\x7d' ∉ name
  | bare name =>
    -- the longest run, and no brace right behind the dollar sign: it would open a name in braces
    (∀ c ∈ name, isNamePart c = true) ∧ (∀ c ∈ rest.head?, isNamePart c = false) ∧
      (name = [] → rest.head? ≠ some '\x7b')
  | unclosed name => '\x7d' ∉ name ∧ rest = []

/-- Whether a bare name fits can be tested on its characters and on the next one. -/
theorem fits_bare_iff {name rest : List Char} :
    (name.all isNamePart = true ∧ rest.head?.any isNamePart = false ∧
      (name.isEmpty = false ∨ rest.head? ≠ some '\x7b')) ↔ (bare name).Fits rest := by
  rw [Fits, List.all_eq_true, Option.any_eq_false, ← Bool.not_eq_true, List.isEmpty_iff,
    imp_iff_not_or]
  rfl

instance decidableFits (rest : List Char) : (p : Part) → Decidable (p.Fits rest)
  | other c => inferInstanceAs (Decidable (c ≠ '$'))
  | braced name => inferInstanceAs (Decidable ('\x7d' ∉ name))
  | bare _ => decidable_of_iff _ fits_bare_iff
  | unclosed name => inferInstanceAs (Decidable ('\x7d' ∉ name ∧ rest = []))

/-- Every part ends where it should, in front of those that follow. -/
def Fitting : List Part → Prop
  | [] => True
  | p :: ps => p.Fits (writtenAll ps) ∧ Fitting ps

instance decidableFitting : (ps : List Part) → Decidable (Fitting ps)
  | [] => isTrue trivial
  | p :: ps => @instDecidableAnd _ _ (decidableFits (writtenAll ps) p) (decidableFitting ps)

/-- The text is read as these parts. -/
structure Reading (cs : List Char) (ps : List Part) : Prop where
  text : writtenAll ps = cs
  fits : Fitting ps

/-- The piece for a part. -/
def piece : Part → Piece
  | other c => .plain c
  | braced name | bare name => .ofName name
  | unclosed name => .unterminated (String.ofList name)

end Part

/-! ## Where a part ends -/

/-- A text with a closing brace in it, cut at the first one. -/
theorem takeWhile_brace_dropWhile {cs : List Char} (h : '\x7d' ∈ cs) :
    cs.takeWhile (· ≠ '\x7d') ++ '\x7d' :: (cs.dropWhile (· ≠ '\x7d')).drop 1 = cs := by
  have hWhole := List.takeWhile_append_dropWhile (p := (· ≠ '\x7d')) (l := cs)
  cases hLeft : cs.dropWhile (· ≠ '\x7d') with
  | nil => simpa using List.dropWhile_eq_nil_iff.mp hLeft _ h
  | cons c rest =>
    have hHead : (cs.dropWhile (· ≠ '\x7d')).head? = some c := by rw [hLeft]; rfl
    -- what is left starts where the run ends, at the brace
    have hBrace : c = '\x7d' := by simpa using Text.stops_dropWhile _ cs c hHead
    rw [hLeft, hBrace] at hWhole
    exact hWhole

theorem brace_notMem_takeWhile (cs : List Char) : '\x7d' ∉ cs.takeWhile (· ≠ '\x7d') := by
  intro hMem
  simpa using List.mem_takeWhile_imp hMem

/-! ## One way to read a text -/

/-- Every text is read as some parts, and its pieces are those of the parts. -/
theorem exists_reading (cs : List Char) :
    ∃ ps, Part.Reading cs ps ∧ pieces cs = ps.map Part.piece := by
  -- along the recursion of `pieces`, which takes one part off the text at a time
  fun_induction pieces cs with
  | case1 => exact ⟨[], ⟨rfl, trivial⟩, rfl⟩
  | case2 cs hClosed ih =>
    obtain ⟨ps, hReading, hPieces⟩ := ih
    refine ⟨.braced (cs.takeWhile (· ≠ '\x7d')) :: ps, ⟨?_, brace_notMem_takeWhile cs,
      hReading.fits⟩, congrArg _ hPieces⟩
    have hCut := takeWhile_brace_dropWhile (List.contains_iff_mem.mp hClosed)
    show '$' :: '\x7b' :: (_ ++ ['\x7d'] ++ Part.writtenAll ps) = _
    rw [hReading.text, List.append_assoc, List.singleton_append, hCut]
  | case3 cs hOpen =>
    refine ⟨[.unclosed cs], ⟨?_, ⟨?_, rfl⟩, trivial⟩, rfl⟩
    · exact List.append_nil _
    · intro hMem
      exact hOpen (List.contains_iff_mem.mpr hMem)
  | case4 cs hNoBrace ih =>
    obtain ⟨ps, hReading, hPieces⟩ := ih
    refine ⟨.bare (cs.takeWhile isNamePart) :: ps, ⟨?_, ⟨?_, ?_, ?_⟩, hReading.fits⟩,
      congrArg _ hPieces⟩
    · show '$' :: (_ ++ Part.writtenAll ps) = _
      rw [hReading.text, List.takeWhile_append_dropWhile]
    · intro c hc
      exact List.mem_takeWhile_imp hc
    · intro c hc
      rw [hReading.text] at hc
      exact Text.stops_dropWhile _ _ c hc
    · -- with an empty name all of the text is left, and it starts with no brace
      intro hEmpty hBrace
      have hWhole := List.takeWhile_append_dropWhile (p := isNamePart) (l := cs)
      rw [hEmpty, List.nil_append] at hWhole
      rw [hReading.text, hWhole] at hBrace
      obtain ⟨rest, hRest⟩ := List.head?_eq_some_iff.mp hBrace
      exact hNoBrace rest hRest
  | case5 c cs _ hNoDollar ih =>
    obtain ⟨ps, hReading, hPieces⟩ := ih
    refine ⟨.other c :: ps, ⟨?_, hNoDollar, hReading.fits⟩, congrArg _ hPieces⟩
    exact congrArg (c :: ·) hReading.text

namespace Part

/-- The part at the front of a text. -/
def first? : List Char → Option Part
  | [] => none
  | '$' :: '\x7b' :: cs =>
    some (if '\x7d' ∈ cs then .braced (cs.takeWhile (· ≠ '\x7d')) else .unclosed cs)
  | '$' :: cs => some (.bare (cs.takeWhile isNamePart))
  | c :: _ => some (.other c)

/-- Behind a dollar sign without a brace stands the longest name there is. -/
theorem first?_dollar {cs : List Char} (h : cs.head? ≠ some '\x7b') :
    first? ('$' :: cs) = some (.bare (cs.takeWhile isNamePart)) := by
  rw [first?]
  rintro rest rfl
  exact h rfl

/-- A part that fits is the part at the front. -/
theorem first?_written {p : Part} {rest : List Char} (h : p.Fits rest) :
    first? (p.written ++ rest) = some p := by
  cases p with
  | other c =>
    show first? (c :: rest) = _
    rw [first?]
    · intro _ hDollar _
      exact h hDollar
    · exact h
  | braced name =>
    have hRun : ∀ c ∈ name, decide (c ≠ '\x7d') = true := by
      intro c hc
      exact decide_eq_true fun hBrace => h (hBrace ▸ hc)
    have hName : (name ++ '\x7d' :: rest).takeWhile (· ≠ '\x7d') = name :=
      Text.takeWhile_run hRun (by rintro c ⟨⟩; decide)
    show first? ('$' :: '\x7b' :: (name ++ ['\x7d'] ++ rest)) = _
    rw [List.append_assoc, List.singleton_append, first?, if_pos (by simp), hName]
  | bare name =>
    obtain ⟨hName, hStop, hNoBrace⟩ := h
    have hHead : (name ++ rest).head? ≠ some '\x7b' := by
      cases name with
      | nil => exact hNoBrace rfl
      | cons c name =>
        -- a brace is no character of a name
        rintro ⟨⟩
        exact absurd (hName '\x7b' List.mem_cons_self) (by decide)
    show first? ('$' :: (name ++ rest)) = _
    rw [first?_dollar hHead, Text.takeWhile_run hName hStop]
  | unclosed name =>
    obtain ⟨hOpen, rfl⟩ := h
    show first? ('$' :: '\x7b' :: (name ++ [])) = _
    rw [List.append_nil, first?, if_neg hOpen]

namespace Reading

variable {cs : List Char} {ps qs : List Part}

/-- The first part of a reading is the part at the front of the text. -/
theorem head?_eq (h : Reading cs ps) : ps.head? = first? cs := by
  rw [← h.text]
  cases ps with
  | nil => rfl
  | cons p ps => exact (first?_written h.fits.1).symm

theorem tail {p : Part} (h : Reading cs (p :: ps)) : Reading (cs.drop p.written.length) ps := by
  refine ⟨?_, h.fits.2⟩
  rw [← h.text]
  exact List.drop_left.symm

/-- There is one way to read a text: its first part is settled, and so is what is left. -/
theorem unique (hp : Reading cs ps) (hq : Reading cs qs) : ps = qs := by
  induction ps generalizing cs qs with
  | nil =>
    have hHead : qs.head? = none := hq.head?_eq.trans hp.head?_eq.symm
    exact (List.head?_eq_none_iff.mp hHead).symm
  | cons p ps ih =>
    have hHead : qs.head? = some p := hq.head?_eq.trans hp.head?_eq.symm
    obtain ⟨qs, rfl⟩ := List.head?_eq_some_iff.mp hHead
    rw [ih hp.tail hq.tail]

theorem pieces_eq (h : Reading cs ps) : pieces cs = ps.map piece := by
  obtain ⟨qs, hReading, hPieces⟩ := exists_reading cs
  rw [hPieces, hReading.unique h]

end Reading

/-! ## One text behind another -/

/-- The text neither opens a brace nor makes a name longer that it stands behind. -/
def Apart (cs : List Char) : Prop :=
  ∀ c ∈ cs.head?, c ≠ '\x7b' ∧ c ≠ '_' ∧ Text.isAlphanumeric c = false

/-- A text that stands apart does not start with a character of names. -/
theorem Apart.isNamePart_eq_false {cs : List Char} (h : Apart cs) {c : Char}
    (hc : c ∈ cs.head?) : isNamePart c = false := by
  obtain ⟨-, hUnderscore, hLetter⟩ := h c hc
  rw [isNamePart, hLetter, Bool.false_or, beq_eq_false_iff_ne]
  exact hUnderscore

/-- A part stays as it is when a text follows that stands apart, unless it still waits for
its closing brace. -/
theorem Fits.append {p : Part} {rest behind : List Char} (h : p.Fits rest)
    (hClosed : ∀ name, p ≠ .unclosed name) (hApart : Apart behind) : p.Fits (rest ++ behind) := by
  cases p with
  | other c => exact h
  | braced name => exact h
  | bare name =>
    obtain ⟨hName, hStop, hNoBrace⟩ := h
    cases rest with
    | nil =>
      -- only here the part can see what is put behind it
      refine ⟨hName, ?_, ?_⟩
      · intro c hc
        exact hApart.isNamePart_eq_false hc
      · intro _ hBrace
        exact (hApart _ hBrace).1 rfl
    | cons c rest => exact ⟨hName, hStop, hNoBrace⟩
  | unclosed name => exact absurd rfl (hClosed name)

theorem writtenAll_append (ps qs : List Part) :
    writtenAll (ps ++ qs) = writtenAll ps ++ writtenAll qs :=
  List.flatMap_append

/-- Parts that fit go on fitting in front of parts that stand apart, unless a brace is missing. -/
theorem Fitting.append {ps qs : List Part} (hp : Fitting ps)
    (hClosed : ∀ p ∈ ps, ∀ name, p ≠ .unclosed name) (hq : Fitting qs)
    (hApart : Apart (writtenAll qs)) : Fitting (ps ++ qs) := by
  -- on the parts in front: each of them has more text behind it now
  induction ps with
  | nil => exact hq
  | cons p ps ih =>
    have hClosedRest : ∀ q ∈ ps, ∀ name, q ≠ .unclosed name := by
      intro q hq
      exact hClosed q (List.mem_cons_of_mem _ hq)
    refine ⟨?_, ih hp.2 hClosedRest⟩
    show p.Fits (writtenAll (ps ++ qs))
    rw [writtenAll_append]
    exact hp.1.append (hClosed p List.mem_cons_self) hApart

/-- Two texts, the second apart from the first, are read as the parts of both. -/
theorem Reading.append {cs ds : List Char} {ps qs : List Part} (hp : Reading cs ps)
    (hClosed : ∀ p ∈ ps, ∀ name, p ≠ .unclosed name) (hq : Reading ds qs) (hApart : Apart ds) :
    Reading (cs ++ ds) (ps ++ qs) := by
  refine ⟨?_, hp.fits.append hClosed hq.fits (hq.text ▸ hApart)⟩
  rw [writtenAll_append, hp.text, hq.text]

/-! ## What a part is replaced by -/

/-- The variable that a part names. -/
def named? : Part → Option String
  | braced name | bare name => if name.isEmpty then none else some (String.ofList name)
  | other _ | unclosed _ => none

/-- What a part is replaced by, or why it cannot be. -/
def outcome (env : String → Option String) : Part → Except SettingsError String
  | other c => .ok c.toString
  | braced name | bare name =>
    if name.isEmpty then .ok "$"
    else
      match env (String.ofList name) with
      | some value => .ok value
      | none => .error (.missingVariable (String.ofList name))
  | unclosed name => .error (.unterminatedReference (String.ofList name))

/-- The closing brace is missing, or the variable is not set. -/
def Faulty (env : String → Option String) (p : Part) : Prop :=
  (∃ name, p = .unclosed name) ∨ ∃ name ∈ p.named?, env name = none

variable {env env' : String → Option String} {p : Part}

/-- A part that names a variable is replaced by its value, if it has one. -/
theorem outcome_of_named {name : String} (h : p.named? = some name) :
    p.outcome env = (env name).elim (.error (.missingVariable name)) .ok := by
  cases p with
  | other c => cases h
  | unclosed name => cases h
  | braced name | bare name =>
    cases name with
    | nil => cases h
    | cons c name =>
      obtain rfl := Option.some.inj h
      simp only [outcome, List.isEmpty_cons, Bool.false_eq_true, if_false]
      cases env (String.ofList (c :: name)) with
      | none => rfl
      | some value => rfl

/-- What a part without a name is replaced by does not depend on the environment. -/
theorem outcome_of_unnamed (h : p.named? = none) : p.outcome env' = p.outcome env := by
  cases p with
  | other c => rfl
  | unclosed name => rfl
  | braced name | bare name =>
    cases name with
    | nil => rfl
    | cons c name => cases h

/-- What a part is replaced by depends on the variable it names only. -/
theorem outcome_congr (h : ∀ name ∈ p.named?, env' name = env name) :
    p.outcome env' = p.outcome env := by
  cases hNamed : p.named? with
  | none => exact outcome_of_unnamed hNamed
  | some name => rw [outcome_of_named hNamed, outcome_of_named hNamed, h name hNamed]

/-- Only a faulty part cannot be replaced. -/
theorem not_faulty_iff : ¬ p.Faulty env ↔ ∃ text, p.outcome env = .ok text := by
  cases p with
  | other c =>
    refine iff_of_true ?_ ⟨_, rfl⟩
    rintro (⟨name, ⟨⟩⟩ | ⟨name, ⟨⟩, -⟩)
  | unclosed name =>
    refine iff_of_false (fun h => h (.inl ⟨name, rfl⟩)) ?_
    rintro ⟨text, ⟨⟩⟩
  | braced name | bare name =>
    cases name with
    | nil =>
      -- an empty name stands for the dollar sign, which needs no variable
      refine iff_of_true ?_ ⟨"$", rfl⟩
      rintro (⟨name, ⟨⟩⟩ | ⟨name, ⟨⟩, -⟩)
    | cons c name =>
      rw [outcome_of_named rfl]
      cases hValue : env (String.ofList (c :: name)) with
      | none =>
        refine iff_of_false (fun h => h (.inr ⟨_, rfl, hValue⟩)) ?_
        rintro ⟨text, ⟨⟩⟩
      | some value =>
        refine iff_of_true ?_ ⟨value, rfl⟩
        rintro (⟨name, ⟨⟩⟩ | ⟨key, ⟨⟩, hUnset⟩)
        rw [hValue] at hUnset
        cases hUnset

/-- Nothing is wrong with parts that are all replaced by texts. -/
theorem not_faulty_of_texts {ps : List Part} {texts : List String}
    (h : List.Forall₂ (fun p text => p.outcome env = .ok text) ps texts) :
    ∀ p ∈ ps, ¬ p.Faulty env := by
  induction h with
  | nil => exact List.forall_mem_nil _
  | cons hText _ ih => exact List.forall_mem_cons.mpr ⟨not_faulty_iff.mpr ⟨_, hText⟩, ih⟩

/-- Either there is a text for every part, or there is a first part without one. -/
theorem texts_or_fault (env : String → Option String) (ps : List Part) :
    (∃ texts, List.Forall₂ (fun p text => p.outcome env = .ok text) ps texts) ∨
      ∃ before p after e, ps = before ++ p :: after ∧
        (∀ q ∈ before, ¬ q.Faulty env) ∧ p.outcome env = .error e := by
  -- on the parts: the first one without a text ends it
  induction ps with
  | nil => exact .inl ⟨[], .nil⟩
  | cons p ps ih =>
    cases hOutcome : p.outcome env with
    | error e => exact .inr ⟨[], p, ps, e, rfl, List.forall_mem_nil _, hOutcome⟩
    | ok text =>
      rcases ih with ⟨texts, hTexts⟩ | ⟨before, q, after, e, rfl, hBefore, hFault⟩
      · exact .inl ⟨text :: texts, .cons hOutcome hTexts⟩
      · exact .inr ⟨p :: before, q, after, e, rfl,
          List.forall_mem_cons.mpr ⟨not_faulty_iff.mpr ⟨text, hOutcome⟩, hBefore⟩, hFault⟩

end Part

/-! ## The pass over all parts -/

section
variable {env env' : String → Option String}

/-- A reference is resolved to the value of its variable, if it has one. -/
theorem resolve_reference (name : String) :
    Id.run (resolve env (.reference name)) =
      (env name).elim (.error (.missingVariable name)) .ok := by
  cases hValue : env name with
  | none =>
    simp only [resolve, hValue]
    rfl
  | some value =>
    simp only [resolve, hValue]
    rfl

/-- A piece is resolved to what its part is replaced by. -/
theorem resolve_piece (p : Part) : Id.run (resolve env p.piece) = p.outcome env := by
  cases p with
  | other c => rfl
  | unclosed name => rfl
  | braced name | bare name =>
    cases name with
    | nil => rfl
    | cons c name =>
      rw [Part.outcome_of_named rfl, ← resolve_reference]
      rfl

/-- One step of the pass: the text for the piece, or its error and no further step. -/
theorem resolveAll_cons (x : Piece) (xs : List Piece) :
    Id.run (resolveAll env (x :: xs)) =
      (Id.run (resolve env x)).bind fun text =>
        (Id.run (resolveAll env xs)).map (text ++ ·) := by
  rw [resolveAll, Id.run_bind]
  -- what comes behind an error is not looked at
  cases Id.run (resolve env x) with
  | error e => rfl
  | ok text =>
    show Id.run (resolveAll env xs >>= _) = _
    rw [Id.run_bind]
    cases Id.run (resolveAll env xs) with
    | error e => rfl
    | ok rest => rfl

/-- The pieces of two texts are resolved one after the other, and the first error ends it. -/
theorem resolveAll_append (xs ys : List Piece) :
    Id.run (resolveAll env (xs ++ ys)) =
      (Id.run (resolveAll env xs)).bind fun text =>
        (Id.run (resolveAll env ys)).map (text ++ ·) := by
  -- on the first text: an error in it comes before any in the second
  induction xs with
  | nil =>
    show Id.run (resolveAll env ys) = (Id.run (resolveAll env ys)).map ("" ++ ·)
    cases Id.run (resolveAll env ys) with
    | error e => rfl
    | ok rest => exact congrArg Except.ok String.empty_append.symm
  | cons x xs ih =>
    rw [List.cons_append, resolveAll_cons, resolveAll_cons, ih]
    cases Id.run (resolve env x) with
    | error e => rfl
    | ok first =>
      cases Id.run (resolveAll env xs) with
      | error e => rfl
      | ok text =>
        cases Id.run (resolveAll env ys) with
        | error e => rfl
        | ok rest => exact congrArg Except.ok String.append_assoc.symm

/-- If all parts are replaced by texts, the result is these texts, joined. -/
theorem resolveAll_of_texts {ps : List Part} {texts : List String}
    (h : List.Forall₂ (fun p text => p.outcome env = .ok text) ps texts) :
    Id.run (resolveAll env (ps.map Part.piece)) = .ok (String.join texts) := by
  induction h with
  | nil => rfl
  | cons hText _ ih =>
    rw [List.map_cons, resolveAll_cons, resolve_piece, hText, ih, String.join_cons]
    rfl

/-- The first part with something wrong decides the error. -/
theorem resolveAll_of_fault {before after : List Part} {p : Part} {e : SettingsError}
    (hBefore : ∀ q ∈ before, ¬ q.Faulty env) (hFault : p.outcome env = .error e) :
    Id.run (resolveAll env ((before ++ p :: after).map Part.piece)) = .error e := by
  -- on the parts before it, which all have a text
  induction before with
  | nil =>
    rw [List.nil_append, List.map_cons, resolveAll_cons, resolve_piece, hFault]
    rfl
  | cons q before ih =>
    obtain ⟨text, hText⟩ := Part.not_faulty_iff.mp (hBefore q List.mem_cons_self)
    rw [List.cons_append, List.map_cons, resolveAll_cons, resolve_piece, hText,
      ih fun q hq => hBefore q (List.mem_cons_of_mem _ hq)]
    rfl

/-- The result depends on the variables that are named only. -/
theorem resolveAll_congr {ps : List Part}
    (h : ∀ name ∈ ps.filterMap Part.named?, env' name = env name) :
    Id.run (resolveAll env' (ps.map Part.piece)) = Id.run (resolveAll env (ps.map Part.piece)) := by
  induction ps with
  | nil => rfl
  | cons p ps ih =>
    have hFirst : p.outcome env' = p.outcome env := by
      apply Part.outcome_congr
      intro name hName
      exact h name (List.mem_filterMap.mpr ⟨p, List.mem_cons_self, hName⟩)
    have hRest : ∀ name ∈ ps.filterMap Part.named?, env' name = env name := by
      intro name hName
      exact h name (((List.sublist_cons_self p ps).filterMap _).subset hName)
    rw [List.map_cons, resolveAll_cons, resolveAll_cons, resolve_piece, resolve_piece, hFirst,
      ih hRest]

end

/-! ## Whole texts -/

section
variable {env : String → Option String} {source : String} {parts : List Part}

theorem expandIn_of_reading (h : Part.Reading source.toList parts) :
    expandIn env source = Id.run (resolveAll env (parts.map Part.piece)) := by
  rw [← h.pieces_eq]
  rfl

/-- A text is expanded to the texts of all its parts, joined, and to nothing else. -/
theorem expandIn_eq_ok_iff (h : Part.Reading source.toList parts) {value : String} :
    expandIn env source = .ok value ↔
      ∃ texts, List.Forall₂ (fun p text => p.outcome env = .ok text) parts texts ∧
        String.join texts = value := by
  rw [expandIn_of_reading h]
  constructor
  · intro hValue
    -- if a part had no text, the result would be its error
    rcases Part.texts_or_fault env parts with
      ⟨texts, hTexts⟩ | ⟨before, p, after, e, rfl, hBefore, hFault⟩
    · rw [resolveAll_of_texts hTexts] at hValue
      exact ⟨texts, hTexts, Except.ok.inj hValue⟩
    · rw [resolveAll_of_fault hBefore hFault] at hValue
      cases hValue
  · rintro ⟨texts, hTexts, rfl⟩
    exact resolveAll_of_texts hTexts

/-- The error is the one of the first part that has one. -/
theorem expandIn_eq_error_iff (h : Part.Reading source.toList parts) {e : SettingsError} :
    expandIn env source = .error e ↔
      ∃ before p after, parts = before ++ p :: after ∧
        (∀ q ∈ before, ¬ q.Faulty env) ∧ p.outcome env = .error e := by
  rw [expandIn_of_reading h]
  constructor
  · intro hError
    -- if all parts had texts, there would be no error
    rcases Part.texts_or_fault env parts with
      ⟨texts, hTexts⟩ | ⟨before, p, after, e', rfl, hBefore, hFault⟩
    · rw [resolveAll_of_texts hTexts] at hError
      cases hError
    · rw [resolveAll_of_fault hBefore hFault] at hError
      exact ⟨before, p, after, rfl, hBefore, hFault.trans hError⟩
  · rintro ⟨before, p, after, rfl, hBefore, hFault⟩
    exact resolveAll_of_fault hBefore hFault

/-- A text cannot be expanded exactly if something is wrong with a part of it. -/
theorem expandIn_isError_iff (h : Part.Reading source.toList parts) :
    (∃ e, expandIn env source = .error e) ↔ ∃ p ∈ parts, p.Faulty env := by
  constructor
  · rintro ⟨e, hError⟩
    obtain ⟨before, p, after, rfl, -, hFault⟩ := (expandIn_eq_error_iff h).mp hError
    refine ⟨p, List.mem_append_right _ List.mem_cons_self, by_contra fun hNot => ?_⟩
    obtain ⟨text, hText⟩ := Part.not_faulty_iff.mp hNot
    cases hFault.symm.trans hText
  · rintro ⟨p, hp, hFaulty⟩
    cases hResult : expandIn env source with
    | error e => exact ⟨e, rfl⟩
    | ok value =>
      obtain ⟨texts, hTexts, -⟩ := (expandIn_eq_ok_iff h).mp hResult
      exact absurd hFaulty (Part.not_faulty_of_texts hTexts p hp)

theorem expandIn_congr {env' : String → Option String} (h : Part.Reading source.toList parts)
    (hSame : ∀ name ∈ parts.filterMap Part.named?, env' name = env name) :
    expandIn env' source = expandIn env source := by
  rw [expandIn_of_reading h, expandIn_of_reading h, resolveAll_congr hSame]

/-- A text behind another, apart from it, is expanded on its own. -/
theorem expandIn_append {value rest : String} (h : expandIn env source = .ok value)
    (hApart : Part.Apart rest.toList) :
    expandIn env (source ++ rest) = (expandIn env rest).map (value ++ ·) := by
  obtain ⟨ps, hSource, -⟩ := exists_reading source.toList
  obtain ⟨qs, hRest, -⟩ := exists_reading rest.toList
  obtain ⟨texts, hTexts, -⟩ := (expandIn_eq_ok_iff hSource).mp h
  -- a text that can be expanded waits for no brace
  have hClosed : ∀ p ∈ ps, ∀ name, p ≠ .unclosed name := by
    intro p hp name hOpen
    exact Part.not_faulty_of_texts hTexts p hp (.inl ⟨name, hOpen⟩)
  have hBoth : Part.Reading (source ++ rest).toList (ps ++ qs) := by
    rw [String.toList_append]
    exact hSource.append hClosed hRest hApart
  rw [expandIn_of_reading hBoth, List.map_append, resolveAll_append,
    ← expandIn_of_reading hSource, ← expandIn_of_reading hRest, h]
  rfl

end

/-- Expansion is one pass over the parts of a text, and there is one way to read a text as
parts. It copies the texts for the parts, and it fails with the error of the first faulty
part and only if there is one. What is not named in the text does not matter, and a text
that joins nothing to what stands before it can be expanded on its own. -/
theorem expand_one_pass (env : String → Option String) (source : String) :
    ∃ parts, Part.Reading source.toList parts ∧
      (∀ others, Part.Reading source.toList others → others = parts) ∧
      (∀ value, expandIn env source = .ok value ↔
        ∃ texts, List.Forall₂ (fun p text => p.outcome env = .ok text) parts texts ∧
          String.join texts = value) ∧
      ((∃ e, expandIn env source = .error e) ↔ ∃ p ∈ parts, p.Faulty env) ∧
      (∀ e, expandIn env source = .error e ↔
        ∃ before p after, parts = before ++ p :: after ∧
          (∀ q ∈ before, ¬ q.Faulty env) ∧ p.outcome env = .error e) ∧
      (∀ env', (∀ name ∈ parts.filterMap Part.named?, env' name = env name) →
        expandIn env' source = expandIn env source) ∧
      ∀ value rest, expandIn env source = .ok value → Part.Apart rest.toList →
        expandIn env (source ++ rest) = (expandIn env rest).map (value ++ ·) := by
  obtain ⟨parts, hParts, -⟩ := exists_reading source.toList
  refine ⟨parts, hParts, ?_, ?_, expandIn_isError_iff hParts, ?_, ?_, ?_⟩
  · exact fun others hOthers => hOthers.unique hParts
  · exact fun value => expandIn_eq_ok_iff hParts
  · exact fun e => expandIn_eq_error_iff hParts
  · exact fun env' hSame => expandIn_congr hParts hSame
  · exact fun value rest hValue hApart => expandIn_append hValue hApart

/-- Values with dollar signs and braces in them, and one that is empty. -/
def tangledEnvironment (name : String) : Option String :=
  if name = "A B" then some "$C"
  else if name = "_x1" then some "$\x7b"
  else if name = "C" then some ""
  else none

/-- References that touch each other, with empty names between them and one at the end. -/
def tangledParts : List Part :=
  [.braced "A B".toList, .other '/', .bare "_x1".toList, .other '\x7b', .bare [], .braced [],
    .bare "C".toList]

/-- The text of these parts. -/
def tangledPath : String := "$\x7bA B\x7d/$_x1\x7b$$\x7b\x7d$C"

theorem tangledPath_expanded :
    Part.Reading tangledPath.toList tangledParts ∧
      expandIn tangledEnvironment tangledPath = .ok "$C/$\x7b\x7b$$" ∧
      expandIn (fun name => if name = "D" then some "" else tangledEnvironment name) tangledPath =
        .ok "$C/$\x7b\x7b$$" ∧
      expandIn tangledEnvironment (tangledPath ++ "-$D") = .error (.missingVariable "D") := by
  have hReading : Part.Reading tangledPath.toList tangledParts := ⟨by decide, by decide⟩
  obtain ⟨parts, -, hOnly, hOk, -, -, hLocal, hAppend⟩ :=
    expand_one_pass tangledEnvironment tangledPath
  obtain rfl := hOnly tangledParts hReading
  have hValue : expandIn tangledEnvironment tangledPath = .ok "$C/$\x7b\x7b$$" := by
    refine (hOk _).mpr ⟨["$C", "/", "$\x7b", "\x7b", "$", "$", ""], ?_, by decide⟩
    repeat' constructor
  have hUnset : expandIn tangledEnvironment "-$D" = .error (.missingVariable "D") := by
    obtain ⟨rest, -, hOnlyRest, -, -, hFirst, -⟩ := expand_one_pass tangledEnvironment "-$D"
    obtain rfl := hOnlyRest [.other '-', .bare ['D']] ⟨by decide, by decide⟩
    refine (hFirst _).mpr ⟨[.other '-'], .bare ['D'], [], rfl, ?_, rfl⟩
    exact List.forall_mem_singleton.mpr (Part.not_faulty_iff.mpr ⟨_, rfl⟩)
  have hApart : Part.Apart "-$D".toList := by
    rintro c ⟨⟩
    decide
  refine ⟨hReading, hValue, (hLocal _ (by decide)).trans hValue, ?_⟩
  rw [hAppend _ _ hValue hApart, hUnset]
  rfl

end AnnotationQuery.Settings
