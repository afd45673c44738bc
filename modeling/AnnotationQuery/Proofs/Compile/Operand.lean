import AnnotationQuery.Compile
import AnnotationQuery.Proofs.Parse.Filter
import AnnotationQuery.Proofs.Storage.Fragment
import Mathlib.Data.List.TakeDrop

/-!
# What is written for an operand

Wherever an operand stands, what is written for it is one *term*: a word, a quoted
text, or a sealed text in parentheses. A stand-in for a refused operand is one
too, so the shape of what is compiled does not depend on whether it is admissible.
Words are columns, numbers and `NULL`; none has a capital `A` or `O` in it, with
which the connectives start, or a placeholder.

Two things have to be known for this: that the attribute names of the schema can be
quoted (`Schema.Quotable`), and that the literals of the tree can be written
(`Operand.isWritable`). The first is what building a schema checks, the second is
what the parser gives.

Main results:

* `scalar_term`, `rightSide_term` — each position of an operand.
-/

namespace AnnotationQuery

open Sql

/-! ## Drafts -/

namespace Draft

variable {α β : Type}

@[simp] theorem value_pure (a : α) : (pure a : Draft α).value = a := rfl

@[simp] theorem faults_pure (a : α) : (pure a : Draft α).faults = [] := rfl

@[simp] theorem value_bind (d : Draft α) (f : α → Draft β) :
    (d >>= f).value = (f d.value).value := rfl

@[simp] theorem faults_bind (d : Draft α) (f : α → Draft β) :
    (d >>= f).faults = d.faults ++ (f d.value).faults := rfl

instance : LawfulMonad Draft :=
  LawfulMonad.mk' Draft
    (fun d => by
      show Draft.mk d.value (d.faults ++ []) = d
      rw [List.append_nil])
    (fun _ _ => rfl)
    (fun d f g => by
      have h := List.append_assoc d.faults (f d.value).faults (g (f d.value).value).faults
      exact congrArg (Draft.mk (g (f d.value).value).value) h)

/-- What is written for a list is what is written for its items. -/
theorem value_mapM (f : α → Draft β) (xs : List α) :
    (xs.mapM f).value = xs.map fun x => (f x).value := by
  induction xs with
  | nil => rfl
  | cons x xs ih =>
    rw [List.mapM_cons, List.map_cons, ← ih]
    rfl

/-- The faults of a list are those of its items, one after the other. -/
theorem faults_mapM (f : α → Draft β) (xs : List α) :
    (xs.mapM f).faults = xs.flatMap fun x => (f x).faults := by
  induction xs with
  | nil => rfl
  | cons x xs ih =>
    rw [List.mapM_cons, List.flatMap_cons, ← ih, faults_bind, faults_bind, faults_pure,
      List.append_nil]

end Draft

/-! ## Terms -/

namespace Sql

/-- Whether a character can stand in a word. -/
def isWordChar (c : Char) : Bool :=
  isPlain c && !Text.isBlank c && c != 'A' && c != 'O' && c != '?'

/-- What stands for one value or for one set of values. -/
inductive Term : String → Prop
  | word {sql : String} (hSome : sql.toList ≠ [])
      (hChars : ∀ c ∈ sql.toList, isWordChar c = true) : Term sql
  | quoted {value : String} (hValue : Text.isQuotable value = true) : Term (Text.quote value)
  | parenthesized {sql : String} (hParens : Enclosure sql) : Term sql

theorem isPlain_of_isWordChar {c : Char} (h : isWordChar c = true) : isPlain c = true := by
  simp only [isWordChar, Bool.and_eq_true] at h
  exact h.1.1.1.1

/-- A term lets nothing out of its quotes and parentheses, and has no question mark outside. -/
theorem Term.sealed {sql : String} (h : Term sql) : Sealed sql := by
  cases h with
  | word hSome hChars =>
    refine sealed_of_plain (fun c hc => isPlain_of_isWordChar (hChars c hc)) fun hMark => ?_
    cases hChars _ hMark
  | quoted hValue => exact Text.sealed_quote hValue
  | parenthesized hParens => exact hParens.sealed

theorem Term.complete {sql : String} (h : Term sql) : Complete sql :=
  h.sealed.toComplete

/-- A word whose characters pass the test is a term. -/
theorem term_ofList {cs : List Char} (h : (!cs.isEmpty && cs.all isWordChar) = true) :
    Term (String.ofList cs) := by
  rw [Bool.and_eq_true, Bool.not_eq_true', List.all_eq_true] at h
  refine Term.word ?_ ?_
  · rw [String.toList_ofList]
    rintro rfl
    cases h.1
  · rw [String.toList_ofList]
    exact h.2

/-- The characters of names and numbers lie between the minus sign and the letter z. -/
theorem toNat_range {c : Char} (h : (isNameChar c || Token.isNumeric c) = true) :
    45 ≤ c.toNat ∧ c.toNat ≤ 122 := by
  have hLower : c.isLower = true → 97 ≤ c.toNat ∧ c.toNat ≤ 122 := by
    intro hc
    have hBounds : (decide (c.val ≥ 'a'.val) && decide (c.val ≤ 'z'.val)) = true := hc
    rw [Bool.and_eq_true, decide_eq_true_eq, decide_eq_true_eq] at hBounds
    exact ⟨UInt32.le_iff_toNat_le.mp hBounds.1, UInt32.le_iff_toNat_le.mp hBounds.2⟩
  have hDigit : c.isDigit = true → 48 ≤ c.toNat ∧ c.toNat ≤ 57 := by
    intro hc
    have hBounds : (decide (c.val ≥ '0'.val) && decide (c.val ≤ '9'.val)) = true := hc
    rw [Bool.and_eq_true, decide_eq_true_eq, decide_eq_true_eq] at hBounds
    exact ⟨UInt32.le_iff_toNat_le.mp hBounds.1, UInt32.le_iff_toNat_le.mp hBounds.2⟩
  simp only [isNameChar, Token.isNumeric, Bool.or_eq_true, beq_iff_eq] at h
  -- a letter, a digit or an underscore of a name; a digit, a point or a minus of a number
  rcases h with ((h | h) | rfl) | (h | rfl) | rfl
  · have hRange := hLower h
    omega
  · have hRange := hDigit h
    omega
  · decide
  · have hRange := hDigit h
    omega
  · decide
  · decide

/-- A character of a name or a number can stand in a word. -/
theorem isWordChar_of_name_or_number {c : Char}
    (h : (isNameChar c || Token.isNumeric c) = true) : isWordChar c = true := by
  have hPlain : isPlain c = true :=
    isPlain_of_class (p := fun d => isNameChar d || Token.isNumeric d) h (by decide)
  -- names and numbers are in one range of code points, in which there is no blank
  have hBlank : Text.isBlank c = false := by
    have hRange := toNat_range h
    rw [← Bool.not_eq_true]
    intro hb
    simp only [Text.isBlank, Bool.or_eq_true, Bool.and_eq_true, decide_eq_true_eq,
      beq_iff_eq] at hb
    omega
  have hA : c ≠ 'A' := by
    rintro rfl
    cases h
  have hO : c ≠ 'O' := by
    rintro rfl
    cases h
  have hMark : c ≠ '?' := by
    rintro rfl
    cases h
  simp [isWordChar, hPlain, hBlank, hA, hO, hMark]

/-- A column with its table is made of characters of names, with a point between them. -/
theorem chars_of_isQualifiedColumn {sql : String} (h : isQualifiedColumn sql = true) :
    sql.toList ≠ [] ∧ ∀ c ∈ sql.toList, (isNameChar c || Token.isNumeric c) = true := by
  unfold isQualifiedColumn at h
  split at h
  · next table column hSpan =>
    rw [List.span_eq_takeWhile_dropWhile, Prod.mk.injEq] at hSpan
    -- the name of the table, a dot and the name of the column
    have hText : sql.toList = table ++ '.' :: column := by
      rw [← hSpan.1, ← hSpan.2, List.takeWhile_append_dropWhile]
    simp only [isBareName, Bool.and_eq_true, List.all_eq_true] at h
    refine ⟨by rw [hText]; simp, fun c hc => ?_⟩
    rw [hText, List.mem_append, List.mem_cons] at hc
    rcases hc with hc | rfl | hc
    · rw [h.1.2 c hc]; rfl
    · rfl
    · rw [h.2.2 c hc]; rfl
  · cases h

theorem term_of_isQualifiedColumn {sql : String} (h : isQualifiedColumn sql = true) :
    Term sql := by
  obtain ⟨hSome, hChars⟩ := chars_of_isQualifiedColumn h
  exact Term.word hSome fun c hc => isWordChar_of_name_or_number (hChars c hc)

end Sql

/-- A literal that can be written out is a term, quoted if it is a string. -/
theorem Literal.term_text {l : Literal} (h : l.isWritable = true) : Term l.text := by
  cases l with
  | string value => exact Term.quoted h
  | number written =>
    rw [isWritable, Bool.and_eq_true, Bool.not_eq_true', List.all_eq_true] at h
    -- a number is a word: it has characters, and none that quotes or groups
    refine Term.word ?_ fun c hc => isWordChar_of_name_or_number ?_
    · intro hNil
      rw [text] at hNil
      rw [hNil] at h
      cases h.1
    · rw [h.2 c hc, Bool.or_true]

theorem Root.term_idColumn (root : Root) : Term root.idColumn := by
  cases root <;> exact term_ofList rfl

/-! ## Operands in their positions -/

namespace Context

/-- A comparison is its two sides with the operator between them. -/
theorem condition_compare (cx : Context) (s : Span) (lhs : Spanned Operand)
    (op : Spanned Comparison) (rhs : Spanned Comparand) :
    cx.condition (.compare s lhs op rhs) = do
      let l ← cx.scalar lhs
      let r ← cx.rightSide op.value rhs
      return l ++ (" " ++ op.value.sql ++ " ") ++ r := by
  rw [condition]
  simp only [String.append_assoc]

/-- Denying writes one pair of parentheses, and none around a pair that is there. -/
theorem condition_not (cx : Context) (s : Span) (e : Expr) :
    cx.condition (.not s e) = do
      let x ← cx.condition e
      return "NOT " ++ (if e.isGroup then x else "(" ++ x ++ ")") := by
  rw [condition]
  cases e.isGroup with
  | true => rfl
  | false =>
    simp only [Bool.false_eq_true, if_false, ← String.append_assoc]
    rfl

theorem sealed_comparison (op : Comparison) : Sealed (" " ++ op.sql ++ " ") := by
  have hBlank : Sealed " " := sealed_ofList rfl
  have hOp : Sealed op.sql := by cases op <;> exact sealed_ofList rfl
  exact (hBlank.append hOp).append hBlank

theorem term_noValue : Term noValue :=
  term_ofList rfl

theorem term_noSet : Term noSet :=
  Term.parenthesized ⟨"SELECT NULL", sealed_ofList rfl, rfl⟩

/-- Whether a rule writes or refuses, a term stands there. -/
theorem settle_term {cx : Context} {span : Span} {standIn : String} {rule : Except Cause String}
    (hRule : ∀ sql, rule = .ok sql → Term sql) (hStandIn : Term standIn) :
    Term (cx.settle span standIn rule).value := by
  cases rule with
  | ok sql => exact hRule sql rfl
  | error cause => exact hStandIn

variable {cx : Context}

/-- An item of a list is written as a term. -/
theorem itemSql?_term {o : Operand} {sql : String} (hWritable : o.isWritable = true)
    (h : cx.itemSql? o = .ok sql) : Term sql := by
  cases o with
  | literal value => cases h; exact Literal.term_text hWritable
  | _ => cases h

/-- An item of a list lets nothing out. -/
theorem listItem_sealed {o : Spanned Operand} (hWritable : o.value.isWritable = true) :
    Sealed (cx.listItem o).value := by
  have hItem : Term (cx.settle o.span noValue (cx.itemSql? o.value)).value :=
    settle_term (fun _ h => itemSql?_term hWritable h) term_noValue
  exact (sealed_ofList rfl : Sealed " ").append hItem.sealed

variable (hSchema : cx.schema.Quotable)
include hSchema

/-- What is written for a function of a layer has the shape that the function has. -/
theorem layerSql?_shaped {function : LayerFunction} {layerId sql : String}
    (h : cx.layerSql? function layerId = .ok sql) : Storage.Shaped function sql := by
  -- the layer is known, it has a category, and the category has a fragment
  unfold layerSql? at h
  simp only at h
  split at h
  · cases h
  · split at h
    · cases h
    · next c hc =>
      split at h
      · cases h
      · next hFragment =>
        cases h
        exact Category.fragment?_shaped (fun a ha => hSchema _ c a hc ha) hFragment

/-- What is written for a function of a layer is a term. -/
theorem layerSql?_term {function : LayerFunction} {layerId sql : String}
    (h : cx.layerSql? function layerId = .ok sql) : Term sql := by
  rcases layerSql?_shaped hSchema h with hColumn | hParens
  · exact term_of_isQualifiedColumn hColumn.1
  · exact Term.parenthesized hParens

/-- Where one value is needed, what is written is a column, a literal or a subquery. -/
theorem scalarSql?_cases {o : Operand} {sql : String} (hWritable : o.isWritable = true)
    (h : cx.scalarSql? o = .ok sql) :
    isQualifiedColumn sql = true ∨ (∃ l : Literal, l.isWritable = true ∧ sql = l.text) ∨
      Enclosure sql := by
  have hId : isQualifiedColumn cx.root.idColumn = true := by cases cx.root <;> decide
  cases o with
  | id => cases h; exact Or.inl hId
  | label => cases h; exact Or.inl hId
  | ordinal =>
    -- only transcripts have a place among their siblings
    obtain ⟨schema, root, clause⟩ := cx
    cases root with
    | transcript => cases h; exact Or.inl (by decide)
    | participant => cases h
  | layer function layerId =>
    simp only [scalarSql?] at h
    split at h
    · cases h
    · exact (layerSql?_shaped hSchema h).imp And.left Or.inr
  | literal value => cases h; exact Or.inr (Or.inl ⟨value, hWritable, rfl⟩)
  | identifier name => cases h
  | member object part => cases h

/-- What is written for one value is a term. -/
theorem scalarSql?_term {o : Operand} {sql : String} (hWritable : o.isWritable = true)
    (h : cx.scalarSql? o = .ok sql) : Term sql := by
  rcases scalarSql?_cases hSchema hWritable h with hColumn | ⟨l, hl, rfl⟩ | hParens
  · exact term_of_isQualifiedColumn hColumn
  · exact Literal.term_text hl
  · exact Term.parenthesized hParens

/-- What is written for a set is a term. -/
theorem setSql?_term {o : Operand} {sql : String} (h : cx.setSql? o = .ok sql) : Term sql := by
  cases o with
  | layer function layerId =>
    simp only [setSql?] at h
    split at h
    · exact layerSql?_term hSchema h
    · cases h
  | _ => cases h

/-- Where one value is needed a term is written, in case of a fault a stand-in. -/
theorem scalar_term {o : Spanned Operand} (hWritable : o.value.isWritable = true) :
    Term (cx.scalar o).value :=
  settle_term (fun _ h => scalarSql?_term hSchema hWritable h) term_noValue

/-- Where one value is needed on the right a term is written, also for a list. -/
theorem scalarComparand_term {c : Spanned Comparand} (hWritable : c.value.isWritable = true) :
    Term (cx.scalarComparand c).value := by
  obtain ⟨o | items, span⟩ := c
  · exact scalar_term hSchema hWritable
  · exact settle_term (fun _ h => nomatch h) term_noValue

/-- Where a set is needed on the right a term is written, be it an operand or a list. -/
theorem setComparand_term {c : Spanned Comparand} (hWritable : c.value.isWritable = true) :
    Term (cx.setComparand c).value := by
  obtain ⟨o | items, span⟩ := c
  · exact settle_term (fun _ h => setSql?_term hSchema h) term_noSet
  · -- a list is written in parentheses, so its items must let nothing out
    have hItems : ∀ sql ∈ (items.mapM cx.listItem).value, Sealed sql := by
      rw [Draft.value_mapM]
      intro sql hsql
      obtain ⟨o, ho, rfl⟩ := List.mem_map.mp hsql
      exact listItem_sealed (List.all_eq_true.mp hWritable o ho)
    exact Term.parenthesized ⟨_, sealed_intercalate (sealed_ofList rfl) hItems, rfl⟩

/-- The right side of a comparison is written as a term, whatever the comparison needs. -/
theorem rightSide_term (op : Comparison) {c : Spanned Comparand}
    (hWritable : c.value.isWritable = true) : Term (cx.rightSide op c).value := by
  unfold rightSide
  split
  · exact setComparand_term hSchema hWritable
  · exact scalarComparand_term hSchema hWritable

end Context

end AnnotationQuery
