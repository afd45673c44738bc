import AnnotationQuery.Proofs.Compile.Clause
import AnnotationQuery.Proofs.Compile.Complete

/-!
# Placeholders belong to the caller

Literals are written into a statement, so a compiled query has no values for placeholders.
It is executable as it stands just if there are no placeholders either, and those can come
from three places only: the raw parts that the caller wrote. Nothing that is compiled
holds one, and since every compiled piece closes its quotes, none of the caller's
gets lost in a quote that is not the caller's own.

The counts of the parts add up along the statement. The raw parts have to end outside
quotes for that; nothing else is asked of them, and their parentheses may be as they like.

Main result: `placeholders_from_caller`.
-/

namespace AnnotationQuery

open Sql

namespace Sql

/-- The placeholders of a raw part; none if it is not there. -/
def rawPlaceholders (part : Option String) : Nat :=
  part.elim 0 placeholderCount

/-- The part has `n` placeholders and ends outside quotes; one that is not there has none. -/
def HoldsPart : Option String → Nat → Prop
  | none, n => n = 0
  | some sql, n => Holds sql n

/-- A blank text has no placeholders. -/
theorem placeholderCount_of_isBlankText {sql : String} (h : Text.isBlankText sql = true) :
    placeholderCount sql = 0 := by
  refine Scan.marks_of_notMem (fun hMark => ?_) Scan.start
  have hBlank := List.all_eq_true.mp h _ hMark
  revert hBlank
  decide

/-- A raw part has the same placeholders after it is trimmed, or left out if it is blank. -/
theorem holdsPart_nonBlank {part : Option String}
    (h : ∀ sql, part = some sql → endsOutside sql = true) :
    HoldsPart (part.bind Text.nonBlank?) (rawPlaceholders part) := by
  cases part with
  | none => rfl
  | some sql =>
    rw [Option.bind_some, Text.nonBlank?]
    split
    · -- a blank part is left out, and has none that could be lost
      next hBlank => exact placeholderCount_of_isBlankText hBlank
    · exact Holds.trim ⟨h sql rfl, rfl⟩

namespace Clauses

variable {n : Nat}

/-- A clause has the placeholders of its body. -/
theorem holds_clause {introduction : String} {body : Option String}
    (hIntroduction : Sealed introduction) (h : HoldsPart body n) :
    Holds (clause introduction body) n := by
  cases body with
  | none =>
    cases (h : n = 0)
    exact sealed_empty.holds
  | some sql =>
    have hBoth := hIntroduction.holds.append h
    rwa [Nat.zero_add] at hBoth

/-- A filter that is enclosed for `AND` still lets nothing out. -/
theorem sealed_conjunct {filter : Condition} (h : Sealed filter.sql) :
    Sealed (conjunct filter) := by
  unfold conjunct
  split
  · exact h.parens
  · exact h

/-- Parentheses around a raw condition do not matter for what is counted in it. -/
theorem holds_enclose {extra : String} (h : Holds extra n) : Holds (enclose extra) n := by
  unfold enclose
  split
  · exact h
  · have hOpen : Holds "(" 0 := ⟨rfl, rfl⟩
    have hClose : Holds ")" 0 := ⟨rfl, rfl⟩
    have hParens := (hOpen.append h).append hClose
    rwa [Nat.zero_add] at hParens

/-- Of a filter and a raw condition, the placeholders are those of the raw condition. -/
theorem holdsPart_whereBody? {c : Clauses} (hFilter : ∀ f, c.filter = some f → Sealed f.sql)
    (hExtra : HoldsPart c.extraWhere n) : HoldsPart c.whereBody? n := by
  unfold whereBody?
  cases hf : c.filter with
  | none =>
    cases he : c.extraWhere with
    | none =>
      rw [he] at hExtra
      exact hExtra
    | some extra =>
      rw [he] at hExtra
      exact hExtra
  | some f =>
    have hSealed := hFilter f hf
    cases he : c.extraWhere with
    | none =>
      rw [he] at hExtra
      cases (hExtra : n = 0)
      exact hSealed.holds
    | some extra =>
      rw [he] at hExtra
      have hAnd : Sealed " AND " := sealed_ofList rfl
      -- the filter adds nothing: all that is held stems from the extra condition
      have hBoth := ((sealed_conjunct hSealed).append hAnd).holds.append (holds_enclose hExtra)
      rwa [Nat.zero_add] at hBoth

/-- Sort keys that let nothing out bring no placeholders. -/
theorem holdsPart_orderBody? {c : Clauses} (h : ∀ key ∈ c.orderBy, Sealed key) :
    HoldsPart c.orderBody? 0 := by
  unfold orderBody?
  split
  · rfl
  · exact (sealed_intercalate (sealed_ofList rfl) h).holds

end Clauses

end Sql

/-- The placeholders of a statement whose condition and sort keys have none. -/
theorem Request.holds_statement (root : Root) {r : Request} {filter : Condition}
    {keys : List String} (hFilter : Sealed filter.sql) (hKeys : ∀ key ∈ keys, Sealed key)
    (hSelect : endsOutside r.select = true)
    (hExtra : ∀ extra, r.extraWhere = some extra → endsOutside extra = true)
    (hLimit : ∀ limit, r.limit = some limit → endsOutside limit = true) :
    Holds (r.statement root filter keys).sql
      (placeholderCount r.select + rawPlaceholders r.extraWhere + rawPlaceholders r.limit) := by
  let c : Clauses := ({ select := r.select, source := root.table : Clauses }.withFilter
    filter).withExtraWhere r.extraWhere |>.withOrder keys |>.withLimit r.limit
  have hWhere : HoldsPart c.whereBody? (rawPlaceholders r.extraWhere) := by
    refine Clauses.holdsPart_whereBody? (fun f hf => ?_) (holdsPart_nonBlank hExtra)
    -- the filter is the compiled one, unless that is blank
    have hSome : (if Text.isBlankText filter.sql then none else some filter) = some f := hf
    split at hSome
    · cases hSome
    · cases hSome
      exact hFilter
  have hOrder : HoldsPart c.orderBody? 0 := Clauses.holdsPart_orderBody? hKeys
  have hLimited : HoldsPart c.limit (rawPlaceholders r.limit) := holdsPart_nonBlank hLimit
  have hTable : Sealed root.table := by
    cases root with
    | transcript => exact (sealed_ofList rfl : Sealed "transcript")
    | participant => exact (sealed_ofList rfl : Sealed "speaker")
  have hFrom : Sealed (" FROM " ++ root.table) :=
    (sealed_ofList rfl : Sealed " FROM ").append hTable
  have hSelected : Holds ("SELECT " ++ r.select) (0 + placeholderCount r.select) :=
    (sealed_ofList rfl : Sealed "SELECT ").holds.append ⟨hSelect, rfl⟩
  have hWhereClause : Holds (Clauses.clause " WHERE " c.whereBody?) _ :=
    Clauses.holds_clause (sealed_ofList rfl) hWhere
  have hOrderClause : Holds (Clauses.clause " ORDER BY " c.orderBody?) _ :=
    Clauses.holds_clause (sealed_ofList rfl) hOrder
  have hLimitClause : Holds (Clauses.clause " " c.limit) _ :=
    Clauses.holds_clause (sealed_ofList rfl) hLimited
  -- each part ends outside quotes, so the next is read from outside quotes
  have hAll := (((hSelected.append hFrom.holds).append hWhereClause).append hOrderClause).append
    hLimitClause
  have hSql : (r.statement root filter keys).sql = "SELECT " ++ r.select ++
      (" FROM " ++ root.table) ++ Clauses.clause " WHERE " c.whereBody? ++
      Clauses.clause " ORDER BY " c.orderBody? ++ Clauses.clause " " c.limit := by
    rw [← String.append_assoc]
    rfl
  rw [hSql]
  simpa only [Nat.zero_add, Nat.add_zero] using hAll

/-- A text without placeholders has no question mark outside its quotes. -/
theorem Sql.placeholderCount_eq_zero_iff {sql : String} :
    placeholderCount sql = 0 ↔ ∀ p ∈ outside sql, p.1 ≠ '?' :=
  Scan.marks_eq_zero_iff

/-- A raw part brings no placeholders exactly if no question mark stands outside its quotes. -/
theorem Sql.rawPlaceholders_eq_zero_iff {part : Option String} :
    rawPlaceholders part = 0 ↔ ∀ sql, part = some sql → ∀ p ∈ outside sql, p.1 ≠ '?' := by
  cases part with
  | none => exact ⟨fun _ _ h => (nomatch h), fun _ => rfl⟩
  | some sql =>
    constructor
    · rintro hCount _ ⟨⟩
      exact placeholderCount_eq_zero_iff.mp hCount
    · intro h
      exact placeholderCount_eq_zero_iff.mpr (h sql rfl)

/-- **Placeholders belong to the caller.** With a schema that was built, let the raw parts of a
request end outside quotes, each by itself. If the request compiles, the statement has no values for
placeholders, and its placeholders are those of the raw parts, counted part by part. So every
placeholder has a value just if the caller wrote none outside quotes. In what is compiled there
is no question mark outside quotes, whatever the texts and the names in the schema. -/
theorem placeholders_from_caller {declared : List Layer} {roles : Roles} {schema : Schema}
    (hBuild : Schema.build declared roles = .ok schema) (root : Root) {r : Request} {q : Query}
    (hSelect : endsOutside r.select = true)
    (hExtra : ∀ extra, r.extraWhere = some extra → endsOutside extra = true)
    (hLimit : ∀ limit, r.limit = some limit → endsOutside limit = true)
    (hOk : r.compile schema root = .ok q) :
    q.parameters = [] ∧
    q.placeholderCount =
      placeholderCount r.select + rawPlaceholders r.extraWhere + rawPlaceholders r.limit ∧
    (q.isAligned = true ↔ (∀ p ∈ outside r.select, p.1 ≠ '?') ∧
      (∀ extra, r.extraWhere = some extra → ∀ p ∈ outside extra, p.1 ≠ '?') ∧
      (∀ limit, r.limit = some limit → ∀ p ∈ outside limit, p.1 ≠ '?')) ∧
    (∀ p ∈ outside (Context.filter ⟨schema, root, .filter⟩ r.expression).value.sql, p.1 ≠ '?') ∧
    (∀ key ∈ (Context.order ⟨schema, root, .order⟩ r.order).value,
      ∀ p ∈ outside key, p.1 ≠ '?') := by
  have hSchema := Schema.quotable_of_build hBuild
  have hFilter : Sealed (Context.filter ⟨schema, root, .filter⟩ r.expression).value.sql :=
    Context.filter_sealed hSchema _
  have hKeys : ∀ key ∈ (Context.order ⟨schema, root, .order⟩ r.order).value, Sealed key :=
    fun key => Context.order_sealed hSchema
  have hFaultless : (r.compile schema root).isOk = true := by rw [hOk]; rfl
  obtain ⟨hFilterOk, hOrderOk⟩ := Request.compile_isOk_iff.mp hFaultless
  rw [Request.compile_of_faultless hFilterOk hOrderOk, Except.ok.injEq] at hOk
  have hCount := (Request.holds_statement root hFilter hKeys hSelect hExtra hLimit).count
  rw [hOk] at hCount
  have hParameters : q.parameters = [] := by rw [← hOk]; rfl
  refine ⟨hParameters, hCount, ?_, placeholderCount_eq_zero_iff.mp hFilter.unmarked,
    fun key hKey => placeholderCount_eq_zero_iff.mp (hKeys key hKey).unmarked⟩
  -- without values, every placeholder has one only if there is none
  have hAligned : q.isAligned = true ↔ q.placeholderCount = 0 := by
    rw [Query.isAligned, hParameters, beq_iff_eq, List.length_nil]
  rw [hAligned, ← placeholderCount_eq_zero_iff, ← rawPlaceholders_eq_zero_iff,
    ← rawPlaceholders_eq_zero_iff]
  show placeholderCount q.sql = 0 ↔ _
  omega

/-- Question marks in the texts and in the raw parts, some of the latter in quotes, with parentheses
left open and blanks around. -/
def markedRequest : Request :=
  { expression := "'?\\'' IN labels('transcript_x') OR id = \"?'\" OR id IN ('?', -1)"
    select := "?, '?'"
    extraWhere := some " (corpus = ? OR corpus = '\\'?' "
    limit := some " LIMIT ?, ? "
    order := some "'?' DESC, id" }

theorem markedRequest_placeholders :
    (markedRequest.compile awkwardSchema .transcript).isOk = true ∧
      ∃ q, markedRequest.compile awkwardSchema .transcript = .ok q ∧
        q.parameters = [] ∧ q.placeholderCount = 4 ∧ q.isAligned = false := by
  have hOk : (markedRequest.compile awkwardSchema .transcript).isOk = true := by decide +kernel
  refine ⟨hOk, ?_⟩
  cases hCompile : markedRequest.compile awkwardSchema .transcript with
  | error rejection =>
    rw [hCompile] at hOk
    cases hOk
  | ok q =>
    have hExtra : ∀ extra, markedRequest.extraWhere = some extra → endsOutside extra = true := by
      rintro _ ⟨⟩
      decide
    have hLimit : ∀ limit, markedRequest.limit = some limit → endsOutside limit = true := by
      rintro _ ⟨⟩
      decide
    obtain ⟨hParameters, hCount, hAligned, -⟩ := placeholders_from_caller build_awkwardLayer
      .transcript (by decide) hExtra hLimit hCompile
    refine ⟨q, rfl, hParameters, hCount, Bool.eq_false_iff.mpr fun hAll => ?_⟩
    -- the first question mark of the selection stands outside quotes
    exact (hAligned.mp hAll).1 ('?', 0) (by decide) rfl

end AnnotationQuery
