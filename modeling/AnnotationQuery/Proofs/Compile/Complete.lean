import AnnotationQuery.Proofs.Compile.Operand

/-!
# Compiled pieces are complete in themselves

The compiler puts texts together without looking at them again. What makes this
safe is that each piece it writes closes every quote and every parenthesis that it
opens, and none that it did not: nothing a query says can reach over the end of its
own condition or sort key. Nor is there a placeholder in any of it. This goes for what is
written for a rejected query too.

Main result: `pieces_selfContained`.
-/

namespace AnnotationQuery

open Sql

namespace Context

variable {cx : Context}

/-- What is written for a condition lets nothing out of its quotes and parentheses. -/
theorem condition_sealed (hSchema : cx.schema.Quotable) {e : Expr} (h : e.isWritable = true) :
    Sealed (cx.condition e).value := by
  -- connectives, `NOT` and comparisons put sealed texts around sealed texts
  induction e with
  | operand s o => exact (scalar_term hSchema h).sealed
  | malformed s => exact term_noValue.sealed
  | group s inner ih => exact (ih h).parens
  | not s inner ih =>
    rw [condition_not]
    refine (sealed_ofList rfl : Sealed "NOT ").append ?_
    split
    · exact ih h
    · exact (ih h).parens
  | and s lhs rhs ihl ihr =>
    rw [Expr.isWritable, Bool.and_eq_true] at h
    exact ((ihl h.1).append (sealed_ofList rfl : Sealed " AND ")).append (ihr h.2)
  | or s lhs rhs ihl ihr =>
    rw [Expr.isWritable, Bool.and_eq_true] at h
    exact ((ihl h.1).append (sealed_ofList rfl : Sealed " OR ")).append (ihr h.2)
  | compare s lhs op rhs =>
    rw [Expr.isWritable, Bool.and_eq_true] at h
    rw [condition_compare]
    have hLeft := (scalar_term hSchema h.1).sealed
    have hRight := (rightSide_term hSchema op.value h.2).sealed
    exact (hLeft.append (sealed_comparison op.value)).append hRight

theorem condition_complete (hSchema : cx.schema.Quotable) {e : Expr} (h : e.isWritable = true) :
    Complete (cx.condition e).value :=
  (condition_sealed hSchema h).toComplete

/-- What is written for a filter lets nothing out, whatever its text. -/
theorem filter_sealed (hSchema : cx.schema.Quotable) (source : String) :
    Sealed (cx.filter source).value.sql := by
  show Sealed (cx.filterOf (Parse.filter source).output.join).value.sql
  cases hOutput : (Parse.filter source).output.join with
  | none => exact sealed_empty
  | some e =>
    obtain ⟨k, hSound⟩ := Parse.filter_output_sound (Option.join_eq_some_iff.mp hOutput)
    exact condition_sealed hSchema hSound.writable

theorem filter_complete (hSchema : cx.schema.Quotable) (source : String) :
    Complete (cx.filter source).value.sql :=
  (filter_sealed hSchema source).toComplete

/-- What is written for a sort key lets nothing out. -/
theorem orderTerm_sealed (hSchema : cx.schema.Quotable) {t : OrderTerm}
    (h : t.operand.value.isWritable = true) : Sealed (cx.orderTerm t).value := by
  have hKey := (scalar_term hSchema h).sealed
  show Sealed (if t.descending then (cx.scalar t.operand).value ++ " DESC"
    else (cx.scalar t.operand).value)
  split
  · exact hKey.append (sealed_ofList rfl)
  · exact hKey

/-- Every sort key that is written lets nothing out, also the one that stands in for a blank list.
-/
theorem order_sealed (hSchema : cx.schema.Quotable) {source : Option String} {key : String}
    (h : key ∈ (cx.order source).value) : Sealed key := by
  unfold order at h
  split at h
  · -- without an order list, the rows are sorted by their id
    rw [List.mem_singleton.mp h]
    exact cx.root.term_idColumn.sealed
  · next s hs =>
    simp only [orderOf, Draft.value_mapM] at h
    obtain ⟨t, ht, rfl⟩ := List.mem_map.mp h
    -- what could be read is compiled, also if there are complaints
    cases hOutput : (Parse.order s).output with
    | none =>
      rw [hOutput] at ht
      cases ht
    | some terms =>
      rw [hOutput] at ht
      exact orderTerm_sealed hSchema (Parse.order_output_writable hOutput t ht)

theorem order_complete (hSchema : cx.schema.Quotable) {source : Option String} {key : String}
    (h : key ∈ (cx.order source).value) : Complete key :=
  (order_sealed hSchema h).toComplete

end Context

/-- **Compiled pieces are self-contained.** With a schema that was built, the condition and every
sort key that are written for any texts at all close just the quotes and parentheses that they
open. A fragment for a stored layer is a bare column or has one pair of parentheses around all of
it, and the second whenever it stands for a set. -/
theorem pieces_selfContained {declared : List Layer} {roles : Roles} {schema : Schema}
    (hBuild : Schema.build declared roles = .ok schema) (root : Root) :
    (∀ source, Complete (Context.filter ⟨schema, root, .filter⟩ source).value.sql) ∧
    (∀ source, ∀ key ∈ (Context.order ⟨schema, root, .order⟩ source).value, Complete key) ∧
    (∀ id category function sql, schema.category? id = some category →
      category.fragment? root function = some sql →
        (isQualifiedColumn sql = true ∨ isEnclosed sql = true) ∧
        (function.isSet = true → isEnclosed sql = true)) := by
  have hSchema := Schema.quotable_of_build hBuild
  refine ⟨Context.filter_complete hSchema, fun _ _ => Context.order_complete hSchema, ?_⟩
  intro id category function sql hCategory hFragment
  have hShape := Category.fragment?_shaped (fun a => hSchema id category a hCategory) hFragment
  -- a column is one value, so it is never the answer where a set is asked for
  rcases hShape with ⟨hColumn, hScalar⟩ | hParens
  · refine ⟨Or.inl hColumn, fun hSet => ?_⟩
    rw [hScalar] at hSet
    cases hSet
  · exact ⟨Or.inr hParens.isEnclosed, fun _ => hParens.isEnclosed⟩

theorem awkwardName_selfContained :
    Schema.build [awkwardLayer] {} = .ok awkwardSchema ∧
      Complete (Context.filter ⟨awkwardSchema, .transcript, .filter⟩
        "'\\'' IN labels('transcript_x') OR NOT id = \"(\"").value.sql ∧
      ∃ sql, (Category.transcriptAttribute "a\\') OR ('b\\\\").fragment? .transcript .labels =
          some sql ∧ isEnclosed sql = true := by
  obtain ⟨hFilter, -, hFragment⟩ := pieces_selfContained build_awkwardLayer .transcript
  obtain ⟨-, hSet⟩ := hFragment "transcript_x" _ .labels _ rfl rfl
  exact ⟨build_awkwardLayer, hFilter _, _, rfl, hSet rfl⟩

end AnnotationQuery
