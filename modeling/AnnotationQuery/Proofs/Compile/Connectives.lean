import AnnotationQuery.Proofs.Compile.Complete
import AnnotationQuery.Proofs.Compile.Clause
import AnnotationQuery.Proofs.Sql.Split

/-!
# Connectives are kept

Conditions are written flat: the compiler adds no parentheses around the sides of a
connective. Reading what it wrote therefore has to find the same structure by
precedence alone, `OR` last and `AND` before it. It does, because of the trees that
the parser gives: chains nest to the left, and no side of `AND` is an `OR`. Nothing
inside an operand gets in the way, because all that stands at depth zero in it is a
word, one quote or one parenthesis.

The raw condition of a request is joined to the filter by `AND`. The parentheses
that are put there keep the filter from falling apart, and the raw condition too.

Main results:

* `Context.condition_keepsConnectives` — for one condition.
* `connectives_kept` — for a condition with everything inside its parentheses, and for a
  statement with a raw condition.
-/

namespace AnnotationQuery

open Sql

/-! ## Chains -/

namespace Expr

/-- The members of the chain of `OR` at the top. -/
def disjuncts : Expr → List Expr
  | or _ lhs rhs => lhs.disjuncts ++ [rhs]
  | e => [e]

/-- The members of the chain of `AND` at the top. -/
def conjuncts : Expr → List Expr
  | and _ lhs rhs => lhs.conjuncts ++ [rhs]
  | e => [e]

/-- The condition that `NOT` or a pair of parentheses is written around. -/
def enclosed? : Expr → Option Expr
  | group _ inner => some inner
  | not _ (group _ inner) => some inner
  | not _ inner => some inner
  | _ => none

/-- The conditions inside parentheses or under `NOT`, at any depth. -/
def inside : Expr → List Expr
  | and _ lhs rhs | or _ lhs rhs => lhs.inside ++ rhs.inside
  | group _ inner | not _ inner => inner :: inner.inside
  | operand _ _ | compare _ _ _ _ | malformed _ => []

/-- Literals can be written and chains nest to the left. -/
structure Regular (e : Expr) : Prop where
  writable : e.isWritable = true
  nested   : e.isLeftNested = true

theorem Sound.regular {e : Expr} {k : Nat} (h : e.Sound k) : e.Regular :=
  ⟨h.writable, h.nested⟩

section
variable {s : Span} {a b : Expr}

/-- The sides of `AND` are regular: on the left no `OR`, on the right no connective at all. -/
theorem Regular.sides_of_and (h : (Expr.and s a b).Regular) :
    (a.Regular ∧ a.isDisjunction = false) ∧ b.Regular ∧ b.isUnit = true := by
  have hw := h.writable
  have hn := h.nested
  simp only [isWritable, isLeftNested, Bool.and_eq_true, Bool.not_eq_true'] at hw hn
  exact ⟨⟨⟨hw.1, hn.1.2⟩, hn.1.1.1⟩, ⟨hw.2, hn.2⟩, hn.1.1.2⟩

/-- The sides of `OR` are regular, and the right one is no `OR`. -/
theorem Regular.sides_of_or (h : (Expr.or s a b).Regular) :
    a.Regular ∧ b.Regular ∧ b.isDisjunction = false := by
  have hw := h.writable
  have hn := h.nested
  simp only [isWritable, isLeftNested, Bool.and_eq_true, Bool.not_eq_true'] at hw hn
  exact ⟨⟨hw.1, hn.1.2⟩, ⟨hw.2, hn.2⟩, hn.1.1⟩

end

/-- The members of a chain of `OR` are regular and no `OR` themselves. -/
theorem Regular.of_mem_disjuncts {e : Expr} (h : e.Regular) :
    ∀ d ∈ e.disjuncts, d.Regular ∧ d.isDisjunction = false := by
  induction e with
  | or s lhs rhs ihl ihr =>
    obtain ⟨hl, hr⟩ := h.sides_of_or
    intro d hd
    -- chains lean to the left: the right side of a disjunction is none itself
    rcases List.mem_append.mp hd with hd | hd
    · exact ihl hl d hd
    · rw [List.mem_singleton.mp hd]
      exact hr
  | _ =>
    intro d hd
    rw [List.mem_singleton.mp hd]
    exact ⟨h, rfl⟩

/-- The members of a chain of `AND` are regular and have no connective at the top. -/
theorem Regular.of_mem_conjuncts {e : Expr} (h : e.Regular) (hOr : e.isDisjunction = false) :
    ∀ c ∈ e.conjuncts, c.Regular ∧ c.isUnit = true := by
  induction e with
  | and s lhs rhs ihl ihr =>
    obtain ⟨⟨hl, hlOr⟩, hr⟩ := h.sides_of_and
    intro c hc
    -- chains lean to the left: the right side of a conjunction is one unit
    rcases List.mem_append.mp hc with hc | hc
    · exact ihl hl hlOr c hc
    · rw [List.mem_singleton.mp hc]
      exact hr
  | or s lhs rhs => cases hOr
  | _ =>
    intro c hc
    rw [List.mem_singleton.mp hc]
    exact ⟨h, rfl⟩

/-- What stands inside a regular condition is regular. -/
theorem Regular.of_mem_inside {e : Expr} (h : e.Regular) : ∀ i ∈ e.inside, i.Regular := by
  induction e with
  | and s lhs rhs ihl ihr =>
    obtain ⟨⟨hl, -⟩, hr, -⟩ := h.sides_of_and
    exact List.forall_mem_append.mpr ⟨ihl hl, ihr hr⟩
  | or s lhs rhs ihl ihr =>
    obtain ⟨hl, hr, -⟩ := h.sides_of_or
    exact List.forall_mem_append.mpr ⟨ihl hl, ihr hr⟩
  | group s inner ih =>
    -- what is in parentheses may be any condition, so it counts with all inside it
    have hInner : inner.Regular := ⟨h.writable, h.nested⟩
    exact List.forall_mem_cons.mpr ⟨hInner, ih hInner⟩
  | not s inner ih =>
    have hInner : inner.Regular := ⟨h.writable, h.nested⟩
    exact List.forall_mem_cons.mpr ⟨hInner, ih hInner⟩
  | _ => exact fun i hi => nomatch hi

end Expr

/-! ## Texts without connectives -/

namespace Sql

/-- The first two letters of a connective. -/
inductive Opening : Char → Char → Prop
  | and : Opening 'A' 'N'
  | or : Opening 'O' 'R'

variable {x y : Char}

/-- A term has no connective outside its quotes and parentheses. -/
theorem Term.whole {sql : String} (h : Term sql) (hOpening : Opening x y) : Whole x y sql := by
  refine ⟨h.complete, ?_⟩
  -- a word has neither an A nor an O in it, and the other two hide theirs
  cases h with
  | word hSome hChars =>
    refine guarded_of_notMem ?_
    rw [outside_of_plain fun c hc => isPlain_of_isWordChar (hChars c hc), List.forall_mem_map]
    intro c hc hEq
    have hChar := hChars c hc
    rw [(Prod.mk.inj hEq).1] at hChar
    cases hOpening <;> cases hChar
  | quoted hValue =>
    rw [Text.outside_quote hValue]
    cases hOpening <;> rfl
  | parenthesized hParens =>
    have hx : x ≠ ')' := by cases hOpening <;> decide
    exact (hParens.parenthesized.whole hx).guarded

/-- A term is not blank. -/
theorem Term.nonblank {sql : String} (h : Term sql) : Text.isBlankText sql = false := by
  -- one character that is no blank is enough
  have hSome : ∃ c ∈ sql.toList, Text.isBlank c = false := by
    cases h with
    | word hSome hChars =>
      obtain ⟨c, hc⟩ := List.exists_mem_of_ne_nil _ hSome
      have hChar := hChars c hc
      simp only [isWordChar, Bool.and_eq_true, Bool.not_eq_true'] at hChar
      exact ⟨c, hc, hChar.1.1.1.2⟩
    | quoted hValue =>
      exact ⟨'\'', by rw [Text.toList_quote]; exact List.mem_cons_self, rfl⟩
    | parenthesized hParens =>
      obtain ⟨body, -, rfl⟩ := hParens
      exact ⟨'(', by rw [toList_parens]; exact List.mem_cons_self, rfl⟩
  rw [Text.isBlankText, List.all_eq_false]
  obtain ⟨c, hc, hBlank⟩ := hSome
  exact ⟨c, hc, by rw [hBlank]; exact Bool.false_ne_true⟩

/-- A comparison has no connective in it. -/
theorem whole_comparison (hOpening : Opening x y) (op : Comparison) :
    Whole x y (" " ++ op.sql ++ " ") := by
  have hBlank : Whole x y " " := by cases hOpening <;> exact whole_ofList rfl rfl
  have hOp : Whole x y op.sql := by cases hOpening <;> cases op <;> exact whole_ofList rfl rfl
  exact (hBlank.append hOp).append hBlank

end Sql

namespace Expr

/-- What is inside a member of a chain of `OR` is inside the chain. -/
theorem inside_subset_of_mem_disjuncts {e d : Expr} (h : d ∈ e.disjuncts) :
    d.inside ⊆ e.inside := by
  induction e with
  | or s lhs rhs ihl ihr =>
    -- a disjunct is one of the left side, or the right side itself
    rcases List.mem_append.mp h with h | h
    · exact List.Subset.trans (ihl h) (List.subset_append_left _ _)
    · rw [List.mem_singleton.mp h]
      exact List.subset_append_right _ _
  | _ =>
    rw [List.mem_singleton.mp h]
    exact List.Subset.refl _

/-- What is inside a member of a chain of `AND` is inside the chain. -/
theorem inside_subset_of_mem_conjuncts {e c : Expr} (h : c ∈ e.conjuncts) :
    c.inside ⊆ e.inside := by
  induction e with
  | and s lhs rhs ihl ihr =>
    -- a conjunct is one of the left side, or the right side itself
    rcases List.mem_append.mp h with h | h
    · exact List.Subset.trans (ihl h) (List.subset_append_left _ _)
    · rw [List.mem_singleton.mp h]
      exact List.subset_append_right _ _
  | _ =>
    rw [List.mem_singleton.mp h]
    exact List.Subset.refl _

/-- What is enclosed is inside. -/
theorem mem_inside_of_enclosed? {e inner : Expr} (h : e.enclosed? = some inner) :
    inner ∈ e.inside := by
  unfold enclosed? at h
  split at h
  · cases h; exact List.mem_cons_self
  · cases h; exact List.mem_cons_of_mem _ List.mem_cons_self
  · cases h; exact List.mem_cons_self
  · cases h

end Expr

/-! ## Conditions -/

namespace Context

/-- Where the connectives of a condition are in the text that is written for it: cutting at `OR`
and then at `AND` gives what is written for the members of the chains, and what stands in
parentheses is what is written for the condition there. -/
structure KeepsConnectives (cx : Context) (e : Expr) : Prop where
  ors    : splitTop " OR " (cx.condition e).value =
    e.disjuncts.map fun d => (cx.condition d).value
  ands   : ∀ d ∈ e.disjuncts, splitTop " AND " (cx.condition d).value =
    d.conjuncts.map fun c => (cx.condition c).value
  parens : ∀ d ∈ e.disjuncts, ∀ c ∈ d.conjuncts, ∀ inner, c.enclosed? = some inner →
    inner ∈ e.inside ∧ (cx.condition c).value =
      (if c.isGroup then "(" else "NOT (") ++ (cx.condition inner).value ++ ")"

/-- What is written for a chain of `OR` is what is written for its members, joined. -/
theorem condition_joined_or (cx : Context) (e : Expr) :
    Joined " OR " (e.disjuncts.map fun d => (cx.condition d).value) (cx.condition e).value := by
  induction e with
  | or s lhs rhs ihl ihr =>
    rw [Expr.disjuncts, List.map_append]
    exact ihl.more _
  | _ => exact Joined.one _

/-- What is written for a chain of `AND` is what is written for its members, joined. -/
theorem condition_joined_and (cx : Context) (e : Expr) :
    Joined " AND " (e.conjuncts.map fun c => (cx.condition c).value) (cx.condition e).value := by
  induction e with
  | and s lhs rhs ihl ihr =>
    rw [Expr.conjuncts, List.map_append]
    exact ihl.more _
  | _ => exact Joined.one _

/-- What is enclosed is written in exactly one pair of parentheses, also behind `NOT`. -/
theorem condition_enclosed? (cx : Context) {e inner : Expr} (h : e.enclosed? = some inner) :
    (cx.condition e).value =
      (if e.isGroup then "(" else "NOT (") ++ (cx.condition inner).value ++ ")" := by
  unfold Expr.enclosed? at h
  split at h
  · cases h
    rfl
  · cases h
    show "NOT " ++ ("(" ++ (cx.condition inner).value ++ ")") =
      "NOT (" ++ (cx.condition inner).value ++ ")"
    simp only [← String.append_assoc]
    rfl
  · next s i hGroup =>
    cases h
    -- what is negated is no group, so `NOT` brings its own parentheses
    have hNot : inner.isGroup = false := by
      cases inner with
      | group s' i' => exact absurd rfl (hGroup s' i')
      | _ => rfl
    rw [condition]
    simp only [hNot]
    rfl
  · cases h

variable {cx : Context} (hSchema : cx.schema.Quotable)
include hSchema

/-- A member of a chain of `AND` has no connective outside its parentheses. -/
theorem unit_whole {x y : Char} (hOpening : Opening x y) {e : Expr} (h : e.isWritable = true)
    (hUnit : e.isUnit = true) : Whole x y (cx.condition e).value := by
  have hx : x ≠ ')' := by cases hOpening <;> decide
  cases e with
  | operand s o => exact (scalar_term hSchema h).whole hOpening
  | malformed s => exact term_noValue.whole hOpening
  | group s inner =>
    have hInner : Complete (cx.condition inner).value := condition_complete hSchema h
    exact Parenthesized.whole ⟨_, hInner, rfl⟩ hx
  | not s inner =>
    rw [condition_not]
    have hNot : Whole x y "NOT " := by cases hOpening <;> exact whole_ofList rfl rfl
    have hInner : Complete (cx.condition inner).value := condition_complete hSchema h
    refine hNot.append ?_
    -- the parentheses after `NOT` are those of the group, or new ones
    cases inner with
    | group s' i =>
      have hBody : Complete (cx.condition i).value := condition_complete hSchema h
      exact Parenthesized.whole ⟨_, hBody, rfl⟩ hx
    | _ => exact Parenthesized.whole ⟨_, hInner, rfl⟩ hx
  | compare s lhs op rhs =>
    rw [Expr.isWritable, Bool.and_eq_true] at h
    rw [condition_compare]
    have hLeft := (scalar_term hSchema h.1).whole hOpening
    have hRight := (rightSide_term hSchema op.value h.2).whole hOpening
    exact (hLeft.append (whole_comparison hOpening op.value)).append hRight
  | and s lhs rhs => cases hUnit
  | or s lhs rhs => cases hUnit

/-- A member of a chain of `OR` has no `OR` outside its parentheses. -/
theorem disjunct_whole {e : Expr} (h : e.Regular) (hOr : e.isDisjunction = false) :
    Whole 'O' 'R' (cx.condition e).value := by
  induction e with
  | and s lhs rhs ihl ihr =>
    obtain ⟨⟨hl, hlOr⟩, hr, hUnit⟩ := h.sides_of_and
    have hAnd : Whole 'O' 'R' " AND " := whole_ofList rfl rfl
    exact ((ihl hl hlOr).append hAnd).append (unit_whole hSchema .or hr.writable hUnit)
  | or s lhs rhs => cases hOr
  | _ => exact unit_whole hSchema .or h.writable rfl

/-- No member of a chain of `AND` shows an `AND` of its own. -/
theorem conjuncts_whole {e : Expr} (h : e.Regular) (hOr : e.isDisjunction = false) :
    ∀ p ∈ e.conjuncts.map fun c => (cx.condition c).value, Whole 'A' 'N' p := by
  rw [List.forall_mem_map]
  intro c hc
  obtain ⟨hRegular, hUnit⟩ := h.of_mem_conjuncts hOr c hc
  exact unit_whole hSchema .and hRegular.writable hUnit

/-- What is written for a regular condition can be cut at its connectives. -/
theorem condition_keepsConnectives {e : Expr} (h : e.Regular) : cx.KeepsConnectives e := by
  have hMembers := h.of_mem_disjuncts
  refine ⟨?_, ?_, ?_⟩
  · -- no member of the chain of `OR` has one of its own
    refine splitTop_of_joined separates_or (cx.condition_joined_or e) ?_
    rw [List.forall_mem_map]
    exact fun d hd => disjunct_whole hSchema (hMembers d hd).1 (hMembers d hd).2
  · intro d hd
    obtain ⟨hRegular, hOr⟩ := hMembers d hd
    exact splitTop_of_joined separates_and (cx.condition_joined_and d)
      (conjuncts_whole hSchema hRegular hOr)
  · -- what a member of a member encloses is inside the whole
    intro d hd c hc inner hInner
    have hMem := Expr.mem_inside_of_enclosed? hInner
    exact ⟨Expr.inside_subset_of_mem_disjuncts hd (Expr.inside_subset_of_mem_conjuncts hc hMem),
      cx.condition_enclosed? hInner⟩

/-- What is written for a condition is not blank. -/
theorem condition_nonblank {e : Expr} (h : e.isWritable = true) :
    Text.isBlankText (cx.condition e).value = false := by
  induction e with
  | operand s o => exact (scalar_term hSchema h).nonblank
  | malformed s => exact term_noValue.nonblank
  | group s inner ih =>
    have hInner : Sealed (cx.condition inner).value := condition_sealed hSchema h
    exact (Term.parenthesized ⟨_, hInner, rfl⟩).nonblank
  | not s inner ih =>
    rw [condition_not]
    exact Text.isBlankText_append_of_left (by decide) _
  | and s lhs rhs ihl ihr =>
    rw [Expr.isWritable, Bool.and_eq_true] at h
    -- the left side is there already
    exact Text.isBlankText_append_of_left (Text.isBlankText_append_of_left (ihl h.1) _) _
  | or s lhs rhs ihl ihr =>
    rw [Expr.isWritable, Bool.and_eq_true] at h
    exact Text.isBlankText_append_of_left (Text.isBlankText_append_of_left (ihl h.1) _) _
  | compare s lhs op rhs =>
    rw [Expr.isWritable, Bool.and_eq_true] at h
    rw [condition_compare]
    have hLeft := (scalar_term hSchema h.1).nonblank
    exact Text.isBlankText_append_of_left (Text.isBlankText_append_of_left hLeft _) _

end Context

/-! ## Statements with a raw condition -/

/-- A raw condition that is complete ends up in one pair of parentheses. -/
theorem Sql.parenthesized_enclose {extra : String} (h : Complete extra) :
    Parenthesized (Clauses.enclose (Text.trim extra)) := by
  unfold Clauses.enclose
  split
  · next hEnclosed =>
    have hParens := parenthesized_of_isEnclosed hEnclosed
    rw [Text.trim_trim] at hParens
    exact hParens
  · exact ⟨Text.trim extra, h.trim, rfl⟩

/-- A raw condition that constrains all of a filter when `AND` joins the two: neither side lets an
`OR` out of parentheses, and the raw condition is a conjunct of the whole. -/
structure Sql.Constrains (extra filter : String) : Prop where
  filterUncut : splitTop " OR " filter = [filter]
  enclosed    : isEnclosed extra = true
  uncut       : splitTop " OR " (filter ++ " AND " ++ extra) = [filter ++ " AND " ++ extra]
  conjunct    : splitTop " AND " (filter ++ " AND " ++ extra) = splitTop " AND " filter ++ [extra]

/-- A raw condition in parentheses constrains a filter that shows no `OR`. -/
theorem Sql.constrains_of_parenthesized {extra filter : String} {pieces : List String}
    (hExtra : Parenthesized extra) (hFilter : Whole 'O' 'R' filter)
    (hJoined : Joined " AND " pieces filter) (hPieces : ∀ p ∈ pieces, Whole 'A' 'N' p) :
    Constrains extra filter := by
  have hAnd : Whole 'O' 'R' " AND " := whole_ofList rfl rfl
  -- a text in parentheses is whole for both separators
  have hBody := (hFilter.append hAnd).append (hExtra.whole (by decide))
  refine ⟨splitTop_whole separates_or hFilter, hExtra.isEnclosed,
    splitTop_whole separates_or hBody, ?_⟩
  rw [splitTop_of_joined separates_and hJoined hPieces]
  refine splitTop_of_joined separates_and (hJoined.more extra) ?_
  rw [List.forall_mem_append]
  refine ⟨hPieces, fun p hp => ?_⟩
  rw [List.mem_singleton.mp hp]
  exact hExtra.whole (by decide)

namespace Context

variable (cx : Context) (hSchema : cx.schema.Quotable) {e : Expr} (h : e.Regular)
include hSchema h

/-- The filter as one side of `AND`: whole for `OR`, and joined by `AND` from whole texts. -/
theorem conjunct_whole :
    Whole 'O' 'R' (Clauses.conjunct ⟨(cx.condition e).value, e.isDisjunction⟩) ∧
      ∃ pieces, Joined " AND " pieces
          (Clauses.conjunct ⟨(cx.condition e).value, e.isDisjunction⟩) ∧
        ∀ p ∈ pieces, Whole 'A' 'N' p := by
  have hComplete := condition_complete hSchema h.writable
  unfold Clauses.conjunct
  cases hOr : e.isDisjunction with
  | true =>
    -- a disjunction gets parentheses, and so is one piece for `AND`
    have hParens : Parenthesized (parenthesize (cx.condition e).value) := ⟨_, hComplete, rfl⟩
    refine ⟨hParens.whole (by decide), _, Joined.one _, ?_⟩
    intro p hp
    rw [List.mem_singleton.mp hp]
    exact hParens.whole (by decide)
  | false =>
    exact ⟨disjunct_whole hSchema h hOr, _, cx.condition_joined_and e,
      conjuncts_whole hSchema h hOr⟩

end Context

/-- The statement of a request whose filter and raw condition are not blank. -/
theorem Request.sql_statement {r : Request} {root : Root} {filter : Condition}
    {keys : List String} {extra : String} (hFilter : Text.isBlankText filter.sql = false)
    (hExtra : r.extraWhere = some extra) (hBlank : Text.isBlankText extra = false)
    (hKeys : keys ≠ []) :
    (r.statement root filter keys).sql =
      "SELECT " ++ r.select ++ " FROM " ++ root.table ++
        (" WHERE " ++ (Clauses.conjunct filter ++ " AND " ++ Clauses.enclose (Text.trim extra))) ++
        (" ORDER BY " ++ ", ".intercalate keys) ++
        Clauses.clause " " (r.limit.bind Text.nonBlank?) := by
  have hEmpty : keys.isEmpty = false := by
    cases keys with
    | nil => exact absurd rfl hKeys
    | cons k ks => rfl
  -- the empty clauses drop out, and the others are written one after the other
  simp only [statement, Clauses.withFilter, Clauses.withExtraWhere, Clauses.withOrder,
    Clauses.withLimit, Clauses.query, Clauses.whereBody?, Clauses.orderBody?, Clauses.clause,
    hFilter, hExtra, Option.bind_some, Text.nonBlank?, hBlank, Bool.false_eq_true, if_false,
    List.nil_append, hEmpty]

/-- **Connectives are kept.** With a schema that was built, for every text that a condition was read
from: in what is written for the condition, and for each condition inside its parentheses or under
`NOT`, cutting at `OR` and then at `AND` gives what is written for the members of the chains.

If a request with a filter and a complete raw condition is compiled, the body of `WHERE` is the
filter, `AND`, and the raw condition, and the raw condition constrains all of the filter. -/
theorem connectives_kept {declared : List Layer} {roles : Roles} {schema : Schema}
    (hBuild : Schema.build declared roles = .ok schema) (root : Root) :
    (∀ source e, (Parse.filter source).output = some (some e) →
      ∀ scope ∈ e :: e.inside, Context.KeepsConnectives ⟨schema, root, .filter⟩ scope) ∧
    (∀ r q extra, Request.compile r schema root = .ok q →
      Text.isBlankText r.expression = false → r.extraWhere = some extra →
      Text.isBlankText extra = false → Complete extra →
      ∃ F E, F = Clauses.conjunct (Context.filter ⟨schema, root, .filter⟩ r.expression).value ∧
        E = Clauses.enclose (Text.trim extra) ∧
        q.sql = "SELECT " ++ r.select ++ " FROM " ++ root.table ++
          (" WHERE " ++ (F ++ " AND " ++ E)) ++
          (" ORDER BY " ++
            ", ".intercalate (Context.order ⟨schema, root, .order⟩ r.order).value) ++
          Clauses.clause " " (r.limit.bind Text.nonBlank?) ∧
        Constrains E F) := by
  have hSchema := Schema.quotable_of_build hBuild
  constructor
  · intro source e hOutput scope hScope
    obtain ⟨k, hSound⟩ := Parse.filter_output_sound hOutput
    refine Context.condition_keepsConnectives hSchema ?_
    rcases List.mem_cons.mp hScope with rfl | hInside
    · exact hSound.regular
    · exact hSound.regular.of_mem_inside scope hInside
  · intro r q extra hOk hText hExtra hBlank hComplete
    have hFaultless : (r.compile schema root).isOk = true := by rw [hOk]; rfl
    obtain ⟨hFilter, hOrder⟩ := Request.compile_isOk_iff.mp hFaultless
    -- what is compiled was read, and as a condition, since the text is not blank
    have hRead := Request.isReadable_of_faultless hFilter hOrder
    obtain ⟨e, he⟩ := Request.exists_condition_of_isReadable hRead hText
    have hRegular := (Request.sound_of_isReadable hRead he).regular
    have hValue : (Context.filter ⟨schema, root, .filter⟩ r.expression).value =
        ⟨(Context.condition ⟨schema, root, .filter⟩ e).value, e.isDisjunction⟩ := by
      rw [Context.filter_of_isReadable _ hRead, he]
      rfl
    have hKeys : (Context.order ⟨schema, root, .order⟩ r.order).value ≠ [] := by
      rw [Context.order_of_isReadable _ hRead]
      exact Context.orderOf_ne_nil _ _
    refine ⟨_, _, rfl, rfl, ?_, ?_⟩
    · rw [Request.compile_of_faultless hFilter hOrder, Except.ok.injEq] at hOk
      rw [← hOk]
      refine Request.sql_statement ?_ hExtra hBlank hKeys
      rw [hValue]
      exact Context.condition_nonblank hSchema hRegular.writable
    · rw [hValue]
      obtain ⟨hWhole, pieces, hJoined, hPieces⟩ :=
        Context.conjunct_whole ⟨schema, root, .filter⟩ hSchema hRegular
      exact constrains_of_parenthesized (parenthesized_enclose hComplete) hWhole hJoined hPieces

/-- A filter and a raw condition that both have an `OR` at the top, and more in quotes. -/
def guardedRequest : Request :=
  { expression := "id = ' OR ' OR NOT 'x' IN labels('transcript_x') AND id <> 'a'"
    select := "transcript.transcript_id"
    extraWhere := some " corpus = 1 OR corpus = ' AND (' " }

theorem guardedRequest_constrained :
    (guardedRequest.compile awkwardSchema .transcript).isOk = true ∧
      ∃ q F, guardedRequest.compile awkwardSchema .transcript = .ok q ∧
        F = Clauses.conjunct
          (Context.filter ⟨awkwardSchema, .transcript, .filter⟩ guardedRequest.expression).value ∧
        Constrains (Clauses.enclose (Text.trim " corpus = 1 OR corpus = ' AND (' ")) F := by
  obtain ⟨hOk, hFilter⟩ : (guardedRequest.compile awkwardSchema .transcript).isOk = true ∧
      Text.isBlankText guardedRequest.expression = false := by
    decide +kernel
  refine ⟨hOk, ?_⟩
  cases hCompile : guardedRequest.compile awkwardSchema .transcript with
  | error rejection =>
    rw [hCompile] at hOk
    cases hOk
  | ok q =>
    obtain ⟨F, E, hF, hE, -, hConstrains⟩ := (connectives_kept build_awkwardLayer .transcript).2
      guardedRequest q _ hCompile hFilter rfl (by decide) (complete_ofList rfl)
    rw [hE] at hConstrains
    exact ⟨q, F, rfl, hF, hConstrains⟩

end AnnotationQuery
