import AnnotationQuery.Proofs.Compile.Operand

/-!
# Requests that were read without a complaint

Both clauses of a request are text. When neither gives rise to a complaint, what is
compiled depends on the two trees alone: the condition, if there is one, and the
sort keys. A blank order list has no keys, like one that is not there, and in both
cases rows are sorted by what identifies them.

Main results:

* `Context.filter_of_isReadable`, `Context.order_of_isReadable` — the clauses from their trees.
* `Request.compile_isOk_iff` — a request is compiled exactly if neither clause has a fault.
-/

namespace AnnotationQuery

/-- The sort keys of a list, if it has any. -/
def OrderTerm.listed? : List OrderTerm → Option (List OrderTerm)
  | [] => none
  | keys => some keys

namespace Request

/-- The condition that the filter was read as, if any. -/
def condition? (r : Request) : Option Expr :=
  (Parse.filter r.expression).output.join

/-- The sort keys that the order list was read as. -/
def sortKeys (r : Request) : List OrderTerm :=
  match r.order with
  | none => []
  | some source => (Parse.order source).output.getD []

/-- Whether both clauses were read without a complaint. -/
def isReadable (r : Request) : Bool :=
  (Parse.filter r.expression).diagnostics.isEmpty &&
    r.order.all fun source => (Parse.order source).diagnostics.isEmpty

variable {r : Request} {schema : Schema} {root : Root}

theorem diagnostics_filter_of_isReadable (h : r.isReadable = true) :
    (Parse.filter r.expression).diagnostics = [] := by
  rw [isReadable, Bool.and_eq_true, List.isEmpty_iff] at h
  exact h.1

theorem diagnostics_order_of_isReadable (h : r.isReadable = true) {source : String}
    (hSource : r.order = some source) : (Parse.order source).diagnostics = [] := by
  rw [isReadable, Bool.and_eq_true, hSource] at h
  exact List.isEmpty_iff.mp h.2

/-- The condition of a readable request is sound and has no malformed part. -/
theorem sound_of_isReadable (h : r.isReadable = true) {e : Expr} (he : r.condition? = some e) :
    e.Sound 0 := by
  have hClean := diagnostics_filter_of_isReadable h
  rcases Parse.filter_of_diagnostics_nil hClean with ⟨e', hOutput, hSound⟩ | ⟨hOutput, -⟩
  · rw [condition?, hOutput] at he
    cases he
    exact hSound
  · rw [condition?, hOutput] at he
    cases he

/-- A readable request whose filter is not blank has a condition. -/
theorem exists_condition_of_isReadable (h : r.isReadable = true)
    (hText : Text.isBlankText r.expression = false) : ∃ e, r.condition? = some e := by
  have hClean := diagnostics_filter_of_isReadable h
  rcases Parse.filter_of_diagnostics_nil hClean with ⟨e, hOutput, -⟩ | ⟨-, hBlank⟩
  · exact ⟨e, by rw [condition?, hOutput]; rfl⟩
  · rw [hText] at hBlank
    cases hBlank

/-- Sort keys can be written out, whatever was complained about. -/
theorem isWritable_of_mem_sortKeys {t : OrderTerm} (ht : t ∈ r.sortKeys) :
    t.operand.value.isWritable = true := by
  unfold sortKeys at ht
  split at ht
  · cases ht
  · next source hSource =>
    cases hOutput : (Parse.order source).output with
    | none =>
      rw [hOutput] at ht
      cases ht
    | some terms =>
      rw [hOutput] at ht
      exact Parse.order_output_writable hOutput t ht

/-- Without faults, a request compiles to its statement. -/
theorem compile_of_faultless
    (hFilter : (Context.filter ⟨schema, root, .filter⟩ r.expression).faults = [])
    (hOrder : (Context.order ⟨schema, root, .order⟩ r.order).faults = []) :
    r.compile schema root =
      .ok (r.statement root (Context.filter ⟨schema, root, .filter⟩ r.expression).value
        (Context.order ⟨schema, root, .order⟩ r.order).value) := by
  unfold compile
  simp only [hFilter, hOrder, List.append_nil]

/-- With faults, a request is rejected with all of them, those of the filter first. -/
theorem compile_of_faults {faults : List Fault}
    (h : (Context.filter ⟨schema, root, .filter⟩ r.expression).faults ++
      (Context.order ⟨schema, root, .order⟩ r.order).faults = faults) (hSome : faults ≠ []) :
    r.compile schema root = .error ⟨r.expression, r.order, faults⟩ := by
  unfold compile
  simp only [h]

/-- A request compiles exactly if neither clause has a fault. -/
theorem compile_isOk_iff :
    (r.compile schema root).isOk = true ↔
      (Context.filter ⟨schema, root, .filter⟩ r.expression).faults = [] ∧
        (Context.order ⟨schema, root, .order⟩ r.order).faults = [] := by
  constructor
  · intro hOk
    rw [← List.append_eq_nil_iff]
    -- one fault in either is enough to refuse the request
    by_contra hSome
    rw [compile_of_faults rfl hSome] at hOk
    cases hOk
  · rintro ⟨hFilter, hOrder⟩
    rw [compile_of_faultless hFilter hOrder]
    rfl

/-- A request without faults was read without complaints. -/
theorem isReadable_of_faultless
    (hFilter : (Context.filter ⟨schema, root, .filter⟩ r.expression).faults = [])
    (hOrder : (Context.order ⟨schema, root, .order⟩ r.order).faults = []) :
    r.isReadable = true := by
  -- each diagnostic is a fault of its clause, so without faults there is none
  rw [isReadable, Bool.and_eq_true, List.isEmpty_iff]
  refine ⟨List.map_eq_nil_iff.mp (List.append_eq_nil_iff.mp hFilter).1, ?_⟩
  cases hSource : r.order with
  | none => rfl
  | some source =>
    show (Parse.order source).diagnostics.isEmpty = true
    by_cases hBlank : Text.isBlankText source = true
    · rw [Parse.order_of_isBlankText hBlank]
      rfl
    · simp only [hSource, Context.order, Option.filter, hBlank, Bool.not_false, if_true] at hOrder
      rw [List.isEmpty_iff]
      exact List.map_eq_nil_iff.mp (List.append_eq_nil_iff.mp hOrder).1

end Request

namespace Context

/-- A list that has keys is compiled key by key. -/
theorem orderOf_listed?_cons (cx : Context) (t : OrderTerm) (ts : List OrderTerm) :
    cx.orderOf (OrderTerm.listed? (t :: ts)) = (t :: ts).mapM cx.orderTerm := rfl

/-- There is always something to sort by. -/
theorem orderOf_ne_nil (cx : Context) (keys : List OrderTerm) :
    (cx.orderOf (OrderTerm.listed? keys)).value ≠ [] := by
  cases keys with
  | nil => exact List.cons_ne_nil _ _
  | cons t ts =>
    rw [orderOf_listed?_cons, Draft.value_mapM]
    exact List.cons_ne_nil _ _

variable {r : Request}

/-- The filter of a readable request is compiled from its condition alone. -/
theorem filter_of_isReadable (cx : Context) (h : r.isReadable = true) :
    cx.filter r.expression = cx.filterOf r.condition? := by
  have hClean := Request.diagnostics_filter_of_isReadable h
  unfold filter Request.condition?
  simp only [hClean]
  rfl

/-- The order list of a readable request is compiled from its sort keys alone. -/
theorem order_of_isReadable (cx : Context) (h : r.isReadable = true) :
    cx.order r.order = cx.orderOf (OrderTerm.listed? r.sortKeys) := by
  unfold order Request.sortKeys
  cases hOrder : r.order with
  | none => rfl
  | some source =>
    by_cases hBlank : Text.isBlankText source = true
    · simp only [Option.filter, hBlank, Bool.not_true, Bool.false_eq_true, if_false,
        Parse.order_of_isBlankText hBlank, Option.getD_some, OrderTerm.listed?]
    · have hClean := Request.diagnostics_order_of_isReadable h hOrder
      obtain ⟨terms, hOutput, hTerms⟩ := Parse.order_of_diagnostics_nil hClean
      -- a text without terms is blank, so this one has a term
      cases terms with
      | nil => exact absurd (hTerms rfl) hBlank
      | cons t ts =>
        simp only [Option.filter, hBlank, Bool.not_false, if_true, hClean, hOutput,
          Option.getD_some]
        rfl

end Context

end AnnotationQuery
