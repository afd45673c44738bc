import AnnotationQuery.Proofs.Compile.Composition
import AnnotationQuery.Proofs.Schema.Build

/-!
# What a schema means for a request

A schema is asked two things only: whether it has a layer with some id, and where that
layer is stored. Neither answer depends on where the layer stands in the list, and neither
changes when other layers are declared besides, because an id is never declared twice. So
declarations may be written in any order, and a schema may grow: a request means the same
as before, unless it was refused for a layer that was not there and now is.

The layer of the graph itself is the one that may be there without being declared. It may
then be declared in the larger schema, with whatever data, and still be the graph itself.

The two halves are one walk over the tree. A draft is *kept* if it stays the same or if
some fault of it is excused; with nothing excused this says that the drafts are equal, and
with unknown layers excused it says what becomes of a draft when the schema grows.

Main results:

* `Schema.agreeOn_of_subset` — what a larger schema says of the layers of a smaller one.
* `Context.condition_kept`, `Request.compile_kept` — the walk.
* `compile_stable_under_declarations` — requests under reordered and larger schemas.
-/

namespace AnnotationQuery

/-- Whether the cause is that the schema has no such layer. -/
def Cause.isUnknownLayer : Cause → Bool
  | unknownLayer _ _ => true
  | _ => false

/-! ## Two schemas -/

namespace Schema

/-- Asked about an id, the second schema says what the first one says. -/
structure AgreeOn (s s' : Schema) (id : String) : Prop where
  known    : (s'.layer? id).isSome = (s.layer? id).isSome
  category : s'.category? id = s.category? id

/-- Schemas agree on an id that neither knows. -/
theorem agreeOn_of_unknown {s s' : Schema} (h : s.Coherent) (h' : s'.Coherent) {id : String}
    (hId : id ∉ s.layers.map Layer.id) (hId' : id ∉ s'.layers.map Layer.id) :
    s.AgreeOn s' id := by
  constructor
  · rw [h.layer?_eq_none_iff.mpr hId, h'.layer?_eq_none_iff.mpr hId']
  · rw [h.category?_of_unknown hId, h'.category?_of_unknown hId']

section
variable {declared declared' : List Layer} {roles : Roles} {s s' : Schema}

/-- The root's id is known to every schema, as the graph itself. -/
theorem agreeOn_root (h : build declared roles = .ok s) (h' : build declared' roles = .ok s') :
    s.AgreeOn s' roles.root := by
  -- both schemas have a layer with this id, and its other data do not matter
  have hAsked : ∀ {ls : List Layer} {t : Schema}, build ls roles = .ok t →
      (t.layer? roles.root).isSome = true ∧ t.category? roles.root = some .graphRoot := by
    intro ls t hBuild
    have hSchema := coherent_of_build hBuild
    rw [← roles_of_build hBuild]
    exact ⟨hSchema.layer?_isSome_iff.mpr hSchema.rooted, hSchema.category?_root⟩
  obtain ⟨hKnown, hCategory⟩ := hAsked h
  obtain ⟨hKnown', hCategory'⟩ := hAsked h'
  exact ⟨by rw [hKnown, hKnown'], by rw [hCategory, hCategory']⟩

/-- What a schema says of a layer that it has, a larger one says too. -/
theorem agreeOn_of_subset (h : build declared roles = .ok s) (h' : build declared' roles = .ok s')
    (hSubset : declared ⊆ declared') {id : String} (hKnown : (s.layer? id).isSome = true) :
    s.AgreeOn s' id := by
  obtain ⟨l, hFound⟩ := Option.isSome_iff_exists.mp hKnown
  have hSchema := coherent_of_build h
  have hSchema' := coherent_of_build h'
  obtain ⟨hl, rfl⟩ := hSchema.layer?_eq_some_iff.mp hFound
  rcases mem_of_build h hl with hDeclared | rfl
  · -- the very layer is declared in both, so both find it
    have hl' := mem_of_declared h' (hSubset hDeclared)
    constructor
    · rw [hFound, hSchema'.layer?_of_mem hl']
    · rw [hSchema.category?_of_mem hl, hSchema'.category?_of_mem hl', roles_of_build h,
        roles_of_build h']
  · exact agreeOn_root h h'

/-- Schemas of the same declarations agree on every id. -/
theorem agreeOn_of_perm (h : build declared roles = .ok s) (h' : build declared' roles = .ok s')
    (hPerm : declared.Perm declared') (id : String) : s.AgreeOn s' id := by
  by_cases hKnown : (s.layer? id).isSome = true
  · exact agreeOn_of_subset h h' hPerm.subset hKnown
  · by_cases hKnown' : (s'.layer? id).isSome = true
    · -- the second schema is no larger than the first
      have hBack := (agreeOn_of_subset h' h hPerm.symm.subset hKnown').known
      rw [hKnown'] at hBack
      exact absurd hBack hKnown
    · have hSchema := coherent_of_build h
      have hSchema' := coherent_of_build h'
      rw [hSchema.layer?_isSome_iff] at hKnown
      rw [hSchema'.layer?_isSome_iff] at hKnown'
      exact agreeOn_of_unknown hSchema hSchema' hKnown hKnown'

/-- Whether declarations make a schema does not depend on their order. -/
theorem build_of_perm (hPerm : declared.Perm declared') (h : build declared roles = .ok s) :
    ∃ s', build declared' roles = .ok s' := by
  obtain ⟨hNodup, hPass⟩ := valid_of_build h
  exact exists_build ((hPerm.map Layer.id).nodup hNodup)
    fun l hl => hPass l (hPerm.mem_iff.mpr hl)

end

end Schema

/-! ## Kept drafts -/

namespace Draft

variable {α β : Type} {excused : Cause → Prop}

/-- The second draft is the first one, unless a fault of the first is excused. -/
def Kept (excused : Cause → Prop) (d d' : Draft α) : Prop :=
  (∀ f ∈ d.faults, ¬ excused f.cause) → d' = d

theorem kept_refl (d : Draft α) : d.Kept excused d :=
  fun _ => rfl

/-- A sequence is kept if both its steps are. -/
theorem Kept.bind {d d' : Draft α} {f f' : α → Draft β} (h : d.Kept excused d')
    (hf : ∀ a, (f a).Kept excused (f' a)) : (d >>= f).Kept excused (d' >>= f') := by
  intro hNone
  rw [faults_bind] at hNone
  -- the faults of the first step are among those of both, and so are those of the second
  have hFirst : d' = d := h fun x hx => hNone x (List.mem_append_left _ hx)
  have hSecond : f' d.value = f d.value := hf _ fun x hx => hNone x (List.mem_append_right _ hx)
  show Draft.mk (f' d'.value).value (d'.faults ++ (f' d'.value).faults) = _
  rw [hFirst, hSecond]
  rfl

/-- A list is kept if its items are. -/
theorem Kept.mapM {f f' : α → Draft β} (h : ∀ a, (f a).Kept excused (f' a)) (xs : List α) :
    (xs.mapM f).Kept excused (xs.mapM f') := by
  induction xs with
  | nil => exact kept_refl _
  | cons x xs ih =>
    rw [List.mapM_cons, List.mapM_cons]
    exact (h x).bind fun _ => ih.bind fun _ => kept_refl _

/-- Faults may be put in front of a draft. -/
theorem Kept.behind {d d' : Draft α} (h : d.Kept excused d') (before : List Fault) :
    (Draft.mk d.value (before ++ d.faults)).Kept excused ⟨d'.value, before ++ d'.faults⟩ := by
  intro hNone
  rw [h fun x hx => hNone x (List.mem_append_right _ hx)]

end Draft

/-! ## The walk -/

namespace Context

/-- The same clause of the same query under another schema. -/
def under (cx : Context) (schema : Schema) : Context :=
  { cx with schema := schema }

/-- The second rule says what the first one says, unless the first refuses for an excused cause. -/
def RuleKept (excused : Cause → Prop) (rule rule' : Except Cause String) : Prop :=
  rule' = rule ∨ ∃ cause, rule = .error cause ∧ excused cause

/-- The other schema agrees on an id, unless not knowing the id is excused. -/
def Backs (cx : Context) (excused : Cause → Prop) (s' : Schema) : Prop :=
  ∀ id, cx.schema.AgreeOn s' id ∨
    cx.schema.layer? id = none ∧ ∀ operand, excused (.unknownLayer operand id)

variable {cx : Context} {s' : Schema} {excused : Cause → Prop}

/-- The two questions are all that a layer's SQL depends on. -/
theorem layerSql?_of_agreeOn {id : String} (h : cx.schema.AgreeOn s' id)
    (function : LayerFunction) :
    (cx.under s').layerSql? function id = cx.layerSql? function id := by
  obtain ⟨hKnown, hCategory⟩ := h
  show Context.layerSql? ⟨s', cx.root, cx.clause⟩ function id = _
  unfold layerSql?
  dsimp only
  -- only two things are asked of the schema: whether the id is known and where it is stored
  cases hLayer : cx.schema.layer? id with
  | none =>
    rw [hLayer, Option.isSome_none, Option.isSome_eq_false_iff, Option.isNone_iff_eq_none] at hKnown
    rw [hKnown]
  | some l =>
    rw [hLayer, Option.isSome_some] at hKnown
    obtain ⟨l', hLayer'⟩ := Option.isSome_iff_exists.mp hKnown
    rw [hLayer', hCategory]

/-- A function of a layer is written as before if the layer was known. -/
theorem layerSql?_kept (h : cx.Backs excused s') (function : LayerFunction) (id : String) :
    RuleKept excused (cx.layerSql? function id) ((cx.under s').layerSql? function id) := by
  rcases h id with hAgree | ⟨hNone, hExcused⟩
  · exact Or.inl (layerSql?_of_agreeOn hAgree function)
  · refine Or.inr ⟨.unknownLayer (function.apply id) id, ?_, hExcused _⟩
    unfold layerSql?
    rw [hNone]

/-- One value is written as before, unless a layer was not known. -/
theorem scalarSql?_kept (h : cx.Backs excused s') (o : Operand) :
    RuleKept excused (cx.scalarSql? o) ((cx.under s').scalarSql? o) := by
  cases o with
  | layer function layerId =>
    simp only [scalarSql?]
    split
    · exact Or.inl rfl
    · exact layerSql?_kept h function layerId.value
  | _ => exact Or.inl rfl

/-- A set is written as before, unless a layer was not known. -/
theorem setSql?_kept (h : cx.Backs excused s') (o : Operand) :
    RuleKept excused (cx.setSql? o) ((cx.under s').setSql? o) := by
  cases o with
  | layer function layerId =>
    simp only [setSql?]
    split
    · exact layerSql?_kept h function layerId.value
    · exact Or.inl rfl
  | _ => exact Or.inl rfl

/-- What is settled by kept rules is kept. -/
theorem settle_kept {rule rule' : Except Cause String} (h : RuleKept excused rule rule')
    (span : Span) (standIn : String) :
    (cx.settle span standIn rule).Kept excused ((cx.under s').settle span standIn rule') := by
  rcases h with rfl | ⟨cause, rfl, hExcused⟩
  · cases rule' <;> exact Draft.kept_refl _
  · -- the refusal is a fault of the first draft, and an excused one
    intro hNone
    exact absurd hExcused (hNone _ (List.mem_singleton_self _))

theorem scalar_kept (h : cx.Backs excused s') (o : Spanned Operand) :
    (cx.scalar o).Kept excused ((cx.under s').scalar o) :=
  settle_kept (scalarSql?_kept h o.value) _ _

/-- An item of a list is kept: no layer is looked up for it. -/
theorem listItem_kept (o : Spanned Operand) :
    (cx.listItem o).Kept excused ((cx.under s').listItem o) := by
  have hItem : RuleKept excused (cx.itemSql? o.value) ((cx.under s').itemSql? o.value) :=
    Or.inl (by cases o.value <;> rfl)
  exact (settle_kept hItem _ _).bind fun _ => Draft.kept_refl _

/-- The right side of a comparison is kept. -/
theorem rightSide_kept (h : cx.Backs excused s') (op : Comparison) (c : Spanned Comparand) :
    (cx.rightSide op c).Kept excused ((cx.under s').rightSide op c) := by
  obtain ⟨o | items, span⟩ := c
  · unfold rightSide
    split
    · exact settle_kept (setSql?_kept h o) _ _
    · exact scalar_kept h ⟨o, span⟩
  · unfold rightSide
    split
    · -- a list asks nothing of the schema, and where one value is expected it is refused in any
      -- case
      exact (Draft.Kept.mapM listItem_kept items).bind fun _ => Draft.kept_refl _
    · exact settle_kept (Or.inl rfl) _ _

/-- A condition is kept if the other schema backs this one. -/
theorem condition_kept (h : cx.Backs excused s') (e : Expr) :
    (cx.condition e).Kept excused ((cx.under s').condition e) := by
  -- connectives and parentheses ask nothing of the schema
  induction e with
  | operand span o => exact scalar_kept h o
  | compare span lhs op rhs =>
    rw [condition_compare, condition_compare]
    exact (scalar_kept h lhs).bind fun _ => (rightSide_kept h op.value rhs).bind fun _ =>
      Draft.kept_refl _
  | not span inner ih => exact ih.bind fun _ => Draft.kept_refl _
  | group span inner ih => exact ih.bind fun _ => Draft.kept_refl _
  | and span lhs rhs ihl ihr => exact ihl.bind fun _ => ihr.bind fun _ => Draft.kept_refl _
  | or span lhs rhs ihl ihr => exact ihl.bind fun _ => ihr.bind fun _ => Draft.kept_refl _
  | malformed span => exact Draft.kept_refl _

/-- A filter is kept. -/
theorem filter_kept (h : cx.Backs excused s') (source : String) :
    (cx.filter source).Kept excused ((cx.under s').filter source) := by
  refine Draft.Kept.behind ?_ _
  cases (Parse.filter source).output.join with
  | none => exact Draft.kept_refl _
  | some e => exact (condition_kept h e).bind fun _ => Draft.kept_refl _

/-- An order list is kept. -/
theorem order_kept (h : cx.Backs excused s') (source : Option String) :
    (cx.order source).Kept excused ((cx.under s').order source) := by
  have hTerm : ∀ t, (cx.orderTerm t).Kept excused ((cx.under s').orderTerm t) :=
    fun t => (scalar_kept h t.operand).bind fun _ => Draft.kept_refl _
  unfold order
  split
  · exact Draft.kept_refl _
  · exact (Draft.Kept.mapM hTerm _).behind _

end Context

/-! ## Requests -/

/-- A request without an excused fault comes to the same under a schema that backs this one. -/
theorem Request.compile_kept {r : Request} {s s' : Schema} {root : Root} (excused : Cause → Prop)
    (h : ∀ id, s.AgreeOn s' id ∨ s.layer? id = none ∧ ∀ operand, excused (.unknownLayer operand id))
    (hNone : ∀ f ∈ r.faults s root, ¬ excused f.cause) :
    r.compile s' root = r.compile s root := by
  have hBacks : ∀ part, Context.Backs ⟨s, root, part⟩ excused s' := fun _ => h
  rw [faults_eq_append] at hNone
  have hFilter : Context.filter ⟨s', root, .filter⟩ r.expression =
      Context.filter ⟨s, root, .filter⟩ r.expression :=
    Context.filter_kept (hBacks .filter) r.expression
      fun f hf => hNone f (List.mem_append_left _ hf)
  have hOrder : Context.order ⟨s', root, .order⟩ r.order =
      Context.order ⟨s, root, .order⟩ r.order :=
    Context.order_kept (hBacks .order) r.order
      fun f hf => hNone f (List.mem_append_right _ hf)
  -- both drafts are the same, with the faults in them
  unfold compile
  rw [hFilter, hOrder]

/-- **What a request comes to depends on what is declared, not on how.** Declarations in another
order make a schema if these do, and then every request comes to the same statement or to the same
faults. Under a schema with more declarations a request comes to what it came to before, whatever
that was, unless it was refused for a layer that the smaller schema does not have. -/
theorem compile_stable_under_declarations (declared declared' : List Layer) (roles : Roles) :
    (declared.Perm declared' →
      ((∃ s, Schema.build declared roles = .ok s) ↔ ∃ s', Schema.build declared' roles = .ok s') ∧
      ∀ s s', Schema.build declared roles = .ok s → Schema.build declared' roles = .ok s' →
        ∀ (r : Request) (root : Root), r.compile s' root = r.compile s root) ∧
    (declared ⊆ declared' →
      ∀ s s', Schema.build declared roles = .ok s → Schema.build declared' roles = .ok s' →
        ∀ (r : Request) (root : Root),
          (∀ f ∈ r.faults s root, f.cause.isUnknownLayer = false) →
            r.compile s' root = r.compile s root) := by
  constructor
  · intro hPerm
    refine ⟨⟨?_, ?_⟩, ?_⟩
    · rintro ⟨s, hBuild⟩
      exact Schema.build_of_perm hPerm hBuild
    · rintro ⟨s', hBuild⟩
      exact Schema.build_of_perm hPerm.symm hBuild
    · -- nothing has to be excused
      intro s s' hBuild hBuild' r root
      exact Request.compile_kept (fun _ => False)
        (fun id => Or.inl (Schema.agreeOn_of_perm hBuild hBuild' hPerm id)) (fun _ _ => id)
  · intro hSubset s s' hBuild hBuild' r root hNone
    -- the schemas can differ only on an id that the smaller one does not know
    refine Request.compile_kept (fun cause => cause.isUnknownLayer = true) ?_ ?_
    · intro id
      cases hLayer : s.layer? id with
      | some l =>
        have hKnown : (s.layer? id).isSome = true := by rw [hLayer]; rfl
        exact Or.inl (Schema.agreeOn_of_subset hBuild hBuild' hSubset hKnown)
      | none => exact Or.inr ⟨rfl, fun _ => rfl⟩
    · intro f hf
      rw [hNone f hf]
      exact Bool.false_ne_true

/-- Two layers, with the layer of the graph itself left out. -/
def fewLayers : List Layer :=
  [{ id := "corpus", layerId := some (-100) }, { id := "mood", classId := some "speaker" }]

/-- The schema of these layers and the graph itself. -/
def fewSchema : Schema where
  layers := Schema.rootLayer "graph" :: fewLayers
  index := ⟨[("mood", 2), ("corpus", 1), ("graph", 0)]⟩
  categories := ⟨[("mood", .participantAttribute "mood"), ("corpus", .corpus),
    ("graph", .graphRoot)]⟩
  roles := {}

/-- The same two layers in another order, a third one, and a layer for the graph itself that would
be refused as an attribute. -/
def moreLayers : List Layer :=
  [{ id := "noise", layerId := some 7 }, { id := "mood", classId := some "speaker" },
    { id := "graph", classId := some "speaker", storedName := some "x\\" },
    { id := "corpus", layerId := some (-100) }]

/-- A request that is refused for three reasons. It names a layer that only the larger schema has,
but in a place where the layer is not looked up. -/
def refusedRequest : Request where
  expression := "graph.label <> my('corpus').label OR labels('noise') = mood.label AND 1 IN (id"
  select := "x"
  order := some "my('mood').label DESC"

theorem refusedRequest_unchanged :
    ∃ few turned more,
      Schema.build fewLayers {} = .ok few ∧ Schema.build fewLayers.reverse {} = .ok turned ∧
      Schema.build moreLayers {} = .ok more ∧ fewLayers ⊆ moreLayers ∧
      (refusedRequest.faults few .participant).length = 3 ∧
      (∀ f ∈ refusedRequest.faults few .participant, f.cause.isUnknownLayer = false) ∧
      refusedRequest.compile turned .participant = refusedRequest.compile few .participant ∧
      refusedRequest.compile more .participant = refusedRequest.compile few .participant := by
  have hSubset : fewLayers ⊆ moreLayers := by decide
  obtain ⟨hCount, hFaults⟩ : (refusedRequest.faults fewSchema .participant).length = 3 ∧
      ∀ f ∈ refusedRequest.faults fewSchema .participant, f.cause.isUnknownLayer = false := by
    decide +kernel
  have hFew : Schema.build fewLayers {} = .ok fewSchema := rfl
  obtain ⟨turned, hTurned⟩ : ∃ s, Schema.build fewLayers.reverse {} = .ok s := ⟨_, rfl⟩
  obtain ⟨more, hMore⟩ : ∃ s, Schema.build moreLayers {} = .ok s := ⟨_, rfl⟩
  refine ⟨fewSchema, turned, more, hFew, hTurned, hMore, hSubset, hCount, hFaults, ?_, ?_⟩
  · have hPerm : fewLayers.Perm fewLayers.reverse := (List.reverse_perm _).symm
    exact ((compile_stable_under_declarations _ _ _).1 hPerm).2 _ _ hFew hTurned _ _
  · exact (compile_stable_under_declarations _ _ _).2 hSubset _ _ hFew hMore _ _ hFaults

end AnnotationQuery
