import AnnotationQuery.Proofs.Compile.Clause

/-!
# Literals stay inside their quotes

Two requests whose trees differ only in the values of string literals, and in where
things stand in the text, are accepted or refused together, and what is compiled
for them reads the same outside quotes. So a literal cannot change a query, whatever
it holds: quotes, backslashes, parentheses, connectives or placeholders.

Both runs are compared with a third one, on the tree with every place and every
string literal wiped out (`Expr.masked`). Two drafts are *alike* if they read the
same outside quotes and neither or both have faults; being complete is part of it, so
that alike drafts can be put together without looking at what they were made from.

Main results:

* `Context.condition_alike`, `Context.orderTerm_alike` — a tree and its masked tree.
* `literals_confined` — two requests with the same masked trees.
-/

namespace AnnotationQuery

open Sql

/-! ## Trees without places and string literals -/

/-- The value at no place in particular. -/
def Spanned.unplaced {α : Type} (x : Spanned α) : Spanned α :=
  ⟨x.value, ⟨0, 0⟩⟩

/-- The literal, its value wiped out if it is a string. -/
def Literal.masked : Literal → Literal
  | string _ => string ""
  | number written => number written

namespace Operand

/-- The operand without places; a string literal is wiped out. -/
def masked : Operand → Operand
  | layer function layerId => layer function layerId.unplaced
  | literal value => literal value.masked
  | member object part => member object.unplaced part.unplaced
  | identifier name => identifier name
  | id => id
  | label => label
  | ordinal => ordinal

end Operand

/-- The masked operand at no place in particular. -/
def maskedOperand (o : Spanned Operand) : Spanned Operand :=
  ⟨o.value.masked, ⟨0, 0⟩⟩

/-- The comparand without places and string literals. -/
def Comparand.masked : Comparand → Comparand
  | one operand => one operand.masked
  | list items => list (items.map maskedOperand)

/-- The masked comparand at no place in particular. -/
def maskedComparand (c : Spanned Comparand) : Spanned Comparand :=
  ⟨c.value.masked, ⟨0, 0⟩⟩

/-- The condition without places and string literals. -/
def Expr.masked : Expr → Expr
  | operand _ o => operand ⟨0, 0⟩ (maskedOperand o)
  | compare _ lhs op rhs => compare ⟨0, 0⟩ (maskedOperand lhs) op.unplaced (maskedComparand rhs)
  | not _ inner => not ⟨0, 0⟩ inner.masked
  | group _ inner => group ⟨0, 0⟩ inner.masked
  | and _ lhs rhs => and ⟨0, 0⟩ lhs.masked rhs.masked
  | or _ lhs rhs => or ⟨0, 0⟩ lhs.masked rhs.masked
  | malformed _ => malformed ⟨0, 0⟩

theorem Expr.isGroup_masked (e : Expr) : e.masked.isGroup = e.isGroup := by
  cases e <;> rfl

/-- The sort key without places and string literals. -/
def OrderTerm.masked (t : OrderTerm) : OrderTerm :=
  ⟨maskedOperand t.operand, t.descending⟩

/-! ## Alike drafts -/

/-- Fixed text around a piece: complete pieces stay complete, and what is read outside quotes
depends only on what was. -/
structure Sql.Frame (f : String → String) : Prop where
  complete : ∀ {a}, Complete a → Complete (f a)
  outside  : ∀ {a b}, Complete a → Complete b → Sql.outside a = Sql.outside b →
    Sql.outside (f a) = Sql.outside (f b)

namespace Sql

theorem frame_after {before : String} (h : Complete before) : Frame fun a => before ++ a where
  complete ha := h.append ha
  outside ha hb hab := by rw [outside_append h, outside_append h, hab]

theorem frame_before {after : String} (h : Complete after) : Frame fun a => a ++ after where
  complete ha := ha.append h
  outside ha hb hab := by rw [outside_append ha, outside_append hb, hab]

theorem frame_parens : Frame fun a => "(" ++ a ++ ")" where
  complete ha := ha.parens
  outside ha hb hab := by rw [outside_parens ha, outside_parens hb, hab]

theorem frame_id : Frame fun a => a where
  complete ha := ha
  outside _ _ hab := hab

theorem Frame.comp {f g : String → String} (hf : Frame f) (hg : Frame g) :
    Frame fun a => f (g a) where
  complete ha := hf.complete (hg.complete ha)
  outside ha hb hab := hf.outside (hg.complete ha) (hg.complete hb) (hg.outside ha hb hab)

end Sql

namespace Draft

/-- Two complete texts that read the same outside quotes, and both or neither with faults. -/
structure Alike (a b : Draft String) : Prop where
  left      : Complete a.value
  right     : Complete b.value
  outside   : Sql.outside a.value = Sql.outside b.value
  faultless : a.faults = [] ↔ b.faults = []

namespace Alike

variable {a a' b b' : Draft String}

/-- Drafts that are alike stay so in a frame. -/
theorem framed (h : a.Alike a') {f : String → String} (hf : Frame f) :
    Alike (do let x ← a; return f x) (do let x ← a'; return f x) := by
  refine ⟨hf.complete h.left, hf.complete h.right, hf.outside h.left h.right h.outside, ?_⟩
  simp only [faults_bind, faults_pure, List.append_nil]
  exact h.faultless

/-- Two pairs of drafts that are alike are alike when joined by fixed text. -/
theorem joined (ha : a.Alike a') (hb : b.Alike b') {between : String} (h : Complete between) :
    Alike (do let x ← a; let y ← b; return x ++ between ++ y)
      (do let x ← a'; let y ← b'; return x ++ between ++ y) := by
  refine ⟨(ha.left.append h).append hb.left, (ha.right.append h).append hb.right, ?_, ?_⟩
  · simp only [value_bind, value_pure]
    rw [outside_append (ha.left.append h), outside_append ha.left,
      outside_append (ha.right.append h), outside_append ha.right, ha.outside, hb.outside]
  · simp only [faults_bind, faults_pure, List.append_nil, List.append_eq_nil_iff]
    rw [ha.faultless, hb.faultless]

/-- A list in parentheses, with a fixed text between any two of its items. -/
theorem listed {α : Type} {f g : α → Draft String} {xs : List α}
    (hxs : ∀ x ∈ xs, (f x).Alike (g x)) {between : String} (h : Complete between) :
    Alike (do let ys ← xs.mapM f; return "(" ++ between.intercalate ys ++ ")")
      (do let ys ← xs.mapM g; return "(" ++ between.intercalate ys ++ ")") := by
  have hLeft : ∀ y ∈ (xs.mapM f).value, Complete y := by
    rw [value_mapM, List.forall_mem_map]
    exact fun x hx => (hxs x hx).left
  have hRight : ∀ y ∈ (xs.mapM g).value, Complete y := by
    rw [value_mapM, List.forall_mem_map]
    exact fun x hx => (hxs x hx).right
  have hListed := complete_intercalate h hLeft
  have hListed' := complete_intercalate h hRight
  refine ⟨hListed.parens, hListed'.parens, frame_parens.outside hListed hListed' ?_, ?_⟩
  · -- item by item they show the same, and the separators are the same
    rw [outside_intercalate h hLeft, outside_intercalate h hRight, value_mapM, value_mapM,
      List.map_map, List.map_map]
    exact congrArg _ (List.map_congr_left fun x hx => (hxs x hx).outside)
  · simp only [faults_bind, faults_pure, List.append_nil, faults_mapM, List.flatMap_eq_nil_iff]
    exact forall₂_congr fun x hx => (hxs x hx).faultless

end Alike

end Draft

/-! ## An operand and its masked operand -/

namespace Context

/-- Two answers of a rule: both are texts that read the same outside quotes, or both refuse. -/
inductive Agree : Except Cause String → Except Cause String → Prop
  | ok {a b : String} (ha : Complete a) (hb : Complete b) (h : outside a = outside b) :
      Agree (.ok a) (.ok b)
  | error (c d : Cause) : Agree (.error c) (.error d)

/-- A rule that writes a term agrees with itself. -/
theorem agree_self {rule : Except Cause String} (h : ∀ sql, rule = .ok sql → Term sql) :
    Agree rule rule := by
  cases rule with
  | ok sql => exact .ok (h sql rfl).complete (h sql rfl).complete rfl
  | error cause => exact .error cause cause

/-- A literal agrees with its masked literal: all that is read outside quotes is the quote. -/
theorem agree_literal {l : Literal} (h : l.isWritable = true) :
    Agree (.ok l.text) (.ok l.masked.text) := by
  cases l with
  | string value =>
    -- all that is read of a quoted text is its opening quote
    refine .ok (Text.complete_quote h) (Text.complete_quote rfl) ?_
    exact (Text.outside_quote h).trans (Text.outside_quote rfl).symm
  | number written =>
    have hTerm := (Literal.term_text h).complete
    exact .ok hTerm hTerm rfl

/-- What is settled by rules that agree is alike, wherever the two stand. -/
theorem settle_alike {cx : Context} {s s' : Span} {standIn : String}
    {rule rule' : Except Cause String} (h : Agree rule rule') (hStandIn : Complete standIn) :
    (cx.settle s standIn rule).Alike (cx.settle s' standIn rule') := by
  -- both write, or both refuse and the stand-in is the same
  cases h with
  | ok ha hb h => exact ⟨ha, hb, h, Iff.rfl⟩
  | error c d => exact ⟨hStandIn, hStandIn, rfl, by simp [settle]⟩

variable {cx : Context}

/-- An item of a list and its masked item are written or refused alike. -/
theorem itemSql?_agree {o : Operand} (h : o.isWritable = true) :
    Agree (cx.itemSql? o) (cx.itemSql? o.masked) := by
  cases o with
  | literal value => exact agree_literal h
  | _ => exact .error _ _

theorem listItem_alike {o : Spanned Operand} (h : o.value.isWritable = true) :
    (cx.listItem o).Alike (cx.listItem (maskedOperand o)) :=
  (settle_alike (itemSql?_agree h) term_noValue.complete).framed
    (frame_after (complete_ofList rfl))

variable (hSchema : cx.schema.Quotable)
include hSchema

/-- Where one value is needed, an operand and its masked operand are written or refused alike. -/
theorem scalarSql?_agree {o : Operand} (h : o.isWritable = true) :
    Agree (cx.scalarSql? o) (cx.scalarSql? o.masked) := by
  cases o with
  | literal value => exact agree_literal h
  | _ => exact agree_self fun _ hSql => scalarSql?_term hSchema h hSql

theorem setSql?_agree (o : Operand) : Agree (cx.setSql? o) (cx.setSql? o.masked) := by
  cases o with
  | literal value => exact .error _ _
  | _ => exact agree_self fun _ hSql => setSql?_term hSchema hSql

theorem scalar_alike {o : Spanned Operand} (h : o.value.isWritable = true) :
    (cx.scalar o).Alike (cx.scalar (maskedOperand o)) :=
  settle_alike (scalarSql?_agree hSchema h) term_noValue.complete

/-- The right side of a comparison is written like its masked right side. -/
theorem rightSide_alike (op : Comparison) {c : Spanned Comparand} (h : c.value.isWritable = true) :
    (cx.rightSide op c).Alike (cx.rightSide op (maskedComparand c)) := by
  obtain ⟨o | items, span⟩ := c
  · unfold rightSide
    split
    · exact settle_alike (setSql?_agree hSchema o) term_noSet.complete
    · exact settle_alike (scalarSql?_agree hSchema h) term_noValue.complete
  · unfold rightSide
    split
    · have hItems : ∀ o ∈ items,
          (cx.listItem o).Alike ((cx.listItem ∘ maskedOperand) o) :=
        fun o ho => listItem_alike (List.all_eq_true.mp h o ho)
      have hListed := Draft.Alike.listed hItems (complete_ofList rfl : Complete ",")
      rw [← List.mapM_map] at hListed
      exact hListed
    · -- where one value is needed, a list is refused whatever it holds
      exact settle_alike (.error _ _) term_noValue.complete

/-! ## Conditions and sort keys -/

/-- A condition is written like its masked condition. -/
theorem condition_alike {e : Expr} (h : e.isWritable = true) :
    (cx.condition e).Alike (cx.condition e.masked) := by
  induction e with
  | operand s o => exact scalar_alike hSchema h
  | malformed s => exact ⟨term_noValue.complete, term_noValue.complete, rfl, Iff.rfl⟩
  | group s inner ih => exact (ih h).framed frame_parens
  | not s inner ih =>
    -- whether `NOT` needs parentheses does not depend on literals
    rw [Expr.masked, condition_not, condition_not, Expr.isGroup_masked]
    refine (ih h).framed ((frame_after (complete_ofList rfl)).comp ?_)
    split
    · exact frame_id
    · exact frame_parens
  | and s lhs rhs ihl ihr =>
    rw [Expr.isWritable, Bool.and_eq_true] at h
    exact (ihl h.1).joined (ihr h.2) (complete_ofList rfl)
  | or s lhs rhs ihl ihr =>
    rw [Expr.isWritable, Bool.and_eq_true] at h
    exact (ihl h.1).joined (ihr h.2) (complete_ofList rfl)
  | compare s lhs op rhs =>
    rw [Expr.isWritable, Bool.and_eq_true] at h
    rw [Expr.masked, condition_compare, condition_compare]
    exact (scalar_alike hSchema h.1).joined (rightSide_alike hSchema op.value h.2)
      (sealed_comparison op.value).toComplete

/-- A sort key is written like its masked sort key. -/
theorem orderTerm_alike {t : OrderTerm} (h : t.operand.value.isWritable = true) :
    (cx.orderTerm t).Alike (cx.orderTerm t.masked) := by
  have hKey := scalar_alike hSchema h
  have hFrame : Frame fun key => if t.descending then key ++ " DESC" else key := by
    split
    · exact frame_before (complete_ofList rfl)
    · exact frame_id
  exact hKey.framed hFrame

/-! ## Clauses -/

variable (cx)

/-- A filter reads outside quotes like the masked filter, and has faults just if that has. -/
theorem filterOf_masked {c : Option Expr} (h : ∀ e, c = some e → e.isWritable = true) :
    outside (cx.filterOf c).value.sql = outside (cx.filterOf (c.map Expr.masked)).value.sql ∧
      ((cx.filterOf c).faults = [] ↔ (cx.filterOf (c.map Expr.masked)).faults = []) := by
  cases c with
  | none => exact ⟨rfl, Iff.rfl⟩
  | some e =>
    have hAlike := condition_alike hSchema (h e rfl)
    refine ⟨hAlike.outside, ?_⟩
    simp only [filterOf, Option.map_some, Draft.faults_bind, Draft.faults_pure, List.append_nil]
    exact hAlike.faultless

/-- Sort keys read outside quotes like the masked ones, and have faults just if those have. -/
theorem orderOf_masked {keys : List OrderTerm}
    (h : ∀ t ∈ keys, t.operand.value.isWritable = true) :
    (cx.orderOf (OrderTerm.listed? keys)).value.map outside =
        (cx.orderOf (OrderTerm.listed? (keys.map OrderTerm.masked))).value.map outside ∧
      ((cx.orderOf (OrderTerm.listed? keys)).faults = [] ↔
        (cx.orderOf (OrderTerm.listed? (keys.map OrderTerm.masked))).faults = []) := by
  cases keys with
  | nil => exact ⟨rfl, Iff.rfl⟩
  | cons t ts =>
    -- masking a key changes what is in its quotes only
    have hAlike : ∀ k ∈ t :: ts, (cx.orderTerm k).Alike (cx.orderTerm k.masked) :=
      fun k hk => orderTerm_alike hSchema (h k hk)
    simp only [orderOf_listed?_cons, List.map_cons]
    rw [← List.map_cons]
    simp only [Draft.value_mapM, Draft.faults_mapM, List.map_map, List.flatMap_eq_nil_iff,
      List.forall_mem_map]
    exact ⟨List.map_congr_left fun k hk => (hAlike k hk).outside,
      forall₂_congr fun k hk => (hAlike k hk).faultless⟩

end Context

/-- **Literals are confined to their quotes.** With a schema that was built, two requests that are
read without a complaint, as trees that differ only in places and in the values of string literals,
are accepted or refused together. The condition and each sort key compiled for the one read, outside
quotes, as those compiled for the other, character by character and at the same depths. -/
theorem literals_confined {declared : List Layer} {roles : Roles} {schema : Schema}
    (hBuild : Schema.build declared roles = .ok schema) (root : Root) {r₁ r₂ : Request}
    (hRead₁ : r₁.isReadable = true) (hRead₂ : r₂.isReadable = true)
    (hCondition : r₁.condition?.map Expr.masked = r₂.condition?.map Expr.masked)
    (hKeys : r₁.sortKeys.map OrderTerm.masked = r₂.sortKeys.map OrderTerm.masked) :
    ((r₁.compile schema root).isOk = true ↔ (r₂.compile schema root).isOk = true) ∧
    outside (Context.filter ⟨schema, root, .filter⟩ r₁.expression).value.sql =
      outside (Context.filter ⟨schema, root, .filter⟩ r₂.expression).value.sql ∧
    (Context.order ⟨schema, root, .order⟩ r₁.order).value.map outside =
      (Context.order ⟨schema, root, .order⟩ r₂.order).value.map outside := by
  have hSchema := Schema.quotable_of_build hBuild
  obtain ⟨hText₁, hFaults₁⟩ := Context.filterOf_masked ⟨schema, root, .filter⟩ hSchema
    fun e he => (Request.sound_of_isReadable hRead₁ he).writable
  obtain ⟨hText₂, hFaults₂⟩ := Context.filterOf_masked ⟨schema, root, .filter⟩ hSchema
    fun e he => (Request.sound_of_isReadable hRead₂ he).writable
  obtain ⟨hTexts₁, hNone₁⟩ := Context.orderOf_masked ⟨schema, root, .order⟩ hSchema
    fun t ht => r₁.isWritable_of_mem_sortKeys ht
  obtain ⟨hTexts₂, hNone₂⟩ := Context.orderOf_masked ⟨schema, root, .order⟩ hSchema
    fun t ht => r₂.isWritable_of_mem_sortKeys ht
  -- both runs meet in the run on the masked trees
  rw [hCondition] at hText₁ hFaults₁
  rw [hKeys] at hTexts₁ hNone₁
  rw [Request.compile_isOk_iff, Request.compile_isOk_iff, Context.filter_of_isReadable _ hRead₁,
    Context.filter_of_isReadable _ hRead₂, Context.order_of_isReadable _ hRead₁,
    Context.order_of_isReadable _ hRead₂, hFaults₁, hNone₁, hFaults₂, hNone₂]
  exact ⟨Iff.rfl, hText₁.trans hText₂.symm, hTexts₁.trans hTexts₂.symm⟩

/-- A harmless request. -/
def plainRequest : Request :=
  { expression := "'x' IN labels('transcript_x') AND (id = '' OR id IN ('a', 1))"
    select := "transcript.transcript_id"
    order := some "'k' DESC, id" }

/-- The same with literals that try to get out of their quotes. -/
def hostileRequest : Request :=
  { expression :=
      "'\\') OR (\\'' IN labels(\"transcript_x\") AND (id = \"'\\\"?\\\\\" OR id IN (' AND ', 1))"
    select := "transcript.transcript_id"
    order := some "\"k', (\" DESC, id" }

theorem hostileRequest_confined :
    (plainRequest.isReadable = true ∧ hostileRequest.isReadable = true) ∧
    ((plainRequest.compile awkwardSchema .transcript).isOk = true ↔
      (hostileRequest.compile awkwardSchema .transcript).isOk = true) ∧
    (plainRequest.compile awkwardSchema .transcript).isOk = true ∧
    outside (Context.filter ⟨awkwardSchema, .transcript, .filter⟩
        plainRequest.expression).value.sql =
      outside (Context.filter ⟨awkwardSchema, .transcript, .filter⟩
        hostileRequest.expression).value.sql := by
  -- both requests are read once, so the facts about them are decided together
  obtain ⟨hPlain, hHostile, hCondition, hKeys, hCompiles⟩ :
      plainRequest.isReadable = true ∧ hostileRequest.isReadable = true ∧
        plainRequest.condition?.map Expr.masked = hostileRequest.condition?.map Expr.masked ∧
        plainRequest.sortKeys.map OrderTerm.masked = hostileRequest.sortKeys.map OrderTerm.masked ∧
        (plainRequest.compile awkwardSchema .transcript).isOk = true := by
    decide +kernel
  obtain ⟨hOk, hText, -⟩ := literals_confined build_awkwardLayer .transcript hPlain hHostile
    hCondition hKeys
  exact ⟨⟨hPlain, hHostile⟩, hOk, hCompiles, hText⟩

end AnnotationQuery
