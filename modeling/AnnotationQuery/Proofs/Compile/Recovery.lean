import AnnotationQuery.Proofs.Compile.FailFast
import AnnotationQuery.Proofs.Parse.Extend
import AnnotationQuery.Proofs.Parse.Language
import AnnotationQuery.Proofs.Storage.Fragment
import AnnotationQuery.Proofs.Token.Layout

/-!
# What damage in the text does to the faults around it

Faults about the meaning of a filter are found term by term, each in its own place. So
what becomes of them when another part of the text is damaged is decided by how the
terms are read.

Text behind a whole filter and a connective does no harm: whatever it is, the faults of
the filter come first and stay the same. Text before it can do harm. A malformed term
is skipped, and everything behind it is still looked at, only if no operand stands at
its front. Where one does, the filter ends behind what could be read, and no term
after that is looked at.

Main results:

* `faults_kept_before_damage` — damage behind a filter.
* `faults_behind_malformed_term` — a malformed term before a filter.
-/

namespace AnnotationQuery

open Grammar
open Parse (Tokens values movedTokens isPlain leadsWithOperand)

/-! ## Faults about the meaning of a filter -/

/-- Whether a fault is about the meaning of what was read, not about what could not be read. -/
def Fault.isSemantic (f : Fault) : Bool :=
  match f.cause with
  | .malformed _ => false
  | _ => true

namespace Request

/-- All that is wrong with a request. -/
def faults (r : Request) (schema : Schema) (root : Root) : List Fault :=
  match r.compile schema root with
  | .ok _ => []
  | .error rejection => rejection.faults

/-- What is wrong with the meaning of the filter. -/
def filterFaults (r : Request) (schema : Schema) (root : Root) : List Fault :=
  (r.faults schema root).filter fun f => f.isSemantic && f.clause == .filter

/-- The request with another filter. -/
def withExpression (r : Request) (source : String) : Request :=
  { r with expression := source }

end Request

/-- No layer is refused for not being read. -/
theorem Context.layerRefusal?_ne_malformed (cx : Context) (function : LayerFunction) (id : String)
    (message : String) : cx.layerRefusal? function id ≠ some (.malformed message) := by
  unfold layerRefusal?
  split
  · simp
  · split
    · simp
    · split <;> simp

/-- Nothing that was read is refused for not being read. -/
theorem Context.refusal?_ne_malformed (cx : Context) (o : Occurrence) (message : String) :
    cx.refusal? o ≠ some (.malformed message) := by
  -- each refusal names its cause, except that of a layer
  have hLayer := fun function id => cx.layerRefusal?_ne_malformed function id message
  obtain ⟨o | items, s⟩ | ⟨o, s⟩ | ⟨o, s⟩ := o
  · cases o with
    | layer function id =>
      simp only [refusal?]
      split
      · simp
      · exact hLayer function id.value
    | ordinal =>
      simp only [refusal?]
      split <;> simp
    | _ => simp [refusal?]
  · simp [refusal?]
  · cases o with
    | layer function id =>
      simp only [refusal?]
      split
      · exact hLayer function id.value
      · simp
    | _ => simp [refusal?]
  · cases o <;> simp [refusal?]

/-- The fault of something that was read is about its meaning, in the clause at hand. -/
theorem Context.isSemantic_of_fault? {cx : Context} {o : Occurrence} {f : Fault}
    (h : cx.fault? o = some f) : f.isSemantic = true ∧ f.clause = cx.clause := by
  obtain ⟨cause, hCause, rfl⟩ := Option.map_eq_some_iff.mp h
  refine ⟨?_, rfl⟩
  cases cause with
  | malformed message => exact absurd hCause (cx.refusal?_ne_malformed o message)
  | _ => rfl

namespace Request

variable {r : Request} {schema : Schema} {root : Root}

/-- What is wrong with a request is what it is rejected for. -/
theorem faults_eq_complaints : r.faults schema root = r.complaints schema root := by
  rw [faults, compile_eq_draft, ← faults_draft]
  by_cases hNone : (r.draft schema root).faults = []
  · rw [Draft.clean?_of_faultless hNone, hNone]
  · rw [Draft.clean?_of_faults hNone]

/-- What is wrong with the meaning of a filter are the faults of the operands in it. -/
theorem filterFaults_eq :
    r.filterFaults schema root = (r.condition?.toList.flatMap Expr.occurrences).filterMap
      (Context.fault? ⟨schema, root, .filter⟩) := by
  have hUnread : ∀ (clause : Clause) (ds : List Diagnostic),
      (ds.map fun d => (⟨.malformed d.message, clause, d.span⟩ : Fault)).filter
        (fun f => f.isSemantic && f.clause == .filter) = [] := by
    intro clause ds
    rw [List.filter_eq_nil_iff]
    intro f hf
    obtain ⟨d, -, rfl⟩ := List.mem_map.mp hf
    exact Bool.false_ne_true
  -- of the four parts of the complaints, the second is kept and the others go
  rw [filterFaults, faults_eq_complaints, complaints]
  simp only [List.filter_append, hUnread, List.nil_append, List.append_nil]
  have hKept : ∀ f ∈ (r.condition?.toList.flatMap Expr.occurrences).filterMap
      (Context.fault? ⟨schema, root, .filter⟩), (f.isSemantic && f.clause == .filter) = true := by
    intro f hf
    obtain ⟨o, -, ho⟩ := List.mem_filterMap.mp hf
    obtain ⟨hSemantic, hClause⟩ := Context.isSemantic_of_fault? ho
    rw [hSemantic, hClause]
    rfl
  have hGone : ((r.sortKeys.map OrderTerm.occurrence).filterMap
      (Context.fault? ⟨schema, root, .order⟩)).filter
        (fun f => f.isSemantic && f.clause == .filter) = [] := by
    rw [List.filter_eq_nil_iff]
    intro f hf
    obtain ⟨o, -, ho⟩ := List.mem_filterMap.mp hf
    rw [(Context.isSemantic_of_fault? ho).2, Bool.and_comm]
    exact Bool.false_ne_true
  rw [List.filter_eq_self.mpr hKept, hGone, List.append_nil]

/-- The faults of a filter of which a condition was read, whatever is left over. -/
theorem filterFaults_of_outcome {source : String} {ts rest : Tokens} {e : Expr}
    (hLex : Token.lex source = .ok ts) (h : Parse.condition.outcome ts = some (e, rest)) :
    (r.withExpression source).filterFaults schema root =
      e.occurrences.filterMap (Context.fault? ⟨schema, root, .filter⟩) := by
  have hTree : (Parse.Parser.optional Parse.condition).outcome ts = some (some e, rest) := by
    rw [Parse.Parser.outcome_optional, h]
    rfl
  rw [filterFaults_eq, condition?, withExpression, (Parse.filter_of_outcome hLex hTree).1]
  simp only [Option.join_some, Option.toList_some, List.flatMap_singleton]

/-- A blank filter has no meaning that could be wrong. -/
theorem filterFaults_of_blank {source : String} (hLex : Token.lex source = .ok []) :
    (r.withExpression source).filterFaults schema root = [] := by
  have hTree : (Parse.Parser.optional Parse.condition).outcome [] = some (none, []) := rfl
  rw [filterFaults_eq, condition?, withExpression, (Parse.filter_of_outcome hLex hTree).1]
  rfl

end Request

/-! ## Faults by terms and by places -/

namespace Expr

/-- The operands of a condition are those of its terms. -/
theorem occurrences_eq_terms (e : Expr) : e.occurrences = e.terms.flatMap occurrences := by
  induction e with
  | and s lhs rhs ihl ihr => rw [occurrences, terms, List.flatMap_append, ← ihl, ← ihr]
  | or s lhs rhs ihl ihr => rw [occurrences, terms, List.flatMap_append, ← ihl, ← ihr]
  | _ => exact (List.flatMap_singleton _ _).symm

/-- A skipped part has no operands. -/
theorem occurrences_of_isSkipped {e : Expr} (h : e.isSkipped = true) : e.occurrences = [] := by
  induction e with
  | malformed s => rfl
  | not s inner ih => exact ih h
  | _ => cases h

end Expr

/-- The occurrence with all its places changed. -/
def Occurrence.moved (f : Span → Span) : Occurrence → Occurrence
  | scalar c => scalar (movedComparand f c)
  | set o => set (movedOperand f o)
  | item o => item (movedOperand f o)

/-- The fault at the changed place. -/
def Fault.moved (f : Span → Span) (x : Fault) : Fault :=
  ⟨x.cause, x.clause, f x.span⟩

section
variable (f : Span → Span)

theorem Operand.text_moved (o : Operand) : (o.moved f).text = o.text := by
  cases o <;> rfl

/-- How a right side is written does not depend on its places. -/
theorem Comparand.text_moved (c : Comparand) : (c.moved f).text = c.text := by
  cases c with
  | one o => exact o.text_moved f
  | list items =>
    rw [moved, text, text, List.map_map]
    simp only [Function.comp_def, movedOperand, Operand.text_moved]

/-- What occurs on the right of a comparison moves with it. -/
theorem Comparison.occurrences_moved (op : Comparison) (c : Spanned Comparand) :
    op.occurrences (movedComparand f c) = (op.occurrences c).map (Occurrence.moved f) := by
  obtain ⟨o | items, s⟩ := c
  · unfold occurrences
    split <;> rfl
  · unfold occurrences
    split
    · simp only [movedComparand, Comparand.moved, List.map_map]
      rfl
    · rfl

/-- What occurs in a condition moves with it. -/
theorem Expr.occurrences_moved (e : Expr) :
    (e.moved f).occurrences = e.occurrences.map (Occurrence.moved f) := by
  induction e with
  | operand s o => rfl
  | compare s lhs op rhs =>
    rw [moved, occurrences, occurrences, List.map_cons, ← Comparison.occurrences_moved]
    rfl
  | not s inner ih => exact ih
  | group s inner ih => exact ih
  | and s lhs rhs ihl ihr => rw [moved, occurrences, occurrences, ihl, ihr, List.map_append]
  | or s lhs rhs ihl ihr => rw [moved, occurrences, occurrences, ihl, ihr, List.map_append]
  | malformed s => rfl

/-- Whether something is refused does not depend on where it stands. -/
theorem Context.refusal?_moved (cx : Context) (o : Occurrence) :
    cx.refusal? (o.moved f) = cx.refusal? o := by
  obtain ⟨o | items, s⟩ | ⟨o, s⟩ | ⟨o, s⟩ := o
  · cases o <;> rfl
  · show some (Cause.misplaced ((Comparand.list items).moved f).text _) = _
    rw [Comparand.text_moved]
    rfl
  · cases o <;> rfl
  · cases o <;> rfl

/-- The fault of a moved occurrence is its fault, moved. -/
theorem Context.fault?_moved (cx : Context) (o : Occurrence) :
    cx.fault? (o.moved f) = (cx.fault? o).map (Fault.moved f) := by
  have hSpan : (o.moved f).span = f o.span := by cases o <;> rfl
  rw [fault?, refusal?_moved, fault?, hSpan, Option.map_map]
  rfl

/-- The faults of moved occurrences are their faults, moved. -/
theorem Context.filterMap_fault?_moved (cx : Context) (os : List Occurrence) :
    (os.map (Occurrence.moved f)).filterMap cx.fault? =
      (os.filterMap cx.fault?).map (Fault.moved f) := by
  rw [List.filterMap_map, List.map_filterMap]
  exact List.filterMap_congr fun o _ => cx.fault?_moved f o

end

/-! ## Damage behind a filter -/

/-- The tokens of a filter without a diagnostic have a derivation, unless there are none. -/
theorem Parse.exists_phrase_of_clean {source : String} {ts : Tokens}
    (hLex : Token.lex source = .ok ts) (h : (filter source).diagnostics = []) :
    ts = [] ∨ ∃ p : Phrase (.chain .or), values ts = p.tokens := by
  obtain ⟨d, hTokens⟩ := exists_derivation hLex h
  cases d with
  | empty => exact Or.inl (values_eq_nil hTokens.symm)
  | condition p => exact Or.inr ⟨p, hTokens.symm⟩

/-- A filter without complaints has tokens. -/
theorem Parse.exists_lex_of_clean {source : String} (h : (filter source).diagnostics = []) :
    ∃ ts, Token.lex source = .ok ts := by
  cases hLex : Token.lex source with
  | error d =>
    unfold filter readSource at h
    rw [hLex] at h
    cases h
  | ok ts => exact ⟨ts, rfl⟩

/-- **Later damage does not disturb what is complete.** The faults about the meaning of a filter
are the first ones still when a connective and any text at all are written behind it, as long as
everything falls into tokens. -/
theorem faults_kept_before_damage (r : Request) (schema : Schema) (root : Root)
    {w gap c gap' text : String} {k : Connective} {s : Span}
    (hWhole : (Parse.filter w).diagnostics = []) (hText : Text.isBlankText w = false)
    (hGap : Token.isGap gap = true) (hConnective : Token.lex c = .ok [⟨k.token, s⟩])
    (hGap' : Token.isGap gap' = true)
    (hLex : (Token.lex (w ++ gap ++ c ++ gap' ++ text)).isOk = true) :
    (r.withExpression w).filterFaults schema root <+:
      (r.withExpression (w ++ gap ++ c ++ gap' ++ text)).filterFaults schema root := by
  obtain ⟨ws, hLexW⟩ := Parse.exists_lex_of_clean hWhole
  rcases Parse.exists_phrase_of_clean hLexW hWhole with rfl | ⟨p, hRun⟩
  · rw [Token.lex_eq_nil_iff.mp hLexW] at hText
    cases hText
  obtain ⟨s', us, hJoined⟩ : ∃ s' us, Token.lex (w ++ gap ++ c ++ gap' ++ text) =
      .ok (ws ++ ⟨k.token, s'⟩ :: us) := by
    rw [Token.lex_joined hLexW hGap hConnective hGap'] at hLex ⊢
    cases hRest : Token.lexFrom (Text.byteLength (w ++ gap ++ c ++ gap').toList) 0 text.toList with
    | error d =>
      rw [hRest] at hLex
      cases hLex
    | ok us => exact ⟨_, us, rfl⟩
  -- the terms of the filter are the first terms of what is read now
  obtain ⟨e, e', rest, hAlone, hRead, more, hMore⟩ :=
    Parse.outcome_condition_extended p hRun k s' us
  rw [Request.filterFaults_of_outcome hLexW hAlone, Request.filterFaults_of_outcome hJoined hRead,
    e.occurrences_eq_terms, e'.occurrences_eq_terms, ← hMore, List.flatMap_append,
    List.filterMap_append]
  exact List.prefix_append _ _

/-- A request for all transcripts. -/
def unfilteredRequest : Request :=
  { expression := "", select := "transcript.transcript_id" }

/-- A whole filter with an unknown layer and an operand without a meaning. -/
def faultyFilter : String :=
  "my('nope').label = 'x' OR nada"

theorem faultyFilter_kept :
    (unfilteredRequest.withExpression faultyFilter).filterFaults awkwardSchema .transcript =
        [⟨.unknownLayer "my('nope').label" "nope", .filter, ⟨0, 16⟩⟩,
          ⟨.unsupportedOperand "nada" .transcript, .filter, ⟨26, 30⟩⟩] ∧
      (unfilteredRequest.withExpression faultyFilter).filterFaults awkwardSchema .transcript <+:
        (unfilteredRequest.withExpression
          (faultyFilter ++ "\n" ++ "and" ++ " " ++ "(id = AND ) other IN")).filterFaults
            awkwardSchema .transcript := by
  have hAnd : Token.lex "and" = .ok [⟨Connective.and.token, ⟨0, 3⟩⟩] := by decide
  -- the two texts are read once, so the facts about them are decided together
  obtain ⟨hWhole, hLex, hFaults⟩ : (Parse.filter faultyFilter).diagnostics = [] ∧
      (Token.lex (faultyFilter ++ "\n" ++ "and" ++ " " ++ "(id = AND ) other IN")).isOk = true ∧
      (unfilteredRequest.withExpression faultyFilter).filterFaults awkwardSchema .transcript =
        [⟨.unknownLayer "my('nope').label" "nope", .filter, ⟨0, 16⟩⟩,
          ⟨.unsupportedOperand "nada" .transcript, .filter, ⟨26, 30⟩⟩] := by
    decide +kernel
  exact ⟨hFaults, faults_kept_before_damage unfilteredRequest awkwardSchema .transcript hWhole
    (by decide) (by decide) hAnd (by decide) hLex⟩

/-! ## Damage before a filter -/

section
variable {r : Request} {schema : Schema} {root : Root} {joined : String} {ts : Tokens} {s : Span}

/-- Behind a malformed text with an operand at its front, nothing is looked at. -/
theorem Request.filterFaults_behind_operand {b : String} {us : Tokens}
    (hLex : Token.lex b = .ok ts) (hPlain : ∀ t ∈ ts, isPlain t.value = true)
    (hLeads : leadsWithOperand (values ts) = true) (hMalformed : (Parse.filter b).diagnostics ≠ [])
    (hJoined : Token.lex joined = .ok (ts ++ ⟨.keyword .and, s⟩ :: us)) :
    (r.withExpression joined).filterFaults schema root =
      (r.withExpression b).filterFaults schema root := by
  obtain ⟨e, left, hRead, hAlone, hFramed⟩ := Parse.outcome_condition_framed hLeads hPlain
  -- what was read has no malformed part, so what is malformed is left over
  have hLeft : left ≠ [] := by
    rintro rfl
    have hTree : (Parse.Parser.optional Parse.condition).outcome ts = some (some e, []) := by
      rw [Parse.Parser.outcome_optional, hAlone]
      rfl
    refine hMalformed (List.length_eq_zero_iff.mp ?_)
    rw [(Parse.filter_of_outcome hLex hTree).2]
    exact hRead
  rw [filterFaults_of_outcome hLex hAlone,
    filterFaults_of_outcome hJoined (hFramed hLeft _ (Parse.follows_token rfl))]

/-- Behind a malformed text without an operand at its front, a filter is read as it would be alone,
and the text itself has no fault. -/
theorem Request.filterFaults_behind_skipped {w : String} {ws : Tokens} {f : Span → Span}
    (hSome : ts ≠ []) (hPlain : ∀ t ∈ ts, isPlain t.value = true)
    (hLeads : leadsWithOperand (values ts) = false) (hLexW : Token.lex w = .ok ws)
    (hWhole : (Parse.filter w).diagnostics = []) (hf : Span.Rigid f)
    (hJoined : Token.lex joined = .ok (ts ++ ⟨.keyword .and, s⟩ :: movedTokens f ws)) :
    (r.withExpression joined).filterFaults schema root =
      ((r.withExpression w).filterFaults schema root).map (Fault.moved f) := by
  obtain ⟨first, hSkipped, hFirst⟩ := Parse.exists_skipped_term hSome hPlain hLeads
  have hNone := Expr.occurrences_of_isSkipped hSkipped
  rcases Parse.exists_phrase_of_clean hLexW hWhole with rfl | ⟨p, hRun⟩
  · -- nothing stands behind the connective, which is left over
    have hRead := Parse.outcome_condition_of_unary (hFirst _ (Parse.follows_token rfl))
      (Parse.outcome_further_dangling s)
    rw [filterFaults_of_outcome hJoined hRead, filterFaults_of_blank hLexW, hNone]
    rfl
  · obtain ⟨e, e', hAlone, hRead, hTerms⟩ := Parse.outcome_condition_behind hFirst p hRun hf
    have hOccurrences : e'.occurrences = e.occurrences.map (Occurrence.moved f) := by
      rw [e'.occurrences_eq_terms, hTerms, List.flatMap_append, ← first.occurrences_eq_terms,
        hNone, List.nil_append, List.flatMap_map]
      simp only [Expr.occurrences_moved]
      rw [← List.map_flatMap, ← e.occurrences_eq_terms]
    rw [filterFaults_of_outcome hJoined hRead, hOccurrences, Context.filterMap_fault?_moved,
      filterFaults_of_outcome hLexW hAlone]

end

/-- **What a malformed term does to the faults behind it.** Let a malformed text without connectives
and parentheses be joined to a whole filter by `AND`. If an operand stands at its front, negations
aside, then the filter behind it is not looked at, and the faults are those of the text alone. If
not, then the text is skipped, and the faults are those of the filter, at their new places. -/
theorem faults_behind_malformed_term (r : Request) (schema : Schema) (root : Root)
    {b gap c gap' w : String} {ts : Tokens} {s : Span} (hLex : Token.lex b = .ok ts)
    (hSome : ts ≠ []) (hPlain : ∀ t ∈ ts, isPlain t.value = true)
    (hMalformed : (Parse.filter b).diagnostics ≠ []) (hGap : Token.isGap gap = true)
    (hAnd : Token.lex c = .ok [⟨.keyword .and, s⟩]) (hGap' : Token.isGap gap' = true)
    (hWhole : (Parse.filter w).diagnostics = []) :
    (r.withExpression (b ++ gap ++ c ++ gap' ++ w)).filterFaults schema root =
      if leadsWithOperand (values ts) then (r.withExpression b).filterFaults schema root
      else ((r.withExpression w).filterFaults schema root).map
        (Fault.moved (Span.shift (Text.byteLength (b ++ gap ++ c ++ gap').toList))) := by
  obtain ⟨ws, hLexW⟩ := Parse.exists_lex_of_clean hWhole
  -- the filter has the tokens that it has alone, further on
  have hJoined : Token.lex (b ++ gap ++ c ++ gap' ++ w) =
      .ok (ts ++ ⟨.keyword .and, s.shift (Text.byteLength (b ++ gap).toList)⟩ ::
        movedTokens (Span.shift (Text.byteLength (b ++ gap ++ c ++ gap').toList)) ws) := by
    have hShift := Token.lexFrom_shift hLexW (Text.byteLength (b ++ gap ++ c ++ gap').toList)
    rw [Nat.zero_add] at hShift
    rw [Token.lex_joined hLex hGap hAnd hGap', hShift]
    rfl
  cases hLeads : leadsWithOperand (values ts) with
  | true => exact Request.filterFaults_behind_operand hLex hPlain hLeads hMalformed hJoined
  | false =>
    exact Request.filterFaults_behind_skipped hSome hPlain hLeads hLexW hWhole
      (Span.rigid_shift _) hJoined

/-- A malformed text that is skipped, and one that is not. -/
theorem faultyFilter_behind_malformed_terms :
    (unfilteredRequest.withExpression
        ("NOT = id" ++ " " ++ "AND" ++ " " ++ faultyFilter)).filterFaults
          awkwardSchema .transcript =
      ((unfilteredRequest.withExpression faultyFilter).filterFaults awkwardSchema .transcript).map
        (Fault.moved (Span.shift 13)) ∧
    (unfilteredRequest.withExpression
        ("other <" ++ " " ++ "AND" ++ " " ++ faultyFilter)).filterFaults
          awkwardSchema .transcript =
      (unfilteredRequest.withExpression "other <").filterFaults awkwardSchema .transcript := by
  have hAnd : Token.lex "AND" = .ok [⟨.keyword .and, ⟨0, 3⟩⟩] := by decide
  have hGap : Token.isGap " " = true := by decide
  obtain ⟨hWhole, hNot, hOther⟩ : (Parse.filter faultyFilter).diagnostics = [] ∧
      (Parse.filter "NOT = id").diagnostics ≠ [] ∧ (Parse.filter "other <").diagnostics ≠ [] := by
    decide +kernel
  -- a term that starts wrong is skipped, and one that stops short is left over with all behind it
  constructor
  · have hLex : Token.lex "NOT = id" =
        .ok [⟨.keyword .not, ⟨0, 3⟩⟩, ⟨.symbol .eq, ⟨4, 5⟩⟩, ⟨.ident "id", ⟨6, 8⟩⟩] := by
      decide
    have hFaults := faults_behind_malformed_term unfilteredRequest awkwardSchema .transcript hLex
      (by decide) (by decide) hNot hGap hAnd hGap hWhole
    exact hFaults
  · have hLex : Token.lex "other <" =
        .ok [⟨.ident "other", ⟨0, 5⟩⟩, ⟨.symbol .lt, ⟨6, 7⟩⟩] := by
      decide
    have hFaults := faults_behind_malformed_term unfilteredRequest awkwardSchema .transcript hLex
      (by decide) (by decide) hOther hGap hAnd hGap hWhole
    exact hFaults

/-- A comparison without its right side hides the fault behind it. -/
theorem unfinished_comparison_hides_fault :
    Token.lex "id =" = .ok [⟨.ident "id", ⟨0, 2⟩⟩, ⟨.symbol .eq, ⟨3, 4⟩⟩] ∧
      (Parse.filter "id =").diagnostics ≠ [] ∧
      (Parse.filter "my('nope').label = 'x'").diagnostics = [] ∧
      (unfilteredRequest.withExpression "my('nope').label = 'x'").filterFaults
        awkwardSchema .transcript ≠ [] ∧
      (unfilteredRequest.withExpression "id = AND my('nope').label = 'x'").filterFaults
        awkwardSchema .transcript = [] := by
  decide +kernel

end AnnotationQuery
