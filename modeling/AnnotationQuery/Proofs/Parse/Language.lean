import AnnotationQuery.Proofs.Parse.Accepted

/-!
# The language of filters

A text that falls into tokens is always read as something. Two things can be wrong
with it, and each is reported once: a part of the tree that could not be read, and
tokens behind the tree. A text without either is in the language of the grammar, and
its tree is the tree of its derivation. As no two derivations have the same word,
there is no choice in this.

Main results:

* `diagnostics_account_for_parts` — how many complaints there are.
* `filter_accepts_grammar` — when there are none.
-/

namespace AnnotationQuery.Parse

open AnnotationQuery.Parse.Parser
open AnnotationQuery.Grammar

variable {source : String} {ts rest : Tokens}

theorem length_leftover (rest : Tokens) :
    (leftover rest).length = if rest = [] then 0 else 1 := by
  cases rest <;> rfl

/-- The number of parts of a filter that could not be read. -/
def malformedParts (tree : Option Expr) : Nat :=
  tree.elim 0 Expr.malformedParts

/-- A filter without malformed parts is derived, also the empty one. -/
theorem optional_condition_takes :
    (Parser.optional condition).Takes fun tree w =>
      malformedParts tree = 0 → ∃ d : Grammar.Filter, d.tokens = w ∧
        d.tree = tree.map Expr.unplaced := by
  refine Takes.optional (condition_takes.mono fun e w hDerives hWhole => ?_)
    fun _ => ⟨.empty, rfl, rfl⟩
  obtain ⟨p, hTokens, hTree⟩ := hDerives.2 hWhole
  exact ⟨.condition p, hTokens, congrArg some hTree⟩

/-- What is read and what is left over decide the output and the number of diagnostics. -/
theorem filter_of_outcome (hLex : Token.lex source = .ok ts) {tree : Option Expr}
    (h : (Parser.optional condition).outcome ts = some (tree, rest)) :
    (filter source).output = some tree ∧
      (filter source).diagnostics.length = malformedParts tree + (leftover rest).length := by
  have hReads := optional_condition_reads (Token.wellFormed_of_lex hLex)
  unfold Parser.wp at hReads
  unfold outcome at h
  rcases hRun : Parser.optional condition ts Notes.empty with ⟨_ | r, n⟩
  · rw [hRun] at h
    cases h
  · rw [hRun] at h hReads
    cases h
    have hFilter : filter source = ⟨some tree,
        n.errors.map (·.diagnostic (endSpan (Text.byteLength source.toList) ts)) ++
          leftover rest⟩ := by
      unfold filter readSource readTokens
      rw [hLex]
      simp only [hRun]
    -- each malformed part was reported by one error
    have hErrors : n.errors.length = malformedParts tree := by
      cases tree with
      | none => rw [hReads.2]; rfl
      | some e => exact hReads.2.malformed.symm
    rw [hFilter, List.length_append, List.length_map, hErrors]
    exact ⟨rfl, rfl⟩

/-- What is optional never fails. -/
theorem exists_outcome_optional {α : Type} (p : Parser α) (ts : Tokens) :
    ∃ a rest, (Parser.optional p).outcome ts = some (a, rest) := by
  rw [outcome_optional]
  cases p.outcome ts with
  | none => exact ⟨none, ts, rfl⟩
  | some r => exact ⟨some r.1, r.2, rfl⟩

/-- **Diagnostics account for what was not read.** A text that falls into tokens has a tree, there
is one diagnostic for each malformed part of it and one more if tokens are left over. So without a
diagnostic nothing is malformed and nothing is left. -/
theorem diagnostics_account_for_parts (hLex : Token.lex source = .ok ts) :
    ∃ tree read rest, ts = read ++ rest ∧
      (Parser.optional condition).outcome ts = some (tree, rest) ∧
      (filter source).output = some tree ∧
      (filter source).diagnostics.length = malformedParts tree + (if rest = [] then 0 else 1) ∧
      ((filter source).diagnostics = [] → malformedParts tree = 0 ∧ read = ts) := by
  -- a filter is always read, if only in part
  obtain ⟨tree, rest, hRead⟩ := exists_outcome_optional condition ts
  obtain ⟨read, hSplit, -⟩ := optional_condition_takes hRead
  obtain ⟨hOutput, hCount⟩ := filter_of_outcome hLex hRead
  rw [length_leftover] at hCount
  refine ⟨tree, read, rest, hSplit, hRead, hOutput, hCount, fun hNone => ?_⟩
  -- without diagnostics both summands are zero
  rw [hNone, List.length_nil, eq_comm, Nat.add_eq_zero_iff] at hCount
  obtain ⟨hWhole, hRest⟩ := hCount
  refine ⟨hWhole, ?_⟩
  have hEnd : rest = [] := by
    by_contra hSome
    rw [if_neg hSome] at hRest
    cases hRest
  rw [hSplit, hEnd, List.append_nil]

/-- A text with a malformed term, a malformed group and something left over. -/
def damagedSource : String :=
  "= 1 OR (id id) OR label 'x'"

/-- The tokens of the damaged text. -/
def damagedTokens : Tokens :=
  (Token.lex damagedSource).toOption.getD []

theorem damagedSource_accounted :
    Token.lex damagedSource = .ok damagedTokens ∧
      (filter damagedSource).diagnostics.length = 3 ∧
      ∃ tree read rest, damagedTokens = read ++ rest ∧
        (Parser.optional condition).outcome damagedTokens = some (tree, rest) ∧
        (filter damagedSource).output = some tree ∧
        (filter damagedSource).diagnostics.length =
          malformedParts tree + (if rest = [] then 0 else 1) ∧
        ((filter damagedSource).diagnostics = [] →
          malformedParts tree = 0 ∧ read = damagedTokens) := by
  obtain ⟨hLex, hCount⟩ : Token.lex damagedSource = .ok damagedTokens ∧
      (filter damagedSource).diagnostics.length = 3 := by
    decide +kernel
  exact ⟨hLex, hCount, diagnostics_account_for_parts hLex⟩

/-- A derivation of all tokens is how they are read. -/
theorem outcome_of_derivation (d : Grammar.Filter) (hTokens : d.tokens = values ts) :
    ∃ tree, (Parser.optional condition).outcome ts = some (tree, []) ∧ malformedParts tree = 0 ∧
      tree.map Expr.unplaced = d.tree := by
  cases d with
  | empty =>
    cases values_eq_nil hTokens.symm
    exact ⟨none, rfl, rfl, rfl⟩
  | condition p =>
    obtain ⟨e, hYields, hWhole, hTree⟩ := (phrase_readAs p hTokens.symm).yields
    refine ⟨some e, ?_, hWhole, congrArg some hTree⟩
    rw [outcome_optional, outcome_condition_of_yields hYields]
    rfl

/-- A text that is read without a diagnostic has a derivation. -/
theorem exists_derivation (hLex : Token.lex source = .ok ts)
    (hNone : (filter source).diagnostics = []) : ∃ d : Grammar.Filter, d.tokens = values ts := by
  obtain ⟨tree, rest, hRead⟩ := exists_outcome_optional condition ts
  have hCount := (filter_of_outcome hLex hRead).2
  rw [hNone, List.length_nil, eq_comm, Nat.add_eq_zero_iff] at hCount
  cases leftover_eq_nil (List.length_eq_zero_iff.mp hCount.2)
  obtain ⟨read, rfl, hDerived⟩ := optional_condition_takes hRead
  obtain ⟨d, hTokens, -⟩ := hDerived hCount.1
  exact ⟨d, by rw [hTokens, List.append_nil]⟩

/-- **The filter parser accepts exactly its grammar and builds the derivation.** A text that falls
into tokens is read without a diagnostic if and only if its tokens have a derivation. Then they have
only the one, and the output is its tree. -/
theorem filter_accepts_grammar (hLex : Token.lex source = .ok ts) :
    ((filter source).diagnostics = [] ↔ ∃ d : Grammar.Filter, d.tokens = values ts) ∧
      ∀ d : Grammar.Filter, d.tokens = values ts →
        (∀ d' : Grammar.Filter, d'.tokens = values ts → d' = d) ∧
          (filter source).output.map (Option.map Expr.unplaced) = some d.tree := by
  refine ⟨⟨exists_derivation hLex, fun ⟨d, hTokens⟩ => ?_⟩,
    fun d hTokens => ⟨fun d' hTokens' => ?_, ?_⟩⟩
  · obtain ⟨tree, hRead, hWhole, -⟩ := outcome_of_derivation d hTokens
    rw [← List.length_eq_zero_iff, (filter_of_outcome hLex hRead).2, hWhole]
    rfl
  · -- the grammar is unambiguous
    exact Filter.tokens_injective (hTokens'.trans hTokens.symm)
  · obtain ⟨tree, hRead, -, hTree⟩ := outcome_of_derivation d hTokens
    rw [(filter_of_outcome hLex hRead).1, Option.map_some, hTree]

/-- A text with every connective, a group and a list. -/
def layeredSource : String :=
  "NOT (a.label <> 'x' OR labels('y').length NOT IN (1, \"z\")) AND id"

/-- The tokens of the layered text. -/
def layeredTokens : Tokens :=
  (Token.lex layeredSource).toOption.getD []

/-- The derivation of the layered text. -/
def layeredFilter : Grammar.Filter :=
  .condition (.last (.join
    (.not (.group (.join
      (.last (.predicate (.member "a" "label") (some (.ne, .one (.string (.single "x"))))))
      (.last (.last (.predicate (.labels (.single "y") true)
        (some (.notIn, .list (.number "1") [.string (.double "z")]))))))))
    (.last (.predicate (.bare "id") none))))

theorem layeredSource_accepted :
    Token.lex layeredSource = .ok layeredTokens ∧ layeredFilter.tokens = values layeredTokens ∧
      (filter layeredSource).diagnostics = [] ∧
      (∀ d : Grammar.Filter, d.tokens = values layeredTokens → d = layeredFilter) ∧
      (filter layeredSource).output.map (Option.map Expr.unplaced) = some layeredFilter.tree := by
  have hLex : Token.lex layeredSource = .ok layeredTokens := by decide +kernel
  have hTokens : layeredFilter.tokens = values layeredTokens := by decide
  obtain ⟨hAccepted, hTree⟩ := filter_accepts_grammar hLex
  exact ⟨hLex, hTokens, hAccepted.mpr ⟨_, hTokens⟩, hTree _ hTokens⟩

end AnnotationQuery.Parse
