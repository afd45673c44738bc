import AnnotationQuery.Proofs.Compile.Pointing

/-!
# Places inside places

Seen from far enough away, a tree is nothing but places inside places: that of a condition
has those of its operands in it, that of an operand those of the names in it. `Nest` is
this view, the same for every kind of node. A nest is *over* a run of tokens if its place
goes from the first of them to the last, and the nests inside it are over runs inside this
one, which follow each other and do not overlap.

What the parser gives is over its tokens whatever the text is. Malformed parts are places
like any other, only with nothing inside. The one thing that a nest does not show is that
the place of two conditions that are joined is made from their places alone, not from the
tokens; `Expr.Joined` says it.

Main results:

* `operandNest_over`, `comparandNest_over`, `Expr.nest_over` — one lemma for each kind of node.
* `orderTerms_inTurn` — the sort keys of an order list.
* `places_are_hulls` — filters and order lists.
-/

namespace AnnotationQuery

open Parse (Tokens)
open Parse.Parser (hull)

/-! ## Nests -/

/-- A place and the places inside it, from left to right. -/
inductive Nest where
  | node (span : Span) (inside : List Nest)

namespace Nest

/-- A place with nothing inside. -/
def leaf (s : Span) : Nest :=
  node s []

mutual

/-- The place is that of the run, and what is inside it is over runs inside this one. -/
inductive Over : Nest → Tokens → Prop where
  | node {inside : List Nest} {run : Tokens} (hSome : run ≠ []) (hInside : InTurn inside run) :
      Over (.node (hull run) inside) run

/-- The nests are over runs inside this one, each behind the one before it. -/
inductive InTurn : List Nest → Tokens → Prop where
  | nil (run : Tokens) : InTurn [] run
  | cons {n : Nest} {ns : List Nest} {run after : Tokens} (before : Tokens) (hFirst : Over n run)
      (hMore : InTurn ns after) : InTurn (n :: ns) (before ++ (run ++ after))

end

/-- Nests in turn over two runs are in turn over both together. -/
theorem InTurn.append {ns ns' : List Nest} {run run' : Tokens} (h : InTurn ns run)
    (h' : InTurn ns' run') : InTurn (ns ++ ns') (run ++ run') := by
  induction ns generalizing run with
  | nil =>
    -- the first run holds nothing, so all of it comes before the nests of the second
    cases h' with
    | nil => exact .nil _
    | cons before hFirst hMore =>
      rw [← List.append_assoc]
      exact .cons _ hFirst hMore
  | cons n ns ih =>
    cases h with
    | cons before hFirst hMore =>
      rw [List.append_assoc, List.append_assoc]
      exact .cons before hFirst (ih hMore)

/-- Tokens around a run do not change what is in turn over it. -/
theorem InTurn.between {ns : List Nest} {run : Tokens} (h : InTurn ns run)
    (before after : Tokens) : InTurn ns (before ++ (run ++ after)) := by
  have hAfter := h.append (InTurn.nil after)
  rw [List.append_nil] at hAfter
  exact (InTurn.nil before).append hAfter

theorem Over.inTurn {n : Nest} {run : Tokens} (h : n.Over run) : InTurn [n] run := by
  have hOne : InTurn [n] ([] ++ (run ++ [])) := .cons [] h (.nil [])
  rwa [List.append_nil, List.nil_append] at hOne

/-- Two nests with a token between them. -/
theorem Over.beside {n n' : Nest} {run run' : Tokens} (h : n.Over run) (h' : n'.Over run')
    (t : Spanned Token) : InTurn [n, n'] (run ++ t :: run') := by
  have hRight : InTurn [n'] (t :: run') := (InTurn.nil [t]).append h'.inTurn
  exact h.inTurn.append hRight

theorem leaf_over {run : Tokens} (h : run ≠ []) : (leaf (hull run)).Over run :=
  .node h (.nil _)

/-- Places of tokens of a run are nests over these tokens. -/
theorem inTurn_of_tokenPlaces {places : List Span} {run : Tokens}
    (h : Parse.TokenPlaces places run) : InTurn (places.map leaf) run := by
  induction run generalizing places with
  | nil =>
    cases List.sublist_nil.mp h
    exact .nil _
  | cons t run ih =>
    rcases places with _ | ⟨s, places⟩
    · exact .nil _
    · -- either the first place is that of the first token, or all places are further on
      rcases List.cons_sublist_cons'.mp h with hLater | ⟨rfl, hRest⟩
      · exact (InTurn.nil [t]).append (ih hLater)
      · exact (leaf_over (List.cons_ne_nil t [])).inTurn.append (ih hRest)

end Nest

/-! ## Trees as nests -/

/-- An operand with the names in it. -/
def operandNest (o : Spanned Operand) : Nest :=
  .node o.span (o.value.places.map Nest.leaf)

/-- The right side of a comparison: an operand, or a list with its items. -/
def comparandNest (c : Spanned Comparand) : Nest :=
  match c.value with
  | .one o => operandNest ⟨o, c.span⟩
  | .list items => .node c.span (items.map operandNest)

namespace Expr

/-- A condition with all that is in it. -/
def nest : Expr → Nest
  | operand s o => .node s [operandNest o]
  | compare s lhs op rhs => .node s [operandNest lhs, Nest.leaf op.span, comparandNest rhs]
  | not s inner | group s inner => .node s [inner.nest]
  | and s lhs rhs | or s lhs rhs => .node s [lhs.nest, rhs.nest]
  | malformed s => Nest.leaf s

/-- Wherever two conditions are joined, the place goes from the start of the left one to the end of
the right one. -/
def Joined : Expr → Prop
  | and s lhs rhs | or s lhs rhs => s = lhs.span.hull rhs.span ∧ lhs.Joined ∧ rhs.Joined
  | not _ inner | group _ inner => inner.Joined
  | operand _ _ | compare _ _ _ _ | malformed _ => True

end Expr

/-- An operand is over the run that it was read from, with the places of names inside. -/
theorem operandNest_over {o : Spanned Operand} {run : Tokens} (h : OperandOver o run) :
    (operandNest o).Over run := by
  rw [operandNest, h.span]
  exact .node h.ne_nil (Nest.inTurn_of_tokenPlaces h.places)

/-- The items of a list are in turn over their run, commas between them. -/
theorem itemsNest_inTurn {items : List (Spanned Operand)} {run : Tokens}
    (h : ItemsOver items run) : Nest.InTurn (items.map operandNest) run := by
  induction h with
  | nil => exact .nil _
  | @cons o os s run more hItem hMore ih =>
    -- the comma stands before the item
    exact .cons [⟨.symbol .comma, s⟩] (operandNest_over hItem) ih

/-- The right side of a comparison is over the run that it was read from. -/
theorem comparandNest_over {c : Spanned Comparand} {run : Tokens} (h : ComparandOver c run) :
    (comparandNest c).Over run := by
  cases h with
  | one h => exact operandNest_over h
  | @list first items s s' run more hFirst hMore =>
    refine .node (List.cons_ne_nil _ _) ?_
    have hItems := (operandNest_over hFirst).inTurn.append (itemsNest_inTurn hMore)
    exact hItems.between [⟨.symbol .lparen, s⟩] [⟨.symbol .rparen, s'⟩]

namespace Expr

/-- A condition is over the tokens that it was read from. -/
theorem nest_over {e : Expr} {run : Tokens} (h : e.Over run) : e.nest.Over run := by
  have hSome := h.ne_nil
  induction h with
  | operand h => exact .node hSome (operandNest_over h).inTurn
  | @compare lhs op rhs run run' run'' hLhs hOp hSpan hRhs =>
    -- a comparison has one token or two, never none
    have hTokens : run' ≠ [] := Parse.ne_nil_of_comparisonTokens hOp
    have hOpOver : (Nest.leaf op.span).Over run' := by
      rw [hSpan]
      exact Nest.leaf_over hTokens
    have hTail := hOpOver.inTurn.append (comparandNest_over hRhs).inTurn
    exact .node hSome ((operandNest_over hLhs).inTurn.append hTail)
  | @not inner s run h ih =>
    exact .node hSome ((Nest.InTurn.nil [⟨.keyword .not, s⟩]).append (ih h.ne_nil).inTurn)
  | @group inner s s' run h ih =>
    exact .node hSome ((ih h.ne_nil).inTurn.between [⟨.symbol .lparen, s⟩] [⟨.symbol .rparen, s'⟩])
  | @and lhs rhs s run run' hLhs hRhs ihl ihr | @or lhs rhs s run run' hLhs hRhs ihl ihr =>
    exact .node hSome ((ihl hLhs.ne_nil).beside (ihr hRhs.ne_nil) _)
  | malformed h => exact Nest.leaf_over h

/-- A condition that was read from a run is joined from end to end. -/
theorem joined_of_over {e : Expr} {run : Tokens} (h : e.Over run) : e.Joined := by
  induction h with
  | @and lhs rhs s run run' hLhs hRhs ihl ihr | @or lhs rhs s run run' hLhs hRhs ihl ihr =>
    -- the connective is neither the first token nor the last
    refine ⟨?_, ihl, ihr⟩
    rw [hLhs.span_eq, hRhs.span_eq]
    exact Parse.hull_append_cons hLhs.ne_nil hRhs.ne_nil _
  | not h ih => exact ih
  | group h ih => exact ih
  | operand | compare | malformed => exact trivial

end Expr

namespace Parse

open AnnotationQuery.Parse.Parser

variable {source : String} {ts rest : Tokens}

/-- The sort keys of an order list are in turn over the tokens. -/
theorem orderTerms_inTurn :
    orderTerms.Covers fun terms run =>
      Nest.InTurn (terms.map fun t => operandNest t.operand) run := by
  refine orderTerms_covers (fun run => .nil run) (fun t run after ho => ?_)
    fun terms run terms' run' h h' => ?_
  · -- the direction stands behind the operand
    have hOne := (operandNest_over ho).inTurn.append (Nest.InTurn.nil after)
    rwa [List.append_nil] at hOne
  · rw [List.map_append]
    exact h.append h'

/-- A complaint about tokens that are left over is made exactly if there are such tokens. -/
theorem complaint_leftover_iff (hLex : Token.lex source = .ok ts) {tree : Option Expr}
    (h : (Parser.optional condition).outcome ts = some (tree, rest)) :
    (∃ d ∈ (filter source).diagnostics, d.complaint = .leftover) ↔ rest ≠ [] := by
  have hRead : ∃ errors : List Failure, (filter source).diagnostics =
      errors.map (·.diagnostic (endSpan (Text.byteLength source.toList) ts)) ++ leftover rest := by
    unfold outcome at h
    unfold filter readSource readTokens
    rw [hLex]
    rcases hRun : Parser.optional condition ts Notes.empty with ⟨_ | r, n⟩
    · rw [hRun] at h
      cases h
    · rw [hRun] at h
      cases h
      exact ⟨n.errors, by simp only [hRun]⟩
  obtain ⟨errors, hErrors⟩ := hRead
  rw [hErrors]
  constructor
  · rintro ⟨d, hd, hComplaint⟩ rfl
    -- a failure is about a token or about the end of the text
    have hNone : leftover [] = [] := rfl
    rw [hNone, List.append_nil] at hd
    obtain ⟨f, -, rfl⟩ := List.mem_map.mp hd
    unfold Failure.diagnostic at hComplaint
    cases hFound : f.found <;> simp [hFound] at hComplaint
  · intro hSome
    obtain ⟨t, more, rfl⟩ := List.exists_cons_of_ne_nil hSome
    exact ⟨⟨.leftover, hull (t :: more)⟩, List.mem_append_right _ (List.mem_singleton_self _), rfl⟩

/-- **Every place in a tree is that of a run of tokens.** Whatever is malformed in a text that falls
into tokens, the condition that it is read as stands over tokens from the first one on, and over all
of them unless some are left over. So does everything in it, each thing over tokens of what it is
part of and behind the tokens of what comes before it. Where two conditions are joined, the place
goes from the start of the left one to the end of the right one. The operands of an order list stand
over tokens of the list in the same way. -/
theorem places_are_hulls (hLex : Token.lex source = .ok ts) :
    (∃ tree run rest, (filter source).output = some tree ∧ ts = run ++ rest ∧
      ((∃ d ∈ (filter source).diagnostics, d.complaint = .leftover) ↔ rest ≠ []) ∧
      ∀ e, tree = some e → e.nest.Over run ∧ e.Joined) ∧
    ∃ terms, (order source).output = some terms ∧
      Nest.InTurn (terms.map fun t => operandNest t.operand) ts := by
  constructor
  · obtain ⟨tree, rest, hRead⟩ := exists_outcome_optional condition ts
    have hOver : (Parser.optional condition).Covers
        fun tree run => ∀ e, tree = some e → e.Over run := by
      refine Covers.optional (condition_over.mono fun _ _ he _ hSome => ?_) fun _ hSome => ?_
      · cases hSome
        exact he
      · cases hSome
    obtain ⟨run, hSplit, hTree⟩ := hOver hRead
    refine ⟨tree, run, rest, (filter_of_outcome hLex hRead).1, hSplit,
      complaint_leftover_iff hLex hRead, fun e he => ?_⟩
    exact ⟨Expr.nest_over (hTree e he), Expr.joined_of_over (hTree e he)⟩
  · obtain ⟨terms, rest, hRead⟩ := exists_outcome_orderTerms ts
    obtain ⟨run, rfl, hTerms⟩ := orderTerms_inTurn hRead
    refine ⟨terms, by rw [order_of_outcome hLex hRead], ?_⟩
    -- what is left over comes behind the last operand
    have hAll := hTerms.append (Nest.InTurn.nil rest)
    rwa [List.append_nil] at hAll

/-- A text with every kind of place in it, a group that is malformed and a token that is left
over. -/
def crowdedSource : String :=
  "labels('é') NOT IN (1, part.label) AND (id id) OR NOT my(\"x\").label = 2 label"

/-- The tokens of the crowded text. -/
def crowdedTokens : Tokens :=
  (Token.lex crowdedSource).toOption.getD []

/-- Each kind of place is over its run, although a group is malformed and a token is left over. -/
theorem crowdedSource_places :
    Token.lex crowdedSource = .ok crowdedTokens ∧
      (∃ e run rest, (filter crowdedSource).output = some (some e) ∧
        crowdedTokens = run ++ rest ∧ rest ≠ [] ∧ e.nest.Over run ∧ e.Joined) ∧
      ∃ terms, (order crowdedSource).output = some terms ∧
        Nest.InTurn (terms.map fun t => operandNest t.operand) crowdedTokens := by
  obtain ⟨hLex, hLeft, hSome⟩ : Token.lex crowdedSource = .ok crowdedTokens ∧
      (∃ d ∈ (filter crowdedSource).diagnostics, d.complaint = .leftover) ∧
      (filter crowdedSource).output.join.isSome = true := by
    decide +kernel
  obtain ⟨⟨tree, run, rest, hTree, hSplit, hRest, hOver⟩, hOrder⟩ := places_are_hulls hLex
  rw [hTree] at hSome
  obtain ⟨e, rfl⟩ := Option.isSome_iff_exists.mp hSome
  exact ⟨hLex, ⟨e, run, rest, hTree, hSplit, hRest.mp hLeft, hOver e rfl⟩, hOrder⟩

end Parse

end AnnotationQuery
