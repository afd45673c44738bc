import AnnotationQuery.Parse.Order
import AnnotationQuery.Proofs.Parse.Calculus
import AnnotationQuery.Proofs.Token.Lexer

/-!
# What the parser gives

Three things are true of every tree that is read from text, also of one with
malformed parts in it:

* its literals are *writable*: strings can be quoted and numbers have digits;
* it is *nested to the left*: the right side of a connective is never the same
  connective, and no side of `AND` is an `OR` without parentheses around it;
* each malformed part of it was reported by one error of its own.

All three are carried by one contract per parser, `Parser.Reads`, from the operands up.

Main results:

* `filter_output_sound`, `order_output_writable` — the first two, for whole texts.
* `filter_of_diagnostics_nil` — a filter read without a complaint is a condition
  without malformed parts, or blank.
* `order_of_diagnostics_nil` — an order list read without a complaint has a term, or is blank.
-/

namespace AnnotationQuery

/-! ## Trees that can be written as SQL -/

/-- Whether a literal can be written out: a string can be quoted, a number has its digits. -/
def Literal.isWritable : Literal → Bool
  | string value => Text.isQuotable value
  | number written => !written.toList.isEmpty && written.toList.all Token.isNumeric

/-- Whether the literal of an operand, if it is one, can be written out. -/
def Operand.isWritable : Operand → Bool
  | literal value => value.isWritable
  | _ => true

/-- Whether all literals of a comparand can be written out. -/
def Comparand.isWritable : Comparand → Bool
  | one operand => operand.isWritable
  | list items => items.all fun i => i.value.isWritable

namespace Expr

/-- Whether all literals of a condition can be written out. -/
def isWritable : Expr → Bool
  | operand _ o => o.value.isWritable
  | compare _ lhs _ rhs => lhs.value.isWritable && rhs.value.isWritable
  | not _ inner | group _ inner => inner.isWritable
  | and _ lhs rhs | or _ lhs rhs => lhs.isWritable && rhs.isWritable
  | malformed _ => true

/-- Whether the topmost connective is `AND`. -/
def isConjunction : Expr → Bool
  | and _ _ _ => true
  | _ => false

/-- Whether the topmost node is no connective. -/
def isUnit (e : Expr) : Bool :=
  !e.isDisjunction && !e.isConjunction

/-- Whether chains of connectives nest to the left and `OR` stands above `AND`, unless
parentheses or `NOT` come between. -/
def isLeftNested : Expr → Bool
  | and _ lhs rhs => !lhs.isDisjunction && rhs.isUnit && lhs.isLeftNested && rhs.isLeftNested
  | or _ lhs rhs => !rhs.isDisjunction && lhs.isLeftNested && rhs.isLeftNested
  | not _ inner | group _ inner => inner.isLeftNested
  | operand _ _ | compare _ _ _ _ | malformed _ => true

/-- The number of parts that could not be read. -/
def malformedParts : Expr → Nat
  | malformed _ => 1
  | operand _ _ | compare _ _ _ _ => 0
  | not _ inner | group _ inner => inner.malformedParts
  | and _ lhs rhs | or _ lhs rhs => lhs.malformedParts + rhs.malformedParts

/-- What is known of a condition that was read with `k` errors reported. -/
structure Sound (e : Expr) (k : Nat) : Prop where
  writable  : e.isWritable = true
  nested    : e.isLeftNested = true
  malformed : e.malformedParts = k

theorem sound_malformed (s : Span) : (malformed s).Sound 1 :=
  ⟨rfl, rfl, rfl⟩

theorem Sound.not {e : Expr} {k : Nat} (h : e.Sound k) (s : Span) : (Expr.not s e).Sound k :=
  ⟨h.writable, h.nested, h.malformed⟩

theorem Sound.group {e : Expr} {k : Nat} (h : e.Sound k) (s : Span) : (Expr.group s e).Sound k :=
  ⟨h.writable, h.nested, h.malformed⟩

/-- `AND` joins a chain without `OR` to a term without connectives. -/
theorem Sound.both {a b : Expr} {i j : Nat} (ha : a.Sound i) (hb : b.Sound j)
    (hLeft : a.isDisjunction = false) (hRight : b.isUnit = true) : (a.both b).Sound (i + j) := by
  refine ⟨?_, ?_, ?_⟩
  · simp [Expr.both, isWritable, ha.writable, hb.writable]
  · simp [Expr.both, isLeftNested, hLeft, hRight, ha.nested, hb.nested]
  · simp [Expr.both, malformedParts, ha.malformed, hb.malformed]

/-- `OR` joins any chain to a chain without `OR`. -/
theorem Sound.either {a b : Expr} {i j : Nat} (ha : a.Sound i) (hb : b.Sound j)
    (hRight : b.isDisjunction = false) : (a.either b).Sound (i + j) := by
  refine ⟨?_, ?_, ?_⟩
  · simp [Expr.either, isWritable, ha.writable, hb.writable]
  · simp [Expr.either, isLeftNested, hRight, ha.nested, hb.nested]
  · simp [Expr.either, malformedParts, ha.malformed, hb.malformed]

theorem isDisjunction_of_isUnit {e : Expr} (h : e.isUnit = true) : e.isDisjunction = false := by
  rw [isUnit, Bool.and_eq_true, Bool.not_eq_true'] at h
  exact h.1

end Expr

namespace Parse

open AnnotationQuery.Parse.Parser

/-- All tokens are as the lexer gives them. -/
def Lexed (ts : Tokens) : Prop :=
  ∀ t ∈ ts, t.value.WellFormed

theorem Lexed.suffix {ts rest : Tokens} (h : Lexed ts) (hRest : rest <:+ ts) : Lexed rest :=
  fun t ht => h t (hRest.subset ht)

/-- The next token is as the lexer gives it. -/
theorem Lexed.head {ts rest : Tokens} {t : Spanned Token} (h : Lexed ts) (hts : ts = t :: rest) :
    t.value.WellFormed :=
  h t (by rw [hts]; exact List.mem_cons_self)

/-! ## Operands -/

/-- Something that satisfies `P` was read, and nothing was reported. -/
def Silent {α : Type} (P : α → Prop) (a : α) (k : Nat) : Prop :=
  P a ∧ k = 0

/-- Something was read, and nothing was reported. -/
def Any {α : Type} : α → Nat → Prop :=
  Silent fun _ => True

variable {ts : Tokens}

theorem string_reads (hLexed : Lexed ts) :
    string.Reads (Silent fun v => Text.isQuotable v.value = true) ts :=
  reads_accept fun _ _ _ hts hv => ⟨Token.isQuotable_of_stringValue? (hLexed.head hts) hv, rfl⟩

theorem name_reads : name.Reads Any ts :=
  reads_accept fun _ _ _ _ _ => ⟨trivial, rfl⟩

/-- The lexer's numbers are read with all their digits. -/
theorem number_reads (hLexed : Lexed ts) :
    number.Reads (Silent fun w => (Literal.number w.value).isWritable = true) ts := by
  refine reads_accept fun t rest w hts hw => ⟨?_, rfl⟩
  have hWf := hLexed.head hts
  -- of all tokens, only a number is accepted here
  split at hw
  · next written hValue =>
    cases hw
    rw [hValue] at hWf
    obtain ⟨hNonempty, hNumeric⟩ := hWf
    simpa [Literal.isWritable, hNonempty] using hNumeric
  · cases hw

theorem layerArgument_reads (hLexed : Lexed ts) : layerArgument.Reads Any ts := by
  refine reads_exactly.then fun _ r _ hr => ?_
  refine (string_reads (hLexed.suffix hr)).then fun layerId r' _ _ => ?_
  exact reads_exactly.then fun _ _ _ _ => reads_pure ⟨trivial, rfl⟩

/-- What a parser of operands gives. -/
abbrev WritableOperand : Operand → Nat → Prop :=
  Silent fun o => o.isWritable = true

/-- `my('L').label` and `my('L').id` hold no literal that would have to be written out. -/
theorem myFunction_reads (hLexed : Lexed ts) : myFunction.Reads WritableOperand ts := by
  refine reads_exactly.then fun _ r _ hr => ?_
  refine (layerArgument_reads (hLexed.suffix hr)).then fun layerId r _ _ => ?_
  refine reads_exactly.then fun _ r _ _ => ?_
  have hFunction : ((do word "label"; return LayerFunction.label) <|>
      (do word "id"; return LayerFunction.id) : Parser LayerFunction).Reads Any r :=
    (reads_exactly.then fun _ _ _ _ => reads_pure ⟨trivial, rfl⟩).orElse
      (reads_exactly.then fun _ _ _ _ => reads_pure ⟨trivial, rfl⟩)
  exact hFunction.then fun _ _ _ _ => reads_pure ⟨rfl, rfl⟩

/-- `list('L').length` holds no literal that would have to be written out. -/
theorem listFunction_reads (hLexed : Lexed ts) : listFunction.Reads WritableOperand ts := by
  refine reads_exactly.then fun _ r _ hr => ?_
  refine (layerArgument_reads (hLexed.suffix hr)).then fun layerId r _ _ => ?_
  refine reads_exactly.then fun _ r _ _ => ?_
  exact reads_exactly.then fun _ _ _ _ => reads_pure ⟨rfl, rfl⟩

/-- `labels('L')`, with or without `.length`, holds no literal to be written out. -/
theorem labelsFunction_reads (hLexed : Lexed ts) : labelsFunction.Reads WritableOperand ts := by
  refine reads_exactly.then fun _ r _ hr => ?_
  refine (layerArgument_reads (hLexed.suffix hr)).then fun layerId r _ _ => ?_
  have hLength : (Parser.optional (do symbol .dot; word "length")).Reads Any r :=
    Reads.optional (reads_exactly.then fun _ _ _ _ => reads_exactly) ⟨trivial, rfl⟩
  exact hLength.then fun _ _ _ _ => reads_pure ⟨rfl, rfl⟩

theorem annotatorsFunction_reads (hLexed : Lexed ts) :
    annotatorsFunction.Reads WritableOperand ts := by
  refine reads_exactly.then fun _ r _ hr => ?_
  exact (layerArgument_reads (hLexed.suffix hr)).then fun _ _ _ _ => reads_pure ⟨rfl, rfl⟩

/-- The part of a name is no literal, whatever the names are. -/
theorem memberAccess_reads : memberAccess.Reads WritableOperand ts := by
  refine name_reads.then fun object r _ _ => ?_
  refine reads_exactly.then fun _ r _ _ => ?_
  refine name_reads.then fun part r _ _ => reads_pure ⟨?_, rfl⟩
  unfold memberOf
  split
  · rfl
  · split <;> rfl

/-- A bare name is no literal, whatever the name is. -/
theorem bareName_reads : bareName.Reads WritableOperand ts := by
  refine name_reads.then fun n r _ _ => reads_pure ⟨?_, rfl⟩
  unfold named
  repeat' split
  all_goals rfl

theorem literal_reads (hLexed : Lexed ts) : literal.Reads WritableOperand ts :=
  ((string_reads hLexed).then fun _ _ hv _ => reads_pure ⟨hv, rfl⟩).orElse
    ((number_reads hLexed).then fun _ _ hw _ => reads_pure ⟨hw, rfl⟩)

/-- Every operand that is read can be written out, and none is read with an error. -/
theorem operand_reads (hLexed : Lexed ts) :
    operand.Reads (Silent fun o => o.value.isWritable = true) ts := by
  refine Reads.located (Reads.mono (R := WritableOperand) ?_ fun o k ho s => ho)
  exact (myFunction_reads hLexed).orElse <| (listFunction_reads hLexed).orElse <|
    (labelsFunction_reads hLexed).orElse <| (annotatorsFunction_reads hLexed).orElse <|
    memberAccess_reads.orElse <| bareName_reads.orElse <| literal_reads hLexed

/-! ## Comparisons -/

/-- A comparison is read without errors. -/
theorem comparison_reads : comparison.Reads Any ts := by
  -- every alternative is one or two exact tokens
  have hOne : ∀ (t : Token) (c : Comparison),
      (do exactly t; return c : Parser Comparison).Reads Any ts :=
    fun t c => reads_exactly.then fun _ _ _ _ => reads_pure ⟨trivial, rfl⟩
  have hTwo : ∀ (t u : Token) (c : Comparison),
      (do exactly t; exactly u; return c : Parser Comparison).Reads Any ts :=
    fun t u c => reads_exactly.then fun _ _ _ _ => reads_exactly.then fun _ _ _ _ =>
      reads_pure ⟨trivial, rfl⟩
  refine Reads.located (Reads.mono (R := Any) ?_ fun _ _ h _ => h)
  exact (hOne _ _).orElse <| (hOne _ _).orElse <| (hOne _ _).orElse <| (hOne _ _).orElse <|
    (hOne _ _).orElse <| (hOne _ _).orElse <| (hOne _ _).orElse <| (hTwo _ _ _).orElse <|
    (hTwo _ _ _).orElse <| hOne _ _

/-- What a parser of comparands gives. -/
abbrev WritableComparand : Spanned Comparand → Nat → Prop :=
  Silent fun c => c.value.isWritable = true

/-- All operands of a list can be written out. -/
theorem operandList_reads (hLexed : Lexed ts) : operandList.Reads WritableComparand ts := by
  refine Reads.located (Reads.mono (R := Silent fun c : Comparand => c.isWritable = true) ?_
    fun _ _ h _ => h)
  refine reads_exactly.then fun _ r _ hr => ?_
  have hItems := Reads.separatedBy (fun r' hr' => operand_reads (hLexed.suffix (hr'.trans hr)))
    fun _ => reads_exactly (t := .symbol .comma)
  refine hItems.bind fun items k r' hEach _ => ?_
  -- no item was read with an error
  obtain ⟨hAll, rfl⟩ := each_silent hEach.2
  refine reads_exactly.then fun _ _ _ _ => reads_pure ⟨?_, rfl⟩
  simpa [Comparand.isWritable] using hAll

theorem comparand_reads (hLexed : Lexed ts) : comparand.Reads WritableComparand ts :=
  (operandList_reads hLexed).orElse
    ((operand_reads hLexed).then fun _ _ ho _ => reads_pure ⟨ho, rfl⟩)

/-- What a parser of a term gives, once the span is filled in: a sound condition that is no chain
of connectives. -/
def SoundUnit (f : Span → Expr) (k : Nat) : Prop :=
  ∀ s, (f s).Sound k ∧ (f s).isUnit = true

/-- An operand, compared or not, is a sound condition without a connective at the top. -/
theorem predicate_reads (hLexed : Lexed ts) : predicate.Reads SoundUnit ts := by
  refine (operand_reads hLexed).then fun lhs r hLhs hr => ?_
  have hTail : (Parser.optional (do
      let op ← comparison
      let rhs ← comparand
      return (op, rhs))).Reads
        (Silent fun tail => ∀ p ∈ tail, p.2.value.isWritable = true) r := by
    refine Reads.optional ?_ ⟨by simp, rfl⟩
    refine comparison_reads.then fun op r' _ hr' => ?_
    refine (comparand_reads (hLexed.suffix (hr'.trans hr))).then fun rhs _ hRhs _ => ?_
    exact reads_pure ⟨by simpa using hRhs, rfl⟩
  refine hTail.then fun tail _ hRhs _ => ?_
  -- with and without a comparison, only the literals need a look
  cases tail with
  | none => exact reads_pure fun s => ⟨⟨hLhs, rfl, rfl⟩, rfl⟩
  | some p =>
    have hBoth : (lhs.value.isWritable && p.2.value.isWritable) = true := by
      rw [hLhs, hRhs p rfl]
      rfl
    exact reads_pure fun s => ⟨⟨hBoth, rfl, rfl⟩, rfl⟩

/-! ## Recoveries -/

theorem notParenthesis_reads : notParenthesis.Reads Any ts :=
  Reads.then (P := fun _ => True) (reads_accept fun _ _ _ _ _ => ⟨trivial, rfl⟩)
    fun _ _ _ _ => reads_pure ⟨trivial, rfl⟩

/-- With a bound above the number of tokens the nesting is never cut short, so that a failure is
always the failure of some token. -/
theorem balancedUpTo_reads {bound : Nat} (hBound : ts.length < bound) :
    (balancedUpTo bound).Reads Any ts := by
  induction bound generalizing ts with
  | zero => omega
  | succ bound ih =>
    refine Reads.after_exactly fun r hr hLength => ?_
    -- what stands inside is shorter than the bound that is left
    have hInside : (Parser.many (balancedUpTo bound <|> notParenthesis)).Reads (Each Any) r := by
      refine Reads.many fun r' hr' => ?_
      have hShorter := hr'.length_le
      exact (ih (by omega)).orElse notParenthesis_reads
    refine hInside.bind fun inside k _ hEach _ => ?_
    obtain ⟨-, rfl⟩ := each_silent hEach
    exact reads_exactly.mono fun _ _ h => by simpa [Any, Silent] using h

/-- A token is skipped unless it ends the term. -/
theorem skippedToken_reads : skippedToken.Reads Any ts := by
  intro n
  unfold Parser.wp skippedToken
  cases ts with
  | nil => exact isSome_furthest_offer n _
  | cons t rest =>
    by_cases hEnds : endsTerm t.value = true
    · simp only [hEnds, if_true]
      exact isSome_furthest_offer n _
    · simp only [hEnds, Bool.false_eq_true, if_false]
      exact ⟨List.suffix_cons t rest, 0, rfl, trivial, rfl⟩

/-! ## Conditions -/

section
variable {condition : Parser Expr}

/-- The condition inside a group is read from fewer tokens. -/
def ReadsInside (condition : Parser Expr) (ts : Tokens) : Prop :=
  ∀ rest, rest <:+ ts → rest.length < ts.length → condition.Reads Expr.Sound rest

/-- What can be read inside a group can be read inside a later one. -/
theorem ReadsInside.suffix {rest : Tokens} (h : ReadsInside condition ts) (hRest : rest <:+ ts) :
    ReadsInside condition rest := by
  intro r hr hLength
  have hShorter := hRest.length_le
  exact h r (hr.trans hRest) (by omega)

/-- A group is sound, or it is skipped as one malformed part. -/
theorem group_reads (hInside : ReadsInside condition ts) :
    (group condition).Reads SoundUnit ts := by
  refine Reads.recover ?_ ?_
  · refine Reads.after_exactly fun r hr hLength => ?_
    refine (hInside r hr hLength).bind fun inner k _ hInner _ => ?_
    exact reads_exactly.then fun _ _ _ _ => reads_pure fun s => ⟨hInner.group s, rfl⟩
  · -- the stand-in: a balanced run, reported once
    have hBalanced : balanced.Reads Any ts :=
      (balancedUpTo_reads (Nat.lt_succ_self ts.length)).congr fun _ => rfl
    exact hBalanced.then fun _ _ _ _ => reads_pure fun s => ⟨Expr.sound_malformed s, rfl⟩

/-- What a parser of a condition without connectives gives. -/
abbrev SoundTerm (e : Expr) (k : Nat) : Prop :=
  e.Sound k ∧ e.isUnit = true

/-- A term is a group, a predicate or a malformed part, and in each case sound and without a
connective at the top. -/
theorem term_reads (hLexed : Lexed ts) (hInside : ReadsInside condition ts) :
    (term condition).Reads SoundTerm ts := by
  refine Reads.withSpan (Reads.recover ?_ ?_)
  · exact (group_reads hInside).orElse (predicate_reads hLexed)
  · -- the stand-in: the tokens up to the end of the term, reported once
    refine (Reads.atLeastOne fun _ _ => skippedToken_reads).bind fun skipped k _ hEach _ => ?_
    obtain ⟨-, rfl⟩ := each_silent hEach
    exact reads_pure fun s => ⟨Expr.sound_malformed s, rfl⟩

/-- Negations are read up to any bound above the number of tokens. -/
theorem negationUpTo_reads {bound : Nat} (hBound : ts.length < bound) (hLexed : Lexed ts)
    (hInside : ReadsInside condition ts) : (negationUpTo condition bound).Reads SoundTerm ts := by
  induction bound generalizing ts with
  | zero => omega
  | succ bound ih =>
    refine Reads.orElse ?_ (term_reads hLexed hInside)
    refine Reads.withSpan (Reads.after_exactly fun r hr hLength => ?_)
    refine (ih (by omega) (hLexed.suffix hr) (hInside.suffix hr)).bind fun inner k _ hInner _ => ?_
    exact reads_pure fun s => ⟨hInner.1.not s, rfl⟩

theorem negation_reads (hLexed : Lexed ts) (hInside : ReadsInside condition ts) :
    (negation condition).Reads SoundTerm ts :=
  (negationUpTo_reads (Nat.lt_succ_self ts.length) hLexed hInside).congr fun _ => rfl

/-- A chain of `AND` is sound and no `OR`. -/
theorem conjunction_reads (hLexed : Lexed ts) (hInside : ReadsInside condition ts) :
    (conjunction condition).Reads (fun e k => e.Sound k ∧ e.isDisjunction = false) ts := by
  refine Reads.chain (fun r hr => negation_reads (hLexed.suffix hr) (hInside.suffix hr))
    (fun _ => reads_exactly) ?_ ?_
  · rintro e k ⟨hSound, hUnit⟩
    exact ⟨hSound, Expr.isDisjunction_of_isUnit hUnit⟩
  · -- joining one more term keeps the chain nested to the left
    rintro a b i j ⟨ha, hLeft⟩ ⟨hb, hUnit⟩
    exact ⟨ha.both hb hLeft hUnit, rfl⟩

/-- A chain of `OR` is sound. -/
theorem disjunction_reads (hLexed : Lexed ts) (hInside : ReadsInside condition ts) :
    (disjunction condition).Reads Expr.Sound ts := by
  refine Reads.chain (fun r hr => conjunction_reads (hLexed.suffix hr) (hInside.suffix hr))
    (fun _ => reads_exactly) ?_ ?_
  · rintro e k ⟨hSound, -⟩
    exact hSound
  · rintro a b i j ha ⟨hb, hRight⟩
    exact ha.either hb hRight

end

/-- Conditions are read up to any bound above the number of tokens. -/
theorem conditionUpTo_reads {bound : Nat} (hBound : ts.length < bound) (hLexed : Lexed ts) :
    (conditionUpTo bound).Reads Expr.Sound ts := by
  induction bound generalizing ts with
  | zero => omega
  | succ bound ih =>
    -- the parenthesis before an inner condition takes one token and one from the bound
    refine disjunction_reads hLexed fun r hr hLength => ?_
    exact ih (by omega) (hLexed.suffix hr)

theorem condition_reads (hLexed : Lexed ts) : condition.Reads Expr.Sound ts :=
  (conditionUpTo_reads (Nat.lt_succ_self ts.length) hLexed).congr fun _ => rfl

/-! ## Whole texts -/

/-- A parser that cannot fail gives an output, and its diagnostics are its errors and one for
leftover tokens. -/
theorem exists_of_readTokens {α : Type} {p : Parser α} {Q : α → Tokens → Notes → Prop}
    (size : Nat) (h : p.wp Q (fun _ => False) ts Notes.empty) :
    ∃ a rest n, readTokens p size ts =
      ⟨some a, n.errors.map (·.diagnostic (endSpan size ts)) ++ leftover rest⟩ ∧ Q a rest n := by
  unfold Parser.wp at h
  unfold readTokens
  rcases hp : p ts Notes.empty with ⟨_ | ⟨a, rest⟩, n⟩
  · rw [hp] at h
    exact h.elim
  · rw [hp] at h
    exact ⟨a, rest, n, rfl, h⟩

/-- What is left over when a filter has been read: all of it if no condition stands there, and
otherwise what follows a sound condition. -/
def FilterRead (ts : Tokens) : Option Expr → Tokens → Notes → Prop
  | none, rest, n => rest = ts ∧ n.errors = []
  | some e, rest, n => rest <:+ ts ∧ e.Sound n.errors.length

/-- A filter never fails: either a sound condition is read, or nothing at all. -/
theorem optional_condition_reads (hLexed : Lexed ts) :
    (Parser.optional condition).wp (FilterRead ts) (fun _ => False) ts Notes.empty := by
  rw [wp_optional]
  refine wp_mono (condition_reads hLexed Notes.empty) ?_ ?_
  · rintro e rest n' ⟨hRest, k, hk, hSound⟩
    refine ⟨hRest, ?_⟩
    have hLength : n'.errors.length = k := by simpa [Notes.empty] using hk
    rw [hLength]
    exact hSound
  · intro n' _
    exact ⟨rfl, rfl⟩

/-- The output of a filter and its diagnostics, for a text that has tokens. -/
theorem filter_reading {source : String} (hLex : Token.lex source = .ok ts) :
    ∃ o rest n, filter source =
      ⟨some o, n.errors.map (·.diagnostic (endSpan (Text.byteLength source.toList) ts)) ++
        leftover rest⟩ ∧ FilterRead ts o rest n := by
  unfold filter readSource
  rw [hLex]
  exact exists_of_readTokens _ (optional_condition_reads (Token.wellFormed_of_lex hLex))

/-- Every tree that a filter is read as is sound, whatever was malformed. -/
theorem filter_output_sound {source : String} {e : Expr}
    (h : (filter source).output = some (some e)) : ∃ k, e.Sound k := by
  cases hLex : Token.lex source with
  | error d => simp [filter, readSource, hLex] at h
  | ok ts =>
    obtain ⟨o, rest, n, hRead, hPost⟩ := filter_reading hLex
    rw [hRead] at h
    cases h
    exact ⟨_, hPost.2⟩

/-- No complaint about leftover tokens means that there are none. -/
theorem leftover_eq_nil {rest : Tokens} (h : leftover rest = []) : rest = [] := by
  unfold leftover at h
  split at h
  · next hEmpty => simpa using hEmpty
  · cases h

/-- A filter that is read without a complaint is a whole condition or a blank text. -/
theorem filter_of_diagnostics_nil {source : String} (h : (filter source).diagnostics = []) :
    (∃ e, (filter source).output = some (some e) ∧ e.Sound 0) ∨
      ((filter source).output = some none ∧ Text.isBlankText source = true) := by
  cases hLex : Token.lex source with
  | error d => simp [filter, readSource, hLex] at h
  | ok ts =>
    obtain ⟨o, rest, n, hRead, hPost⟩ := filter_reading hLex
    rw [hRead] at h ⊢
    obtain ⟨hErrors, hLeftover⟩ := List.append_eq_nil_iff.mp h
    have hNoErrors : n.errors = [] := List.map_eq_nil_iff.mp hErrors
    cases o with
    | none =>
      -- nothing was read, so all tokens are left over, and there are none
      have hNone : ts = [] := by rw [← hPost.1, leftover_eq_nil hLeftover]
      rw [hNone] at hLex
      exact Or.inr ⟨rfl, Token.lex_eq_nil_iff.mp hLex⟩
    | some e =>
      have hSound := hPost.2
      rw [hNoErrors] at hSound
      exact Or.inl ⟨e, rfl, hSound⟩

/-! ## Order lists -/

/-- A term of an order list has a key that can be written out. -/
theorem orderTerm_reads (hLexed : Lexed ts) :
    orderTerm.Reads (Silent fun t => t.operand.value.isWritable = true) ts := by
  refine (operand_reads hLexed).then fun key r hKey _ => ?_
  have hDirection : (Parser.optional direction).Reads Any r := by
    refine Reads.optional (Reads.orElse ?_ ?_) ⟨trivial, rfl⟩
    · exact reads_exactly.then fun _ _ _ _ => reads_pure ⟨trivial, rfl⟩
    · exact reads_exactly.then fun _ _ _ _ => reads_pure ⟨trivial, rfl⟩
  exact hDirection.then fun _ _ _ _ => reads_pure ⟨hKey, rfl⟩

/-- What is left over when an order list has been read: all of it if no term stands there. -/
def OrderRead (ts : Tokens) (terms : List OrderTerm) (rest : Tokens) (n : Notes) : Prop :=
  (∀ t ∈ terms, t.operand.value.isWritable = true) ∧ n.errors = [] ∧ (terms = [] → rest = ts)

/-- The output of an order list and its diagnostics, for a text that has tokens. -/
theorem order_reading {source : String} (hLex : Token.lex source = .ok ts) :
    ∃ terms rest n, order source =
      ⟨some terms, n.errors.map (·.diagnostic (endSpan (Text.byteLength source.toList) ts)) ++
        leftover rest⟩ ∧ OrderRead ts terms rest n := by
  have hLexed : Lexed ts := Token.wellFormed_of_lex hLex
  have hTerms := Reads.separatedBy (fun r hr => orderTerm_reads (hLexed.suffix hr))
    fun _ => reads_exactly (t := .symbol .comma)
  have hRun : orderTerms.wp (OrderRead ts) (fun _ => False) ts Notes.empty := by
    unfold orderTerms
    rw [wp_bind, wp_optional]
    refine wp_mono (hTerms Notes.empty) ?_ ?_
    · -- no term reports an error, so there is none in all
      rintro terms rest n' ⟨hRest, k, hk, hNonempty, hEach⟩
      obtain ⟨hAll, rfl⟩ := each_silent hEach
      refine ⟨hAll, ?_, fun hNil => absurd hNil hNonempty⟩
      rw [← List.length_eq_zero_iff]
      exact hk
    · intro n' _
      exact ⟨by simp, rfl, fun _ => rfl⟩
  unfold order readSource
  rw [hLex]
  exact exists_of_readTokens _ hRun

/-- Every key that an order list is read as can be written out. -/
theorem order_output_writable {source : String} {terms : List OrderTerm}
    (h : (order source).output = some terms) :
    ∀ t ∈ terms, t.operand.value.isWritable = true := by
  cases hLex : Token.lex source with
  | error d => simp [order, readSource, hLex] at h
  | ok ts =>
    obtain ⟨terms', rest, n, hRead, hPost⟩ := order_reading hLex
    rw [hRead] at h
    cases h
    exact hPost.1

/-- An order list that is read without a complaint has a term unless the text is blank. -/
theorem order_of_diagnostics_nil {source : String} (h : (order source).diagnostics = []) :
    ∃ terms, (order source).output = some terms ∧
      (terms = [] → Text.isBlankText source = true) := by
  cases hLex : Token.lex source with
  | error d => simp [order, readSource, hLex] at h
  | ok ts =>
    obtain ⟨terms, rest, n, hRead, -, -, hNothing⟩ := order_reading hLex
    rw [hRead] at h ⊢
    obtain ⟨-, hLeftover⟩ := List.append_eq_nil_iff.mp h
    refine ⟨terms, rfl, fun hNil => ?_⟩
    -- no key was read and nothing is left over, so there were no tokens
    have hNone : ts = [] := by rw [← hNothing hNil, leftover_eq_nil hLeftover]
    rw [hNone] at hLex
    exact Token.lex_eq_nil_iff.mp hLex

/-- A blank order list has no terms and no complaints. -/
theorem order_of_isBlankText {source : String} (h : Text.isBlankText source = true) :
    order source = ⟨some [], []⟩ := by
  unfold order readSource
  rw [Token.lex_eq_nil_iff.mpr h]
  rfl

end Parse

end AnnotationQuery
