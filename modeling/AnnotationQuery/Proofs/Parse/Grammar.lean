import AnnotationQuery.Parse.Filter

/-!
# The grammar of filters

The grammar by itself, without a parser:

```
filter  := empty | or
or      := and (OR and)*
and     := unary (AND unary)*
unary   := NOT unary | '(' or ')' | operand [cmp rhs]
cmp     := = | <> | < | > | <= | >= | MATCHES | NOT MATCHES | IN | NOT IN
rhs     := '(' operand (',' operand)* ')' | operand
operand := my '(' string ')' '.' (label | id) | list '(' string ')' '.' length
         | labels '(' string ')' ['.' length] | annotators '(' string ')'
         | ident '.' ident | ident | string | number
string  := 'single-quoted' | "double-quoted"
```

The values of `Filter`, `Phrase`, `Right` and `OperandForm` are the derivations.
A derivation has its word, `tokens`, and its meaning, `tree`. Trees stand at no place
in particular; how the text is laid out is no business of the grammar.

A word has one derivation at most. This needs to know what may follow: `labels('x')`
is a front part of `labels('x').length`, so the two are told apart only by the next
token. Each nonterminal has its own follow set, and `unambiguous` says that two
derivations of front parts of one word, both followed as they may be, are the same.

Main results:

* `Phrase.unambiguous` — for front parts of a word.
* `Filter.tokens_injective` — for whole words.
-/

namespace AnnotationQuery

/-- The place of what stands at no place in particular. -/
def Span.nowhere : Span := ⟨0, 0⟩

namespace Grammar

/-! ## Operands -/

/-- `string`. -/
inductive StringToken where
  | single (body : String)
  | double (body : String)
deriving DecidableEq, Repr

namespace StringToken

/-- The string as a token. -/
def token : StringToken → Token
  | single body => .single body
  | double body => .double body

/-- What the string says. Between double quotes, `\"` stands for a double quote. -/
def value : StringToken → String
  | single body => body
  | double body => String.ofList (Parse.unescapeDouble body.toList)

/-- Two strings are the same token only if they are the same string, quotes included. -/
@[simp] theorem token_inj {s s' : StringToken} : s.token = s'.token ↔ s = s' := by
  cases s <;> cases s' <;> simp [token]

@[simp] theorem token_ne_ident (s : StringToken) (name : String) : s.token ≠ .ident name := by
  cases s <;> simp [token]

@[simp] theorem ident_ne_token (s : StringToken) (name : String) : .ident name ≠ s.token :=
  (s.token_ne_ident name).symm

@[simp] theorem token_ne_number (s : StringToken) (written : String) :
    s.token ≠ .number written := by
  cases s <;> simp [token]

@[simp] theorem number_ne_token (s : StringToken) (written : String) :
    .number written ≠ s.token :=
  (s.token_ne_number written).symm

end StringToken

/-- `label | id`, after the dot of `my('L')`. -/
inductive Part where
  | label
  | id
deriving DecidableEq, Repr

namespace Part

/-- The name of the part. -/
def name : Part → String
  | label => "label"
  | id => "id"

/-- What the part asks of a layer. -/
def function : Part → LayerFunction
  | label => .label
  | id => .id

@[simp] theorem name_inj {p p' : Part} : p.name = p'.name ↔ p = p' := by
  cases p <;> cases p' <;> simp [name]

end Part

/-- `operand`. -/
inductive OperandForm where
  | my (layer : StringToken) (part : Part)
  | list (layer : StringToken)
  | labels (layer : StringToken) (length : Bool)
  | annotators (layer : StringToken)
  | member (object part : String)
  | bare (name : String)
  | string (s : StringToken)
  | number (written : String)
deriving DecidableEq, Repr

namespace OperandForm

/-- `name '(' string ')'`. -/
def call (name : String) (layer : StringToken) : List Token :=
  [.ident name, .symbol .lparen, layer.token, .symbol .rparen]

/-- `'.' name`. -/
def dotted (name : String) : List Token :=
  [.symbol .dot, .ident name]

/-- The word of an operand. -/
def tokens : OperandForm → List Token
  | my layer part => call "my" layer ++ dotted part.name
  | list layer => call "list" layer ++ dotted "length"
  | labels layer length => call "labels" layer ++ if length then dotted "length" else []
  | annotators layer => call "annotators" layer
  | member object part => .ident object :: dotted part
  | bare name => [.ident name]
  | string s => [s.token]
  | number written => [.number written]

/-- A function of a layer, at no place in particular. -/
def layer (function : LayerFunction) (layerId : String) : Operand :=
  .layer function ⟨layerId, Span.nowhere⟩

/-- What an operand means. `x.label` and `x.id` are functions of the layer `x`, as are their longer
forms, and both lengths are the number of annotations. -/
def tree : OperandForm → Operand
  | my l part => layer part.function l.value
  | list l => layer .count l.value
  | labels l true => layer .count l.value
  | labels l false => layer .labels l.value
  | annotators l => layer .annotators l.value
  | member object "label" => layer .label object
  | member object "id" => layer .id object
  | member object part => .member ⟨object, Span.nowhere⟩ ⟨part, Span.nowhere⟩
  | bare "id" => .id
  | bare "label" => .label
  | bare "ordinal" => .ordinal
  | bare name => .identifier name
  | string s => .literal (.string s.value)
  | number written => .literal (.number written)

end OperandForm

/-! ## Comparisons -/

/-- `cmp`: the word of a comparison. -/
def comparisonTokens : Comparison → List Token
  | .eq => [.symbol .eq]
  | .ne => [.symbol .ne]
  | .lt => [.symbol .lt]
  | .gt => [.symbol .gt]
  | .le => [.symbol .le]
  | .ge => [.symbol .ge]
  | .matching => [.keyword .matching]
  | .notMatching => [.keyword .not, .keyword .matching]
  | .isIn => [.keyword .isIn]
  | .notIn => [.keyword .not, .keyword .isIn]

/-- `rhs`. -/
inductive Right where
  | list (first : OperandForm) (more : List OperandForm)
  | one (o : OperandForm)
deriving DecidableEq, Repr

/-- `(',' operand)*`. -/
def itemTokens (more : List OperandForm) : List Token :=
  more.flatMap fun o => .symbol .comma :: o.tokens

namespace Right

/-- The word of the right side of a comparison. -/
def tokens : Right → List Token
  | list first more => .symbol .lparen :: (first.tokens ++ itemTokens more ++ [.symbol .rparen])
  | one o => o.tokens

/-- What the right side of a comparison means. -/
def tree : Right → Comparand
  | list first more => .list ((first :: more).map fun o => ⟨o.tree, Span.nowhere⟩)
  | one o => .one o.tree

end Right

/-! ## Conditions -/

/-- The connectives that make chains. -/
inductive Connective where
  | and
  | or
deriving DecidableEq, Repr

/-- The nonterminals of conditions: `unary`, and `and` and `or` as the chains of a connective. -/
inductive Nonterminal where
  | unary
  | chain (k : Connective)
deriving DecidableEq, Repr

namespace Connective

/-- The connective as a token. -/
def token : Connective → Token
  | and => .keyword .and
  | or => .keyword .or

/-- What the connective joins: `and := unary (AND unary)*` and `or := and (OR and)*`. -/
def member : Connective → Nonterminal
  | and => .unary
  | or => .chain .and

/-- Two conditions joined by the connective. -/
def join : Connective → Expr → Expr → Expr
  | and => Expr.both
  | or => Expr.either

end Connective

/-- `unary`, `and` and `or`. A chain is its last member, or a member with the rest of the chain
after it. -/
inductive Phrase : Nonterminal → Type where
  | not (inner : Phrase .unary) : Phrase .unary
  | group (inner : Phrase (.chain .or)) : Phrase .unary
  | predicate (lhs : OperandForm) (tail : Option (Comparison × Right)) : Phrase .unary
  | last {k : Connective} (m : Phrase k.member) : Phrase (.chain k)
  | join {k : Connective} (m : Phrase k.member) (more : Phrase (.chain k)) : Phrase (.chain k)

/-- `[cmp rhs]`: the word of what an operand is compared with, if it is. -/
def tailTokens : Option (Comparison × Right) → List Token
  | none => []
  | some (c, r) => comparisonTokens c ++ r.tokens

/-- What an operand means by itself, or compared with something. -/
def predicateTree (lhs : OperandForm) : Option (Comparison × Right) → Expr
  | none => .operand Span.nowhere ⟨lhs.tree, Span.nowhere⟩
  | some (c, r) =>
    .compare Span.nowhere ⟨lhs.tree, Span.nowhere⟩ ⟨c, Span.nowhere⟩ ⟨r.tree, Span.nowhere⟩

namespace Phrase

/-- The word of a condition. -/
def tokens {n : Nonterminal} : Phrase n → List Token
  | not inner => .keyword .not :: inner.tokens
  | group inner => .symbol .lparen :: (inner.tokens ++ [.symbol .rparen])
  | predicate lhs tail => lhs.tokens ++ tailTokens tail
  | last m => m.tokens
  | join (k := k) m more => m.tokens ++ k.token :: more.tokens

/-- What a condition means, when `before` is what is done to the first member of the chain. Chains
nest to the left, so the members so far are joined to the next before that is joined on. -/
def treeAfter {n : Nonterminal} : Phrase n → (before : Expr → Expr) → Expr
  | not inner, before => before (.not Span.nowhere (inner.treeAfter id))
  | group inner, before => before (.group Span.nowhere (inner.treeAfter id))
  | predicate lhs tail, before => before (predicateTree lhs tail)
  | last m, before => before (m.treeAfter id)
  | join (k := k) m more, before => more.treeAfter (k.join (before (m.treeAfter id)))

/-- What a condition means. -/
def tree {n : Nonterminal} (p : Phrase n) : Expr :=
  p.treeAfter id

end Phrase

namespace Phrase

variable {k : Connective}

/-- The chain with the given members. -/
def ofMembers (m : Phrase k.member) : List (Phrase k.member) → Phrase (.chain k)
  | [] => last m
  | m' :: more => join m (ofMembers m' more)

/-- The word of a chain: its members with the connective between them. -/
theorem tokens_ofMembers (m : Phrase k.member) (more : List (Phrase k.member)) :
    (ofMembers m more).tokens = m.tokens ++ more.flatMap fun m' => k.token :: m'.tokens := by
  induction more generalizing m with
  | nil => exact (List.append_nil _).symm
  | cons m' more ih => rw [ofMembers, tokens, ih, List.flatMap_cons, List.cons_append]

/-- What is done to the first member is done before the others are joined on. -/
theorem treeAfter_ofMembers (m : Phrase k.member) (more : List (Phrase k.member))
    (before : Expr → Expr) :
    (ofMembers m more).treeAfter before = (more.map tree).foldl k.join (before m.tree) := by
  induction more generalizing m before with
  | nil => rfl
  | cons m' more ih =>
    rw [ofMembers, treeAfter, ih]
    rfl

theorem tree_ofMembers (m : Phrase k.member) (more : List (Phrase k.member)) :
    (ofMembers m more).tree = (more.map tree).foldl k.join m.tree :=
  treeAfter_ofMembers m more id

/-- Every chain is the chain of some members. -/
theorem exists_eq_ofMembers (p : Phrase (.chain k)) : ∃ m more, p = ofMembers m more := by
  cases p with
  | last m => exact ⟨m, [], rfl⟩
  | join m p =>
    obtain ⟨m', more, rfl⟩ := exists_eq_ofMembers p
    exact ⟨m, m' :: more, rfl⟩

end Phrase

/-- `filter`. -/
inductive Filter where
  | empty
  | condition (inner : Phrase (.chain .or))

namespace Filter

/-- The word of a filter. -/
def tokens : Filter → List Token
  | empty => []
  | condition inner => inner.tokens

/-- What a filter means: a condition, or nothing. -/
def tree : Filter → Option Expr
  | empty => none
  | condition inner => some inner.tree

end Filter

/-! ## What may come first and what may follow -/

/-- Whether an operand can start with the token. -/
def startsOperand : Token → Bool
  | .ident _ | .single _ | .double _ | .number _ => true
  | .keyword _ | .symbol _ => false

/-- An operand has a first token, and the token can start an operand. -/
theorem OperandForm.exists_tokens_eq_cons (o : OperandForm) :
    ∃ t ts, o.tokens = t :: ts ∧ startsOperand t = true := by
  cases o with
  | string s => cases s <;> exact ⟨_, _, rfl, rfl⟩
  | _ => exact ⟨_, _, rfl, rfl⟩

/-- The word ends here, or goes on with a token that passes the test. -/
def Follows (test : Token → Bool) (word : List Token) : Prop :=
  ∀ t ∈ word.head?, test t = true

theorem follows_nil (test : Token → Bool) : Follows test [] := by
  simp [Follows]

@[simp] theorem follows_cons {test : Token → Bool} {t : Token} {word : List Token} :
    Follows test (t :: word) ↔ test t = true := by
  simp [Follows]

theorem Follows.mono {test test' : Token → Bool} {word : List Token} (h : Follows test word)
    (hTest : ∀ t, test t = true → test' t = true) : Follows test' word :=
  fun t ht => hTest t (h t ht)

/-- What may follow an operand: nothing that could be part of a longer one. -/
def afterOperand (t : Token) : Bool :=
  t != .symbol .dot && t != .symbol .lparen

/-- What may follow an operand of this form. Only two forms are the start of another one. -/
def OperandForm.after : OperandForm → Token → Bool
  | labels _ false => (· != .symbol .dot)
  | bare _ => afterOperand
  | _ => fun _ => true

/-- What may follow a condition. A chain ends where its connective does not come again. -/
def Nonterminal.after : Nonterminal → Token → Bool
  | unary => Parse.endsTerm
  | chain .and => fun t => t == .keyword .or || t == .symbol .rparen
  | chain .or => fun t => t == .symbol .rparen

/-- A token that may follow every operand may follow this one. -/
theorem OperandForm.after_of_afterOperand (o : OperandForm) {t : Token}
    (h : afterOperand t = true) : o.after t = true := by
  cases o with
  | labels l length =>
    cases length with
    | true => rfl
    | false => exact (Bool.and_eq_true_iff.mp h).1
  | bare name => exact h
  | _ => rfl

theorem afterOperand_of_endsTerm {t : Token} (h : Parse.endsTerm t = true) :
    afterOperand t = true := by
  simp only [Parse.endsTerm, Bool.or_eq_true, beq_iff_eq] at h
  rcases h with (rfl | rfl) | rfl <;> rfl

/-- A member may be followed by its connective, -/
theorem Connective.after_member_token (k : Connective) : k.member.after k.token = true := by
  cases k <;> rfl

/-- a whole chain may not, -/
theorem Connective.after_chain_token (k : Connective) :
    (Nonterminal.chain k).after k.token = false := by
  cases k <;> rfl

/-- and what follows a chain follows its last member. -/
theorem Connective.after_member_of_after_chain {k : Connective} {t : Token}
    (h : (Nonterminal.chain k).after t = true) : k.member.after t = true := by
  cases k with
  | and =>
    simp only [Nonterminal.after, Bool.or_eq_true, beq_iff_eq] at h
    rcases h with rfl | rfl <;> rfl
  | or =>
    simp only [Nonterminal.after, beq_iff_eq] at h
    rw [h]
    rfl

/-- What follows a chain is not one more of its connective. -/
theorem Follows.ne_token {k : Connective} {word : List Token}
    (h : Follows (Nonterminal.chain k).after word) : Follows (· != k.token) word := by
  refine h.mono fun t ht => bne_iff_ne.mpr ?_
  rintro rfl
  rw [k.after_chain_token] at ht
  cases ht

/-! ## One derivation at most -/

theorem not_follows_dot {r : List Token} : ¬ Follows afterOperand (.symbol .dot :: r) := by
  simp [afterOperand]

theorem not_follows_lparen {r : List Token} : ¬ Follows afterOperand (.symbol .lparen :: r) := by
  simp [afterOperand]

/-- Two forms of operands either differ in their first tokens, or the one is the start of the other
and the longer one goes on with a token that may not follow the shorter. -/
theorem OperandForm.unambiguous {o o' : OperandForm} {r r' : List Token}
    (h : o.tokens ++ r = o'.tokens ++ r') (hr : Follows afterOperand r)
    (hr' : Follows afterOperand r') : o = o' ∧ r = r' := by
  cases o <;> cases o' <;> simp [tokens, call, dotted] at h ⊢
  all_goals grind [not_follows_dot, not_follows_lparen]

/-- What starts with an operand does not start with a token that no operand starts with. -/
theorem OperandForm.tokens_append_ne_cons {o : OperandForm} {t : Token} {r r' : List Token}
    (ht : startsOperand t = false) : o.tokens ++ r ≠ t :: r' := by
  obtain ⟨u, us, hTokens, hu⟩ := o.exists_tokens_eq_cons
  intro h
  rw [hTokens, List.cons_append, List.cons.injEq] at h
  rw [h.1, ht] at hu
  cases hu

theorem comparisonTokens_unambiguous {c c' : Comparison} {r r' : List Token}
    (h : comparisonTokens c ++ r = comparisonTokens c' ++ r') : c = c' ∧ r = r' := by
  cases c <;> cases c' <;> simp [comparisonTokens] at h ⊢
  all_goals exact h

/-- A comparison may follow an operand, -/
theorem follows_comparisonTokens (c : Comparison) (r : List Token) :
    Follows afterOperand (comparisonTokens c ++ r) := by
  cases c <;> exact follows_cons.mpr rfl

/-- but it does not end a term. -/
theorem not_follows_comparisonTokens (c : Comparison) (r : List Token) :
    ¬ Follows Parse.endsTerm (comparisonTokens c ++ r) := by
  cases c <;> exact fun h => absurd (follows_cons.mp h) (by decide)

/-- What follows an operand in a list may do so: a comma, or what follows the list. -/
theorem follows_itemTokens (more : List OperandForm) {r : List Token}
    (hr : Follows afterOperand r) : Follows afterOperand (itemTokens more ++ r) := by
  cases more with
  | nil => exact hr
  | cons o more => exact follows_cons.mpr rfl

/-- The items up to a closing parenthesis can be told apart. -/
theorem itemTokens_unambiguous {more more' : List OperandForm} {r r' : List Token}
    (h : itemTokens more ++ .symbol .rparen :: r = itemTokens more' ++ .symbol .rparen :: r') :
    more = more' ∧ r = r' := by
  -- one list cannot end before the other: a comma is no parenthesis
  induction more generalizing more' with
  | nil =>
    cases more' with
    | nil => exact ⟨rfl, by simpa [itemTokens] using h⟩
    | cons o' more' => simp [itemTokens] at h
  | cons o more ih =>
    cases more' with
    | nil => simp [itemTokens] at h
    | cons o' more' =>
      simp only [itemTokens, List.flatMap_cons, List.cons_append, List.append_assoc,
        List.cons.injEq, true_and] at h
      obtain ⟨rfl, hRest⟩ := OperandForm.unambiguous h
        (follows_itemTokens more (follows_cons.mpr rfl))
        (follows_itemTokens more' (follows_cons.mpr rfl))
      obtain ⟨rfl, rfl⟩ := ih hRest
      exact ⟨rfl, rfl⟩

/-- Of two right sides at the front of one word, both are the same. A list starts with a
parenthesis, and no operand does. -/
theorem Right.unambiguous {x x' : Right} {r r' : List Token} (h : x.tokens ++ r = x'.tokens ++ r')
    (hr : Follows afterOperand r) (hr' : Follows afterOperand r') : x = x' ∧ r = r' := by
  cases x with
  | one o =>
    cases x' with
    | one o' =>
      obtain ⟨rfl, hRest⟩ := OperandForm.unambiguous h hr hr'
      exact ⟨rfl, hRest⟩
    | list first' more' => exact absurd h (OperandForm.tokens_append_ne_cons rfl)
  | list first more =>
    cases x' with
    | one o' => exact absurd h.symm (OperandForm.tokens_append_ne_cons rfl)
    | list first' more' =>
      -- both are lists: the first item ends at a comma or at the parenthesis, and so does each
      -- other one
      simp only [tokens, List.cons_append, List.append_assoc, List.cons.injEq, true_and,
        List.nil_append] at h
      obtain ⟨rfl, hItems⟩ := OperandForm.unambiguous h
        (follows_itemTokens more (follows_cons.mpr rfl))
        (follows_itemTokens more' (follows_cons.mpr rfl))
      obtain ⟨rfl, hRest⟩ := itemTokens_unambiguous hItems
      exact ⟨rfl, hRest⟩

/-- Whether an operand is compared, and with what, can be read off the word. -/
theorem tailTokens_unambiguous {tail tail' : Option (Comparison × Right)} {r r' : List Token}
    (h : tailTokens tail ++ r = tailTokens tail' ++ r') (hr : Follows Parse.endsTerm r)
    (hr' : Follows Parse.endsTerm r') : tail = tail' ∧ r = r' := by
  rcases tail with _ | ⟨c, x⟩ <;> rcases tail' with _ | ⟨c', x'⟩
  · exact ⟨rfl, h⟩
  · simp only [tailTokens, List.nil_append, List.append_assoc] at h
    -- one side would go on with a comparison where the other has ended
    exact absurd (h ▸ hr) (not_follows_comparisonTokens c' _)
  · simp only [tailTokens, List.nil_append, List.append_assoc] at h
    exact absurd (h ▸ hr') (not_follows_comparisonTokens c _)
  · simp only [tailTokens, List.append_assoc] at h
    obtain ⟨rfl, hRight⟩ := comparisonTokens_unambiguous h
    obtain ⟨rfl, hRest⟩ := Right.unambiguous hRight (hr.mono fun _ => afterOperand_of_endsTerm)
      (hr'.mono fun _ => afterOperand_of_endsTerm)
    exact ⟨rfl, hRest⟩

/-- What follows the operand of a predicate may do so. -/
theorem follows_tailTokens (tail : Option (Comparison × Right)) {r : List Token}
    (hr : Follows Parse.endsTerm r) : Follows afterOperand (tailTokens tail ++ r) := by
  rcases tail with _ | ⟨c, x⟩
  · exact hr.mono fun _ => afterOperand_of_endsTerm
  · rw [tailTokens, List.append_assoc]
    exact follows_comparisonTokens c _

/-- Two derivations of front parts of one word are the same, if what follows either may follow its
nonterminal. -/
theorem Phrase.unambiguous {n : Nonterminal} {p p' : Phrase n} {r r' : List Token}
    (h : p.tokens ++ r = p'.tokens ++ r') (hr : Follows n.after r) (hr' : Follows n.after r') :
    p = p' ∧ r = r' := by
  -- the first token tells the three unary forms apart; chains are compared member by member
  induction p generalizing r r' with
  | not inner ih =>
    cases p' with
    | not inner' =>
      simp only [tokens, List.cons_append, List.cons.injEq, true_and] at h
      obtain ⟨rfl, hRest⟩ := ih h hr hr'
      exact ⟨rfl, hRest⟩
    | group inner' => simp [tokens] at h
    | predicate lhs' tail' =>
      rw [tokens, tokens, List.append_assoc] at h
      exact absurd h.symm (OperandForm.tokens_append_ne_cons rfl)
  | group inner ih =>
    cases p' with
    | not inner' => simp [tokens] at h
    | group inner' =>
      simp only [tokens, List.cons_append, List.append_assoc, List.cons.injEq, true_and,
        List.nil_append] at h
      obtain ⟨rfl, hRest⟩ := ih h (follows_cons.mpr rfl) (follows_cons.mpr rfl)
      exact ⟨rfl, (List.cons.inj hRest).2⟩
    | predicate lhs' tail' =>
      rw [tokens, tokens, List.append_assoc] at h
      exact absurd h.symm (OperandForm.tokens_append_ne_cons rfl)
  | predicate lhs tail =>
    rw [tokens, List.append_assoc] at h
    cases p' with
    | not inner' => exact absurd h (OperandForm.tokens_append_ne_cons rfl)
    | group inner' => exact absurd h (OperandForm.tokens_append_ne_cons rfl)
    | predicate lhs' tail' =>
      rw [tokens, List.append_assoc] at h
      obtain ⟨rfl, hTail⟩ := OperandForm.unambiguous h (follows_tailTokens tail hr)
        (follows_tailTokens tail' hr')
      obtain ⟨rfl, hRest⟩ := tailTokens_unambiguous hTail hr hr'
      exact ⟨rfl, hRest⟩
  | @last k m ih =>
    have hm := hr.mono fun _ => Connective.after_member_of_after_chain
    cases p' with
    | last m' =>
      obtain ⟨rfl, hRest⟩ := ih h hm (hr'.mono fun _ => Connective.after_member_of_after_chain)
      exact ⟨rfl, hRest⟩
    | join m' more' =>
      -- the shorter chain would be followed by its own connective
      rw [tokens, tokens, List.append_assoc, List.cons_append] at h
      obtain ⟨-, hRest⟩ := ih h hm (follows_cons.mpr k.after_member_token)
      rw [hRest, follows_cons, k.after_chain_token] at hr
      cases hr
  | @join k m more ihm ihMore =>
    rw [tokens, List.append_assoc, List.cons_append] at h
    have hm : Follows k.member.after (k.token :: (more.tokens ++ r)) :=
      follows_cons.mpr k.after_member_token
    cases p' with
    | last m' =>
      -- likewise: the other chain would end before a connective of its own
      obtain ⟨-, hRest⟩ :=
        ihm h hm (hr'.mono fun _ => Connective.after_member_of_after_chain)
      rw [← hRest, follows_cons, k.after_chain_token] at hr'
      cases hr'
    | join m' more' =>
      rw [tokens, List.append_assoc, List.cons_append] at h
      obtain ⟨rfl, hChain⟩ := ihm h hm (follows_cons.mpr k.after_member_token)
      obtain ⟨rfl, hRest⟩ := ihMore (List.cons.inj hChain).2 hr hr'
      exact ⟨rfl, hRest⟩

/-- A condition has at least one token. -/
theorem Phrase.tokens_ne_nil {n : Nonterminal} (p : Phrase n) : p.tokens ≠ [] := by
  induction p with
  | not inner _ => exact List.cons_ne_nil _ _
  | group inner _ => exact List.cons_ne_nil _ _
  | predicate lhs tail =>
    obtain ⟨t, ts, hTokens, -⟩ := lhs.exists_tokens_eq_cons
    rw [tokens, hTokens]
    exact List.cons_ne_nil _ _
  | last m ih => exact ih
  | join m more _ _ => exact List.append_ne_nil_of_right_ne_nil _ (List.cons_ne_nil _ _)

/-- A whole word has one derivation at most. -/
theorem Filter.tokens_injective {f f' : Filter} (h : f.tokens = f'.tokens) : f = f' := by
  cases f with
  | empty =>
    cases f' with
    | empty => rfl
    | condition inner' => exact absurd h.symm inner'.tokens_ne_nil
  | condition inner =>
    cases f' with
    | empty => exact absurd h inner.tokens_ne_nil
    | condition inner' =>
      -- the end of the text ends both conditions
      have hWord : inner.tokens ++ [] = inner'.tokens ++ [] := by
        rw [List.append_nil, List.append_nil]
        exact h
      rw [(Phrase.unambiguous hWord (follows_nil _) (follows_nil _)).1]

end Grammar

end AnnotationQuery
