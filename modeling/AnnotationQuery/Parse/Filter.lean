import AnnotationQuery.Expr
import AnnotationQuery.Parse.Operand
import AnnotationQuery.Token.Lexer

/-!
# Reading filters

A filter is a condition or nothing at all. `OR` binds least, then `AND`, then
`NOT`; both connectives nest to the left.

A filter with malformed parts is still read as far as it goes. There are two
recoveries. A group whose inside cannot be read is skipped up to its closing
parenthesis. A term that cannot be read at all is skipped up to the next
connective or closing parenthesis, so the terms around it keep their meaning.
Both leave a `malformed` node and report one error. What follows a complete
condition is reported once and dropped.
-/

namespace AnnotationQuery.Parse

open AnnotationQuery.Parse.Parser

/-! ## Comparisons -/

/-- A symbol that compares. -/
def comparisonSymbol (s : Symbol) (c : Comparison) : Parser Comparison := do
  symbol s
  return c

/-- A comparison. -/
def comparison : Parser (Spanned Comparison) :=
  located <|
    comparisonSymbol .eq .eq <|> comparisonSymbol .ne .ne <|> comparisonSymbol .le .le <|>
    comparisonSymbol .ge .ge <|> comparisonSymbol .lt .lt <|> comparisonSymbol .gt .gt <|>
    (do keyword .matching; return .matching) <|>
    (do keyword .not; keyword .matching; return .notMatching) <|>
    (do keyword .not; keyword .isIn; return .notIn) <|>
    (do keyword .isIn; return .isIn)

/-- A list of operands in parentheses. -/
def operandList : Parser (Spanned Comparand) :=
  located do
    symbol .lparen
    let items ← separatedBy operand (symbol .comma)
    symbol .rparen
    return .list items

/-- The right side of a comparison. -/
def comparand : Parser (Spanned Comparand) :=
  operandList <|> do
    let o ← operand
    return ⟨.one o.value, o.span⟩

/-- An operand, compared with something or alone. -/
def predicate : Parser (Span → Expr) := do
  let lhs ← operand
  let tail ← optional do
    let op ← comparison
    let rhs ← comparand
    return (op, rhs)
  match tail with
  | some (op, rhs) => return fun s => .compare s lhs op rhs
  | none => return fun s => .operand s lhs

/-! ## Recoveries -/

/-- Any token but a parenthesis. -/
def notParenthesis : Parser Unit := do
  let _ ← accept fun t =>
    if t = .symbol .lparen ∨ t = .symbol .rparen then none else some ()
  return ()

/-- Balanced parentheses with anything inside, nested less than `bound` deep. -/
def balancedUpTo : (bound : Nat) → Parser Unit
  | 0 => stop
  | k + 1 => do
    symbol .lparen
    let _ ← many (balancedUpTo k <|> notParenthesis)
    symbol .rparen

/-- Balanced parentheses with anything inside. -/
def balanced : Parser Unit :=
  fun ts n => balancedUpTo (ts.length + 1) ts n

/-- Whether a token ends a term that cannot be read. -/
def endsTerm (t : Token) : Bool :=
  t == .keyword .and || t == .keyword .or || t == .symbol .rparen

/-- A token of a term that cannot be read. The token that ends the term was seen in passing, so the
failure lies behind it. -/
def skippedToken : Parser Unit
  | [], n => ⟨none, n.offer (.at [])⟩
  | t :: ts, n =>
    if endsTerm t.value then ⟨none, n.offer ⟨ts.length, some t.value, some t.span⟩⟩
    else ⟨some ((), ts), n⟩

/-! ## Conditions -/

/-- A condition in parentheses. -/
def group (condition : Parser Expr) : Parser (Span → Expr) :=
  recover
    (do
      symbol .lparen
      let inner ← condition
      symbol .rparen
      return fun s => .group s inner)
    (do
      balanced
      return Expr.malformed)

/-- A group or a predicate, or a term that is skipped. -/
def term (condition : Parser Expr) : Parser Expr :=
  withSpan <| recover
    (group condition <|> predicate)
    (do
      let _ ← atLeastOne skippedToken
      return Expr.malformed)

/-- A term with fewer than `bound` negations before it. -/
def negationUpTo (condition : Parser Expr) : (bound : Nat) → Parser Expr
  | 0 => stop
  | k + 1 =>
    withSpan (do
      keyword .not
      let inner ← negationUpTo condition k
      return fun s => .not s inner) <|> term condition

/-- A term with any number of negations before it. -/
def negation (condition : Parser Expr) : Parser Expr :=
  fun ts n => negationUpTo condition (ts.length + 1) ts n

/-- Negations joined by `AND`. -/
def conjunction (condition : Parser Expr) : Parser Expr :=
  chain (negation condition) (keyword .and) Expr.both

/-- Conjunctions joined by `OR`. -/
def disjunction (condition : Parser Expr) : Parser Expr :=
  chain (conjunction condition) (keyword .or) Expr.either

/-- A condition nested less than `bound` deep. -/
def conditionUpTo : (bound : Nat) → Parser Expr
  | 0 => stop
  | k + 1 => disjunction (conditionUpTo k)

/-- A condition. -/
def condition : Parser Expr :=
  fun ts n => conditionUpTo (ts.length + 1) ts n

/-! ## Whole texts -/

/-- The complaint about tokens that follow what was read, if there are any. -/
def leftover (rest : Tokens) : List Diagnostic :=
  if rest.isEmpty then [] else [⟨.leftover, hull rest⟩]

/-- Reads the tokens of a text of `size` bytes with a parser that cannot fail. -/
def readTokens {α : Type} (p : Parser α) (size : Nat) (ts : Tokens) : Reading α :=
  let ending := endSpan size ts
  match p ts Notes.empty with
  | ⟨none, n⟩ => ⟨none, n.errors.map (·.diagnostic ending)⟩
  | ⟨some (a, rest), n⟩ => ⟨some a, n.errors.map (·.diagnostic ending) ++ leftover rest⟩

/-- Reads a text, once it falls into tokens. -/
def readSource {α : Type} (p : Parser α) (source : String) : Reading α :=
  match Token.lex source with
  | .error d => ⟨none, [d]⟩
  | .ok ts => readTokens p (Text.byteLength source.toList) ts

/-- Reads a filter. A blank filter is no condition. -/
def filter (source : String) : Reading (Option Expr) :=
  readSource (optional condition) source

end AnnotationQuery.Parse
