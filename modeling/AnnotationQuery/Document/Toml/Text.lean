import AnnotationQuery.Document.Node

/-!
# Strings and keys in TOML

Four kinds of strings: basic ones with escapes and literal ones without, each on
one line or over several. A string over several lines drops a line break right
after its opening quotes, may hold one or two quotes right before its closing ones,
and, if basic, joins lines at a backslash that ends one.

A key is a bare word, a basic or a literal string; keys joined by points are a path.
-/

namespace AnnotationQuery.Toml

open DocumentReader

/-- The blanks within a line. -/
def isBlank (c : Char) : Bool :=
  c == ' ' || c == '\t'

/-- Skips blanks within a line. -/
def blanks : DocumentReader Unit := do
  let _ ← charsWhile isBlank
  return ()

/-- The characters that may stand in strings and comments: no control characters but the tab. -/
def isPlain (c : Char) : Bool :=
  c == '\t' || (0x20 ≤ c.toNat && c.toNat ≠ 0x7F)

/-- Whether a line break starts here. -/
def startsBreak : List Char → Bool
  | '\n' :: _ => true
  | '\r' :: '\n' :: _ => true
  | _ => false

/-! ## Strings on one line -/

/-- What a one-letter escape stands for. -/
def escape? : Char → Option Char
  | '"' => some '"'
  | '\\' => some '\\'
  | 'b' => some '\x08'
  | 'e' => some '\x1b'
  | 'f' => some '\x0c'
  | 'n' => some '\n'
  | 'r' => some '\r'
  | 't' => some '\t'
  | _ => none

/-- The character whose code point these hexadecimal digits give. -/
def codeEscape? (digits : List Char) : Option Char := do
  charOfCode? (← hexValue? digits)

/-- The characters of a basic string up to its closing quote. -/
def basicFrom : List Char → Option (List Char × List Char)
  | '"' :: cs => some ([], cs)
  | '\\' :: 'x' :: a :: b :: cs => do
    let c ← codeEscape? [a, b]
    let (body, rest) ← basicFrom cs
    return (c :: body, rest)
  | '\\' :: 'u' :: a :: b :: c :: d :: cs => do
    let c ← codeEscape? [a, b, c, d]
    let (body, rest) ← basicFrom cs
    return (c :: body, rest)
  | '\\' :: 'U' :: a :: b :: c :: d :: e :: f :: g :: h :: cs => do
    let c ← codeEscape? [a, b, c, d, e, f, g, h]
    let (body, rest) ← basicFrom cs
    return (c :: body, rest)
  | '\\' :: e :: cs => do
    let c ← escape? e
    let (body, rest) ← basicFrom cs
    return (c :: body, rest)
  | c :: cs =>
    if isPlain c then do
      let (body, rest) ← basicFrom cs
      return (c :: body, rest)
    else none
  | [] => none

/-- The characters of a literal string up to its closing quote. -/
def literalFrom : List Char → Option (List Char × List Char)
  | [] => none
  | c :: cs =>
    if c = '\'' then some ([], cs)
    else if isPlain c then do
      let (body, rest) ← literalFrom cs
      return (c :: body, rest)
    else none

/-! ## Strings over several lines -/

/-- What follows three quotes that close a string: one or two quotes more belong to the string. -/
def closing (q : Char) : List Char → List Char × List Char
  | a :: b :: cs =>
    if a = q ∧ b = q then ([q, q], cs)
    else if a = q then ([q], b :: cs)
    else ([], a :: b :: cs)
  | [a] => if a = q then ([q], []) else ([], [a])
  | [] => ([], [])

/-- Whether three quotes start here. -/
def startsTriple (q : Char) : List Char → Bool
  | a :: b :: c :: _ => a == q && b == q && c == q
  | _ => false

/-- The characters of a literal string up to its closing quotes. -/
def literalLinesFrom : List Char → Option (List Char × List Char)
  | [] => none
  | c :: cs =>
    if startsTriple '\'' (c :: cs) then some (closing '\'' (cs.drop 2))
    else if isPlain c || startsBreak (c :: cs) then do
      let (body, rest) ← literalLinesFrom cs
      return (c :: body, rest)
    else none

/-- The characters of a basic string up to its closing quotes. While `joining`, blanks and line
breaks are skipped. -/
def basicLinesFrom (joining : Bool) : List Char → Option (List Char × List Char)
  | '\\' :: 'x' :: a :: b :: cs => do
    let c ← codeEscape? [a, b]
    let (body, rest) ← basicLinesFrom false cs
    return (c :: body, rest)
  | '\\' :: 'u' :: a :: b :: c :: d :: cs => do
    let c ← codeEscape? [a, b, c, d]
    let (body, rest) ← basicLinesFrom false cs
    return (c :: body, rest)
  | '\\' :: 'U' :: a :: b :: c :: d :: e :: f :: g :: h :: cs => do
    let c ← codeEscape? [a, b, c, d, e, f, g, h]
    let (body, rest) ← basicLinesFrom false cs
    return (c :: body, rest)
  | '\\' :: e :: cs =>
    if startsBreak ((e :: cs).dropWhile isBlank) then basicLinesFrom true cs
    else do
      let c ← escape? e
      let (body, rest) ← basicLinesFrom false cs
      return (c :: body, rest)
  | c :: cs =>
    if joining && (isBlank c || startsBreak (c :: cs)) then basicLinesFrom true cs
    else if startsTriple '"' (c :: cs) then some (closing '"' (cs.drop 2))
    else if isPlain c || startsBreak (c :: cs) then do
      let (body, rest) ← basicLinesFrom false cs
      return (c :: body, rest)
    else none
  | [] => none

/-- Drops the line break that follows opening quotes. -/
def dropBreak : List Char → List Char
  | '\n' :: cs => cs
  | '\r' :: '\n' :: cs => cs
  | cs => cs

/-! ## Strings and keys -/

/-- A string of any kind. -/
def string : DocumentReader String := do
  let cs ← get
  if startsTriple '"' cs then
    set (dropBreak (cs.drop 3))
    return String.ofList (← fun cs => basicLinesFrom false cs)
  if startsTriple '\'' cs then
    set (dropBreak (cs.drop 3))
    return String.ofList (← fun cs => literalLinesFrom cs)
  if (← peek) = some '"' then
    set (cs.drop 1)
    return String.ofList (← fun cs => basicFrom cs)
  exactly ['\'']
  return String.ofList (← fun cs => literalFrom cs)

/-- The characters of a bare key. -/
def isBareKey (c : Char) : Bool :=
  c.isAlphanum || c == '-' || c == '_'

/-- A key. -/
def simpleKey : DocumentReader String := do
  match ← peek with
  | some '"' =>
    exactly ['"']
    return String.ofList (← fun cs => basicFrom cs)
  | some '\'' =>
    exactly ['\'']
    return String.ofList (← fun cs => literalFrom cs)
  | _ => return String.ofList (← someWhile isBareKey)

/-- At most `bound` keys joined by points, with the blanks after them. -/
def keyPathUpTo : (bound : Nat) → DocumentReader (List String)
  | 0 => failure
  | k + 1 => do
    let key ← simpleKey
    blanks
    if (← peek) = some '.' then
      exactly ['.']
      blanks
      return key :: (← keyPathUpTo k)
    return [key]

/-- Keys joined by points, with the blanks after them. A path has at most eighty keys. -/
def keyPath : DocumentReader (List String) :=
  keyPathUpTo 80

end AnnotationQuery.Toml
