import AnnotationQuery.Text.Blank

/-!
# Reading SQL outside its quotes

Raw SQL is never parsed, but two questions are asked of it: how many placeholders
it has, and whether one pair of parentheses encloses all of it. Both are about the
characters outside quotes. `Scan` walks the text with just enough state to know
where those are: the depth of parentheses, the quote that is open, and whether a
backslash inside a quote has escaped the next character.

An opening quote is read outside quotes, a closing one inside. A closing
parenthesis without a partner leaves the depth at zero.
-/

namespace AnnotationQuery.Sql

/-- How far a walk over SQL has come. -/
structure Scan where
  depth : Nat
  /-- The quote that is open. -/
  quote : Option Char
  /-- Whether the next character is escaped; only inside a quote. -/
  escaped : Bool
deriving DecidableEq, Repr

namespace Scan

/-- At the start: no parenthesis and no quote is open. -/
def start : Scan := ⟨0, none, false⟩

/-- The three characters that open a quote. -/
def isQuote (c : Char) : Bool :=
  c == '\'' || c == '"' || c == '\x60'

/-- Walks over one character. -/
def step (s : Scan) (c : Char) : Scan :=
  match s.quote with
  | some q =>
    if s.escaped then { s with escaped := false }
    else if c = '\\' then { s with escaped := true }
    else if c = q then { s with quote := none }
    else s
  | none =>
    if isQuote c then { s with quote := some c }
    else if c = '(' then { s with depth := s.depth + 1 }
    else if c = ')' then { s with depth := s.depth - 1 }
    else s

/-- Walks over many characters. -/
def run (s : Scan) (cs : List Char) : Scan :=
  cs.foldl step s

/-- The characters read outside quotes, each with the depth after it. -/
def visible (s : Scan) : List Char → List (Char × Nat)
  | [] => []
  | c :: cs =>
    let next := s.step c
    if s.quote.isNone then (c, next.depth) :: next.visible cs else next.visible cs

/-- Whether the first parenthesis that closes down to depth zero is the last character. -/
def closesAtEnd (s : Scan) : List Char → Bool
  | [] => false
  | c :: cs =>
    let next := s.step c
    if s.quote.isNone && c == ')' && next.depth == 0 then cs.isEmpty else next.closesAtEnd cs

end Scan

/-- The number of `?` outside quotes. -/
def placeholderCount (sql : String) : Nat :=
  (Scan.start.visible sql.toList).countP fun (c, _) => c == '?'

/-- Whether one pair of parentheses encloses all of the text, blanks around it aside. -/
def isEnclosed (sql : String) : Bool :=
  match Text.trimBlanks sql.toList with
  | '(' :: cs => (Scan.start.step '(').closesAtEnd cs
  | _ => false

end AnnotationQuery.Sql
