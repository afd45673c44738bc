import AnnotationQuery.Diagnostic
import AnnotationQuery.Token

/-!
# Parsing tokens with a memory of the furthest failure

A `Parser` reads a value from the front of a token list and gives the tokens that
it leaves, or fails. Alternatives are tried in order and always from the same
place, so a failed alternative uses up nothing.

Besides its result a run keeps `Notes`, which never decide what is read:

* the *furthest failure* so far. Every test of a token that fails offers itself;
  of two offers the one with fewer tokens left wins, and of two at the same place
  the earlier one. Success does not clear it: when a whole term turns out to be
  malformed, the furthest failure is the best account of why.
* the *errors* that recoveries have reported. They belong to what was read, so
  giving up an alternative also takes back the errors that it reported.

`recover` ties the two together: when a parser fails and its stand-in succeeds,
the furthest failure becomes an error and the memory starts afresh from what the
stand-in leaves.

Parsers that repeat or nest are bounded by the number of tokens. Each round uses
up at least one token, so the bound is never the reason to stop.
-/

namespace AnnotationQuery.Parse

/-- The tokens still to be read. -/
abbrev Tokens := List (Spanned Token)

/-- A test that a token did not pass. -/
structure Failure where
  /-- How many tokens were left there. Fewer is further on. -/
  left : Nat
  /-- The token that was found, or `none` at the end. -/
  found : Option Token
  /-- Where it was found, or `none` for the end of the text. -/
  place : Option Span
deriving DecidableEq, Repr

/-- The failure at the front of the tokens. -/
def Failure.at : Tokens → Failure
  | [] => ⟨0, none, none⟩
  | t :: ts => ⟨ts.length + 1, some t.value, some t.span⟩

/-- The end of a text of `size` bytes: the span starts where the text ends and stops where the last
token does, so with blanks after that token it runs backwards. -/
def endSpan (size : Nat) (ts : Tokens) : Span :=
  ⟨size, (ts.getLast?.map (·.span.stop)).getD size⟩

/-- The failure as a diagnostic, when the end of the text is `ending`. -/
def Failure.diagnostic (ending : Span) (f : Failure) : Diagnostic :=
  { complaint := match f.found with
      | some t => .found t.text
      | none => .endOfInput
    span := f.place.getD ending }

/-- What a run remembers besides what it has read. -/
structure Notes where
  furthest : Option Failure
  errors : List Failure
deriving DecidableEq, Repr

namespace Notes

/-- Nothing to remember. -/
def empty : Notes := ⟨none, []⟩

/-- Remembers a failure if none was further on. At the same place the earlier one stays, and
only learns the found token if it had none. -/
def offer (n : Notes) (f : Failure) : Notes :=
  match n.furthest with
  | none => { n with furthest := some f }
  | some g =>
    if f.left < g.left then { n with furthest := some f }
    else if f.left = g.left then { n with furthest := some { g with found := g.found <|> f.found } }
    else n

/-- Takes back the errors that were reported since `before`. -/
def rewind (n before : Notes) : Notes :=
  { n with errors := before.errors }

end Notes

/-- What a run gives: a value with the tokens after it unless it failed, and the notes. -/
structure Reply (α : Type) where
  result : Option (α × Tokens)
  notes : Notes

/-- Reads a value from the front of a token list. -/
def Parser (α : Type) : Type :=
  Tokens → Notes → Reply α

namespace Parser

variable {α β : Type}

/-! ## Sequence -/

/-- Reads nothing. -/
protected def pure (a : α) : Parser α :=
  fun ts n => ⟨some (a, ts), n⟩

/-- Reads one thing and then another. -/
protected def bind (p : Parser α) (f : α → Parser β) : Parser β :=
  fun ts n =>
    match p ts n with
    | ⟨none, n'⟩ => ⟨none, n'⟩
    | ⟨some (a, rest), n'⟩ => f a rest n'

instance : Monad Parser where
  pure := Parser.pure
  bind := Parser.bind

/-- Fails and offers no reason. -/
def stop : Parser α :=
  fun _ n => ⟨none, n⟩

/-! ## Single tokens -/

/-- Reads one token that means something to `read`. -/
def accept (read : Token → Option α) : Parser (Spanned α)
  | [], n => ⟨none, n.offer (.at [])⟩
  | t :: ts, n =>
    match read t.value with
    | some a => ⟨some (⟨a, t.span⟩, ts), n⟩
    | none => ⟨none, n.offer (.at (t :: ts))⟩

/-- Reads exactly this token. -/
def exactly (t : Token) : Parser Unit := do
  let _ ← accept fun u => if u = t then some () else none
  return ()

/-- Reads a symbol. -/
def symbol (s : Symbol) : Parser Unit :=
  exactly (.symbol s)

/-- Reads a keyword. -/
def keyword (k : Keyword) : Parser Unit :=
  exactly (.keyword k)

/-- Reads a name that has a meaning in its place. Names are not keywords: their case matters. -/
def word (name : String) : Parser Unit :=
  exactly (.ident name)

/-! ## Alternatives -/

/-- Tries one parser, and another from the same place if it fails. -/
def orElse (p q : Parser α) : Parser α :=
  fun ts n =>
    match p ts n with
    | ⟨none, n'⟩ => q ts (n'.rewind n)
    | success => success

instance : OrElse (Parser α) where
  orElse p q := p.orElse (q ())

/-- Reads something if it is there. -/
def optional (p : Parser α) : Parser (Option α) :=
  fun ts n =>
    match p ts n with
    | ⟨none, n'⟩ => ⟨some (none, ts), n'.rewind n⟩
    | ⟨some (a, rest), n'⟩ => ⟨some (some a, rest), n'⟩

/-- Reads a stand-in where a parser fails, and reports the furthest failure as an error. If the
stand-in fails too, its own failures are forgotten. -/
def recover (p standIn : Parser α) : Parser α :=
  fun ts n =>
    match p ts n with
    | ⟨none, n'⟩ =>
      match standIn ts ⟨none, n.errors⟩ with
      | ⟨none, _⟩ => ⟨none, n'.rewind n⟩
      | ⟨some r, n''⟩ => ⟨some r, ⟨n''.furthest, n''.errors ++ n'.furthest.toList⟩⟩
    | success => success

/-! ## Repetition -/

/-- Reads at most `bound` things in a row. -/
def manyUpTo (p : Parser α) : (bound : Nat) → Parser (List α)
  | 0 => pure []
  | k + 1 => fun ts n =>
    match p ts n with
    | ⟨none, n'⟩ => ⟨some ([], ts), n'.rewind n⟩
    | ⟨some (a, rest), n'⟩ => (do return a :: (← manyUpTo p k)) rest n'

/-- Reads as many things in a row as there are. -/
def many (p : Parser α) : Parser (List α) :=
  fun ts n => manyUpTo p (ts.length + 1) ts n

/-- Reads one thing or more. -/
def atLeastOne (p : Parser α) : Parser (List α) := do
  let first ← p
  let more ← many p
  return first :: more

/-- Reads one thing or more with a separator between each two. -/
def separatedBy (p : Parser α) (separator : Parser Unit) : Parser (List α) := do
  let first ← p
  let more ← many do
    separator
    p
  return first :: more

/-- Reads one thing or more with a connective between each two, and joins them to the left. -/
def chain (p : Parser α) (connective : Parser Unit) (join : α → α → α) : Parser α := do
  let first ← p
  let more ← many do
    connective
    p
  return more.foldl join first

/-! ## Places -/

/-- From the start of the first token to the end of the last. -/
def hull (run : Tokens) : Span :=
  match run.head?, run.getLast? with
  | some first, some last => first.span.hull last.span
  | _, _ => ⟨0, 0⟩

/-- The tokens that were read when `rest` is left of `ts`. -/
def consumed (ts rest : Tokens) : Tokens :=
  ts.take (ts.length - rest.length)

/-- Fills in the span of what was read. -/
def withSpan (p : Parser (Span → α)) : Parser α :=
  fun ts n =>
    match p ts n with
    | ⟨none, n'⟩ => ⟨none, n'⟩
    | ⟨some (f, rest), n'⟩ => ⟨some (f (hull (consumed ts rest)), rest), n'⟩

/-- Notes the place of what was read. -/
def located (p : Parser α) : Parser (Spanned α) :=
  withSpan do
    let a ← p
    return fun s => ⟨a, s⟩

end Parser

end AnnotationQuery.Parse
