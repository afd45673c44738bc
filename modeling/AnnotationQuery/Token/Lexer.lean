import AnnotationQuery.Diagnostic
import AnnotationQuery.Text.Blank
import AnnotationQuery.Text.Identifier
import AnnotationQuery.Token

/-!
# From text to tokens

`lexeme?` reads the one token that starts at a place, as the longest text of its
kind; `lex` reads a whole text, skipping the blanks between tokens. Each token
comes with the characters that were read for it, so the text is the tokens'
characters and blanks, in order, with nothing dropped.

The walk is one pass over the characters: after a token it counts off the
characters that the token has used up.

A place where no token starts ends the reading with one diagnostic. It covers the
character there, which for a string without an end is its opening quote. Only a
minus sign promises more than itself: with no digit after it, the complaint is
about what follows the sign.
-/

namespace AnnotationQuery.Token

/-- A token and the characters that it was read from. -/
structure Lexeme where
  token : Token
  written : List Char
deriving DecidableEq, Repr

/-- The body of a string up to its closing quote `q`. A backslash takes the next character along. -/
def quotedBody? (q : Char) : List Char → Option (List Char)
  | [] => none
  | ['\\'] => none
  | '\\' :: c :: cs => (quotedBody? q cs).map fun body => '\\' :: c :: body
  | c :: cs => if c = q then some [] else (quotedBody? q cs).map (c :: ·)

/-- The fraction of a number: a point and at least one digit, or nothing. -/
def fraction : List Char → List Char
  | '.' :: cs =>
    let digits := cs.takeWhile Char.isDigit
    if digits.isEmpty then [] else '.' :: digits
  | _ => []

/-- The digits of a number, at least one, with its fraction. -/
def unsigned? (cs : List Char) : Option (List Char) :=
  let whole := cs.takeWhile Char.isDigit
  if whole.isEmpty then none else some (whole ++ fraction (cs.dropWhile Char.isDigit))

/-- A number: an optional minus sign, digits and an optional fraction. -/
def number? : List Char → Option (List Char)
  | '-' :: cs => (unsigned? cs).map ('-' :: ·)
  | cs => unsigned? cs

/-- The symbol that starts here. Of two that fit, the longer one. -/
def symbol? : List Char → Option Symbol
  | '<' :: '=' :: _ => some .le
  | '>' :: '=' :: _ => some .ge
  | '<' :: '>' :: _ => some .ne
  | '<' :: _ => some .lt
  | '>' :: _ => some .gt
  | '=' :: _ => some .eq
  | '(' :: _ => some .lparen
  | ')' :: _ => some .rparen
  | ',' :: _ => some .comma
  | '.' :: _ => some .dot
  | _ => none

/-- The token that starts with the first of these characters. -/
def lexeme? : List Char → Option Lexeme
  | [] => none
  | c :: cs =>
    if Text.isIdentifierStart c then
      let word := c :: cs.takeWhile Text.isIdentifierPart
      some ⟨ofWord word, word⟩
    else if c = '\'' then
      (quotedBody? c cs).map fun body => ⟨single (String.ofList body), c :: (body ++ [c])⟩
    else if c = '"' then
      (quotedBody? c cs).map fun body => ⟨double (String.ofList body), c :: (body ++ [c])⟩
    else
      match number? (c :: cs) with
      | some digits => some ⟨number (String.ofList digits), digits⟩
      | none => (symbol? (c :: cs)).map fun s => ⟨symbol s, s.text.toList⟩

/-- The complaint about a character that ends the reading. -/
def stuckOn (offset : Nat) : List Char → Diagnostic
  | [] => ⟨.endOfInput, offset, offset⟩
  | c :: _ => ⟨.found c.toString, offset, offset + c.utf8Size⟩

/-- The complaint about a place where no token starts. -/
def stuckAt (offset : Nat) : List Char → Diagnostic
  | '-' :: cs => stuckOn (offset + '-'.utf8Size) cs
  | cs => stuckOn offset cs

/-- Reads the tokens of the characters after the first `used` of them, which stand at `offset`. -/
def lexFrom (offset used : Nat) : List Char → Except Diagnostic (List (Spanned Token))
  | [] => .ok []
  | c :: cs =>
    let next := offset + c.utf8Size
    match used with
    | left + 1 => lexFrom next left cs
    | 0 =>
      if Text.isBlank c then lexFrom next 0 cs
      else
        match lexeme? (c :: cs) with
        | none => .error (stuckAt offset (c :: cs))
        | some l =>
          (lexFrom next (l.written.length - 1) cs).map fun rest =>
            ⟨l.token, offset, offset + Text.byteLength l.written⟩ :: rest

/-- The tokens of a text with their places, or the first place where none can be read. -/
def lex (source : String) : Except Diagnostic (List (Spanned Token)) :=
  lexFrom 0 0 source.toList

end AnnotationQuery.Token
