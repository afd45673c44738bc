/-!
# Quoted text

A value stands in single quotes, and a single quote inside it needs a backslash
before it. A quote counts as escaped already when an odd run of backslashes
stands right before it, so escaping inserts a backslash exactly where the run is
even, and escaping twice is escaping once.

A text that ends in an odd run of backslashes cannot be quoted: its last
backslash would escape the closing quote.
-/

namespace AnnotationQuery.Text

/-- Escapes the characters after a run of backslashes whose length is odd iff `odd`. -/
def escapeAfter : (odd : Bool) → List Char → List Char
  | _, [] => []
  | odd, c :: cs =>
    if c = '\\' then c :: escapeAfter (!odd) cs
    else if c = '\'' then
      if odd then c :: escapeAfter false cs else '\\' :: c :: escapeAfter false cs
    else c :: escapeAfter false cs

/-- Puts a backslash before every single quote that has none. -/
def escape (s : String) : String :=
  String.ofList (escapeAfter false s.toList)

/-- The escaped text between single quotes. -/
def quote (s : String) : String :=
  "'" ++ escape s ++ "'"

/-- The number of backslashes that end a text. -/
def trailingBackslashes (cs : List Char) : Nat :=
  (cs.reverse.takeWhile (· == '\\')).length

/-- Whether a text can be quoted: the backslashes at its end pair up. -/
def isQuotable (s : String) : Bool :=
  trailingBackslashes s.toList % 2 == 0

end AnnotationQuery.Text
