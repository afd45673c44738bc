/-!
# Blank characters

Blank is the Unicode property `White_Space`: the ASCII blanks with vertical tab
and form feed, the next-line control, the no-break spaces and the typographic
spaces. The lexer skips exactly these characters and `trim` removes exactly
these characters, so a text that trims to nothing has no tokens.
-/

namespace AnnotationQuery.Text

/-- Whether a character is blank: the Unicode property `White_Space`. -/
def isBlank (c : Char) : Bool :=
  let n := c.toNat
  (0x09 ≤ n && n ≤ 0x0D) || n == 0x20 || n == 0x85 || n == 0xA0 || n == 0x1680 ||
    (0x2000 ≤ n && n ≤ 0x200A) || n == 0x2028 || n == 0x2029 || n == 0x202F ||
    n == 0x205F || n == 0x3000

/-- The characters without the blanks at both ends. -/
def trimBlanks (cs : List Char) : List Char :=
  ((cs.dropWhile isBlank).reverse.dropWhile isBlank).reverse

/-- The text without the blanks at both ends. -/
def trim (s : String) : String :=
  String.ofList (trimBlanks s.toList)

/-- Whether a text holds blanks only. -/
def isBlankText (s : String) : Bool :=
  s.toList.all isBlank

/-- The trimmed text, unless nothing is left of it. -/
def nonBlank? (s : String) : Option String :=
  if isBlankText s then none else some (trim s)

end AnnotationQuery.Text
