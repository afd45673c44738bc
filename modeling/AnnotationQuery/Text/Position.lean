/-!
# Lines and columns

A reader wants a place as line and column, both from 1 and counted in
characters. A line ends after a line feed, a carriage return (with the line feed
that follows it, if one does), a vertical tab, a form feed, the next-line control
or one of the two Unicode separators. The end of the text belongs to its last
line, also when that line ends with a break.
-/

namespace AnnotationQuery.Text

/-- Line and column, both counted from 1. -/
structure Position where
  line : Nat
  column : Nat
deriving DecidableEq, Repr

/-- The position as `line:column`. -/
def Position.text (p : Position) : String :=
  p.line.repr ++ ":" ++ p.column.repr

/-- Whether a line ends after `c` when `rest` follows. A break at the very end starts no line. -/
def endsLine (c : Char) (rest : List Char) : Bool :=
  match rest with
  | [] => false
  | next :: _ =>
    if c = '\r' then next ≠ '\n'
    else c.toNat ∈ [0x0A, 0x0B, 0x0C, 0x85, 0x2028, 0x2029]

/-- The position `bytes` further on in the characters, when they start at `p`. -/
def positionFrom (p : Position) : (bytes : Nat) → List Char → Position
  | _, [] => p
  | bytes, c :: cs =>
    if bytes = 0 then p
    else if endsLine c cs then positionFrom ⟨p.line + 1, 1⟩ (bytes - c.utf8Size) cs
    else positionFrom ⟨p.line, p.column + 1⟩ (bytes - c.utf8Size) cs

/-- The position of a byte offset in a text. -/
def positionAt (source : String) (offset : Nat) : Position :=
  positionFrom ⟨1, 1⟩ offset source.toList

end AnnotationQuery.Text
