/-!
# Places in a text

Offsets count the bytes of the UTF-8 encoding. A `Span` is the half-open range
of offsets that a piece of text covers; `Spanned` pairs a value with the span
that it was read from. The size of a text is a measure on its characters, so an
offset is always the size of what stands before it.
-/

namespace AnnotationQuery

namespace Text

/-- The number of bytes that encode the characters. -/
def byteLength : List Char → Nat
  | [] => 0
  | c :: cs => c.utf8Size + byteLength cs

/-- Splits the characters at a byte offset, if a character starts or the text ends there. -/
def splitAtByte? : Nat → List Char → Option (List Char × List Char)
  | 0, cs => some ([], cs)
  | _ + 1, [] => none
  | n + 1, c :: cs =>
    if c.utf8Size ≤ n + 1 then
      (splitAtByte? (n + 1 - c.utf8Size) cs).map fun (before, after) => (c :: before, after)
    else none

end Text

/-- A range of byte offsets, its end excluded. -/
structure Span where
  start : Nat
  stop : Nat
deriving DecidableEq, Repr

namespace Span

/-- The span as it stands in messages. -/
def text (s : Span) : String :=
  s.start.repr ++ ".." ++ s.stop.repr

/-- From the start of one span to the end of another. -/
def hull (a b : Span) : Span :=
  ⟨a.start, b.stop⟩

/-- Whether a span runs forward. One that stops before it starts marks a place, covering nothing. -/
def isForward (s : Span) : Bool :=
  s.start ≤ s.stop

/-- The part of a text that a span covers, if the span lies on character boundaries of it. -/
def slice? (s : Span) (source : String) : Option String :=
  if s.isForward then do
    let (_, rest) ← Text.splitAtByte? s.start source.toList
    let (covered, _) ← Text.splitAtByte? (s.stop - s.start) rest
    return String.ofList covered
  else none

end Span

/-- A value and the place that it was read from. -/
structure Spanned (α : Type) where
  value : α
  span : Span
deriving DecidableEq, Repr

end AnnotationQuery
