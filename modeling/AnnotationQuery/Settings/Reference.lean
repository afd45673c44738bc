import AnnotationQuery.Text.Alphanumeric

/-!
# References to the environment

A text may refer to environment variables, as `$NAME` or `${NAME}`. With braces, a
name is everything up to the next closing brace; without, it is the longest run of
alphanumeric characters and underscores. An empty name refers to nothing, and the
dollar sign stands for itself.

`pieces` splits a text into plain characters and references. A value never takes
part in that, so dollar signs inside a value stay.
-/

namespace AnnotationQuery.Settings

/-- A piece of a text that may refer to the environment. -/
inductive Piece where
  | plain (c : Char)
  | reference (name : String)
  /-- A name in braces of which the closing one is missing. -/
  | unterminated (name : String)
deriving DecidableEq, Repr

/-- Whether a character may be part of a name without braces. -/
def isNamePart (c : Char) : Bool :=
  Text.isAlphanumeric c || c == '_'

/-- The piece for a reference to this name. -/
def Piece.ofName (name : List Char) : Piece :=
  if name.isEmpty then .plain '$' else .reference (String.ofList name)

/-- What is left after a run of characters is no longer than what was there. -/
theorem length_dropWhile_le (p : Char → Bool) (cs : List Char) :
    (cs.dropWhile p).length ≤ cs.length :=
  (List.dropWhile_suffix p).length_le

/-- The pieces of a text, in order. -/
def pieces : List Char → List Piece
  | [] => []
  | '$' :: '\x7b' :: cs =>
    if cs.contains '\x7d' then
      .ofName (cs.takeWhile (· ≠ '\x7d')) :: pieces ((cs.dropWhile (· ≠ '\x7d')).drop 1)
    else [.unterminated (String.ofList cs)]
  | '$' :: cs => .ofName (cs.takeWhile isNamePart) :: pieces (cs.dropWhile isNamePart)
  | c :: cs => .plain c :: pieces cs
termination_by cs => cs.length
decreasing_by
  · have := length_dropWhile_le (· ≠ '\x7d') cs
    simp only [List.length_drop, List.length_cons]
    omega
  · have := length_dropWhile_le isNamePart cs
    simp only [List.length_cons]
    omega
  · simp only [List.length_cons]
    omega

end AnnotationQuery.Settings
