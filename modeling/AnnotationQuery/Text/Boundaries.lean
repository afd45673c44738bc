/-!
# Sets of code points

A character class of Unicode is a set of code points, and such a set is a few
hundred runs of neighbours. `within` reads a set from its *boundaries*: the
code points at which membership changes, in rising order, starting outside.
A character is in the set when an odd number of changes lie at or before it.
-/

namespace AnnotationQuery.Text

/-- Whether `c` is in the set whose membership changes at `bounds`. -/
def within (bounds : List Nat) (c : Char) : Bool :=
  (bounds.takeWhile (· ≤ c.toNat)).length % 2 == 1

end AnnotationQuery.Text
