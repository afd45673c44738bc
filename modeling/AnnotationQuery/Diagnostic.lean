import AnnotationQuery.Text.Span

/-!
# Diagnostics

What a reader of query text says about a malformed place. There are three
complaints: something stands where it cannot be read on, the text ends too early,
or complete text is followed by more.
-/

namespace AnnotationQuery

/-- What is wrong at a place. -/
inductive Complaint where
  /-- This piece of the text cannot stand here. -/
  | found (text : String)
  /-- The text ends here, and something is missing. -/
  | endOfInput
  /-- What was to be read is complete, and more follows. -/
  | leftover
deriving DecidableEq, Repr

/-- The wording of a complaint. -/
def Complaint.message : Complaint → String
  | found text => "found '" ++ text ++ "'"
  | endOfInput => "found end of input"
  | leftover => "unexpected input after expression"

/-- A complaint and the place that it is about. -/
structure Diagnostic where
  complaint : Complaint
  span : Span
deriving DecidableEq, Repr

namespace Diagnostic

/-- The wording without the place. -/
def message (d : Diagnostic) : String :=
  d.complaint.message

/-- The wording with the place. -/
def text (d : Diagnostic) : String :=
  d.message ++ " (at " ++ d.span.text ++ ")"

end Diagnostic

/-- What reading a text gave: an output, if any could be made, and what was malformed. -/
structure Reading (α : Type) where
  output : Option α
  diagnostics : List Diagnostic

/-- Whether the text was read without a complaint. -/
def Reading.isOk {α : Type} (r : Reading α) : Bool :=
  r.output.isSome && r.diagnostics.isEmpty

end AnnotationQuery
