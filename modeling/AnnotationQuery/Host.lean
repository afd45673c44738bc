/-!
# The world around a program

What the library asks of its surroundings is little: what stands at a path, and
the value of an environment variable. A `Host` answers both in some monad. With
`Id` the answers are fixed and loading is an ordinary function of them; a command
line answers from the file system and its process.
-/

namespace AnnotationQuery

/-- What stands at a path. -/
inductive FileState where
  | missing
  /-- A directory, or a file that is no text. -/
  | unreadable
  | text (content : String)
deriving DecidableEq, Repr

/-- The text of a file, or the error for the way in which there is none. -/
def FileState.content {ε : Type} (missing unreadable : ε) : FileState → Except ε String
  | .missing => .error missing
  | .unreadable => .error unreadable
  | .text content => .ok content

/-- The surroundings of a program. -/
structure Host (m : Type → Type) where
  /-- What stands at a path. -/
  file : String → m FileState
  /-- The value of an environment variable, if it is set. -/
  lookup : String → m (Option String)

end AnnotationQuery
