import AnnotationQuery.Host

/-!
# A fixed working directory

A host whose answers are data: the files below a working directory, and the
environment. Paths are followed one component at a time. Every component but the
last has to be a directory, and so does one before a trailing slash. A path may
lead up out of the working directory, but nothing can be found from there.
-/

namespace AnnotationQuery

/-- Something in a directory. -/
inductive DirectoryEntry where
  | directory
  | text (content : String)
  /-- A file that is no text. -/
  | binary
deriving DecidableEq, Repr

/-- Everything below a working directory, by the components of its path. The directories on the way
to an entry need no entries of their own. -/
structure Directory where
  entries : List (List String × DirectoryEntry)

/-- Where a path has led so far. -/
inductive Place where
  /-- Somewhere in the working directory. -/
  | inside (path : List String)
  /-- Above it. -/
  | above
deriving DecidableEq, Repr

namespace Directory

/-- Whether a component of a path stays where it is. -/
def staysPut (component : String) : Bool :=
  component.isEmpty || component == "."

/-- The directory with these entries, by their names. -/
def ofNames (entries : List (String × DirectoryEntry)) : Directory :=
  ⟨entries.map fun (name, e) => ((name.splitOn "/").filter (!staysPut ·), e)⟩

/-- The entry at a path, if there is one of its own. -/
def get? (d : Directory) (path : List String) : Option DirectoryEntry :=
  (d.entries.find? (·.1 == path)).map (·.2)

/-- Whether there is a directory at a path. -/
def isDirectory (d : Directory) (path : List String) : Bool :=
  path.isEmpty || d.get? path == some .directory ||
    d.entries.any fun (other, _) => path.length < other.length && path.isPrefixOf other

/-- Whether there is anything at a path. -/
def has (d : Directory) (path : List String) : Bool :=
  d.isDirectory path || (d.get? path).isSome

/-- Follows one component of a path. -/
def follow (d : Directory) (place : Place) (component : String) : Option Place :=
  match place with
  | .above => if staysPut component || component == ".." then some .above else none
  | .inside path =>
    if !d.isDirectory path then none
    else if staysPut component then some place
    else if component = ".." then some (if path.isEmpty then .above else .inside path.dropLast)
    else if d.has (path ++ [component]) then some (.inside (path ++ [component]))
    else none

/-- What stands at a place. -/
def stateAt (d : Directory) : Place → FileState
  | .above => .unreadable
  | .inside path =>
    if d.isDirectory path then .unreadable
    else
      match d.get? path with
      | some (.text content) => .text content
      | some .binary | some .directory => .unreadable
      | none => .missing

/-- What stands at a path. -/
def file (d : Directory) (path : String) : FileState :=
  let start : Place := if path.startsWith "/" then .above else .inside []
  if path.isEmpty then .missing
  else
    match (path.splitOn "/").foldlM d.follow start with
    | some place => d.stateAt place
    | none => .missing

/-- The host with this working directory and environment. -/
def host (d : Directory) (environment : List (String × String)) : Host Id where
  file := d.file
  lookup name := (environment.find? (·.1 == name)).map (·.2)

end Directory

end AnnotationQuery
