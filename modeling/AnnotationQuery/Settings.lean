import AnnotationQuery.Document.Toml.Reader
import AnnotationQuery.Host
import AnnotationQuery.Root
import AnnotationQuery.Settings.Reference
import AnnotationQuery.Text.Blank

/-!
# Settings

Settings say where the schema is and give defaults for the raw SQL parts of
queries, for each kind of row. They come from a TOML file: the one that an
environment variable names, or the one in the working directory, or none. The
path of the schema may refer to environment variables; it is expanded when it is
needed, so settings with an unset variable can still be loaded.
-/

namespace AnnotationQuery

/-- Defaults for the parts of a query that are not its filter. -/
structure QueryDefaults where
  select : Option String := none
  extraWhere : Option String := none
  order : Option String := none
  limit : Option String := none
deriving DecidableEq, Repr

/-- What can be configured. -/
structure Settings where
  /-- The path of the schema, not expanded. -/
  schema : Option String := none
  /-- Defaults for transcript queries. -/
  graph : QueryDefaults := {}
  /-- Defaults for participant queries. -/
  participant : QueryDefaults := {}
deriving DecidableEq, Repr

/-- Why there are no settings, or why a part of them cannot be used. -/
inductive SettingsError where
  | fileNotFound (path : String)
  | unreadableFile
  | malformedFile
  | missingVariable (name : String)
  | unterminatedReference (name : String)
  | blankSelect (table : String)
deriving DecidableEq, Repr

/-- The wording of an error. -/
def SettingsError.message : SettingsError → String
  | fileNotFound path => "Config file not found: " ++ path
  | unreadableFile => "Failed to read config file"
  | malformedFile => "Failed to parse config file"
  | missingVariable name => "Missing environment variable: " ++ name
  | unterminatedReference name => "Invalid configuration: unterminated $\x7b" ++ name
  | blankSelect table => "Invalid configuration: [" ++ table ++ "] select must not be empty"

namespace Settings

/-! ## Documents -/

/-- The defaults in a part of a document; all unset if it is not there. -/
def defaults? (f : Format) : Option Node → Option QueryDefaults
  | none => some {}
  | some n => do
    match ← n.record? f ["select", "extra_where", "order", "limit"] with
    | [select, extraWhere, order, limit] =>
      return {
        select := ← Node.optionalText? select
        extraWhere := ← Node.optionalText? extraWhere
        order := ← Node.optionalText? order
        limit := ← Node.optionalText? limit }
    | _ => none

/-- The settings that a document gives. -/
def ofNode? (f : Format) (n : Node) : Option Settings := do
  match ← n.record? f ["schema", "graph", "participant"] with
  | [schema, graph, participant] =>
    return {
      schema := ← Node.optionalText? schema
      graph := ← defaults? f graph
      participant := ← defaults? f participant }
  | _ => none

/-- Whether the defaults select, but nothing. -/
def selectsBlank (d : QueryDefaults) : Bool :=
  d.select.any Text.isBlankText

/-- The settings, if they select something wherever they select. -/
def validate (s : Settings) : Except SettingsError Settings :=
  if selectsBlank s.graph then .error (.blankSelect "graph")
  else if selectsBlank s.participant then .error (.blankSelect "participant")
  else .ok s

/-- The settings that a TOML text gives. -/
def ofToml (source : String) : Except SettingsError Settings :=
  match (Toml.parse? source).bind (ofNode? Toml.format) with
  | some s => s.validate
  | none => .error .malformedFile

/-! ## Files -/

/-- The settings in what stands at a path. -/
def ofFileState (path : String) (state : FileState) : Except SettingsError Settings := do
  ofToml (← state.content (.fileNotFound path) .unreadableFile)

/-- The environment variable that names the file with the settings. -/
def fileVariable : String := "AGQL_CONFIG"

/-- The file with the settings if no variable names one. -/
def localFile : String := "agql.toml"

variable {m : Type → Type} [Monad m]

/-- Loads the settings from a file. -/
def loadFile (h : Host m) (path : String) : m (Except SettingsError Settings) := do
  return ofFileState path (← h.file path)

/-- Loads the settings from where they are by default. Without any file, nothing is set. -/
def load (h : Host m) : m (Except SettingsError Settings) := do
  match ← h.lookup fileVariable with
  | some path => loadFile h path
  | none =>
    match ← h.file localFile with
    | .missing => return .ok {}
    | state => return ofFileState localFile state

/-! ## Use -/

/-- The text of a piece. -/
def resolve (lookup : String → m (Option String)) :
    Piece → m (Except SettingsError String)
  | .plain c => return .ok c.toString
  | .unterminated name => return .error (.unterminatedReference name)
  | .reference name => do
    match ← lookup name with
    | some value => return .ok value
    | none => return .error (.missingVariable name)

/-- The text of pieces, or the first error. -/
def resolveAll (lookup : String → m (Option String)) :
    List Piece → m (Except SettingsError String)
  | [] => return .ok ""
  | p :: ps => do
    match ← resolve lookup p with
    | .error e => return .error e
    | .ok text =>
      match ← resolveAll lookup ps with
      | .error e => return .error e
      | .ok rest => return .ok (text ++ rest)

/-- A text with its references replaced by the values of the variables. -/
def expand (lookup : String → m (Option String)) (source : String) :
    m (Except SettingsError String) :=
  resolveAll lookup (pieces source.toList)

/-- The path of the schema, if one is configured. -/
def schemaPath (s : Settings) (lookup : String → m (Option String)) :
    m (Except SettingsError (Option String)) := do
  match s.schema with
  | none => return .ok none
  | some path => return (← expand lookup path).map some

/-- The defaults for queries with these rows. -/
def defaultsFor (s : Settings) : Root → QueryDefaults
  | .transcript => s.graph
  | .participant => s.participant

/-- What queries with these rows select. -/
def selectFor (s : Settings) (root : Root) : String :=
  (s.defaultsFor root).select.getD root.defaultSelect

end Settings

end AnnotationQuery
