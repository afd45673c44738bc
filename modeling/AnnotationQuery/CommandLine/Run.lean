import AnnotationQuery.CommandLine.Arguments
import AnnotationQuery.CommandLine.Outcome
import AnnotationQuery.Compile
import AnnotationQuery.Document.Json.Writer
import AnnotationQuery.Schema.Document
import AnnotationQuery.Sql.Document

/-!
# Running a command line

Every command first loads the settings, also one that does not use them. Options
on the command line win over the settings. The run is a function of its host and
its arguments; only the host touches the world.
-/

namespace AnnotationQuery.CommandLine

/-- The program's name and version. -/
def versionText : String := "agql 0.1.0\n"

/-- How the program is used. -/
def helpText : String :=
  "Compile Annotation Graph Query Language expressions to MySQL\n\n" ++
  "Usage: agql [--config <CONFIG>] <COMMAND>\n\n" ++
  "Commands:\n" ++
  "  graph <EXPRESSION>        Compile a transcript query\n" ++
  "  participant <EXPRESSION>  Compile a participant query\n" ++
  "  escape <TEXT>             Escape single quotes for use in a SQL string literal\n" ++
  "  layers                    List schema layers and their storage categories\n" ++
  "  help                      Print this message\n\n" ++
  "Options:\n" ++
  "      --config <CONFIG>     Path to agql.toml\n" ++
  "  -s, --schema <SCHEMA>     Path to the schema file (.toml or .json)\n" ++
  "      --select <SELECT>     SELECT list\n" ++
  "      --where <WHERE>       Raw SQL condition joined to the filter\n" ++
  "      --order <ORDER>       Order expression\n" ++
  "      --limit <LIMIT>       Raw LIMIT clause\n" ++
  "  -o, --output <OUTPUT>     Output format: sql or json\n" ++
  "  -h, --help                Print help\n" ++
  "  -V, --version             Print version\n"

/-! ## Layers -/

/-- The text with blanks after it, up to a width in characters. -/
def padTo (width : Nat) (text : String) : String :=
  text ++ String.ofList (List.replicate (width - text.length) ' ')

/-- A line for a role and the layer that plays it. -/
def roleLine (role id : String) : String :=
  "  " ++ padTo 12 role ++ " " ++ id ++ "\n"

/-- A line for a layer and where it is stored. -/
def layerLine (s : Schema) (l : Layer) : String :=
  let category := ((s.category? l.id).map Category.name).getD "(unmapped)"
  "  " ++ padTo 24 l.id ++ " " ++ padTo 22 category ++ " " ++ l.description ++ "\n"

/-- The roles and layers of a schema. -/
def listing (s : Schema) : String :=
  "Root: " ++ s.roles.root ++ "\n" ++
  String.join (s.roles.named.map fun (role, id) => roleLine role id) ++
  "\nLayers:\n" ++
  String.join (s.layers.map (layerLine s))

/-! ## Queries -/

/-- The query that options ask for, with the settings for what they leave open. -/
def request (settings : Settings) (root : Root) (expression : String) (o : QueryOptions) :
    Request :=
  let defaults := settings.defaultsFor root
  { expression
    select := o.select.getD (settings.selectFor root)
    extraWhere := o.extraWhere.or defaults.extraWhere
    order := o.order.or defaults.order
    limit := o.limit.or defaults.limit }

/-- A statement as it is printed. -/
def printed (format : OutputFormat) (q : Sql.Query) : String :=
  match format with
  | .sql => q.sql ++ "\n"
  | .json => Json.page q.node ++ "\n"

/-- The outcome of compiling a query. -/
def compiled (format : OutputFormat) : Except Rejection Sql.Query → Outcome
  | .ok q => .printed (printed format q)
  | .error r => .ofRejection r

/-! ## Runs -/

variable {m : Type → Type} [Monad m]

/-- Loads the settings from the file that was given, or from where they are by default. -/
def loadSettings (h : Host m) : Option String → m (Except SettingsError Settings)
  | some path => Settings.loadFile h path
  | none => Settings.load h

/-- Loads the schema from the file that was given, or from the configured one. -/
def loadSchema (h : Host m) (settings : Settings) (given : Option String) :
    m (Except LoadError Schema) := do
  let path : Except LoadError String ←
    match given with
    | some path => pure (.ok path)
    | none => do
      match ← settings.schemaPath h.lookup with
      | .error e => pure (.error (.schemaPath e))
      | .ok none => pure (.error .noSchema)
      | .ok (some path) => pure (.ok path)
  match path with
  | .error e => return .error e
  | .ok path => return (← Schema.load h path).mapError (.schema path)

/-- Goes on with a schema, if it can be loaded. -/
def withSchema (h : Host m) (settings : Settings) (given : Option String) (use : Schema → Outcome) :
    m Outcome := do
  match ← loadSchema h settings given with
  | .error e => return .notLoaded e
  | .ok schema => return use schema

/-- Executes a command. -/
def execute (h : Host m) (settings : Settings) : Command → m Outcome
  | .escape text => return .printed (Text.escape text ++ "\n")
  | .layers schema => withSchema h settings schema fun s => .printed (listing s)
  | .compile root expression options =>
    withSchema h settings options.schema fun s =>
      compiled options.output ((request settings root expression options).compile s root)

/-- Runs the program on its arguments. -/
def run (h : Host m) (arguments : List String) : m Outcome := do
  match parse arguments with
  | .error .misuse => return .misused
  | .error .help => return .printed helpText
  | .error .version => return .printed versionText
  | .ok invocation =>
    match ← loadSettings h invocation.config with
    | .error e => return .notLoaded (.config e)
    | .ok settings => execute h settings invocation.command

end AnnotationQuery.CommandLine
