import AnnotationQuery.Root

/-!
# Arguments

A command line is a command with options before or after its operand. An option
takes its value from the next argument or, after an equals sign, from the same one;
a short option also takes what directly follows its letter. An argument that starts
with a dash is an option, unless it is the dash alone, and never a value; after `--`
every argument is an operand.

Arguments are taken one at a time. Whatever is wrong with them ends the reading at
once, and so does asking for help or for the version, so of the two the one that
stands first decides.
-/

namespace AnnotationQuery.CommandLine

/-! ## Options -/

/-- An option, all of which take a value. -/
inductive Key where
  | config
  | schema
  | select
  | extraWhere
  | order
  | limit
  | output
deriving DecidableEq, Repr

namespace Key

/-- The long name of an option. -/
def long : Key → String
  | config => "config"
  | schema => "schema"
  | select => "select"
  | extraWhere => "where"
  | order => "order"
  | limit => "limit"
  | output => "output"

/-- The letter of an option, if it has one. -/
def letter? : Key → Option Char
  | schema => some 's'
  | output => some 'o'
  | _ => none

/-- Whether an option accepts a value: a path is not empty, and there are two output formats. -/
def accepts : Key → String → Bool
  | config, value | schema, value => !value.isEmpty
  | output, value => value == "sql" || value == "json"
  | _, _ => true

end Key

/-- Why reading ends without an invocation. -/
inductive Stop where
  /-- The arguments make no sense. -/
  | misuse
  | help
  | version
deriving DecidableEq, Repr

/-- What an argument looks like. -/
inductive Word where
  | operand (text : String)
  | separator
  | long (name : String) (attached : Option String)
  | short (letter : Char) (attached : Option String)
deriving DecidableEq, Repr

namespace Word

/-- The name and, after the first equals sign, the value of a long option. -/
def ofLong (cs : List Char) : Word :=
  .long (String.ofList (cs.takeWhile (· ≠ '=')))
    (match cs.dropWhile (· ≠ '=') with
    | [] => none
    | _ :: value => some (String.ofList value))

/-- What directly follows the letter of a short option, without an equals sign. -/
def ofShort (letter : Char) : List Char → Word
  | [] => .short letter none
  | '=' :: value => .short letter (some (String.ofList value))
  | value => .short letter (some (String.ofList value))

/-- What an argument looks like. -/
def ofText (text : String) : Word :=
  match text.toList with
  | ['-', '-'] => .separator
  | '-' :: '-' :: cs => ofLong cs
  | '-' :: c :: cs => ofShort c cs
  | _ => .operand text

end Word

/-- What the arguments at one level may be. -/
structure Level where
  keys : List Key
  /-- How many operands there may be. -/
  operands : Nat
  /-- Whether the version can be asked for. -/
  versioned : Bool := false

/-- What the arguments of a level have said so far. -/
structure Given where
  values : List (Key × String) := []
  operands : List String := []
  /-- An option whose value comes next. -/
  pending : Option Key := none
  /-- Whether only operands follow. -/
  separated : Bool := false

namespace Given

/-- The value of an option. -/
def value? (g : Given) (k : Key) : Option String :=
  (g.values.find? (·.1 == k)).map (·.2)

/-- With a value for an option, which must not have one yet. -/
def give (g : Given) (k : Key) (value : String) : Except Stop Given :=
  if (g.value? k).isSome || !k.accepts value then .error .misuse
  else .ok { g with values := g.values ++ [(k, value)], pending := none }

/-- With one more operand, if the level has room for it. -/
def addOperand (g : Given) (level : Level) (text : String) : Except Stop Given :=
  if g.operands.length < level.operands then .ok { g with operands := g.operands ++ [text] }
  else .error .misuse

/-- With an option whose value is attached or comes next. -/
def addOption (g : Given) (k : Option Key) (attached : Option String) : Except Stop Given :=
  match k, attached with
  | none, _ => .error .misuse
  | some k, some value => g.give k value
  | some k, none => .ok { g with pending := some k }

/-- With one more argument. -/
def add (g : Given) (level : Level) (argument : String) : Except Stop Given :=
  if g.separated then g.addOperand level argument
  else
    match g.pending, Word.ofText argument with
    | some k, .operand value => g.give k value
    | some _, _ => .error .misuse
    | none, .operand text => g.addOperand level text
    | none, .separator => .ok { g with separated := true }
    | none, .long name attached =>
      if name = "help" ∧ attached = none then .error .help
      else if name = "version" ∧ attached = none ∧ level.versioned then .error .version
      else g.addOption (level.keys.find? (·.long == name)) attached
    | none, .short letter attached =>
      if letter = 'h' then .error .help
      else if letter = 'V' ∧ level.versioned then .error .version
      else g.addOption (level.keys.find? (·.letter? == some letter)) attached

/-- With all these arguments, the last of which does not wait for a value. -/
def addAll (g : Given) (level : Level) (arguments : List String) : Except Stop Given := do
  let g ← arguments.foldlM (fun g a => g.add level a) g
  if g.pending.isSome then .error .misuse else .ok g

/-- Whether an argument is the name of a command at this point. -/
def expectsCommand (g : Given) (argument : String) : Bool :=
  !g.separated && g.pending.isNone && Word.ofText argument == .operand argument

/-- What the arguments before the command say, the command's name, and what follows it. -/
def beforeCommand (g : Given) (level : Level) :
    List String → Except Stop (Given × String × List String)
  | [] => .error .misuse
  | a :: rest =>
    if g.expectsCommand a then .ok (g, a, rest)
    else do
      let g ← g.add level a
      beforeCommand g level rest

end Given

/-! ## Commands -/

/-- How a statement is printed. -/
inductive OutputFormat where
  | sql
  | json
deriving DecidableEq, Repr

/-- The options of a query. -/
structure QueryOptions where
  schema : Option String := none
  select : Option String := none
  extraWhere : Option String := none
  order : Option String := none
  limit : Option String := none
  output : OutputFormat := .sql
deriving DecidableEq, Repr

/-- What to do. -/
inductive Command where
  | compile (root : Root) (expression : String) (options : QueryOptions)
  | escape (text : String)
  | layers (schema : Option String)
deriving DecidableEq, Repr

/-- What to do, and where the settings are. -/
structure Invocation where
  config : Option String
  command : Command
deriving DecidableEq, Repr

/-- The arguments before the command. -/
def outerLevel : Level := { keys := [.config], operands := 0, versioned := true }

/-- The names of the commands. -/
def commandNames : List String := ["graph", "participant", "escape", "layers", "help"]

/-- The arguments of a command, if there is one of this name. -/
def innerLevel? : String → Option Level
  | "graph" | "participant" =>
    some
      { keys := [.schema, .select, .extraWhere, .order, .limit, .output, .config], operands := 1 }
  | "escape" => some { keys := [.config], operands := 1 }
  | "layers" => some { keys := [.schema, .config], operands := 0 }
  | _ => none

/-- The options of a query in what was given. -/
def queryOptions (g : Given) : QueryOptions where
  schema := g.value? .schema
  select := g.value? .select
  extraWhere := g.value? .extraWhere
  order := g.value? .order
  limit := g.value? .limit
  output := if g.value? .output == some "json" then .json else .sql

/-- The command of a name with its arguments, which must be complete. -/
def command? (name : String) (g : Given) : Option Command :=
  match name, g.operands with
  | "graph", [expression] => some (.compile .transcript expression (queryOptions g))
  | "participant", [expression] => some (.compile .participant expression (queryOptions g))
  | "escape", [text] => some (.escape text)
  | "layers", [] => some (.layers (g.value? .schema))
  | _, _ => none

/-- Asks for help, on at most one command. -/
def helpOn : List String → Stop
  | [] => .help
  | [name] => if commandNames.contains name then .help else .misuse
  | _ => .misuse

/-- What a command line asks for. Settings given both before and after the command's name are taken
from after it. -/
def parse (arguments : List String) : Except Stop Invocation := do
  let (outer, name, rest) ← Given.beforeCommand {} outerLevel arguments
  if name = "help" then .error (helpOn rest)
  else
    match innerLevel? name with
    | none => .error .misuse
    | some level =>
      let inner ← Given.addAll {} level rest
      match command? name inner with
      | none => .error .misuse
      | some command => .ok ⟨(inner.value? .config).or (outer.value? .config), command⟩

end AnnotationQuery.CommandLine
