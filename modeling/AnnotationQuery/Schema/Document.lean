import AnnotationQuery.Document.Json.Reader
import AnnotationQuery.Document.Toml.Reader
import AnnotationQuery.Host
import AnnotationQuery.Schema

/-!
# Schemas in documents

A schema is written as a record of the ids that play a role and the list of
layers. `Schema.node` writes a schema so, and `Schema.ofNode?` reads what it
writes, and more: parts that have a default may be left out, unknown keys are
ignored, and records may be written as lists.

A file whose name ends in `.json`, in any case of letters, holds JSON, and any
other file TOML.
-/

namespace AnnotationQuery

/-! ## Layers -/

namespace Layer

/-- The fields of a layer in a document. -/
def fieldNames : List String :=
  ["id", "description", "alignment", "parent_id", "peers", "layer_id", "class_id", "attribute"]

/-- An alignment that is none if it is not given. -/
def alignment? (f : Format) : Option Node → Option Alignment
  | none => some .none
  | some n => (n.alternative? f).bind Alignment.ofName?

/-- The layer that a part of a document describes. -/
def ofNode? (f : Format) (n : Node) : Option Layer := do
  match ← n.record? f fieldNames with
  | [id, description, alignment, parentId, peers, layerId, classId, storedName] =>
    return {
      id := ← Node.requiredText? id
      description := ← Node.textOrEmpty? description
      alignment := ← alignment? f alignment
      parentId := ← Node.optionalText? parentId
      peers := ← Node.flag? peers
      layerId := ← Node.optionalWhole? layerId
      classId := ← Node.optionalText? classId
      storedName := ← Node.optionalText? storedName }
  | _ => none

/-- An entry of a record, if there is something to write. -/
def entry (key : String) (value : Option Node) : List (String × Node) :=
  (value.map (key, ·)).toList

/-- A layer as a record. What is not set is left out. -/
def node (l : Layer) : Node :=
  .fields (
    [("id", .text l.id), ("description", .text l.description),
      ("alignment", .text l.alignment.name)] ++
    entry "parent_id" (l.parentId.map .text) ++
    [("peers", .bool l.peers)] ++
    entry "layer_id" (l.layerId.map .whole) ++
    entry "class_id" (l.classId.map .text) ++
    entry "attribute" (l.storedName.map .text))

end Layer

/-! ## Schemas -/

namespace Schema

/-- The fields of a schema in a document. -/
def fieldNames : List String :=
  ["root_layer_id", "participant_layer_id", "turn_layer_id", "utterance_layer_id",
    "word_layer_id", "corpus_layer_id", "episode_layer_id", "layers"]

/-- The layers and roles that a document declares. -/
def ofNode? (f : Format) (n : Node) : Option (List Layer × Roles) := do
  match ← n.record? f fieldNames with
  | [root, participant, turn, utterance, word, corpus, episode, layers] =>
    let roles : Roles := {
      root := (← Node.optionalText? root).getD "graph"
      participant := ← Node.optionalText? participant
      turn := ← Node.optionalText? turn
      utterance := ← Node.optionalText? utterance
      word := ← Node.optionalText? word
      corpus := ← Node.optionalText? corpus
      episode := ← Node.optionalText? episode }
    return (← (← Node.itemsOrEmpty? layers).mapM (Layer.ofNode? f), roles)
  | _ => none

/-- A schema as a record. Roles that nothing plays are left out. -/
def node (s : Schema) : Node :=
  .fields (
    [("root_layer_id", .text s.roles.root)] ++
    Layer.entry "participant_layer_id" (s.roles.participant.map .text) ++
    Layer.entry "turn_layer_id" (s.roles.turn.map .text) ++
    Layer.entry "utterance_layer_id" (s.roles.utterance.map .text) ++
    Layer.entry "word_layer_id" (s.roles.word.map .text) ++
    Layer.entry "corpus_layer_id" (s.roles.corpus.map .text) ++
    Layer.entry "episode_layer_id" (s.roles.episode.map .text) ++
    [("layers", .items (s.layers.map Layer.node))])

/-- The schema of a document that was read, or an error for one that could not be. -/
def ofDocument (f : Format) (malformed : SchemaError) (document : Option Node) :
    Except SchemaError Schema :=
  match document.bind (ofNode? f) with
  | some (layers, roles) => build layers roles
  | none => .error malformed

/-- The schema that a TOML text describes. -/
def ofToml (source : String) : Except SchemaError Schema :=
  ofDocument Toml.format .malformedToml (Toml.parse? source)

/-- The schema that a JSON text describes. -/
def ofJson (source : String) : Except SchemaError Schema :=
  ofDocument Json.format .malformedJson (Json.parse? source)

/-! ## Files -/

/-- Whether a path names a JSON file: what follows the last dot of the file's name, if anything
stands before that dot, is `json`. -/
def isJsonPath (path : String) : Bool :=
  let name := path.toList.reverse.takeWhile (· ≠ '/')
  let extension := name.takeWhile (· ≠ '.')
  let stem := (name.dropWhile (· ≠ '.')).drop 1
  !stem.isEmpty && extension.reverse.map Char.toLower == "json".toList

/-- The schema in what stands at a path. -/
def ofFileState (path : String) (state : FileState) : Except SchemaError Schema := do
  let source ← state.content (.fileNotFound path) .unreadableFile
  if isJsonPath path then ofJson source else ofToml source

/-- Loads the schema at a path. -/
def load {m : Type → Type} [Monad m] (h : Host m) (path : String) :
    m (Except SchemaError Schema) := do
  return ofFileState path (← h.file path)

end Schema

end AnnotationQuery
