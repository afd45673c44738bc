import AnnotationQuery.Dictionary
import AnnotationQuery.Storage.Category
import AnnotationQuery.Text.Quoted

/-!
# Schemas

A schema is a list of layers with distinct ids, some of which play a role. The
layer that stands for the graph itself is always there: if it is not declared, it
comes first.

Layers are asked for by their ids. So a schema keeps, beside the list, where in it
the layer with an id stands and where that layer is stored. The list and the places
in it are filled by one loop over the declared layers, which ends at an id that came
before; the storage by a second loop over the list.

The name of an attribute ends up in a quoted SQL string, so a schema with an
attribute whose name cannot be quoted is refused. So is one that declares an id
twice, and that complaint comes first.
-/

namespace AnnotationQuery

/-- The layers that play a role in a schema. -/
structure Roles where
  root : String := "graph"
  participant : Option String := none
  turn : Option String := none
  utterance : Option String := none
  word : Option String := none
  corpus : Option String := none
  episode : Option String := none
deriving DecidableEq, Repr

/-- The optional roles that are filled, by name. -/
def Roles.named (r : Roles) : List (String × String) :=
  [("participant", r.participant), ("turn", r.turn), ("utterance", r.utterance),
    ("word", r.word), ("corpus", r.corpus), ("episode", r.episode)].filterMap
      fun (role, id) => id.map (role, ·)

/-- Why there is no schema. -/
inductive SchemaError where
  | fileNotFound (path : String)
  | unreadableFile
  | malformedToml
  | malformedJson
  | duplicateLayer (id : String)
  | invalidAttribute (layer name : String)
deriving DecidableEq, Repr

/-- The wording of an error. -/
def SchemaError.message : SchemaError → String
  | fileNotFound path => "Schema file not found: " ++ path
  | unreadableFile => "Failed to read schema file"
  | malformedToml => "Failed to parse TOML schema"
  | malformedJson => "Failed to parse JSON schema"
  | duplicateLayer id => "Duplicate layer id: " ++ id
  | invalidAttribute layer name =>
    "Layer '" ++ layer ++ "' has an attribute name ending in a lone backslash: " ++ name

/-- Layers, what is known of each by its id, and the roles that some of them play. `Schema.build`
makes the valid ones. -/
structure Schema where
  layers : List Layer
  /-- Where in the list the layer with an id stands. -/
  index : Dictionary Nat
  /-- Where the layer with an id is stored. -/
  categories : Dictionary Category
  roles : Roles
deriving DecidableEq, Repr

namespace Schema

/-! ## The list of layers -/

/-- Layers, and where in the list the layer with an id stands. -/
structure Catalog where
  layers : List Layer
  index : Dictionary Nat
deriving DecidableEq, Repr

namespace Catalog

/-- The catalog without any layer. -/
def empty : Catalog :=
  ⟨[], .empty⟩

/-- Puts a layer behind the others. -/
def add (c : Catalog) (l : Layer) : Catalog :=
  ⟨c.layers ++ [l], c.index.insert l.id c.layers.length⟩

/-- Puts layers behind the others, up to one whose id is there already. -/
def addAll (c : Catalog) : List Layer → Except SchemaError Catalog
  | [] => .ok c
  | l :: ls =>
    if c.index.contains l.id then .error (.duplicateLayer l.id) else (c.add l).addAll ls

end Catalog

/-- The layer that stands for the graph itself when none is declared. -/
def rootLayer (root : String) : Layer :=
  { id := root, description := "The graph itself" }

/-- What comes before the declared layers: a layer for the graph itself, if none of them is that. -/
def firstCatalog (declared : List Layer) (root : String) : Catalog :=
  if declared.any (·.id == root) then .empty else Catalog.empty.add (rootLayer root)

/-! ## Storage -/

/-- The name of the attribute, if the layer is stored as one and the name cannot be quoted. -/
def unquotableName? (category : Category) : Option String :=
  category.attributeName?.filter (!Text.isQuotable ·)

/-- Notes where layers are stored, up to an attribute whose name cannot be quoted. -/
def categorize (root : String) (categories : Dictionary Category) :
    List Layer → Except SchemaError (Dictionary Category)
  | [] => .ok categories
  | l :: ls =>
    match l.category? root with
    | none => categorize root categories ls
    | some category =>
      match unquotableName? category with
      | some name => .error (.invalidAttribute l.id name)
      | none => categorize root (categories.insert l.id category) ls

/-! ## Building -/

/-- The schema of the declared layers. -/
def build (declared : List Layer) (roles : Roles) : Except SchemaError Schema := do
  let catalog ← (firstCatalog declared roles.root).addAll declared
  let categories ← categorize roles.root .empty catalog.layers
  return ⟨catalog.layers, catalog.index, categories, roles⟩

/-! ## Looking up -/

/-- The layer with an id. -/
def layer? (s : Schema) (id : String) : Option Layer :=
  (s.index.find? id).bind fun place => s.layers[place]?

/-- Where the layer with an id is stored. -/
def category? (s : Schema) (id : String) : Option Category :=
  s.categories.find? id

end Schema

end AnnotationQuery
