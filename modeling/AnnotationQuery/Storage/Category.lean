import AnnotationQuery.Layer
import AnnotationQuery.Sql.Identifier

/-!
# Where layers are stored

Every layer that can be queried is stored in one of eight kinds of places. The
rules are tried in order: the layer that stands for the whole graph, the two
attribute classes, then the number of the layer. A layer that no rule fits, such
as a system layer between -50 and 0 other than -2, has no place.
-/

namespace AnnotationQuery

/-- The kind of place that holds a layer. -/
inductive Category where
  /-- The graph itself. -/
  | graphRoot
  /-- An attribute of transcripts. -/
  | transcriptAttribute (name : String)
  /-- An attribute of participants. -/
  | participantAttribute (name : String)
  /-- The corpus of a transcript. -/
  | corpus
  /-- The episode of a transcript. -/
  | episode
  /-- A layer of annotations on episodes. -/
  | episodeLayer (table : Sql.LayerTable)
  /-- The participants themselves. -/
  | participant
  /-- An ordinary annotation layer. -/
  | annotationLayer (table : Sql.LayerTable) (temporal : Bool)
deriving DecidableEq, Repr

namespace Category

/-- The category's name in messages. -/
def name : Category → String
  | graphRoot => "graph root"
  | transcriptAttribute _ => "transcript attribute"
  | participantAttribute _ => "participant attribute"
  | corpus => "corpus"
  | episode => "episode"
  | episodeLayer _ => "episode layer"
  | participant => "participant"
  | annotationLayer _ _ => "annotation layer"

/-- The attribute's name, for the two attribute categories. -/
def attributeName? : Category → Option String
  | transcriptAttribute a | participantAttribute a => some a
  | _ => none

/-- Whether the annotations are ordered by time. -/
def isTemporal : Category → Bool
  | annotationLayer _ temporal => temporal
  | _ => false

/-- The category of a layer number. -/
def ofLayerId? (layerId : Int) (temporal : Bool) : Option Category :=
  if layerId = -100 then some corpus
  else if layerId = -50 then some episode
  else if layerId = -2 then some participant
  else if layerId < -50 then some (episodeLayer ⟨layerId⟩)
  else if 0 ≤ layerId then some (annotationLayer ⟨layerId⟩ temporal)
  else none

end Category

namespace Layer

/-- The rest of a text after a front part, if it starts with that. -/
def afterFront? : (front text : List Char) → Option (List Char)
  | [], cs => some cs
  | _ :: _, [] => none
  | p :: ps, c :: cs => if p = c then afterFront? ps cs else none

/-- The name of the layer as an attribute: the declared one, or the id without a leading
`participant_` or `transcript_`. -/
def attributeName (l : Layer) : String :=
  match l.storedName with
  | some a => a
  | none =>
    match afterFront? "participant_".toList l.id.toList <|>
        afterFront? "transcript_".toList l.id.toList with
    | some rest => String.ofList rest
    | none => l.id

/-- Where a layer is stored, in a schema whose root layer is `root`. -/
def category? (l : Layer) (root : String) : Option Category :=
  if l.id = root then some .graphRoot
  else if l.classId = some "transcript" then some (.transcriptAttribute l.attributeName)
  else if l.classId = some "speaker" then some (.participantAttribute l.attributeName)
  else l.layerId.bind fun n => Category.ofLayerId? n l.alignment.isTemporal

end Layer

end AnnotationQuery
