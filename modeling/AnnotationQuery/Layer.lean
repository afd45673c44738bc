/-!
# Layers

A schema is made of annotation layers. What is known of a layer is its id, how
its annotations are anchored in time, and how the store refers to it: by a number,
or as an attribute of transcripts or of participants.
-/

namespace AnnotationQuery

/-- How the annotations of a layer are anchored in time. -/
inductive Alignment where
  /-- Not at all: they are tags. -/
  | none
  | instant
  | interval
deriving DecidableEq, Repr

namespace Alignment

/-- The alignment's name. -/
def name : Alignment → String
  | none => "none"
  | instant => "instant"
  | interval => "interval"

/-- The alignment of a name. -/
def ofName? : String → Option Alignment
  | "none" => some none
  | "instant" => some instant
  | "interval" => some interval
  | _ => Option.none

/-- Whether annotations have a time of their own. -/
def isTemporal : Alignment → Bool
  | none => false
  | instant | interval => true

end Alignment

/-- An annotation layer as a schema declares it. -/
structure Layer where
  id : String
  description : String := ""
  alignment : Alignment := .none
  parentId : Option String := none
  /-- Whether a parent may have several annotations on this layer. -/
  peers : Bool := false
  /-- The number of the layer in the store; system layers have negative ones. -/
  layerId : Option Int := none
  /-- What the layer is an attribute of, if it is one. -/
  classId : Option String := none
  /-- The attribute's name in the store. -/
  storedName : Option String := none
deriving DecidableEq, Repr

end AnnotationQuery
