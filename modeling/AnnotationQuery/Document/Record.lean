import AnnotationQuery.Document.Node

/-!
# Records in documents

How the fields of a known record are found in a document. A record is written with
its keys, or as a list of its fields in their order, the last ones left out.
Unknown keys are ignored; a known key that is given twice makes the record
unreadable.

Formats differ in details, which a `Format` lists: whether a list may have more
items than the record has fields, what is acceptable under an unknown key, and what
may follow the name of an alternative that takes nothing.
-/

namespace AnnotationQuery

/-- What formats differ in. -/
structure Format where
  /-- Whether a record that is written as a list may have more items than fields. -/
  surplusItems : Bool
  /-- What may stand under an unknown key. -/
  ignorable : Node → Bool
  /-- What may follow the name of an alternative that takes nothing. -/
  isUnit : Node → Bool

namespace Node

/-- The values under a key. -/
def valuesOf (key : String) (entries : List (String × Node)) : List Node :=
  entries.filterMap fun (k, v) => if k = key then some v else none

/-- The fields of a record by their names, those that are not given as `none`. -/
def record? (f : Format) (names : List String) : Node → Option (List (Option Node))
  | .fields entries =>
    if entries.all fun (k, v) => names.contains k || f.ignorable v then
      names.mapM fun name =>
        match valuesOf name entries with
        | [] => some none
        | [v] => some (some v)
        | _ => none
    else none
  | .items values =>
    if values.length ≤ names.length || f.surplusItems then
      some ((List.range names.length).map (values[·]?))
    else none
  | _ => none

/-- The name of an alternative that takes nothing: the bare name, or a record with only that key. -/
def alternative? (f : Format) : Node → Option String
  | .text name => some name
  | .fields [(name, value)] => if f.isUnit value then some name else none
  | _ => none

/-- The text of a field that must be given. -/
def requiredText? : Option Node → Option String
  | some (.text s) => some s
  | _ => none

/-- The text of a field that is empty if it is not given. -/
def textOrEmpty? : Option Node → Option String
  | none => some ""
  | some (.text s) => some s
  | _ => none

/-- The text of a field that may be missing or null. -/
def optionalText? : Option Node → Option (Option String)
  | none | some .null => some none
  | some (.text s) => some (some s)
  | _ => none

/-- Whether an integer fits 64 bits. -/
def fits64 (n : Int) : Bool :=
  -(Nat.pow 2 63 : Int) ≤ n && n < Nat.pow 2 63

/-- The integer of a field that may be missing or null. -/
def optionalWhole? : Option Node → Option (Option Int)
  | none | some .null => some none
  | some (.whole n) => if fits64 n then some (some n) else none
  | _ => none

/-- The truth value of a field that is false if it is not given. -/
def flag? : Option Node → Option Bool
  | none => some false
  | some (.bool b) => some b
  | _ => none

/-- The items of a field that is empty if it is not given. -/
def itemsOrEmpty? : Option Node → Option (List Node)
  | none => some []
  | some (.items values) => some values
  | _ => none

end Node

end AnnotationQuery
