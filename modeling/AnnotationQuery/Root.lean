/-!
# What a query selects

A query has one row per transcript or one row per participant. The root decides
the table, the column that identifies a row, and whether rows have a place among
their siblings.
-/

namespace AnnotationQuery

/-- What the rows of a query are. -/
inductive Root where
  | transcript
  | participant
deriving DecidableEq, Repr

namespace Root

/-- The root's name in messages. -/
def name : Root → String
  | transcript => "transcript"
  | participant => "participant"

/-- The table that holds the rows. -/
def table : Root → String
  | transcript => "transcript"
  | participant => "speaker"

/-- The column that identifies a row. Rows are sorted by it unless the query says otherwise. -/
def idColumn : Root → String
  | transcript => "transcript.transcript_id"
  | participant => "speaker.name"

/-- The column with the place of a row among its siblings. Participants have none. -/
def ordinalColumn? : Root → Option String
  | transcript => some "transcript.family_sequence"
  | participant => none

/-- What is selected unless something else is asked for. -/
def defaultSelect : Root → String
  | transcript => "transcript.transcript_id"
  | participant => "speaker_number, name"

end Root

end AnnotationQuery
