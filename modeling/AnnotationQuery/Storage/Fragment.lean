import AnnotationQuery.Operand
import AnnotationQuery.Root
import AnnotationQuery.Storage.Category

/-!
# SQL for layers

For a place that holds a layer, the SQL that gives a layer function of the current
row. A fragment is a column or a subquery in parentheses, so it can stand wherever
a value or a set of values can. Some questions have no answer: a participant has
no episode, and entities have no annotators.
-/

namespace AnnotationQuery.Storage

open Text (quote)

/-- A subquery. -/
def subquery (columns rows : String) : String :=
  "(SELECT " ++ columns ++ " " ++ rows ++ ")"

/-- A column as a set of one value. -/
def columnSet (column : String) : String :=
  "(SELECT " ++ column ++ ")"

/-! ## Entities -/

/-- The graph itself. -/
def graphRoot : Root → LayerFunction → Option String
  | .transcript, .label | .transcript, .id => some Root.transcript.idColumn
  | .transcript, .labels => some (columnSet Root.transcript.idColumn)
  | _, _ => none

/-- The corpora of the current participant. -/
def speakerCorpora : String :=
  "FROM speaker_corpus INNER JOIN corpus ON speaker_corpus.corpus_id = corpus.corpus_id " ++
  "WHERE speaker_corpus.speaker_number = speaker.speaker_number"

/-- The corpus. -/
def corpus : Root → LayerFunction → Option String
  | .transcript, .label => some "transcript.corpus_name"
  | .transcript, .count => some (columnSet "COUNT(transcript.corpus_name)")
  | .transcript, .labels => some (columnSet "transcript.corpus_name")
  | .participant, .label => some (subquery "corpus.corpus_name" (speakerCorpora ++ " LIMIT 1"))
  | .participant, .count => some (subquery "COUNT(*)" speakerCorpora)
  | .participant, .labels => some (subquery "corpus.corpus_name" speakerCorpora)
  | _, .id | _, .annotators => none

/-- The episode of the current transcript. -/
def transcriptFamily : String :=
  "FROM transcript_family WHERE transcript_family.family_id = transcript.family_id"

/-- The episode. -/
def episode : Root → LayerFunction → Option String
  | .transcript, .label | .transcript, .labels => some (subquery "name" transcriptFamily)
  | .transcript, .count => some (subquery "COUNT(*)" transcriptFamily)
  | _, _ => none

/-- The participants of the current transcript. -/
def transcriptSpeakers : String :=
  "FROM transcript_speaker " ++
  "INNER JOIN speaker ON transcript_speaker.speaker_number = speaker.speaker_number " ++
  "WHERE transcript_speaker.ag_id = transcript.ag_id"

/-- The participants. -/
def participant : Root → LayerFunction → Option String
  | .transcript, .label =>
    some (subquery "speaker.name" (transcriptSpeakers ++ " ORDER BY speaker.name LIMIT 1"))
  | .transcript, .count => some (subquery "COUNT(*)" transcriptSpeakers)
  | .transcript, .labels => some (subquery "speaker.name" transcriptSpeakers)
  | .participant, .label | .participant, .id => some Root.participant.idColumn
  | .participant, .labels => some (columnSet Root.participant.idColumn)
  | _, _ => none

/-! ## Attributes -/

/-- The values of a transcript attribute for the current transcript, found through a table with a
graph id. -/
def transcriptAttributeRows (key through : String) : String :=
  "FROM annotation_transcript USE INDEX(IDX_AG_ID_NAME) WHERE annotation_transcript.layer = " ++
  quote key ++ " AND " ++ through ++ ".ag_id = transcript.ag_id"

/-- The values of a transcript attribute for the transcripts of the current participant. -/
def transcriptAttributeRowsOfSpeaker (key : String) : String :=
  "FROM annotation_transcript INNER JOIN transcript_speaker " ++
  "ON annotation_transcript.ag_id = transcript_speaker.ag_id " ++
  "WHERE annotation_transcript.layer = " ++ quote key ++
  " AND transcript_speaker.speaker_number = speaker.speaker_number"

/-- An attribute of transcripts. A single label is found directly; the others go through the
table of speakers, which deployments rely on. -/
def transcriptAttribute (key : String) : Root → LayerFunction → Option String
  | .transcript, .label =>
    some (subquery "label" (transcriptAttributeRows key "annotation_transcript" ++
      " ORDER BY annotation_id LIMIT 1"))
  | .transcript, .count =>
    some (subquery "COUNT(*)" (transcriptAttributeRows key "transcript_speaker"))
  | .transcript, .labels =>
    some (subquery "DISTINCT label" (transcriptAttributeRows key "transcript_speaker"))
  | .transcript, .annotators =>
    some (subquery "DISTINCT annotated_by" (transcriptAttributeRows key "transcript_speaker"))
  | .participant, .count =>
    some (subquery "COUNT(*)" (transcriptAttributeRowsOfSpeaker key))
  | .participant, .labels =>
    some (subquery "DISTINCT label" (transcriptAttributeRowsOfSpeaker key))
  | .participant, .annotators =>
    some (subquery "annotated_by" (transcriptAttributeRowsOfSpeaker key))
  | .participant, .label | _, .id => none

/-- The values of a participant attribute for the current row. -/
def participantAttributeRows (key : String) : Root → String
  | .transcript =>
    "FROM annotation_participant INNER JOIN transcript_speaker " ++
    "ON annotation_participant.speaker_number = transcript_speaker.speaker_number " ++
    "AND annotation_participant.layer = " ++ quote key ++
    " WHERE transcript_speaker.ag_id = transcript.ag_id"
  | .participant =>
    "FROM annotation_participant WHERE annotation_participant.layer = " ++ quote key ++
    " AND annotation_participant.speaker_number = speaker.speaker_number"

/-- An attribute of participants. -/
def participantAttribute (key : String) (root : Root) : LayerFunction → Option String
  | .label =>
    some (subquery "label" (participantAttributeRows key root ++
      match root with
      | .transcript => " ORDER BY annotation_id LIMIT 1"
      | .participant => " LIMIT 1"))
  | .count => some (subquery "COUNT(*)" (participantAttributeRows key root))
  | .labels => some (subquery "DISTINCT label" (participantAttributeRows key root))
  | .annotators =>
    some (subquery
      (match root with
        | .transcript => "DISTINCT annotated_by"
        | .participant => "annotated_by")
      (participantAttributeRows key root))
  | .id => none

/-! ## Layers with a table of their own -/

/-- The annotations of a layer on the current row's episode. -/
def episodeLayerRows (table : Sql.LayerTable) : String :=
  "FROM " ++ table.sql ++ " annotation WHERE annotation.family_id = transcript.family_id"

/-- A layer of annotations on episodes. -/
def episodeLayer (table : Sql.LayerTable) : Root → LayerFunction → Option String
  | .transcript, .label =>
    some (subquery "label" (episodeLayerRows table ++ " ORDER BY annotation.ordinal LIMIT 1"))
  | .transcript, .count => some (subquery "COUNT(*)" (episodeLayerRows table))
  | .transcript, .labels => some (subquery "label" (episodeLayerRows table))
  | .transcript, .annotators => some (subquery "DISTINCT annotated_by" (episodeLayerRows table))
  | .transcript, .id | .participant, _ => none

/-- The annotations of a layer on the current row. -/
def annotationLayerRows (table : Sql.LayerTable) : String :=
  "FROM " ++ table.sql ++ " annotation WHERE annotation.ag_id = transcript.ag_id"

/-- The annotations of a layer on the current row, first by time. -/
def annotationLayerRowsByTime (table : Sql.LayerTable) : String :=
  "FROM " ++ table.sql ++ " annotation INNER JOIN anchor " ++
  "ON annotation.start_anchor_id = anchor.anchor_id " ++
  "WHERE annotation.ag_id = transcript.ag_id " ++
  "ORDER BY anchor.offset, annotation.annotation_id LIMIT 1"

/-- An ordinary annotation layer. The first annotation is the earliest one, or of tags the one with
the least id. -/
def annotationLayer (table : Sql.LayerTable) (temporal : Bool) :
    Root → LayerFunction → Option String
  | .transcript, .label =>
    some (subquery "label"
      (if temporal then annotationLayerRowsByTime table
      else annotationLayerRows table ++ " ORDER BY annotation.annotation_id LIMIT 1"))
  | .transcript, .count => some (subquery "COUNT(*)" (annotationLayerRows table))
  | .transcript, .labels => some (subquery "label" (annotationLayerRows table))
  | .transcript, .annotators => some (subquery "DISTINCT annotated_by" (annotationLayerRows table))
  | .transcript, .id | .participant, _ => none

end AnnotationQuery.Storage

namespace AnnotationQuery

/-- The SQL for a function of a layer that is stored in this place, if there is any. -/
def Category.fragment? : Category → Root → LayerFunction → Option String
  | graphRoot => Storage.graphRoot
  | transcriptAttribute a => Storage.transcriptAttribute a
  | participantAttribute a => Storage.participantAttribute a
  | corpus => Storage.corpus
  | episode => Storage.episode
  | episodeLayer t => Storage.episodeLayer t
  | participant => Storage.participant
  | annotationLayer t temporal => Storage.annotationLayer t temporal

end AnnotationQuery
