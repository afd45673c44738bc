import AnnotationQuery.Proofs.Schema.Build
import AnnotationQuery.Proofs.Sql.Identifier
import AnnotationQuery.Storage.Fragment

/-!
# Fragments stand for themselves

Whatever place a layer is stored in, the SQL for a function of it is a column or a
complete text in parentheses, and it has no placeholder. Three things could spoil
that: the name of an attribute, which is arbitrary text inside quotes, the number in the
name of a table, and the templates themselves. The first is what `Schema.build` checks;
the second is digits with at most a sign, and with the sign the name is in backticks;
the templates are walked over once.

Main results:

* `Category.fragment?_shaped` — the shape of every fragment.
* `Schema.quotable_of_build` — the attribute names of a schema that was built can be quoted.
-/

namespace AnnotationQuery

open Sql

namespace Sql

/-- Whether a character can stand in the bare name of a table or column. -/
def isNameChar (c : Char) : Bool :=
  c.isLower || c.isDigit || c == '_'

/-- Whether the characters are a bare name: small letters, digits and underscores. -/
def isBareName (cs : List Char) : Bool :=
  !cs.isEmpty && cs.all isNameChar

/-- Whether a text is the bare name of a column after the name of its table. -/
def isQualifiedColumn (sql : String) : Bool :=
  match sql.toList.span (· != '.') with
  | (table, '.' :: column) => isBareName table && isBareName column
  | _ => false

/-! ## Names of tables -/

/-- An integer is written with digits and perhaps a sign. -/
theorem mem_toList_repr {n : Int} {c : Char} (h : c ∈ n.repr.toList) :
    c.isDigit = true ∨ c = '-' := by
  rw [Int.repr_eq_if] at h
  split at h
  · rw [Nat.toList_repr] at h
    exact Or.inl (Nat.isDigit_of_mem_toDigits (by decide) (by decide) h)
  · rw [String.toList_append, List.mem_append] at h
    rcases h with h | h
    · exact Or.inr (by simpa using h)
    · rw [Nat.toList_repr] at h
      exact Or.inl (Nat.isDigit_of_mem_toDigits (by decide) (by decide) h)

/-- Whether a character can stand in the name of a layer's table. -/
def isTableChar (c : Char) : Bool :=
  c.isAlphanum || c == '_' || c == '-'

/-- The name of a layer's table has no other characters than these. -/
theorem isTableChar_of_mem_name {t : LayerTable} {c : Char} (h : c ∈ t.name.toList) :
    isTableChar c = true := by
  unfold LayerTable.name at h
  rw [String.toList_append, List.mem_append] at h
  -- fixed letters, and then the number of the layer
  rcases h with h | h
  · have hFixed : "annotation_layer_".toList.all isTableChar = true := by decide
    exact List.all_eq_true.mp hFixed c h
  · rcases mem_toList_repr h with hDigit | rfl
    · simp [isTableChar, Char.isAlphanum, hDigit]
    · rfl

/-- A character of table names is none that cannot stand there. -/
theorem ne_of_isTableChar {c d : Char} (h : isTableChar c = true) (hd : isTableChar d = false) :
    c ≠ d := by
  rintro rfl
  rw [h] at hd
  cases hd

theorem isPlain_of_isTableChar {c : Char} (h : isTableChar c = true) : isPlain c = true :=
  isPlain_of_class h (by decide)

/-- A layer's table lets nothing out, quoted or not. -/
theorem sealed_table (t : LayerTable) : Sealed t.sql := by
  have hChars : ∀ c ∈ t.name.toList, isTableChar c = true := fun c hc => isTableChar_of_mem_name hc
  have hAbsent : ∀ d, isTableChar d = false → d ∉ t.name.toList := fun d hd hMem =>
    ne_of_isTableChar (hChars d hMem) hd rfl
  unfold LayerTable.sql
  split
  · -- a sign in the name: it is in backticks, and has no backslash that could spoil them
    exact sealed_quoteIdentifier (backticksBare_iff.mpr (isBare_of_notMem (hAbsent _ (by decide))))
  · exact sealed_of_plain (fun c hc => isPlain_of_isTableChar (hChars c hc))
      (hAbsent _ (by decide))

end Sql

namespace Storage

/-! ## Templates -/

/-- A subquery is a sealed text in parentheses. -/
theorem enclosure_subquery {columns rows : String} (hColumns : Sealed columns)
    (hRows : Sealed rows) : Enclosure (subquery columns rows) := by
  have hSelect : Sealed "SELECT " := sealed_ofList rfl
  have hBlank : Sealed " " := sealed_ofList rfl
  have hBody : Sealed ("SELECT " ++ columns ++ " " ++ rows) :=
    ((hSelect.append hColumns).append hBlank).append hRows
  refine ⟨_, hBody, ?_⟩
  rw [subquery, show "(SELECT " = "(" ++ "SELECT " from rfl]
  simp only [String.append_assoc]

/-- A column as a set is a sealed text in parentheses. -/
theorem enclosure_columnSet {column : String} (h : Sealed column) :
    Enclosure (columnSet column) := by
  have hSelect : Sealed "SELECT " := sealed_ofList rfl
  refine ⟨"SELECT " ++ column, hSelect.append h, ?_⟩
  rw [columnSet, show "(SELECT " = "(" ++ "SELECT " from rfl]
  simp only [String.append_assoc]

theorem sealed_speakerCorpora : Sealed speakerCorpora := by
  unfold speakerCorpora
  exact (sealed_ofList rfl).append (sealed_ofList rfl)

theorem sealed_transcriptFamily : Sealed transcriptFamily :=
  sealed_ofList rfl

theorem sealed_transcriptSpeakers : Sealed transcriptSpeakers := by
  unfold transcriptSpeakers
  exact ((sealed_ofList rfl).append (sealed_ofList rfl)).append
    (sealed_ofList rfl)

section
variable {key : String}

/-- The rows of a transcript attribute let nothing out if its name can be quoted. -/
theorem sealed_transcriptAttributeRows {through : String} (hKey : Text.isQuotable key = true)
    (hThrough : Sealed through) : Sealed (transcriptAttributeRows key through) := by
  unfold transcriptAttributeRows
  have hFrom := (sealed_ofList rfl : Sealed
    "FROM annotation_transcript USE INDEX(IDX_AG_ID_NAME) WHERE annotation_transcript.layer = ")
  exact (((hFrom.append (Text.sealed_quote hKey)).append (sealed_ofList rfl)).append
    hThrough).append (sealed_ofList rfl)

/-- The same for the transcripts of a participant. -/
theorem sealed_transcriptAttributeRowsOfSpeaker (hKey : Text.isQuotable key = true) :
    Sealed (transcriptAttributeRowsOfSpeaker key) := by
  unfold transcriptAttributeRowsOfSpeaker
  have hFrom := ((sealed_ofList rfl : Sealed
    "FROM annotation_transcript INNER JOIN transcript_speaker ").append
    (sealed_ofList rfl : Sealed
      "ON annotation_transcript.ag_id = transcript_speaker.ag_id ")).append
    (sealed_ofList rfl : Sealed "WHERE annotation_transcript.layer = ")
  exact (hFrom.append (Text.sealed_quote hKey)).append (sealed_ofList rfl)

/-- The rows of a participant attribute let nothing out if its name can be quoted. -/
theorem sealed_participantAttributeRows (hKey : Text.isQuotable key = true) (root : Root) :
    Sealed (participantAttributeRows key root) := by
  cases root with
  | transcript =>
    have hFrom := ((sealed_ofList rfl : Sealed
      "FROM annotation_participant INNER JOIN transcript_speaker ").append
      (sealed_ofList rfl : Sealed
        "ON annotation_participant.speaker_number = transcript_speaker.speaker_number ")).append
      (sealed_ofList rfl : Sealed "AND annotation_participant.layer = ")
    exact (hFrom.append (Text.sealed_quote hKey)).append (sealed_ofList rfl)
  | participant =>
    have hFrom := (sealed_ofList rfl : Sealed
      "FROM annotation_participant WHERE annotation_participant.layer = ")
    exact (hFrom.append (Text.sealed_quote hKey)).append (sealed_ofList rfl)

end

theorem sealed_episodeLayerRows (t : LayerTable) : Sealed (episodeLayerRows t) :=
  ((sealed_ofList rfl).append (sealed_table t)).append
    (sealed_ofList rfl)

theorem sealed_annotationLayerRows (t : LayerTable) : Sealed (annotationLayerRows t) :=
  ((sealed_ofList rfl).append (sealed_table t)).append
    (sealed_ofList rfl)

/-- The rows of a layer in time order let nothing out. -/
theorem sealed_annotationLayerRowsByTime (t : LayerTable) :
    Sealed (annotationLayerRowsByTime t) := by
  unfold annotationLayerRowsByTime
  have hFrom := ((sealed_ofList rfl : Sealed "FROM ").append
    (sealed_table t)).append
    (sealed_ofList rfl : Sealed " annotation INNER JOIN anchor ")
  exact ((hFrom.append (sealed_ofList rfl)).append
    (sealed_ofList rfl)).append (sealed_ofList rfl)

/-! ## The shape of a fragment -/

/-- A column, unless many values are asked for, or a sealed text in parentheses. -/
def Shaped (function : LayerFunction) (sql : String) : Prop :=
  (isQualifiedColumn sql = true ∧ function.isSet = false) ∨ Enclosure sql

section
variable {root : Root} {function : LayerFunction} {sql : String}

/-- The graph itself is a column, or a set of one. -/
theorem graphRoot_shaped (h : graphRoot root function = some sql) : Shaped function sql := by
  cases root <;> cases function <;> cases h
  · exact Or.inl ⟨by decide, rfl⟩
  · exact Or.inl ⟨by decide, rfl⟩
  · exact Or.inr (enclosure_columnSet (sealed_ofList rfl))

/-- A corpus is a column of a transcript, and a subquery for a participant. -/
theorem corpus_shaped (h : corpus root function = some sql) : Shaped function sql := by
  cases root <;> cases function <;> cases h
  · exact Or.inl ⟨by decide, rfl⟩
  · exact Or.inr (enclosure_columnSet (sealed_ofList rfl))
  · exact Or.inr (enclosure_columnSet (sealed_ofList rfl))
  · exact Or.inr (enclosure_subquery (sealed_ofList rfl)
      (sealed_speakerCorpora.append (sealed_ofList rfl)))
  · exact Or.inr (enclosure_subquery (sealed_ofList rfl)
      sealed_speakerCorpora)
  · exact Or.inr (enclosure_subquery (sealed_ofList rfl)
      sealed_speakerCorpora)

/-- An episode is always a subquery. -/
theorem episode_shaped (h : episode root function = some sql) : Shaped function sql := by
  cases root <;> cases function <;> cases h
  all_goals
    exact Or.inr (enclosure_subquery (sealed_ofList rfl)
      sealed_transcriptFamily)

/-- A participant is a subquery for a transcript, and a column of its own row. -/
theorem participant_shaped (h : participant root function = some sql) : Shaped function sql := by
  cases root <;> cases function <;> cases h
  · exact Or.inr (enclosure_subquery (sealed_ofList rfl)
      (sealed_transcriptSpeakers.append (sealed_ofList rfl)))
  · exact Or.inr (enclosure_subquery (sealed_ofList rfl)
      sealed_transcriptSpeakers)
  · exact Or.inr (enclosure_subquery (sealed_ofList rfl)
      sealed_transcriptSpeakers)
  · exact Or.inl ⟨by decide, rfl⟩
  · exact Or.inl ⟨by decide, rfl⟩
  · exact Or.inr (enclosure_columnSet (sealed_ofList rfl))

/-- An attribute of transcripts is a subquery. -/
theorem transcriptAttribute_shaped {key : String} (hKey : Text.isQuotable key = true)
    (h : transcriptAttribute key root function = some sql) : Shaped function sql := by
  cases root with
  | transcript =>
    have hRows := sealed_transcriptAttributeRows hKey
      (sealed_ofList rfl : Sealed "transcript_speaker")
    cases function <;> cases h
    · -- the label of a transcript is found without the table of speakers
      have hDirect := sealed_transcriptAttributeRows hKey
        (sealed_ofList rfl : Sealed "annotation_transcript")
      exact Or.inr (enclosure_subquery (sealed_ofList rfl)
        (hDirect.append (sealed_ofList rfl)))
    all_goals exact Or.inr (enclosure_subquery (sealed_ofList rfl) hRows)
  | participant =>
    have hRows := sealed_transcriptAttributeRowsOfSpeaker hKey
    cases function <;> cases h
    all_goals exact Or.inr (enclosure_subquery (sealed_ofList rfl) hRows)

/-- An attribute of participants is a subquery. -/
theorem participantAttribute_shaped {key : String} (hKey : Text.isQuotable key = true)
    (h : participantAttribute key root function = some sql) : Shaped function sql := by
  have hRows := sealed_participantAttributeRows hKey root
  cases function <;> cases h
  · refine Or.inr (enclosure_subquery (sealed_ofList rfl) (hRows.append ?_))
    cases root <;> exact sealed_ofList rfl
  · exact Or.inr (enclosure_subquery (sealed_ofList rfl) hRows)
  · exact Or.inr (enclosure_subquery (sealed_ofList rfl) hRows)
  · -- the annotators of one participant need no `DISTINCT`
    refine Or.inr (enclosure_subquery ?_ hRows)
    cases root <;> exact sealed_ofList rfl

/-- A layer on episodes is a subquery. -/
theorem episodeLayer_shaped {t : LayerTable} (h : episodeLayer t root function = some sql) :
    Shaped function sql := by
  have hRows := sealed_episodeLayerRows t
  cases root <;> cases function <;> cases h
  · exact Or.inr (enclosure_subquery (sealed_ofList rfl)
      (hRows.append (sealed_ofList rfl)))
  all_goals exact Or.inr (enclosure_subquery (sealed_ofList rfl) hRows)

/-- An annotation layer is a subquery, in time order or not. -/
theorem annotationLayer_shaped {t : LayerTable} {temporal : Bool}
    (h : annotationLayer t temporal root function = some sql) : Shaped function sql := by
  have hRows := sealed_annotationLayerRows t
  cases root <;> cases function <;> cases h
  · refine Or.inr (enclosure_subquery (sealed_ofList rfl) ?_)
    split
    · exact sealed_annotationLayerRowsByTime t
    · exact hRows.append (sealed_ofList rfl)
  all_goals exact Or.inr (enclosure_subquery (sealed_ofList rfl) hRows)

end

end Storage

/-- Every fragment is a column or a sealed text in parentheses, and the second if many values
are asked for, once the name of an attribute can be quoted. -/
theorem Category.fragment?_shaped {c : Category} {root : Root} {function : LayerFunction}
    {sql : String} (hName : ∀ a, c.attributeName? = some a → Text.isQuotable a = true)
    (h : c.fragment? root function = some sql) : Storage.Shaped function sql := by
  cases c with
  | graphRoot => exact Storage.graphRoot_shaped h
  | transcriptAttribute a => exact Storage.transcriptAttribute_shaped (hName a rfl) h
  | participantAttribute a => exact Storage.participantAttribute_shaped (hName a rfl) h
  | corpus => exact Storage.corpus_shaped h
  | episode => exact Storage.episode_shaped h
  | episodeLayer t => exact Storage.episodeLayer_shaped h
  | participant => exact Storage.participant_shaped h
  | annotationLayer t temporal => exact Storage.annotationLayer_shaped h

/-! ## Schemas -/

/-- All attribute names of a schema can be quoted. -/
def Schema.Quotable (schema : Schema) : Prop :=
  ∀ id c a, schema.category? id = some c → c.attributeName? = some a → Text.isQuotable a = true

/-- All attribute names of a schema that is built can be quoted. -/
theorem Schema.quotable_of_build {declared : List Layer} {roles : Roles} {schema : Schema}
    (hBuild : Schema.build declared roles = .ok schema) : schema.Quotable := by
  intro id c a hc ha
  have h := coherent_of_build hBuild
  -- the layer whose storage this is was checked
  obtain ⟨l, hl, -, hCategory⟩ := (h.noted id c).mp hc
  by_contra hNot
  refine h.quotable l hl a ((offends_iff_of_mapped hCategory).mpr ?_)
  simpa [unquotableName?, ha] using hNot

/-- An attribute whose name is full of quotes and backslashes, but can be quoted. -/
def awkwardLayer : Layer :=
  { id := "transcript_x", classId := some "transcript", storedName := some "a\\') OR ('b\\\\" }

/-- The schema of that attribute and the graph itself. -/
def awkwardSchema : Schema where
  layers := [Schema.rootLayer "graph", awkwardLayer]
  index := ⟨[("transcript_x", 1), ("graph", 0)]⟩
  categories := ⟨[("transcript_x", .transcriptAttribute "a\\') OR ('b\\\\"), ("graph", .graphRoot)]⟩
  roles := {}

theorem build_awkwardLayer : Schema.build [awkwardLayer] {} = .ok awkwardSchema := rfl

end AnnotationQuery
