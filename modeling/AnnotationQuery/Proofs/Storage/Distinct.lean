import AnnotationQuery.Proofs.Document.Json
import AnnotationQuery.Proofs.Storage.Fragment

/-!
# Layers in different places have different SQL

If two layers gave the same SQL, a query about one would silently read the data of the other. The
texts are templates with arbitrary parts in them, the name of an attribute in quotes and the number
in the name of a table, so that they differ is not seen by comparing the templates alone.

What tells the places apart is the table that is read first, the word behind the first `FROM `. It
stands before every quote, so no attribute name gets in its way. Two kinds of places read a layer's
own table, and these tables have negative numbers in one kind and none in the other. What is left
are the columns of the current row, which are fixed texts. Within one kind, the fixed parts of a
template cancel.

Main results:

* `LayerTable.sql_inj` — different layers have different tables.
* `Category.tableRead?_of_fragment?` — the table that a fragment reads first.
* `Category.fragment_eq_iff_samePlace` — equal SQL means the same place.
-/

namespace AnnotationQuery

open Sql

/-! ## Tables of layers -/

namespace Sql

/-- Doubling the backticks can be undone. -/
theorem doubleBackticks_injective : Function.Injective doubleBackticks := by
  intro cs
  induction cs with
  | nil =>
    intro ds h
    cases ds with
    | nil => rfl
    | cons d ds => simp only [doubleBackticks] at h; split at h <;> cases h
  | cons c cs ih =>
    intro ds h
    cases ds with
    | nil => simp only [doubleBackticks] at h; split at h <;> cases h
    | cons d ds =>
      -- the first characters agree, so both are doubled or neither is
      have hHead : c = d := by
        have := congrArg List.head? h
        simp only [doubleBackticks] at this
        split at this <;> split at this <;> simpa using this
      subst hHead
      have hTail : doubleBackticks cs = doubleBackticks ds := by
        simp only [doubleBackticks] at h
        split at h <;> simpa using h
      rw [ih hTail]

/-- Without backticks there is nothing to double. -/
theorem doubleBackticks_of_notMem {cs : List Char} (h : '\x60' ∉ cs) : doubleBackticks cs = cs := by
  induction cs with
  | nil => rfl
  | cons c cs ih =>
    rw [List.mem_cons, not_or] at h
    rw [doubleBackticks_cons_of_ne (Ne.symm h.1), ih h.2]

/-- Different names are quoted differently. -/
theorem quoteIdentifier_inj {a b : String} : quoteIdentifier a = quoteIdentifier b ↔ a = b := by
  refine ⟨fun h => ?_, congrArg _⟩
  rw [← String.toList_inj, toList_quoteIdentifier, toList_quoteIdentifier, List.cons.injEq,
    List.append_left_inj] at h
  exact String.toList_inj.mp (doubleBackticks_injective h.2)

theorem LayerTable.name_inj {t t' : LayerTable} : t.name = t'.name ↔ t = t' := by
  unfold LayerTable.name
  rw [String.append_right_inj, Json.repr_injective.eq_iff, LayerTable.mk.injEq]

/-- The table is in backticks if the number is negative. -/
theorem LayerTable.head?_sql (t : LayerTable) :
    t.sql.toList.head? = some (if t.layerId < 0 then '\x60' else 'a') := by
  unfold LayerTable.sql
  split
  · rw [toList_quoteIdentifier]
    rfl
  · unfold LayerTable.name
    simp

/-- Different tables are written differently in SQL. -/
theorem LayerTable.sql_inj {t t' : LayerTable} : t.sql = t'.sql ↔ t = t' := by
  refine ⟨fun h => ?_, congrArg _⟩
  have hSign : (t.layerId < 0) ↔ (t'.layerId < 0) := by
    have := congrArg (fun s => s.toList.head?) h
    simp only [head?_sql, Option.some.injEq] at this
    split at this <;> split at this <;> grind
  unfold LayerTable.sql at h
  -- both names are quoted or neither is, so the names themselves are compared
  by_cases hNeg : t.layerId < 0
  · rw [if_pos hNeg, if_pos (hSign.mp hNeg), quoteIdentifier_inj, name_inj] at h
    exact h
  · rw [if_neg hNeg, if_neg (mt hSign.mpr hNeg), name_inj] at h
    exact h

/-- There is no blank in a table as SQL writes it. -/
theorem LayerTable.blank_notMem_sql (t : LayerTable) : ' ' ∉ t.sql.toList := by
  have hAbsent : ∀ d, isTableChar d = false → d ∉ t.name.toList := fun d hd hMem =>
    ne_of_isTableChar (isTableChar_of_mem_name hMem) hd rfl
  unfold LayerTable.sql
  split
  · rw [toList_quoteIdentifier, doubleBackticks_of_notMem (hAbsent _ (by decide))]
    simpa using hAbsent ' ' (by decide)
  · exact hAbsent ' ' (by decide)

end Sql

/-! ## The table that is read -/

namespace Storage

/-- The word behind the first `FROM `. -/
def tableRead? : List Char → Option (List Char)
  | [] => none
  | c :: cs =>
    match Layer.afterFront? "FROM ".toList (c :: cs) with
    | some rest => some (rest.takeWhile (· != ' '))
    | none => tableRead? cs

/-- The rows are those of a table, and there is more to say about them. -/
def FromTable (table rows : String) : Prop :=
  ("FROM " ++ table ++ " ").toList <+: rows.toList

/-- The table does not change when more is said about the rows. -/
theorem FromTable.append {table rows : String} (h : FromTable table rows) (more : String) :
    FromTable table (rows ++ more) := by
  refine h.trans ?_
  rw [String.toList_append]
  exact List.prefix_append _ _

theorem fromTable_ofList {table rows : List Char}
    (h : ("FROM ".toList ++ table ++ [' ']).isPrefixOf rows = true) :
    FromTable (String.ofList table) (String.ofList rows) := by
  rw [FromTable, String.toList_append, String.toList_append, String.toList_ofList (l := table),
    String.toList_ofList (l := rows)]
  exact List.isPrefixOf_iff_prefix.mp h

/-- No table is read before the first `F`. -/
theorem tableRead?_append_of_notMem {front : List Char} (h : 'F' ∉ front) (cs : List Char) :
    tableRead? (front ++ cs) = tableRead? cs := by
  induction front with
  | nil => rfl
  | cons c front ih =>
    rw [List.mem_cons, not_or] at h
    have hNot : Layer.afterFront? "FROM ".toList (c :: (front ++ cs)) = none := if_neg h.1
    rw [List.cons_append, tableRead?, hNot]
    exact ih h.2

/-- No table is read before the first `FROM `. -/
theorem tableRead?_subquery {columns table rows : String} (hColumns : 'F' ∉ columns.toList)
    (hTable : ' ' ∉ table.toList) (hRows : FromTable table rows) :
    tableRead? (subquery columns rows).toList = some table.toList := by
  obtain ⟨rest, hRest⟩ := hRows
  -- the columns have no `F` in them, so the first one is that of `FROM`
  have hFront : 'F' ∉ ("(SELECT " ++ columns ++ " ").toList := by simp [hColumns]
  have hWord : ∀ c ∈ table.toList, (c != ' ') = true := fun c hc =>
    bne_iff_ne.mpr fun h => hTable (h ▸ hc)
  rw [subquery, String.toList_append, String.toList_append, List.append_assoc,
    tableRead?_append_of_notMem hFront, ← hRest]
  simp [tableRead?, Layer.afterFront?, List.takeWhile_append_of_pos hWord]

/-- Where there is no `F`, no table is read. -/
theorem tableRead?_of_notMem {cs : List Char} (h : 'F' ∉ cs) : tableRead? cs = none := by
  have hNone := tableRead?_append_of_notMem h []
  rwa [List.append_nil] at hNone

theorem fromTable_transcriptAttributeRows (key through : String) :
    FromTable "annotation_transcript" (transcriptAttributeRows key through) :=
  fromTable_ofList rfl |>.append _ |>.append _ |>.append _ |>.append _

theorem fromTable_transcriptAttributeRowsOfSpeaker (key : String) :
    FromTable "annotation_transcript" (transcriptAttributeRowsOfSpeaker key) :=
  fromTable_ofList rfl |>.append _ |>.append _ |>.append _ |>.append _

theorem fromTable_participantAttributeRows (key : String) (root : Root) :
    FromTable "annotation_participant" (participantAttributeRows key root) := by
  cases root with
  | transcript =>
    exact fromTable_ofList rfl |>.append _ |>.append _ |>.append _ |>.append _
  | participant => exact fromTable_ofList rfl |>.append _ |>.append _

/-- Rows of a layer are those of its table. -/
theorem fromTable_layer (t : LayerTable) {more : List Char} (h : [' '].isPrefixOf more = true) :
    FromTable t.sql ("FROM " ++ t.sql ++ String.ofList more) := by
  rw [FromTable, String.toList_append, String.toList_append (t := String.ofList more),
    String.toList_ofList (l := more)]
  exact (List.prefix_append_right_inj _).mpr (List.isPrefixOf_iff_prefix.mp h)

theorem fromTable_speakerCorpora : FromTable "speaker_corpus" speakerCorpora :=
  (fromTable_ofList rfl).append _

theorem fromTable_transcriptFamily : FromTable "transcript_family" transcriptFamily :=
  fromTable_ofList rfl

theorem fromTable_transcriptSpeakers : FromTable "transcript_speaker" transcriptSpeakers :=
  fromTable_ofList rfl |>.append _ |>.append _

section

variable {root : Root} {function : LayerFunction} {sql : String}

theorem tableRead?_graphRoot (h : graphRoot root function = some sql) :
    tableRead? sql.toList = none := by
  cases root <;> cases function <;> cases h
  all_goals exact tableRead?_of_notMem (by decide)

theorem tableRead?_corpus_of_transcript (h : corpus .transcript function = some sql) :
    tableRead? sql.toList = none := by
  cases function <;> cases h
  all_goals exact tableRead?_of_notMem (by decide)

/-- The corpora of a participant are in a table of their own. -/
theorem tableRead?_corpus_of_participant (h : corpus .participant function = some sql) :
    tableRead? sql.toList = some "speaker_corpus".toList := by
  have hRows := fromTable_speakerCorpora
  cases function <;> cases h
  · exact tableRead?_subquery (by decide) (by decide) (hRows.append _)
  all_goals exact tableRead?_subquery (by decide) (by decide) hRows

theorem tableRead?_episode (h : episode root function = some sql) :
    tableRead? sql.toList = some "transcript_family".toList := by
  cases root <;> cases function <;> cases h
  all_goals exact tableRead?_subquery (by decide) (by decide) fromTable_transcriptFamily

/-- The participants of a transcript are in a table of their own. -/
theorem tableRead?_participant_of_transcript (h : participant .transcript function = some sql) :
    tableRead? sql.toList = some "transcript_speaker".toList := by
  have hRows := fromTable_transcriptSpeakers
  cases function <;> cases h
  · exact tableRead?_subquery (by decide) (by decide) (hRows.append _)
  all_goals exact tableRead?_subquery (by decide) (by decide) hRows

theorem tableRead?_participant_of_participant (h : participant .participant function = some sql) :
    tableRead? sql.toList = none := by
  cases function <;> cases h
  all_goals exact tableRead?_of_notMem (by decide)

/-- Attributes of transcripts are in one table, whatever they are called. -/
theorem tableRead?_transcriptAttribute {key : String}
    (h : transcriptAttribute key root function = some sql) :
    tableRead? sql.toList = some "annotation_transcript".toList := by
  cases root with
  | transcript =>
    have hRows := fromTable_transcriptAttributeRows key
    cases function <;> cases h
    · exact tableRead?_subquery (by decide) (by decide) ((hRows _).append _)
    all_goals exact tableRead?_subquery (by decide) (by decide) (hRows _)
  | participant =>
    have hRows := fromTable_transcriptAttributeRowsOfSpeaker key
    cases function <;> cases h
    all_goals exact tableRead?_subquery (by decide) (by decide) hRows

/-- Attributes of participants are in one table, whatever they are called. -/
theorem tableRead?_participantAttribute {key : String}
    (h : participantAttribute key root function = some sql) :
    tableRead? sql.toList = some "annotation_participant".toList := by
  have hRows := fromTable_participantAttributeRows key root
  cases function <;> cases h
  · exact tableRead?_subquery (by decide) (by decide) (hRows.append _)
  · exact tableRead?_subquery (by decide) (by decide) hRows
  · exact tableRead?_subquery (by decide) (by decide) hRows
  · cases root <;> exact tableRead?_subquery (by decide) (by decide) hRows

/-- A layer on episodes has a table of its own. -/
theorem tableRead?_episodeLayer {t : LayerTable} (h : episodeLayer t root function = some sql) :
    tableRead? sql.toList = some t.sql.toList := by
  have hRows : FromTable t.sql (episodeLayerRows t) := fromTable_layer t rfl
  cases root <;> cases function <;> cases h
  · exact tableRead?_subquery (by decide) t.blank_notMem_sql (hRows.append _)
  all_goals exact tableRead?_subquery (by decide) t.blank_notMem_sql hRows

/-- An annotation layer has a table of its own, in time order or not. -/
theorem tableRead?_annotationLayer {t : LayerTable} {temporal : Bool}
    (h : annotationLayer t temporal root function = some sql) :
    tableRead? sql.toList = some t.sql.toList := by
  have hRows : FromTable t.sql (annotationLayerRows t) := fromTable_layer t rfl
  have hByTime : FromTable t.sql (annotationLayerRowsByTime t) :=
    fromTable_layer t rfl |>.append _ |>.append _ |>.append _
  cases root <;> cases function <;> cases h
  · -- the label is that of the first annotation, in time order if there is one
    refine tableRead?_subquery (by decide) t.blank_notMem_sql ?_
    split
    · exact hByTime
    · exact hRows.append _
  all_goals exact tableRead?_subquery (by decide) t.blank_notMem_sql hRows

end

end Storage

/-- The table that the SQL for a layer reads first. A column of the current row needs none. -/
def Category.table? : Category → Root → Option String
  | transcriptAttribute _, _ => some "annotation_transcript"
  | participantAttribute _, _ => some "annotation_participant"
  | corpus, .participant => some "speaker_corpus"
  | episode, _ => some "transcript_family"
  | participant, .transcript => some "transcript_speaker"
  | episodeLayer t, _ | annotationLayer t _, _ => some t.sql
  | graphRoot, _ | corpus, .transcript | participant, .participant => none

/-- In every fragment the table that is read first can be seen. -/
theorem Category.tableRead?_of_fragment? {c : Category} {root : Root} {function : LayerFunction}
    {sql : String} (h : c.fragment? root function = some sql) :
    Storage.tableRead? sql.toList = (c.table? root).map String.toList := by
  cases c with
  | graphRoot => exact Storage.tableRead?_graphRoot h
  | transcriptAttribute a => exact Storage.tableRead?_transcriptAttribute h
  | participantAttribute a => exact Storage.tableRead?_participantAttribute h
  | corpus => cases root with
    | transcript => exact Storage.tableRead?_corpus_of_transcript h
    | participant => exact Storage.tableRead?_corpus_of_participant h
  | episode => exact Storage.tableRead?_episode h
  | episodeLayer t => exact Storage.tableRead?_episodeLayer h
  | participant => cases root with
    | transcript => exact Storage.tableRead?_participant_of_transcript h
    | participant => exact Storage.tableRead?_participant_of_participant h
  | annotationLayer t temporal => exact Storage.tableRead?_annotationLayer h

/-! ## Places -/

namespace Category

/-- Two places are the same, as far as a function of the layers stored there can tell: the
annotations of a layer are in time order only if one of them is picked. -/
def SamePlace (function : LayerFunction) : Category → Category → Prop
  | graphRoot, graphRoot | corpus, corpus | episode, episode | participant, participant => True
  | transcriptAttribute a, transcriptAttribute b => Text.escape a = Text.escape b
  | participantAttribute a, participantAttribute b => Text.escape a = Text.escape b
  | episodeLayer t, episodeLayer u => t = u
  | annotationLayer t temporal, annotationLayer u temporal' =>
    t = u ∧ (function = .label → temporal = temporal')
  | _, _ => False

/-- The layers on episodes have negative numbers, and ordinary layers have not. -/
def IsNumbered : Category → Prop
  | episodeLayer t => t.layerId < 0
  | annotationLayer t _ => 0 ≤ t.layerId
  | _ => True

/-- A layer that is found by its number has a number of its kind. -/
theorem isNumbered_of_ofLayerId? {n : Int} {temporal : Bool} {c : Category}
    (h : ofLayerId? n temporal = some c) : c.IsNumbered := by
  unfold ofLayerId? at h
  split_ifs at h with _ _ _ hBelow hAbove
  · cases h; trivial
  · cases h; trivial
  · cases h; trivial
  · cases h; exact Int.lt_trans hBelow (by decide)
  · cases h; exact hAbove

end Category

/-- Where a layer is stored, it has a number of its kind. -/
theorem Layer.isNumbered_of_category? {l : Layer} {graph : String} {c : Category}
    (h : l.category? graph = some c) : c.IsNumbered := by
  unfold Layer.category? at h
  split_ifs at h
  · cases h; trivial
  · cases h; trivial
  · cases h; trivial
  · obtain ⟨n, -, hn⟩ := Option.bind_eq_some_iff.mp h
    exact Category.isNumbered_of_ofLayerId? hn

/-! ## Within one kind of place -/

namespace Storage

@[simp]
theorem subquery_inj {columns rows rows' : String} :
    subquery columns rows = subquery columns rows' ↔ rows = rows' := by
  rw [subquery, subquery, String.append_left_inj, String.append_right_inj]

@[simp]
theorem quote_inj {a b : String} :
    Text.quote a = Text.quote b ↔ Text.escape a = Text.escape b := by
  rw [Text.quote, Text.quote, String.append_left_inj, String.append_right_inj]

/-- The rows of attributes differ exactly if the escaped names do. -/
@[simp]
theorem transcriptAttributeRows_inj {a b through : String} :
    transcriptAttributeRows a through = transcriptAttributeRows b through ↔
      Text.escape a = Text.escape b := by
  unfold transcriptAttributeRows
  rw [String.append_left_inj, String.append_left_inj, String.append_left_inj,
    String.append_right_inj, quote_inj]

@[simp]
theorem transcriptAttributeRowsOfSpeaker_inj {a b : String} :
    transcriptAttributeRowsOfSpeaker a = transcriptAttributeRowsOfSpeaker b ↔
      Text.escape a = Text.escape b := by
  unfold transcriptAttributeRowsOfSpeaker
  rw [String.append_left_inj, String.append_right_inj, quote_inj]

@[simp]
theorem participantAttributeRows_inj {a b : String} {root : Root} :
    participantAttributeRows a root = participantAttributeRows b root ↔
      Text.escape a = Text.escape b := by
  unfold participantAttributeRows
  cases root with
  | transcript => rw [String.append_left_inj, String.append_right_inj, quote_inj]
  | participant => rw [String.append_left_inj, String.append_right_inj, quote_inj]

@[simp]
theorem episodeLayerRows_inj {t u : LayerTable} :
    episodeLayerRows t = episodeLayerRows u ↔ t = u := by
  simp only [episodeLayerRows, String.append_left_inj, String.append_right_inj, LayerTable.sql_inj]

@[simp]
theorem annotationLayerRows_inj {t u : LayerTable} :
    annotationLayerRows t = annotationLayerRows u ↔ t = u := by
  simp only [annotationLayerRows, String.append_left_inj, String.append_right_inj,
    LayerTable.sql_inj]

@[simp]
theorem annotationLayerRowsByTime_inj {t u : LayerTable} :
    annotationLayerRowsByTime t = annotationLayerRowsByTime u ↔ t = u := by
  simp only [annotationLayerRowsByTime, String.append_left_inj, String.append_right_inj,
    LayerTable.sql_inj]

/-- Texts with ends that do not agree are different. -/
theorem append_ne_of_ends {a b : String} {cs ds : List Char} (h : cs.isSuffixOf ds = false)
    (h' : ds.isSuffixOf cs = false) : a ++ String.ofList cs ≠ b ++ String.ofList ds := by
  intro hEq
  rw [← String.toList_inj, String.toList_append, String.toList_append, String.toList_ofList,
    String.toList_ofList] at hEq
  have hEnds := List.suffix_or_suffix_of_suffix (List.suffix_append a.toList cs)
    (hEq ▸ List.suffix_append b.toList ds)
  rw [← List.isSuffixOf_iff_suffix, ← List.isSuffixOf_iff_suffix, h, h'] at hEnds
  simp at hEnds

/-- The first annotation by time and the one with the least id are looked for in different ways. -/
theorem rows_ne_rowsByTime {t u : LayerTable} :
    annotationLayerRows t ++ " ORDER BY annotation.annotation_id LIMIT 1" ≠
      annotationLayerRowsByTime u :=
  append_ne_of_ends rfl rfl

section

variable {root : Root} {function : LayerFunction} {sql sql' : String}

/-- Attributes of transcripts have the same SQL exactly if their escaped names are the same. -/
theorem transcriptAttribute_eq_iff {a b : String}
    (h : transcriptAttribute a root function = some sql)
    (h' : transcriptAttribute b root function = some sql') :
    sql = sql' ↔ Text.escape a = Text.escape b := by
  cases root <;> cases function <;> cases h <;> cases h' <;> simp

/-- Attributes of participants have the same SQL exactly if their escaped names are the same. -/
theorem participantAttribute_eq_iff {a b : String}
    (h : participantAttribute a root function = some sql)
    (h' : participantAttribute b root function = some sql') :
    sql = sql' ↔ Text.escape a = Text.escape b := by
  cases function <;> cases h <;> cases h' <;> simp

theorem episodeLayer_eq_iff {t u : LayerTable}
    (h : episodeLayer t root function = some sql)
    (h' : episodeLayer u root function = some sql') : sql = sql' ↔ t = u := by
  cases root <;> cases function <;> cases h <;> cases h' <;> simp

/-- Annotation layers have the same SQL exactly if they have the same table and, where one
annotation is picked, the same order. -/
theorem annotationLayer_eq_iff {t u : LayerTable} {temporal temporal' : Bool}
    (h : annotationLayer t temporal root function = some sql)
    (h' : annotationLayer u temporal' root function = some sql') :
    sql = sql' ↔ t = u ∧ (function = .label → temporal = temporal') := by
  cases root <;> cases function <;> cases h <;> cases h'
  · -- only the label picks one annotation, the first in time if there is a time
    cases temporal <;> cases temporal'
    · simp
    · simpa using rows_ne_rowsByTime
    · simpa using Ne.symm rows_ne_rowsByTime
    · simp
  all_goals simp

end

end Storage

/-! ## Between kinds of places -/

/-- The id of a transcript and its corpus are different columns. -/
theorem Storage.graphRoot_ne_corpus {function : LayerFunction}
    (h : (graphRoot .transcript function).isSome = true) :
    graphRoot .transcript function ≠ corpus .transcript function := by
  revert h
  cases function <;> decide

/-- The kind of place whose SQL reads a table first. -/
def Storage.kindOfTable (table : String) : String :=
  if table.toList.head? = some '\x60' then "episode layer"
  else if "annotation_layer_".toList.isPrefixOf table.toList then "annotation layer"
  else if table = "annotation_transcript" then "transcript attribute"
  else if table = "annotation_participant" then "participant attribute"
  else if table = "speaker_corpus" then "corpus"
  else if table = "transcript_family" then "episode"
  else "participant"

namespace Category

section

variable {c c' : Category} {root : Root} {function : LayerFunction} {sql : String}

/-- The table tells the kind of place. -/
theorem kindOfTable_of_table? {table : String} (hc : c.IsNumbered)
    (h : c.table? root = some table) : Storage.kindOfTable table = c.name := by
  cases c with
  | graphRoot => cases h
  | transcriptAttribute a => cases h; rfl
  | participantAttribute a => cases h; rfl
  | corpus => cases root <;> cases h; rfl
  | episode => cases h; rfl
  | participant => cases root <;> cases h; rfl
  | episodeLayer t =>
    cases h
    -- a negative number puts the name in backticks, and no other table is
    have hSign : t.layerId < 0 := hc
    rw [Storage.kindOfTable, LayerTable.head?_sql, if_pos hSign, if_pos rfl, name]
  | annotationLayer t temporal =>
    cases h
    have hSign : ¬ t.layerId < 0 := Int.not_lt.mpr hc
    -- the name is written as it is, with the front that all these tables have
    have hFront : "annotation_layer_".toList.isPrefixOf t.sql.toList = true := by
      rw [LayerTable.sql, if_neg hSign]
      unfold LayerTable.name
      simp
    rw [Storage.kindOfTable, LayerTable.head?_sql, if_neg hSign, if_neg (by decide), if_pos hFront,
      name]

/-- The columns of the current row, which need no table, are different too. -/
theorem name_eq_of_column (hc : c.table? root = none) (hc' : c'.table? root = none)
    (h : c.fragment? root function = some sql) (h' : c'.fragment? root function = some sql) :
    c.name = c'.name := by
  cases root with
  | transcript =>
    cases c <;> cases hc <;> cases c' <;> cases hc'
    · rfl
    · exact absurd (h.trans h'.symm) (Storage.graphRoot_ne_corpus (Option.isSome_of_eq_some h))
    · exact absurd (h'.trans h.symm) (Storage.graphRoot_ne_corpus (Option.isSome_of_eq_some h'))
    · rfl
  | participant =>
    -- there is no graph in a row about a participant
    cases c <;> cases hc <;> cases c' <;> cases hc'
    · rfl
    · cases function <;> cases h
    · cases function <;> cases h'
    · rfl

/-- The same SQL for two places means that they are of the same kind. -/
theorem name_eq_of_fragment? (hc : c.IsNumbered) (hc' : c'.IsNumbered)
    (h : c.fragment? root function = some sql) (h' : c'.fragment? root function = some sql) :
    c.name = c'.name := by
  -- the same text reads the same table, and the table tells the kind of place
  have hTable : c.table? root = c'.table? root := by
    have hRead := tableRead?_of_fragment? h
    rw [tableRead?_of_fragment? h'] at hRead
    exact (Option.map_injective (fun _ _ => String.toList_inj.mp) hRead).symm
  cases hSome : c.table? root with
  | none => exact name_eq_of_column hSome (hTable ▸ hSome) h h'
  | some table =>
    rw [← kindOfTable_of_table? hc hSome, ← kindOfTable_of_table? hc' (hTable ▸ hSome)]

/-- Places that are the same are of the same kind. -/
theorem SamePlace.name_eq (h : SamePlace function c c') : c.name = c'.name := by
  unfold SamePlace at h
  split at h
  case h_9 => exact h.elim
  all_goals rfl

end

/-- **Layers in different places have different SQL.** Of two layers the SQL for a function is
equal exactly if they are stored in the same place: in the same kind of place, with tables of the
same number and with attribute names that are escaped to the same text. For a single label it also
matters whether the annotations are ordered by time. -/
theorem fragment_eq_iff_samePlace {l l' : Layer} {graph graph' : String} {c c' : Category}
    {root : Root} {function : LayerFunction} {sql sql' : String}
    (hc : l.category? graph = some c) (hc' : l'.category? graph' = some c')
    (h : c.fragment? root function = some sql) (h' : c'.fragment? root function = some sql') :
    sql = sql' ↔ SamePlace function c c' := by
  by_cases hName : c.name = c'.name
  · -- eight pairs are of one kind
    cases c <;> cases c' <;> try simp [name] at hName
    · exact iff_of_true (Option.some.inj (h ▸ h')) trivial
    · exact Storage.transcriptAttribute_eq_iff h h'
    · exact Storage.participantAttribute_eq_iff h h'
    · exact iff_of_true (Option.some.inj (h ▸ h')) trivial
    · exact iff_of_true (Option.some.inj (h ▸ h')) trivial
    · exact Storage.episodeLayer_eq_iff h h'
    · exact iff_of_true (Option.some.inj (h ▸ h')) trivial
    · exact Storage.annotationLayer_eq_iff h h'
  · refine iff_of_false (fun hSql => hName ?_) (fun hSame => hName hSame.name_eq)
    subst hSql
    exact name_eq_of_fragment? (Layer.isNumbered_of_category? hc)
      (Layer.isNumbered_of_category? hc') h h'

end Category

/-- The attribute of `awkwardLayer` under a name in which the second quote is escaped already. -/
def escapedLayer : Layer :=
  { awkwardLayer with storedName := some "a\\') OR (\\'b\\\\" }

/-- Two names that differ only by a backslash that escaping puts in give the same SQL. -/
theorem escapedLayer_samePlace :
    awkwardLayer.attributeName ≠ escapedLayer.attributeName ∧
    Storage.transcriptAttribute awkwardLayer.attributeName .participant .count =
      Storage.transcriptAttribute escapedLayer.attributeName .participant .count := by
  have hSql : ∀ a, (Category.transcriptAttribute a).fragment? .participant .count =
      some (Storage.subquery "COUNT(*)" (Storage.transcriptAttributeRowsOfSpeaker a)) :=
    fun _ => rfl
  have hSame : Text.escape awkwardLayer.attributeName = Text.escape escapedLayer.attributeName := by
    decide
  refine ⟨by decide, congrArg some ?_⟩
  exact (Category.fragment_eq_iff_samePlace (rfl : awkwardLayer.category? "graph" = _)
    (rfl : escapedLayer.category? "graph" = _) (hSql _) (hSql _)).mpr hSame

end AnnotationQuery
