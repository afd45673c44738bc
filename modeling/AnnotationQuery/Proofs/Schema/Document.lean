import AnnotationQuery.Proofs.Document.Json
import AnnotationQuery.Proofs.Schema.Build
import AnnotationQuery.Schema.Document

/-!
# Schemas that were written down

The document of a schema is read as that schema. This has three parts. A record is read field
by field, whatever the order of its keys, because no key occurs twice. A layer and the roles
come back from what their fields hold: what is not set is not there, and what is not there is
not set. And the layers of a schema make that schema, although they are not the layers that
were declared: the layer of the graph itself, if it was added, is now among them, and is not
added again.

The number of a layer has to fit 64 bits. Any number that the store can give out does.

Main results:

* `Node.record?_of_perm` — the fields of a record.
* `Layer.ofNode?_of_described`, `Schema.ofNode?_of_described` — layers and schemas.
* `Schema.build_layers` — building a schema from its own layers.
* `document_loads_schema` — texts.
-/

namespace AnnotationQuery

/-! ## Records -/

namespace Node

/-- The entries of a record with these fields. What is not given has no entry. -/
def entriesOf (fields : List (String × Option Node)) : List (String × Node) :=
  fields.flatMap fun p => Layer.entry p.1 p.2

variable {fields : List (String × Option Node)} {entries : List (String × Node)}

/-- The entries of a record are under the keys of its fields. -/
theorem key_of_mem_entriesOf {e : String × Node} (h : e ∈ entriesOf fields) :
    e.1 ∈ fields.map Prod.fst := by
  obtain ⟨p, hp, he⟩ := List.mem_flatMap.mp h
  obtain ⟨v, -, rfl⟩ := Option.map_eq_some_iff.mp (Option.mem_toList.mp he)
  exact List.mem_map_of_mem hp

theorem valuesOf_append (key : String) (entries entries' : List (String × Node)) :
    valuesOf key (entries ++ entries') = valuesOf key entries ++ valuesOf key entries' :=
  List.filterMap_append

theorem valuesOf_entry (key : String) (v : Option Node) :
    valuesOf key (Layer.entry key v) = v.toList := by
  cases v <;> simp [valuesOf, Layer.entry]

theorem valuesOf_eq_nil {key : String} (h : ∀ e ∈ entries, e.1 ≠ key) : valuesOf key entries = [] :=
  List.filterMap_eq_nil_iff.mpr fun e he => if_neg (h e he)

/-- Under each key there is what was given for it, as no other field has that key. -/
theorem valuesOf_entriesOf (hNodup : (fields.map Prod.fst).Nodup) {p : String × Option Node}
    (hp : p ∈ fields) : valuesOf p.1 (entriesOf fields) = p.2.toList := by
  induction fields with
  | nil => cases hp
  | cons q fields ih =>
    rw [List.map_cons, List.nodup_cons] at hNodup
    have hSplit : entriesOf (q :: fields) = Layer.entry q.1 q.2 ++ entriesOf fields := rfl
    rw [hSplit, valuesOf_append]
    -- keys are distinct, so only one entry is under the key
    rcases List.mem_cons.mp hp with rfl | hp
    · have hOthers : valuesOf p.1 (entriesOf fields) = [] := by
        refine valuesOf_eq_nil fun e he hKey => hNodup.1 ?_
        rw [← hKey]
        exact key_of_mem_entriesOf he
      rw [valuesOf_entry, hOthers, List.append_nil]
    · have hHere : valuesOf p.1 (Layer.entry q.1 q.2) = [] := by
        refine valuesOf_eq_nil fun e he hKey => hNodup.1 ?_
        obtain ⟨v, -, rfl⟩ := Option.map_eq_some_iff.mp (Option.mem_toList.mp he)
        rw [show q.1 = p.1 from hKey]
        exact List.mem_map_of_mem hp
      rw [hHere, ih hNodup.2 hp]
      rfl

/-- If each key gives the value of its field, all keys give all values. -/
theorem mapM_of_fields {look : String → Option (Option Node)}
    (h : ∀ p ∈ fields, look p.1 = some p.2) :
    (fields.map Prod.fst).mapM look = some (fields.map Prod.snd) := by
  induction fields with
  | nil => rfl
  | cons p fields ih =>
    rw [List.forall_mem_cons] at h
    rw [List.map_cons, List.mapM_cons, h.1, ih h.2]
    rfl

/-- A record is read as the fields that it was made of, in whatever order the entries are. -/
theorem record?_of_perm (f : Format) (hNodup : (fields.map Prod.fst).Nodup)
    (h : entries.Perm (entriesOf fields)) :
    record? f (fields.map Prod.fst) (.fields entries) = some (fields.map Prod.snd) := by
  have hKnown : (entries.all fun e => (fields.map Prod.fst).contains e.1 || f.ignorable e.2) =
      true := by
    rw [List.all_eq_true]
    intro e he
    have hKey := key_of_mem_entriesOf (h.subset he)
    rw [Bool.or_eq_true, List.contains_iff_mem]
    exact .inl hKey
  refine (if_pos hKnown).trans (mapM_of_fields fun p hp => ?_)
  have hValues : (valuesOf p.1 entries).Perm p.2.toList := by
    rw [← valuesOf_entriesOf hNodup hp]
    exact h.filterMap _
  -- there is at most one value, so it does not matter which comes first
  cases hv : p.2 with
  | none =>
    rw [hv] at hValues
    rw [List.perm_nil.mp hValues]
  | some v =>
    rw [hv] at hValues
    rw [List.perm_singleton.mp hValues]

end Node

/-! ## Layers -/

namespace Layer

/-- What a document says about a layer. -/
def fields (l : Layer) : List (String × Option Node) :=
  [("id", some (.text l.id)), ("description", some (.text l.description)),
    ("alignment", some (.text l.alignment.name)), ("parent_id", l.parentId.map .text),
    ("peers", some (.bool l.peers)), ("layer_id", l.layerId.map .whole),
    ("class_id", l.classId.map .text), ("attribute", l.storedName.map .text)]

/-- The part of a document is the layer as a record, with the keys in some order. -/
def Described (l : Layer) (n : Node) : Prop :=
  ∃ entries, n = .fields entries ∧ entries.Perm (Node.entriesOf l.fields)

theorem described_node (l : Layer) : l.Described l.node := by
  refine ⟨_, rfl, .of_eq ?_⟩
  simp [Node.entriesOf, fields, entry]

/-- A text that may be missing is read as that. -/
theorem optionalText?_map (o : Option String) :
    Node.optionalText? (o.map .text) = some o := by
  cases o <;> rfl

/-- A number of 64 bits that may be missing is read as that. -/
theorem optionalWhole?_map {o : Option Int} (h : ∀ n, o = some n → Node.fits64 n = true) :
    Node.optionalWhole? (o.map .whole) = some o := by
  cases o with
  | none => rfl
  | some n => exact if_pos (h n rfl)

/-- The name of an alignment is read as that alignment. -/
theorem alignment?_name (f : Format) (a : Alignment) :
    alignment? f (some (.text a.name)) = some a := by
  cases a <;> rfl

/-- A layer is read as it was written. -/
theorem ofNode?_of_described (f : Format) {l : Layer} {n : Node} (h : l.Described n)
    (hFits : ∀ i, l.layerId = some i → Node.fits64 i = true) : ofNode? f n = some l := by
  obtain ⟨entries, rfl, hPerm⟩ := h
  have hNodup : (l.fields.map Prod.fst).Nodup := by
    show fieldNames.Nodup
    decide
  -- the order of the entries makes no difference to looking them up
  have hRecord : Node.record? f fieldNames (.fields entries) = some (l.fields.map Prod.snd) :=
    Node.record?_of_perm f hNodup hPerm
  unfold ofNode?
  rw [hRecord]
  simp only [fields, List.map_cons, List.map_nil, Option.bind_eq_bind, Option.bind_some,
    Node.requiredText?, Node.textOrEmpty?, Node.flag?, alignment?_name, optionalText?_map,
    optionalWhole?_map hFits]
  rfl

/-- Parts that describe layers, one by one, are read as these layers. -/
theorem mapM_ofNode?_of_described (f : Format) {ls : List Layer} {ns : List Node}
    (h : List.Forall₂ Described ls ns)
    (hFits : ∀ l ∈ ls, ∀ i, l.layerId = some i → Node.fits64 i = true) :
    ns.mapM (ofNode? f) = some ls := by
  induction h with
  | nil => rfl
  | cons hHere hMore ih =>
    rw [List.forall_mem_cons] at hFits
    rw [List.mapM_cons, ofNode?_of_described f hHere hFits.1, ih hFits.2]
    rfl

end Layer

/-! ## Schemas -/

namespace Schema

/-- What a document says about a schema whose layers are these parts. -/
def fields (s : Schema) (layers : List Node) : List (String × Option Node) :=
  [("root_layer_id", some (.text s.roles.root)),
    ("participant_layer_id", s.roles.participant.map .text),
    ("turn_layer_id", s.roles.turn.map .text), ("utterance_layer_id", s.roles.utterance.map .text),
    ("word_layer_id", s.roles.word.map .text), ("corpus_layer_id", s.roles.corpus.map .text),
    ("episode_layer_id", s.roles.episode.map .text), ("layers", some (.items layers))]

/-- The document is the schema as a record: its layers in their order, and the keys of each record
in some order. -/
def Described (s : Schema) (n : Node) : Prop :=
  ∃ layers entries, n = .fields entries ∧ List.Forall₂ Layer.Described s.layers layers ∧
    entries.Perm (Node.entriesOf (s.fields layers))

/-- The record that is made of a schema describes it. -/
theorem described_node (s : Schema) : s.Described s.node := by
  refine ⟨s.layers.map Layer.node, _, rfl, ?_, .of_eq ?_⟩
  · rw [List.forall₂_map_right_iff, List.forall₂_same]
    exact fun l _ => l.described_node
  · simp [Node.entriesOf, fields, Layer.entry]

/-- A schema is read as it was written. -/
theorem ofNode?_of_described (f : Format) {s : Schema} {n : Node} (h : s.Described n)
    (hFits : ∀ l ∈ s.layers, ∀ i, l.layerId = some i → Node.fits64 i = true) :
    ofNode? f n = some (s.layers, s.roles) := by
  obtain ⟨layers, entries, rfl, hLayers, hPerm⟩ := h
  have hNodup : ((s.fields layers).map Prod.fst).Nodup := by
    show fieldNames.Nodup
    decide
  -- the order of the entries makes no difference to looking them up
  have hRecord : Node.record? f fieldNames (.fields entries) =
      some ((s.fields layers).map Prod.snd) :=
    Node.record?_of_perm f hNodup hPerm
  have hRead := Layer.mapM_ofNode?_of_described f hLayers hFits
  have hRoot : Node.optionalText? (some (.text s.roles.root)) = some (some s.roles.root) := rfl
  unfold ofNode?
  rw [hRecord]
  simp only [fields, List.map_cons, List.map_nil, Option.bind_eq_bind, Option.bind_some,
    Layer.optionalText?_map, hRoot, Node.itemsOrEmpty?, hRead]
  rfl

/-- The layers of a schema make that schema again. -/
theorem build_layers {declared : List Layer} {roles : Roles} {s : Schema}
    (h : build declared roles = .ok s) : build s.layers s.roles = .ok s := by
  obtain ⟨hAdd, hRun, hRoles⟩ := runs_of_build h
  -- the layer of the graph itself is among them, so none is added
  have hFirst : firstCatalog s.layers roles.root = .empty :=
    firstCatalog_of_declared (List.mem_map.mp (root_mem_of_build h))
  -- the loop begins with the layer that was added, if one was, and then goes on as it did
  have hAgain : Catalog.empty.addAll s.layers = .ok ⟨s.layers, s.index⟩ := by
    rw [← hAdd, ← addAll_firstCatalog, ← layers_of_build h]
  rw [build, hRoles, hFirst, hAgain]
  show categorize roles.root .empty s.layers >>= _ = _
  rw [hRun, ← hRoles]
  rfl

/-- The layer that is added for the graph itself has no number. -/
theorem fits_of_build {declared : List Layer} {roles : Roles} {s : Schema}
    (h : build declared roles = .ok s)
    (hFits : ∀ l ∈ declared, ∀ i, l.layerId = some i → Node.fits64 i = true) :
    ∀ l ∈ s.layers, ∀ i, l.layerId = some i → Node.fits64 i = true := by
  intro l hl i hi
  rcases mem_of_build h hl with hDeclared | rfl
  · exact hFits l hDeclared i hi
  · cases hi

end Schema

/-! ## Texts -/

/-- If the given fields have no other numbers than integers, the entries have none. -/
theorem Node.integral_entriesOf {fields : List (String × Option Node)}
    (h : ∀ p ∈ fields, ∀ v, p.2 = some v → Json.Integral v) :
    ∀ e ∈ Node.entriesOf fields, Json.Integral e.2 := by
  intro e he
  obtain ⟨p, hp, he⟩ := List.mem_flatMap.mp he
  obtain ⟨v, hv, rfl⟩ := Option.map_eq_some_iff.mp (Option.mem_toList.mp he)
  exact h p hp v hv

theorem Node.integral_text (o : Option String) :
    ∀ v, o.map Node.text = some v → Json.Integral v := by
  intro v hv
  obtain ⟨s, -, rfl⟩ := Option.map_eq_some_iff.mp hv
  exact .text s

/-- A description of a layer has no other numbers than integers. -/
theorem Layer.integral_of_described {l : Layer} {n : Node} (h : l.Described n) :
    Json.Integral n := by
  obtain ⟨entries, rfl, hPerm⟩ := h
  refine .fields fun e he => Node.integral_entriesOf ?_ e (hPerm.subset he)
  have hPeers : ∀ v, some (Node.bool l.peers) = some v → Json.Integral v := by
    rintro v ⟨⟩
    exact .bool l.peers
  have hNumber : ∀ v, l.layerId.map Node.whole = some v → Json.Integral v := by
    intro v hv
    obtain ⟨i, -, rfl⟩ := Option.map_eq_some_iff.mp hv
    exact .whole i
  simp only [fields, List.forall_mem_cons]
  exact ⟨Node.integral_text (some l.id), Node.integral_text (some l.description),
    Node.integral_text (some l.alignment.name), Node.integral_text l.parentId, hPeers, hNumber,
    Node.integral_text l.classId, Node.integral_text l.storedName, fun p hp => (nomatch hp)⟩

/-- A description of a schema has no other numbers than integers. -/
theorem Schema.integral_of_described {s : Schema} {n : Node} (h : s.Described n) :
    Json.Integral n := by
  obtain ⟨layers, entries, rfl, hLayers, hPerm⟩ := h
  refine .fields fun e he => Node.integral_entriesOf ?_ e (hPerm.subset he)
  -- all fields but the layers are texts
  have hItems : ∀ v, some (Node.items layers) = some v → Json.Integral v := by
    rintro v ⟨⟩
    have hEach := hLayers.flip.imp fun m l hl => And.intro (l.integral_of_described hl) hl
    exact .items ((List.forall₂_and_left _ _).mp hEach).1
  simp only [fields, List.forall_mem_cons]
  exact ⟨Node.integral_text (some s.roles.root), Node.integral_text s.roles.participant,
    Node.integral_text s.roles.turn, Node.integral_text s.roles.utterance,
    Node.integral_text s.roles.word, Node.integral_text s.roles.corpus,
    Node.integral_text s.roles.episode, hItems, fun p hp => (nomatch hp)⟩

/-- **Schemas survive being written down.** Whichever declarations a schema was built from, the
document of the schema is read as the same schema: the same layers in the same order, among them the
one for the graph itself, and the same roles, so that every id is stored where it was. It does not
matter in which order the keys of a record are, nor how the document is laid out; nor who wrote the
text, if it says the same. -/
theorem document_loads_schema {declared : List Layer} {roles : Roles} {s : Schema}
    (hBuild : Schema.build declared roles = .ok s)
    (hFits : ∀ l ∈ declared, ∀ i, l.layerId = some i → Node.fits64 i = true) :
    s.Described s.node ∧
    (∀ n text, s.Described n → Json.parse? text = some n → Schema.ofJson text = .ok s) ∧
    ∀ n layout, s.Described n → layout.Blank → Schema.ofJson (Json.write layout 0 n) = .ok s := by
  have hLoads : ∀ n text, s.Described n → Json.parse? text = some n →
      Schema.ofJson text = .ok s := by
    intro n text hn hText
    have hRead : Schema.ofNode? Json.format n = some (s.layers, s.roles) :=
      Schema.ofNode?_of_described Json.format hn (Schema.fits_of_build hBuild hFits)
    -- the layers of a schema, declared again, make the same schema
    rw [Schema.ofJson, Schema.ofDocument, hText, Option.bind_some, hRead]
    exact Schema.build_layers hBuild
  refine ⟨s.described_node, hLoads, fun n layout hn hLayout => ?_⟩
  exact hLoads n _ hn (Json.parse?_write hLayout (Schema.integral_of_described hn))

/-- Layers with all that a document can say about them, and texts that need care in one. -/
def recordedLayers : List Layer :=
  [{ id := "it's \"quoted\"\\", description := "two\nlines\x01é", alignment := .interval,
     parentId := some "", peers := true, layerId := some (-9223372036854775808) },
    { id := "mood", alignment := .instant, classId := some "speaker", storedName := some "null" }]

theorem recordedLayers_load :
    ∃ s, Schema.build recordedLayers { corpus := some "mood" } = .ok s ∧ s.layers.length = 3 ∧
      Schema.ofJson (Json.line s.node) = .ok s ∧ Schema.ofJson (Json.page s.node) = .ok s := by
  obtain ⟨s, hBuild⟩ : ∃ s, Schema.build recordedLayers { corpus := some "mood" } = .ok s :=
    ⟨_, rfl⟩
  have hLayers : s.layers.length = 3 := by
    rw [Schema.layers_of_build hBuild]
    rfl
  have hFits : ∀ l ∈ recordedLayers, ∀ i, l.layerId = some i → Node.fits64 i = true := by
    simp only [recordedLayers, List.forall_mem_cons]
    refine ⟨?_, ?_, fun l hl => (nomatch hl)⟩
    · rintro i ⟨⟩
      decide
    · rintro i ⟨⟩
  obtain ⟨hNode, -, hWritten⟩ := document_loads_schema hBuild hFits
  exact ⟨s, hBuild, hLayers, hWritten _ _ hNode Json.compact_blank,
    hWritten _ _ hNode Json.indented_blank⟩

end AnnotationQuery
