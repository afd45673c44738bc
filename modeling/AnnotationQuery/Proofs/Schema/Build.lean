import AnnotationQuery.Schema
import Mathlib.Data.List.Nodup

/-!
# Which declarations make a schema

Declared layers make a schema if no id occurs twice and every attribute has a name that can
be quoted. What the two loops go over is the list with the layer of the graph itself in it,
which may not have been declared; but that layer can fail neither check, so both are about
the declared layers alone. The first loop is over before the second begins, so an id that
occurs twice is complained about whatever the attributes are.

Each loop keeps an invariant about the map that it fills. While layers are added, the index
holds under an id exactly the place of the layer that has it; while storage is noted, the
other map holds under an id exactly what the layer with that id is classified as. So a
schema that was built is coherent: it answers for an id what its list of layers would.

Main results:

* `Schema.Catalog.Sound.add`, `Schema.Catalog.addAll_ok`, `Schema.Catalog.addAll_error` — the first
  loop.
* `Schema.Noted.insert`, `Schema.categorize_ok`, `Schema.categorize_error` — the second loop.
* `Schema.build_cases` — how building ends, and when.
* `Schema.coherent_of_build` — what is known of every schema that was built.
* `build_exactly_valid` — when there is a schema, which error there is otherwise, and the lookups.
-/

namespace AnnotationQuery

/-! ## Names of attributes -/

namespace Layer

/-- The name of a layer as an attribute: the declared one, or else what follows `participant_` or
`transcript_` in its id, or else the id. -/
inductive Named (l : Layer) : String → Prop
  | declared {name : String} (h : l.storedName = some name) : Named l name
  | participant {rest : String} (h : l.storedName = none) (hId : l.id = "participant_" ++ rest) :
      Named l rest
  | transcript {rest : String} (h : l.storedName = none) (hId : l.id = "transcript_" ++ rest) :
      Named l rest
  | bare (h : l.storedName = none) (hParticipant : ∀ rest, l.id ≠ "participant_" ++ rest)
      (hTranscript : ∀ rest, l.id ≠ "transcript_" ++ rest) : Named l l.id

/-- What follows a front is the rest of a text that starts with it. -/
theorem afterFront?_eq_some_iff {front text rest : List Char} :
    afterFront? front text = some rest ↔ text = front ++ rest := by
  induction front generalizing text with
  | nil => rw [afterFront?, Option.some.injEq, List.nil_append]
  | cons p ps ih =>
    cases text with
    | nil => simp [afterFront?]
    | cons c cs =>
      rw [afterFront?, List.cons_append, List.cons.injEq]
      split
      · next hSame => rw [ih, hSame, eq_self, true_and]
      · next hOther =>
        refine ⟨nofun, ?_⟩
        rintro ⟨rfl, -⟩
        exact absurd rfl hOther

theorem afterFront?_toList_eq_some_iff {front text : String} {rest : List Char} :
    afterFront? front.toList text.toList = some rest ↔ text = front ++ String.ofList rest := by
  rw [afterFront?_eq_some_iff, ← String.toList_inj, String.toList_append, String.toList_ofList]

theorem afterFront?_append (front rest : String) :
    afterFront? front.toList (front ++ rest).toList = some rest.toList := by
  rw [afterFront?_toList_eq_some_iff, String.ofList_toList]

/-- Nothing follows a front exactly if the text does not start with it. -/
theorem afterFront?_toList_eq_none_iff {front text : String} :
    afterFront? front.toList text.toList = none ↔ ∀ rest, text ≠ front ++ rest := by
  rw [Option.eq_none_iff_forall_ne_some]
  constructor
  · rintro hNone rest rfl
    exact hNone _ (afterFront?_append front rest)
  · intro hText rest hRest
    exact hText _ (afterFront?_toList_eq_some_iff.mp hRest)

/-- The name of a layer whose name is not declared, by how its id starts. -/
theorem attributeName_of_undeclared {l : Layer} (h : l.storedName = none) :
    l.attributeName =
      (((afterFront? "participant_".toList l.id.toList).or
        (afterFront? "transcript_".toList l.id.toList)).map String.ofList).getD l.id := by
  unfold attributeName
  rw [h]
  cases afterFront? "participant_".toList l.id.toList with
  | some rest => rfl
  | none => cases afterFront? "transcript_".toList l.id.toList <;> rfl

/-- A layer has the name that is looked up for it. -/
theorem named_attributeName (l : Layer) : l.Named l.attributeName := by
  cases h : l.storedName with
  | some name =>
    rw [attributeName, h]
    exact .declared h
  | none =>
    rw [attributeName_of_undeclared h]
    cases hParticipant : afterFront? "participant_".toList l.id.toList with
    | some rest => exact .participant h (afterFront?_toList_eq_some_iff.mp hParticipant)
    | none =>
      cases hTranscript : afterFront? "transcript_".toList l.id.toList with
      | some rest => exact .transcript h (afterFront?_toList_eq_some_iff.mp hTranscript)
      | none =>
        rw [afterFront?_toList_eq_none_iff] at hParticipant hTranscript
        exact .bare h hParticipant hTranscript

/-- Every layer has exactly one name. -/
theorem named_iff {l : Layer} {name : String} : l.Named name ↔ l.attributeName = name := by
  refine ⟨fun hNamed => ?_, fun h => h ▸ l.named_attributeName⟩
  cases hNamed with
  | declared h => rw [attributeName, h]
  | participant h hId =>
    rw [attributeName_of_undeclared h, hId, afterFront?_append, Option.some_or, Option.map_some,
      Option.getD_some, String.ofList_toList]
  | transcript h hId =>
    -- no id starts in both ways
    have hOther : afterFront? "participant_".toList l.id.toList = none := by
      rw [hId, String.toList_append]
      rfl
    rw [attributeName_of_undeclared h, hOther, Option.none_or, hId, afterFront?_append,
      Option.map_some, Option.getD_some, String.ofList_toList]
  | bare h hParticipant hTranscript =>
    rw [← afterFront?_toList_eq_none_iff] at hParticipant hTranscript
    rw [attributeName_of_undeclared h, hParticipant, hTranscript]
    rfl

/-- The layer is an attribute, by its class, and its name cannot be quoted. The layer of the graph
itself is no attribute, whatever its class. -/
structure Offends (l : Layer) (root name : String) : Prop where
  notRoot    : l.id ≠ root
  classed    : l.classId = some "transcript" ∨ l.classId = some "speaker"
  named      : l.Named name
  unquotable : Text.isQuotable name = false

end Layer

/-! ## Which names are refused -/

namespace Schema

/-- The number of a layer never makes it an attribute. -/
theorem attributeName?_ofLayerId? {layerId : Int} {temporal : Bool} {c : Category}
    (h : Category.ofLayerId? layerId temporal = some c) : c.attributeName? = none := by
  unfold Category.ofLayerId? at h
  repeat' split at h
  all_goals cases h
  all_goals rfl

/-- The name under which a layer is checked. -/
theorem attributeName?_category? {root name : String} {l : Layer} :
    (l.category? root).bind Category.attributeName? = some name ↔
      l.id ≠ root ∧ (l.classId = some "transcript" ∨ l.classId = some "speaker") ∧
        l.attributeName = name := by
  unfold Layer.category?
  by_cases hRoot : l.id = root
  · rw [if_pos hRoot]
    exact ⟨nofun, fun h => absurd hRoot h.1⟩
  by_cases hTranscript : l.classId = some "transcript"
  · rw [if_neg hRoot, if_pos hTranscript]
    simp [Category.attributeName?, hRoot, hTranscript]
  by_cases hSpeaker : l.classId = some "speaker"
  · rw [if_neg hRoot, if_neg hTranscript, if_pos hSpeaker]
    simp [Category.attributeName?, hRoot, hSpeaker]
  · -- what is left is decided by the number of the layer
    rw [if_neg hRoot, if_neg hTranscript, if_neg hSpeaker]
    refine ⟨fun h => ?_, fun h => (h.2.1.elim hTranscript hSpeaker).elim⟩
    obtain ⟨c, hc, hName⟩ := Option.bind_eq_some_iff.mp h
    obtain ⟨n, -, hn⟩ := Option.bind_eq_some_iff.mp hc
    rw [attributeName?_ofLayerId? hn] at hName
    cases hName

/-- The name that is refused with a layer is the one with which the layer offends. -/
theorem unquotableName?_category? {root name : String} {l : Layer} :
    (l.category? root).bind unquotableName? = some name ↔ l.Offends root name := by
  -- the check is on the name, if the layer is stored as an attribute
  have hChecked : (l.category? root).bind unquotableName? =
      ((l.category? root).bind Category.attributeName?).filter (!Text.isQuotable ·) := by
    cases l.category? root <;> rfl
  rw [hChecked, Option.filter_eq_some_iff, attributeName?_category?, Bool.not_eq_true']
  constructor
  · rintro ⟨⟨hRoot, hClass, hName⟩, hQuote⟩
    exact ⟨hRoot, hClass, Layer.named_iff.mpr hName, hQuote⟩
  · rintro ⟨hRoot, hClass, hName, hQuote⟩
    exact ⟨⟨hRoot, hClass, Layer.named_iff.mp hName⟩, hQuote⟩

/-- A layer that is stored nowhere does not offend. -/
theorem not_offends_of_unmapped {root : String} {l : Layer} (h : l.category? root = none)
    (name : String) : ¬ l.Offends root name := by
  rw [← unquotableName?_category?, h]
  nofun

/-- With its storage known, a layer offends with the name that is refused. -/
theorem offends_iff_of_mapped {root : String} {l : Layer} {category : Category}
    (h : l.category? root = some category) {name : String} :
    l.Offends root name ↔ unquotableName? category = some name := by
  rw [← unquotableName?_category?, h, Option.bind_some]

/-! ## The first loop -/

/-- What stands in a place of a list with one more entry at its end. -/
theorem getElem?_concat_eq_some_iff {α : Type} {xs : List α} {x y : α} {i : Nat} :
    (xs ++ [x])[i]? = some y ↔ xs[i]? = some y ∨ i = xs.length ∧ x = y := by
  grind

namespace Catalog

/-- Under an id there is the place in which it stands among the ids of the layers, and an id that
stands nowhere is not in the index. -/
def Sound (c : Catalog) : Prop :=
  ∀ id place, c.index.find? id = some place ↔ (c.layers.map Layer.id)[place]? = some id

variable {c c' : Catalog} {l : Layer} {ls : List Layer}

theorem sound_empty : Catalog.empty.Sound := by
  intro id place
  rw [empty, Dictionary.find?_empty, List.map_nil, List.getElem?_nil]
  exact ⟨nofun, nofun⟩

/-- The index holds the ids of the layers and no others. -/
theorem Sound.contains_iff (h : c.Sound) {id : String} :
    c.index.contains id = true ↔ id ∈ c.layers.map Layer.id := by
  rw [Dictionary.contains, Option.isSome_iff_exists, List.mem_iff_getElem?]
  exact exists_congr (h id)

/-- No two layers have the same id, because an id has one place. -/
theorem Sound.nodup (h : c.Sound) : (c.layers.map Layer.id).Nodup := by
  rw [List.nodup_iff_getElem?_ne_getElem?]
  intro i j hLess hj hSame
  have hSecond := (h _ j).mpr (List.getElem?_eq_getElem hj)
  have hFirst := (h _ i).mpr (hSame.trans (List.getElem?_eq_getElem hj))
  rw [hFirst] at hSecond
  exact Nat.ne_of_lt hLess (Option.some.inj hSecond)

/-- One turn of the loop: a layer with a new id is put behind the others. -/
theorem Sound.add (h : c.Sound) (hNew : ¬ c.index.contains l.id = true) : (c.add l).Sound := by
  intro id place
  have hIds : (c.add l).layers.map Layer.id = c.layers.map Layer.id ++ [l.id] := List.map_append
  rw [hIds, getElem?_concat_eq_some_iff, ← h, List.length_map]
  show (c.index.insert l.id c.layers.length).find? id = some place ↔ _
  rw [Dictionary.find?_insert]
  split
  · next hSame =>
    -- before this turn the id had no place
    have hNone : c.index.find? l.id = none := Option.not_isSome_iff_eq_none.mp hNew
    rw [hSame, hNone, Option.some.injEq, eq_comm]
    exact ⟨fun hPlace => .inr ⟨hPlace, rfl⟩, fun hPlace => (hPlace.resolve_left nofun).1⟩
  · next hOther => exact (or_iff_left fun hLast => hOther hLast.2.symm).symm

/-- If the loop gets through, it has put the layers behind the others in their order. -/
theorem addAll_ok (h : c.Sound) (hRun : c.addAll ls = .ok c') :
    c'.Sound ∧ c'.layers = c.layers ++ ls := by
  -- on the layers that are left, with the catalog of those before
  induction ls generalizing c with
  | nil =>
    cases hRun
    exact ⟨h, (List.append_nil _).symm⟩
  | cons l ls ih =>
    rw [addAll] at hRun
    split at hRun
    · cases hRun
    · next hNew =>
      obtain ⟨hSound, hLayers⟩ := ih (h.add hNew) hRun
      exact ⟨hSound, hLayers.trans (List.append_assoc c.layers [l] ls)⟩

/-- If it does not, it ended at the first layer whose id was there already. -/
theorem addAll_error {e : SchemaError} (h : c.Sound) (hRun : c.addAll ls = .error e) :
    ∃ before l after, ls = before ++ l :: after ∧ ((c.layers ++ before).map Layer.id).Nodup ∧
      l.id ∈ (c.layers ++ before).map Layer.id ∧ e = .duplicateLayer l.id := by
  -- on the layers that are left, with the catalog of those before
  induction ls generalizing c with
  | nil => cases hRun
  | cons l ls ih =>
    rw [addAll] at hRun
    split at hRun
    · next hOld =>
      cases hRun
      refine ⟨[], l, ls, rfl, ?_, ?_, rfl⟩
      · rw [List.append_nil]
        exact h.nodup
      · rw [List.append_nil]
        exact h.contains_iff.mp hOld
    · next hNew =>
      obtain ⟨before, k, after, rfl, hNodup, hTwice, rfl⟩ := ih (h.add hNew) hRun
      -- the layer just added is one of those before now
      have hBehind : (c.add l).layers ++ before = c.layers ++ l :: before :=
        List.append_assoc c.layers [l] before
      rw [hBehind] at hNodup hTwice
      exact ⟨l :: before, k, after, rfl, hNodup, hTwice, rfl⟩

end Catalog

/-! ## The second loop -/

section
variable {root : String} {done ls : List Layer} {l : Layer} {category : Category}
  {categories categories' : Dictionary Category}

/-- Under an id there is how the layer with that id is stored, for these layers and no others. -/
def Noted (root : String) (done : List Layer) (categories : Dictionary Category) : Prop :=
  ∀ id category, categories.find? id = some category ↔
    ∃ l ∈ done, l.id = id ∧ l.category? root = some category

theorem exists_mem_concat {P : Layer → Prop} :
    (∃ k ∈ done ++ [l], P k) ↔ (∃ k ∈ done, P k) ∨ P l := by
  simp only [List.mem_append, List.mem_singleton, or_and_right, exists_or, exists_eq_left]

theorem noted_empty : Noted root [] .empty := by
  intro id category
  simp

/-- One turn of the loop, at a layer that is stored nowhere. -/
theorem Noted.skip (h : Noted root done categories) (hNone : l.category? root = none) :
    Noted root (done ++ [l]) categories := by
  intro id category
  rw [h id category, exists_mem_concat, hNone]
  refine (or_iff_left ?_).symm
  rintro ⟨-, ⟨⟩⟩

/-- One turn of the loop, at a layer that is stored somewhere. -/
theorem Noted.insert (h : Noted root done categories) (hNew : l.id ∉ done.map Layer.id)
    (hSome : l.category? root = some category) :
    Noted root (done ++ [l]) (categories.insert l.id category) := by
  intro id other
  rw [Dictionary.find?_insert, exists_mem_concat, hSome]
  split
  · next hSame =>
    -- no earlier layer has this id
    have hNone : ¬ ∃ k ∈ done, k.id = id ∧ k.category? root = some other := by
      rintro ⟨k, hk, hId, -⟩
      exact hNew (hSame ▸ hId ▸ List.mem_map_of_mem hk)
    rw [or_iff_right hNone, and_iff_right hSame.symm]
  · next hOther =>
    rw [h id other]
    exact (or_iff_left fun hLast => hOther hLast.1.symm).symm

/-- If the loop gets through, no layer offends and all are noted. -/
theorem categorize_ok (h : Noted root done categories) (hNodup : ((done ++ ls).map Layer.id).Nodup)
    (hRun : categorize root categories ls = .ok categories') :
    Noted root (done ++ ls) categories' ∧ ∀ l ∈ ls, ∀ name, ¬ l.Offends root name := by
  -- on the layers that are left: what is noted answers for those before
  induction ls generalizing done categories with
  | nil =>
    cases hRun
    rw [List.append_nil]
    exact ⟨h, List.forall_mem_nil _⟩
  | cons l ls ih =>
    have hSplit : done ++ l :: ls = done ++ [l] ++ ls := List.append_cons done l ls
    rw [hSplit] at hNodup ⊢
    rw [List.forall_mem_cons]
    unfold categorize at hRun
    split at hRun
    · next hNone =>
      obtain ⟨hNoted, hLater⟩ := ih (h.skip hNone) hNodup hRun
      exact ⟨hNoted, not_offends_of_unmapped hNone, hLater⟩
    · next category hSome =>
      split at hRun
      · cases hRun
      · next hQuotable =>
        -- ids are distinct, so nothing that was noted is overwritten
        have hNew : l.id ∉ done.map Layer.id := by
          rw [List.map_append, List.map_append] at hNodup
          exact fun hOld => hNodup.of_append_left.disjoint hOld List.mem_cons_self
        obtain ⟨hNoted, hLater⟩ := ih (h.insert hNew hSome) hNodup hRun
        refine ⟨hNoted, fun name => ?_, hLater⟩
        rw [offends_iff_of_mapped hSome, hQuotable]
        nofun

/-- If it does not, it ended at the first layer that offends. -/
theorem categorize_error {e : SchemaError} (hRun : categorize root categories ls = .error e) :
    ∃ before l after name, ls = before ++ l :: after ∧ (∀ k ∈ before, ∀ a, ¬ k.Offends root a) ∧
      l.Offends root name ∧ e = .invalidAttribute l.id name := by
  -- on the layers that are left: those before have passed
  induction ls generalizing categories with
  | nil => cases hRun
  | cons l ls ih =>
    unfold categorize at hRun
    split at hRun
    · next hNone =>
      obtain ⟨before, k, after, name, rfl, hBefore, hHere, rfl⟩ := ih hRun
      exact ⟨l :: before, k, after, name, rfl,
        List.forall_mem_cons.mpr ⟨not_offends_of_unmapped hNone, hBefore⟩, hHere, rfl⟩
    · next category hSome =>
      split at hRun
      · next name hName =>
        cases hRun
        exact ⟨[], l, ls, name, rfl, List.forall_mem_nil _,
          (offends_iff_of_mapped hSome).mpr hName, rfl⟩
      · next hQuotable =>
        obtain ⟨before, k, after, name, rfl, hBefore, hHere, rfl⟩ := ih hRun
        have hPasses : ∀ a, ¬ l.Offends root a := by
          intro a
          rw [offends_iff_of_mapped hSome, hQuotable]
          nofun
        exact ⟨l :: before, k, after, name, rfl, List.forall_mem_cons.mpr ⟨hPasses, hBefore⟩, hHere,
          rfl⟩

end

/-! ## The layer of the graph itself -/

section
variable {declared : List Layer} {root : String}

theorem firstCatalog_of_declared (h : ∃ l ∈ declared, l.id = root) :
    firstCatalog declared root = .empty := by
  have hAny : declared.any (·.id == root) = true := by simpa using h
  rw [firstCatalog, if_pos hAny]

theorem firstCatalog_of_undeclared (h : ∀ l ∈ declared, l.id ≠ root) :
    firstCatalog declared root = Catalog.empty.add (rootLayer root) := by
  have hAny : ¬ declared.any (·.id == root) = true := by simpa using h
  rw [firstCatalog, if_neg hAny]

/-- Either way the loop starts with a sound catalog. -/
theorem sound_firstCatalog (declared : List Layer) (root : String) :
    (firstCatalog declared root).Sound := by
  unfold firstCatalog
  split
  · exact Catalog.sound_empty
  · exact Catalog.sound_empty.add (by simp [Catalog.empty, Dictionary.contains])

/-- What comes before the declared layers has an id that none of them has. -/
theorem mem_firstCatalog {l : Layer} (h : l ∈ (firstCatalog declared root).layers) :
    l = rootLayer root ∧ ∀ k ∈ declared, k.id ≠ root := by
  by_cases hDeclared : ∃ k ∈ declared, k.id = root
  · rw [firstCatalog_of_declared hDeclared] at h
    cases h
  · have hOther : ∀ k ∈ declared, k.id ≠ root := fun k hk hId => hDeclared ⟨k, hk, hId⟩
    rw [firstCatalog_of_undeclared hOther] at h
    exact ⟨List.mem_singleton.mp h, hOther⟩

/-- The added layer repeats no id. -/
theorem nodup_firstCatalog_iff :
    (((firstCatalog declared root).layers ++ declared).map Layer.id).Nodup ↔
      (declared.map Layer.id).Nodup := by
  rw [List.map_append, List.nodup_append]
  refine ⟨fun h => h.2.1, fun h => ⟨(sound_firstCatalog declared root).nodup, h, ?_⟩⟩
  intro a ha b hb hSame
  obtain ⟨l, hl, rfl⟩ := List.mem_map.mp ha
  obtain ⟨k, hk, rfl⟩ := List.mem_map.mp hb
  -- the layer that is added has the id that no declared one has
  obtain ⟨rfl, hOther⟩ := mem_firstCatalog hl
  exact hOther k hk hSame.symm

/-- Without one in front of them, it is the declared layers that the loop starts with. -/
theorem addAll_firstCatalog (declared : List Layer) (root : String) :
    Catalog.empty.addAll ((firstCatalog declared root).layers ++ declared) =
      (firstCatalog declared root).addAll declared := by
  unfold firstCatalog
  split <;> rfl

/-- The added layer passes the second loop, whichever map that leaves. -/
theorem categorize_firstCatalog (declared : List Layer) (root : String) :
    ∃ categories, categorize root .empty ((firstCatalog declared root).layers ++ declared) =
      categorize root categories declared := by
  unfold firstCatalog
  split
  · exact ⟨_, rfl⟩
  · -- the layer of the graph itself is no attribute, so it passes
    have hRoot : (rootLayer root).category? root = some .graphRoot := if_pos rfl
    refine ⟨Dictionary.empty.insert root .graphRoot, ?_⟩
    show categorize root .empty (rootLayer root :: declared) = _
    rw [categorize, hRoot]
    rfl

end

/-! ## Building -/

section
variable {declared : List Layer} {roles : Roles} {s : Schema}

/-- Building ends in one of three ways: with a schema, of declarations that pass both checks; with
the first layer whose id came before it; or, if there is none, with the first layer that offends. -/
theorem build_cases (declared : List Layer) (roles : Roles) :
    (∃ s, build declared roles = .ok s ∧ (declared.map Layer.id).Nodup ∧
      ∀ l ∈ declared, ∀ name, ¬ l.Offends roles.root name) ∨
    (∃ before l after, declared = before ++ l :: after ∧ (before.map Layer.id).Nodup ∧
      l.id ∈ before.map Layer.id ∧ build declared roles = .error (.duplicateLayer l.id)) ∨
    ((declared.map Layer.id).Nodup ∧ ∃ before l after name, declared = before ++ l :: after ∧
      (∀ k ∈ before, ∀ a, ¬ k.Offends roles.root a) ∧ l.Offends roles.root name ∧
      build declared roles = .error (.invalidAttribute l.id name)) := by
  have hFirst := sound_firstCatalog declared roles.root
  cases hAdd : (firstCatalog declared roles.root).addAll declared with
  | error e =>
    obtain ⟨before, l, after, hSplit, hNodup, hTwice, rfl⟩ := Catalog.addAll_error hFirst hAdd
    rw [List.map_append] at hNodup hTwice
    -- the id is not that of the added layer, which no declared layer has
    have hBefore : l.id ∈ before.map Layer.id := by
      refine (List.mem_append.mp hTwice).resolve_left fun hAdded => ?_
      obtain ⟨k, hk, hId⟩ := List.mem_map.mp hAdded
      obtain ⟨rfl, hOther⟩ := mem_firstCatalog hk
      exact hOther l (hSplit ▸ List.mem_append_right _ List.mem_cons_self) hId.symm
    refine .inr (.inl ⟨before, l, after, hSplit, hNodup.of_append_right, hBefore, ?_⟩)
    rw [build, hAdd]
    rfl
  | ok catalog =>
    obtain ⟨hSound, hLayers⟩ := Catalog.addAll_ok hFirst hAdd
    have hNodup : (declared.map Layer.id).Nodup :=
      nodup_firstCatalog_iff.mp (hLayers ▸ hSound.nodup)
    cases hRun : categorize roles.root .empty catalog.layers with
    | error e =>
      obtain ⟨categories, hDeclared⟩ := categorize_firstCatalog declared roles.root
      rw [← hLayers, hRun] at hDeclared
      obtain ⟨before, l, after, name, hSplit, hBefore, hHere, rfl⟩ :=
        categorize_error hDeclared.symm
      refine .inr (.inr ⟨hNodup, before, l, after, name, hSplit, hBefore, hHere, ?_⟩)
      rw [build, hAdd]
      show categorize _ _ _ >>= _ = _
      rw [hRun]
      rfl
    | ok categories =>
      have hPass := (categorize_ok noted_empty (List.nil_append _ ▸ hSound.nodup) hRun).2
      refine .inl ⟨⟨catalog.layers, catalog.index, categories, roles⟩, ?_, hNodup,
        fun l hl => hPass l (hLayers ▸ List.mem_append_right _ hl)⟩
      rw [build, hAdd]
      show categorize _ _ _ >>= _ = _
      rw [hRun]
      rfl

/-- What was declared, if there is a schema. -/
theorem valid_of_build (h : build declared roles = .ok s) :
    (declared.map Layer.id).Nodup ∧ ∀ l ∈ declared, ∀ name, ¬ l.Offends roles.root name := by
  obtain ⟨-, -, hValid⟩ | ⟨_, _, _, -, -, -, hError⟩ | ⟨-, _, _, _, _, -, -, -, hError⟩ :=
    build_cases declared roles
  · exact hValid
  all_goals
    rw [hError] at h
    cases h

/-- Declarations that pass both checks make a schema. -/
theorem exists_build (hNodup : (declared.map Layer.id).Nodup)
    (hPass : ∀ l ∈ declared, ∀ name, ¬ l.Offends roles.root name) :
    ∃ s, build declared roles = .ok s := by
  obtain ⟨s, hBuild, -⟩ | ⟨before, l, after, rfl, -, hTwice, -⟩ |
    ⟨-, before, l, after, name, rfl, -, hHere, -⟩ := build_cases declared roles
  · exact ⟨s, hBuild⟩
  · rw [List.map_append] at hNodup
    exact (hNodup.disjoint hTwice List.mem_cons_self).elim
  · exact absurd hHere (hPass l (List.mem_append_right _ List.mem_cons_self) name)

/-- The runs of the two loops behind a schema. -/
theorem runs_of_build (h : build declared roles = .ok s) :
    (firstCatalog declared roles.root).addAll declared = .ok ⟨s.layers, s.index⟩ ∧
      categorize roles.root .empty s.layers = .ok s.categories ∧ s.roles = roles := by
  unfold build at h
  -- two loops, one after the other, and neither has failed
  cases hAdd : (firstCatalog declared roles.root).addAll declared with
  | error e =>
    rw [hAdd] at h
    cases h
  | ok catalog =>
    rw [hAdd] at h
    change categorize _ _ _ >>= _ = _ at h
    cases hRun : categorize roles.root .empty catalog.layers with
    | error e =>
      rw [hRun] at h
      cases h
    | ok categories =>
      rw [hRun] at h
      cases h
      exact ⟨rfl, hRun, rfl⟩

/-- Both maps answer for the list of layers, which has one for the graph itself, and no layer
offends. -/
structure Coherent (s : Schema) : Prop where
  indexed  : Catalog.Sound ⟨s.layers, s.index⟩
  noted    : Noted s.roles.root s.layers s.categories
  rooted   : s.roles.root ∈ s.layers.map Layer.id
  quotable : ∀ l ∈ s.layers, ∀ name, ¬ l.Offends s.roles.root name

theorem roles_of_build (h : build declared roles = .ok s) : s.roles = roles :=
  (runs_of_build h).2.2

/-- The layers of a schema are the declared ones, behind the one that may have been added. -/
theorem layers_of_build (h : build declared roles = .ok s) :
    s.layers = (firstCatalog declared roles.root).layers ++ declared :=
  (Catalog.addAll_ok (sound_firstCatalog declared roles.root) (runs_of_build h).1).2

/-- Whether or not it was declared, the layer of the graph itself is there. -/
theorem root_mem_of_build (h : build declared roles = .ok s) :
    roles.root ∈ s.layers.map Layer.id := by
  rw [layers_of_build h, List.map_append, List.mem_append]
  by_cases hDeclared : ∃ l ∈ declared, l.id = roles.root
  · exact .inr (List.mem_map.mpr hDeclared)
  · rw [firstCatalog_of_undeclared fun l hl hId => hDeclared ⟨l, hl, hId⟩]
    exact .inl List.mem_cons_self

/-- Every schema that was built is coherent. -/
theorem coherent_of_build (h : build declared roles = .ok s) : s.Coherent := by
  obtain ⟨hAdd, hRun, hRoles⟩ := runs_of_build h
  obtain ⟨hSound, -⟩ := Catalog.addAll_ok (sound_firstCatalog declared roles.root) hAdd
  obtain ⟨hNoted, hPass⟩ := categorize_ok noted_empty (List.nil_append _ ▸ hSound.nodup) hRun
  have hRoot := root_mem_of_build h
  rw [← hRoles] at hNoted hPass hRoot
  exact ⟨hSound, hNoted, hRoot, hPass⟩

theorem mem_of_declared (h : build declared roles = .ok s) {l : Layer} (hl : l ∈ declared) :
    l ∈ s.layers := by
  rw [layers_of_build h]
  exact List.mem_append_right _ hl

/-- A layer of a schema was declared, unless it is the one that is added. -/
theorem mem_of_build (h : build declared roles = .ok s) {l : Layer} (hl : l ∈ s.layers) :
    l ∈ declared ∨ l = rootLayer roles.root := by
  rw [layers_of_build h, List.mem_append] at hl
  exact hl.symm.imp_right fun hAdded => (mem_firstCatalog hAdded).1

end

/-! ## Looking up -/

namespace Coherent

variable {s : Schema} (h : s.Coherent) {id : String} {l : Layer}
include h

/-- What is found under an id is the layer that has it. -/
theorem layer?_eq_some_iff : s.layer? id = some l ↔ l ∈ s.layers ∧ l.id = id := by
  -- under the id stands a place, and in the place a layer with the id
  have hPlace : ∀ place, s.index.find? id = some place ↔
      (s.layers.map Layer.id)[place]? = some id := h.indexed id
  rw [layer?, Option.bind_eq_some_iff, List.mem_iff_getElem?]
  constructor
  · rintro ⟨place, hFound, hl⟩
    rw [hPlace, List.getElem?_map, hl] at hFound
    exact ⟨⟨place, hl⟩, Option.some.inj hFound⟩
  · rintro ⟨⟨place, hl⟩, rfl⟩
    refine ⟨place, (hPlace place).mpr ?_, hl⟩
    rw [List.getElem?_map, hl]
    rfl

/-- Looking up the id of a layer finds that layer. -/
theorem layer?_of_mem (hl : l ∈ s.layers) : s.layer? l.id = some l :=
  h.layer?_eq_some_iff.mpr ⟨hl, rfl⟩

theorem layer?_isSome_iff : (s.layer? id).isSome = true ↔ id ∈ s.layers.map Layer.id := by
  rw [Option.isSome_iff_exists, List.mem_map]
  exact exists_congr fun l => h.layer?_eq_some_iff

theorem layer?_eq_none_iff : s.layer? id = none ↔ id ∉ s.layers.map Layer.id := by
  rw [← h.layer?_isSome_iff, Option.not_isSome_iff_eq_none]

/-- A layer is stored where its own data say. -/
theorem category?_of_mem (hl : l ∈ s.layers) : s.category? l.id = l.category? s.roles.root := by
  refine Option.ext fun category => ?_
  rw [category?, h.noted]
  constructor
  · rintro ⟨k, hk, hId, hCategory⟩
    -- the one that was noted has the same id, so it is the same
    have hSame : k = l := List.inj_on_of_nodup_map h.indexed.nodup hk hl hId
    exact hSame ▸ hCategory
  · exact fun hCategory => ⟨l, hl, rfl, hCategory⟩

/-- An unknown id is stored nowhere. -/
theorem category?_of_unknown (hId : id ∉ s.layers.map Layer.id) : s.category? id = none := by
  rw [category?, Option.eq_none_iff_forall_ne_some]
  intro category hFound
  obtain ⟨l, hl, rfl, -⟩ := (h.noted id category).mp hFound
  exact hId (List.mem_map_of_mem hl)

/-- The root's id is the graph itself, whatever else its layer says. -/
theorem category?_root : s.category? s.roles.root = some .graphRoot := by
  obtain ⟨l, hl, hId⟩ := List.mem_map.mp h.rooted
  rw [← hId, h.category?_of_mem hl, Layer.category?, if_pos hId]

end Coherent

/-! ## The specification -/

/-- A schema that was built from these declarations. Its layers are the declared ones, after one for
the graph itself exactly if none of them is that. The index holds under an id the place of the layer
that has it. So an id is known if a layer has it, which is then the only one and is what is found;
the storage of the id is that of the layer, and the root's id is the graph itself. -/
structure BuiltFrom (s : Schema) (declared : List Layer) (roles : Roles) : Prop where
  roles_eq            : s.roles = roles
  layers_declared     : (∃ l ∈ declared, l.id = roles.root) → s.layers = declared
  layers_undeclared   : (∀ l ∈ declared, l.id ≠ roles.root) →
    s.layers = { id := roles.root, description := "The graph itself" } :: declared
  index_iff           : ∀ id place, s.index.find? id = some place ↔
    ∃ l, s.layers[place]? = some l ∧ l.id = id
  known_iff           : ∀ id, (s.layer? id).isSome = true ↔ id ∈ s.layers.map Layer.id
  layer_iff           : ∀ id l, s.layer? id = some l ↔ l ∈ s.layers ∧ l.id = id
  category_known      : ∀ l ∈ s.layers, s.category? l.id = l.category? roles.root
  category_unknown    : ∀ id, id ∉ s.layers.map Layer.id → s.category? id = none
  category_root       : s.category? roles.root = some .graphRoot

/-- What building comes to. There is a schema if the declared ids are distinct and no attribute has
a name that cannot be quoted. If an id occurs twice, the complaint is about the first layer whose id
occurred before it, whatever the attributes; otherwise it is about the first layer that offends. -/
structure BuildSpec (declared : List Layer) (roles : Roles) : Prop where
  built_iff : (∃ s, build declared roles = .ok s) ↔
    (declared.map Layer.id).Nodup ∧ ∀ l ∈ declared, ∀ name, ¬ l.Offends roles.root name
  duplicate : ¬ (declared.map Layer.id).Nodup → ∃ before l after,
    declared = before ++ l :: after ∧ (before.map Layer.id).Nodup ∧ l.id ∈ before.map Layer.id ∧
      build declared roles = .error (.duplicateLayer l.id)
  offender  : (declared.map Layer.id).Nodup → (∃ l ∈ declared, ∃ name, l.Offends roles.root name) →
    ∃ before l after name, declared = before ++ l :: after ∧
      (∀ k ∈ before, ∀ a, ¬ k.Offends roles.root a) ∧ l.Offends roles.root name ∧
      build declared roles = .error (.invalidAttribute l.id name)
  schema    : ∀ s, build declared roles = .ok s → s.BuiltFrom declared roles

/-- A schema that is built answers for the declarations it was built from. -/
theorem builtFrom_of_build {declared : List Layer} {roles : Roles} {s : Schema}
    (hBuild : build declared roles = .ok s) : s.BuiltFrom declared roles := by
  have h := coherent_of_build hBuild
  have hRoles := roles_of_build hBuild
  have hLayers := layers_of_build hBuild
  exact {
    roles_eq := hRoles
    layers_declared := fun hDeclared => by
      rw [hLayers, firstCatalog_of_declared hDeclared]
      rfl
    layers_undeclared := fun hOther => by
      rw [hLayers, firstCatalog_of_undeclared hOther]
      rfl
    index_iff := fun id place => by
      rw [← Option.map_eq_some_iff, ← List.getElem?_map]
      exact h.indexed id place
    known_iff := fun _ => h.layer?_isSome_iff
    layer_iff := fun _ _ => h.layer?_eq_some_iff
    category_known := fun l hl => hRoles ▸ h.category?_of_mem hl
    category_unknown := fun _ => h.category?_of_unknown
    category_root := hRoles ▸ h.category?_root }

end Schema

/-- **A schema is built exactly from valid declarations, and its lookups agree.** -/
theorem build_exactly_valid (declared : List Layer) (roles : Roles) :
    Schema.BuildSpec declared roles where
  built_iff := ⟨fun ⟨_, hBuild⟩ => Schema.valid_of_build hBuild,
    fun ⟨hNodup, hPass⟩ => Schema.exists_build hNodup hPass⟩
  -- the first loop ends before the second starts, so an id that comes twice is the complaint
  duplicate := by
    intro hTwice
    obtain ⟨s, -, hNodup, -⟩ | hFirst | ⟨hNodup, -⟩ := Schema.build_cases declared roles
    · exact absurd hNodup hTwice
    · exact hFirst
    · exact absurd hNodup hTwice
  offender := by
    rintro hNodup ⟨k, hk, a, hOffends⟩
    obtain ⟨s, -, -, hPass⟩ | ⟨before, l, after, rfl, -, hTwice, -⟩ | ⟨-, hFirst⟩ :=
      Schema.build_cases declared roles
    · exact absurd hOffends (hPass k hk a)
    · rw [List.map_append] at hNodup
      exact (hNodup.disjoint hTwice List.mem_cons_self).elim
    · exact hFirst
  schema := fun _ => Schema.builtFrom_of_build

/-- An attribute with a name that cannot be quoted, and behind it two ids that come twice. -/
def clashingLayers : List Layer :=
  [{ id := "a", classId := some "speaker", storedName := some "x\\" }, { id := "b" }, { id := "b" },
    { id := "a" }]

/-- An attribute and a layer that is stored nowhere. Neither is the graph itself. -/
def unrootedLayers : List Layer :=
  [{ id := "participant_mood", classId := some "speaker" }, { id := "loose" }]

theorem sampleLayers_decided :
    (∃ before l after, clashingLayers = before ++ l :: after ∧ (before.map Layer.id).Nodup ∧
      l.id ∈ before.map Layer.id ∧
      Schema.build clashingLayers {} = .error (.duplicateLayer l.id)) ∧
    (∃ before l after name, clashingLayers.take 2 = before ++ l :: after ∧
      (∀ k ∈ before, ∀ a, ¬ k.Offends "graph" a) ∧ l.Offends "graph" name ∧
      Schema.build (clashingLayers.take 2) {} = .error (.invalidAttribute l.id name)) ∧
    ∃ s, Schema.build unrootedLayers {} = .ok s ∧
      s.layers = { id := "graph", description := "The graph itself" } :: unrootedLayers ∧
      s.index.find? "loose" = some 2 ∧ s.layer? "loose" = some { id := "loose" } ∧
      s.category? "participant_mood" = some (.participantAttribute "mood") ∧
      s.category? "loose" = none ∧ ¬ (s.layer? "mood").isSome = true ∧
      s.category? "graph" = some .graphRoot := by
  refine ⟨(build_exactly_valid clashingLayers {}).duplicate (by decide),
    (build_exactly_valid (clashingLayers.take 2) {}).offender (by decide) ?_, ?_⟩
  · exact ⟨_, List.mem_cons_self, "x\\", by decide, .inr rfl, .declared rfl, by decide⟩
  obtain ⟨s, hBuild⟩ : ∃ s, Schema.build unrootedLayers {} = .ok s := ⟨_, rfl⟩
  have h := (build_exactly_valid unrootedLayers {}).schema s hBuild
  have hLayers := h.layers_undeclared (by decide)
  have hAttribute := h.category_known { id := "participant_mood", classId := some "speaker" }
  have hLoose := h.category_known { id := "loose" }
  have hUnknown := h.known_iff "mood"
  rw [hLayers] at hAttribute hLoose hUnknown
  refine ⟨s, hBuild, hLayers, ?_, ?_, (hAttribute (by decide)).trans (by decide),
    (hLoose (by decide)).trans (by decide), mt hUnknown.mp (by decide), h.category_root⟩
  · rw [h.index_iff, hLayers]
    exact ⟨_, rfl, rfl⟩
  · rw [h.layer_iff, hLayers]
    decide

end AnnotationQuery
