/-
  LABELS: `labels_from_fields` and `compile_labels` of `theorem_ml/extract/spans/labels.py`, and the
  extraction of `spans/gliner2.py` that goes by them.

  A label joins the name of a type and the key of a field with a dot; the name is what the schema service
  ANSWERS, and both may hold dots themselves.  Keys are checked inside one answer only.  So labels of two
  answers meet exactly where the names are one and a key is in both, or where one name goes on behind a
  dot with the front of the other's key (`dotted_eq_iff`), and nowhere else do the maps that are keyed by
  labels lose a field (`labels_identify_iff`).

  Names, keys and descriptions are strings here, as the dataclasses annotate them.
-/
import ControlPlane.Documents.Spans
import ControlPlane.PyDict

namespace ControlPlane.Documents

open PyStr

/-- `SchemaProtocolError`, a key that is missing, and what the extraction raises. -/
inductive LabelFailure where
  | protocol (message : PyStr)
  | keyError (key : PyStr)
  | extraction (failure : Failure)
  deriving DecidableEq, Repr

/-- An entry of `fields`.  A key that may be missing is an option, `span` is whether it is truthy. -/
structure EffectiveField where
  key : PyStr
  kind : PyStr
  targetObjectTypeId : Option PyStr := none
  variants : Option (List PyStr) := none
  span : Bool := false
  description : Option PyStr := none
  label : Option PyStr := none

/-- What `effective_fields` answers. -/
structure Answer where
  nameSingular : Option PyStr
  fields : List EffectiveField

/-- The `LabelSpec` of the source, with its description. -/
structure DescribedLabel extends LabelSpec where
  description : PyStr

structure Classification where
  labels : List PyStr
  multiLabel : Bool
  deriving DecidableEq, Repr

structure LabelSchema where
  labels : List DescribedLabel := []
  classifications : List (PyStr × Classification) := []

/-! ## Compiling -/

/-- `f"{object_type}.{key}"`. -/
def labelName (objectType key : PyStr) : PyStr := objectType ++ lit "." ++ key

/-- `a or b` of optional texts. -/
def orElseText (a b : Option PyStr) : Option PyStr := (a.filter fun text => text ≠ []).or b

/-- The field is declared as a label. -/
def EffectiveField.isLabel (f : EffectiveField) : Bool := f.kind = lit "relation" ∨ f.span

/-- The field is declared as a classification. -/
def EffectiveField.isClassification (f : EffectiveField) : Bool :=
  f.kind = lit "enum" ∨ f.kind = lit "enum_many"

def EffectiveField.labelOf (objectType : PyStr) (f : EffectiveField) : DescribedLabel where
  label := labelName objectType f.key
  description := (orElseText f.description (f.label.filter fun text => text ≠ [])).getD f.key
  objectType := objectType
  fieldKey := f.key
  targetObjectTypeId := if f.kind = lit "relation" then f.targetObjectTypeId else none

/-- One turn of the loop of `labels_from_fields`, with the keys that were seen. -/
def addField (objectType : PyStr) (acc : List PyStr × LabelSchema) (f : EffectiveField) :
    Except LabelFailure (List PyStr × LabelSchema) :=
  if f.key ∈ acc.1 then
    .error (.protocol (lit "Duplicate effective field: " ++ objectType ++ lit "." ++ f.key))
  else
    let labels := if f.isLabel then acc.2.labels ++ [f.labelOf objectType] else acc.2.labels
    if f.isClassification then
      match f.variants with
      | none => .error (.keyError (lit "variants"))
      | some variants => .ok (acc.1 ++ [f.key], ⟨labels, PyDict.set acc.2.classifications
          (labelName objectType f.key) ⟨variants, f.kind = lit "enum_many"⟩⟩)
    else .ok (acc.1 ++ [f.key], ⟨labels, acc.2.classifications⟩)

/-- `labels_from_fields`. -/
def labelsFromFields (objectType : PyStr) (fields : List EffectiveField) :
    Except LabelFailure LabelSchema :=
  (fields.foldlM (addField objectType) ([], {})).map Prod.snd

/-- The type of an answer: `declared.get("name_singular", name)`. -/
def typeName (client : PyStr → Answer) (name : PyStr) : PyStr := (client name).nameSingular.getD name

/-- One turn of the loop of `compile_labels`. -/
def addAnswer (client : PyStr → Answer) (combined : LabelSchema) (name : PyStr) :
    Except LabelFailure LabelSchema := do
  let schema ← labelsFromFields (typeName client name) (client name).fields
  .ok ⟨combined.labels ++ schema.labels,
    schema.classifications.foldl (fun d e => PyDict.set d e.1 e.2) combined.classifications⟩

/-- `compile_labels`, with what the client answers for each name. -/
def compileLabels (client : PyStr → Answer) (objectTypes : List PyStr) :
    Except LabelFailure LabelSchema :=
  (PyDict.fromKeys objectTypes).foldlM (addAnswer client) {}

/-! ## Extracting -/

/-- `SPAN_KINDS`. -/
def spanKinds : List PyStr :=
  [lit "Paragraph", lit "ListItem", lit "TableCell", lit "Caption", lit "Footnote"]

structure PendingRelation where
  fieldKey : PyStr
  name : PyStr
  targetObjectTypeId : PyStr
  candidates : List (PyStr × PyFloat) := []

structure SpanResult where
  spans : List ExtractedSpan := []
  pendingRelations : List PendingRelation := []
  classifications : List (PyStr × List (PyStr × PyValue)) := []

/-- The schema that the model is asked with. -/
structure ModelSchema where
  entities : List (PyStr × PyStr)
  classifications : List (PyStr × Classification)

/-- What the model returns for a text: `entities`, and the other entries by their names. -/
structure ModelResult where
  entities : List (PyStr × List (List (PyStr × PyValue)))
  named : List (PyStr × PyValue)

/-- `{s.label: s for s in labels.labels}`. -/
def specifications (labels : LabelSchema) : List (PyStr × DescribedLabel) :=
  labels.labels.foldl (fun d s => PyDict.set d s.label s) []

/-- The entities are `{s.label: s.description for s in labels.labels}`. -/
def modelSchema (labels : LabelSchema) : ModelSchema where
  entities := labels.labels.foldl (fun d s => PyDict.set d s.label s.description) []
  classifications := labels.classifications

section Extract

variable (toFloat : PyValue → Except Failure PyFloat) (model : ModelSchema → PyStr → ModelResult)

/-- One value of an entity. -/
def addSpan (element : DocElement) (label : DescribedLabel) (result : SpanResult)
    (value : List (PyStr × PyValue)) : Except LabelFailure SpanResult := do
  let span ← (normalizeSpan toFloat element label.toLabelSpec value).mapError .extraction
  .ok { result with
    spans := result.spans ++ [span]
    pendingRelations := result.pendingRelations ++ span.targetObjectTypeId.toList.map fun target =>
      { fieldKey := span.fieldKey, name := span.text, targetObjectTypeId := target } }

/-- One entity of what the model returns. -/
def addEntity (labels : LabelSchema) (element : DocElement) (result : SpanResult)
    (entity : PyStr × List (List (PyStr × PyValue))) : Except LabelFailure SpanResult :=
  match (specifications labels).lookup entity.1 with
  | none => .error (.extraction (.element (lit "GLiNER2 emitted undeclared label: " ++ entity.1)))
  | some label => entity.2.foldlM (addSpan toFloat element label) result

/-- One element. -/
def addElement (labels : LabelSchema) (result : SpanResult) (element : DocElement) :
    Except LabelFailure SpanResult :=
  if element.kind ∉ spanKinds then .ok result
  else do
    let returned := model (modelSchema labels) element.text
    let result ← returned.entities.foldlM (addEntity toFloat labels element) result
    let named := (PyDict.keys labels.classifications).filterMap fun name =>
      (returned.named.lookup name).map fun value => (name, value)
    .ok { result with classifications := PyDict.set result.classifications element.id named }

/-- `SpanExtractor._extract`. -/
def extractLabels (tree : DocElementTree) (labels : LabelSchema) : Except LabelFailure SpanResult :=
  tree.elements.foldlM (addElement toFloat model labels) {}

/-- `SpanExtractor.extract`. -/
def extract (client : PyStr → Answer) (tree : DocElementTree) (objectTypes : List PyStr) :
    Except LabelFailure SpanResult := do
  tree.validate.mapError .extraction
  let labels ← compileLabels client objectTypes
  if (labels.labels = [] ∧ labels.classifications = []) ∨ ¬ ∃ e ∈ tree.elements, e.kind ∈ spanKinds then
    .ok {}
  else extractLabels toFloat model tree labels

end Extract

/-! ## Dotted names -/

section Dotted

variable {α : Type} {dot : α} {n n' k k' : List α}

/-- A name that goes on behind a dot with the front of the other's key. -/
def Extends (dot : α) (n n' k k' : List α) : Prop :=
  ∃ m, n' = n ++ dot :: m ∧ k = m ++ dot :: k'

/-- **When two dotted names are one.** -/
theorem dotted_eq_iff : n ++ dot :: k = n' ++ dot :: k' ↔
    (n = n' ∧ k = k') ∨ Extends dot n n' k k' ∨ Extends dot n' n k' k := by
  constructor
  · intro h
    rcases List.append_eq_append_iff.mp h with ⟨m, rfl, hm⟩ | ⟨m, rfl, hm⟩
    · cases m with
      | nil => exact Or.inl ⟨(List.append_nil n).symm, (List.cons.inj hm).2⟩
      | cons d m =>
        obtain ⟨rfl, rfl⟩ := List.cons.inj hm
        exact Or.inr (Or.inl ⟨m, rfl, rfl⟩)
    · cases m with
      | nil => exact Or.inl ⟨List.append_nil n', (List.cons.inj hm).2.symm⟩
      | cons d m =>
        obtain ⟨rfl, rfl⟩ := List.cons.inj hm
        exact Or.inr (Or.inr ⟨m, rfl, rfl⟩)
  · rintro (⟨rfl, rfl⟩ | ⟨m, rfl, rfl⟩ | ⟨m, rfl, rfl⟩)
    · rfl
    · rw [List.append_assoc, List.cons_append]
    · rw [List.append_assoc, List.cons_append]

end Dotted

/-! ## What is declared -/

/-- What the client answers for the names: the type and its fields, in order. -/
def answers (client : PyStr → Answer) (objectTypes : List PyStr) :
    List (PyStr × List EffectiveField) :=
  (PyDict.fromKeys objectTypes).map fun name => (typeName client name, (client name).fields)

/-- The fields that are declared as labels. -/
def declaredLabels (declared : List (PyStr × List EffectiveField)) : List DescribedLabel :=
  declared.flatMap fun a => (a.2.filter EffectiveField.isLabel).map (EffectiveField.labelOf a.1)

/-- A classification, by its name. -/
def EffectiveField.classificationOf (objectType : PyStr) (f : EffectiveField) :
    PyStr × Classification :=
  (labelName objectType f.key, ⟨f.variants.getD [], f.kind = lit "enum_many"⟩)

/-- The fields that are declared as classifications. -/
def declaredClassifications (declared : List (PyStr × List EffectiveField)) :
    List (PyStr × Classification) :=
  declared.flatMap fun a =>
    (a.2.filter EffectiveField.isClassification).map (EffectiveField.classificationOf a.1)

variable {objectType : PyStr} {fields : List EffectiveField} {f g : EffectiveField}
  {client : PyStr → Answer} {objectTypes : List PyStr} {schema : LabelSchema}

theorem labelName_eq_iff {n n' k k' : PyStr} : labelName n k = labelName n' k' ↔
    (n = n' ∧ k = k') ∨ Extends 0x2E n n' k k' ∨ Extends 0x2E n' n k' k := by
  have hname : ∀ n k, labelName n k = n ++ (0x2E : CodePoint) :: k := by
    intro n k
    exact List.append_assoc n (lit ".") k
  rw [hname, hname, dotted_eq_iff]

theorem labelName_injective : Function.Injective (labelName objectType) :=
  fun _ _ h => List.append_cancel_left h

/-- **What `labels_from_fields` accepts, and what it makes.** -/
theorem labelsFromFields_ok (h : labelsFromFields objectType fields = .ok schema) :
    (fields.map EffectiveField.key).Nodup ∧
      schema.labels = (fields.filter EffectiveField.isLabel).map (EffectiveField.labelOf objectType) ∧
      schema.classifications = (fields.filter EffectiveField.isClassification).map
        (EffectiveField.classificationOf objectType) := by
  obtain ⟨acc, hfold, rfl⟩ := Fallible.map_ok.mp h
  have hprocessed := @Fallible.foldlM_processed _ _ _ fields (addField objectType) ([], {}) acc
    (fun done acc => acc.1 = done.map EffectiveField.key ∧ acc.1.Nodup ∧
      acc.2.labels = (done.filter EffectiveField.isLabel).map (EffectiveField.labelOf objectType) ∧
      acc.2.classifications = (done.filter EffectiveField.isClassification).map
        (EffectiveField.classificationOf objectType)) [] ?_ ⟨rfl, List.nodup_nil, rfl, rfl⟩ hfold
  · obtain ⟨hseen, hnodup, hlabels, hclassifications⟩ := hprocessed
    exact ⟨hseen ▸ hnodup, hlabels, hclassifications⟩
  · rintro f - done ⟨seen, schema⟩ acc' ⟨hseen, hnodup, hlabels, hclassifications⟩ hadd
    rw [addField] at hadd
    split at hadd
    · cases hadd
    rename_i hnew
    have hnodup' : (seen ++ [f.key]).Nodup :=
      List.nodup_append'.mpr ⟨hnodup, List.nodup_singleton _,
        fun k hk hk' => hnew (List.mem_singleton.mp hk' ▸ hk)⟩
    have hseen' : seen ++ [f.key] = (done ++ [f]).map EffectiveField.key := by
      rw [List.map_append, ← hseen]
      rfl
    have hlabels' : (if f.isLabel then schema.labels ++ [f.labelOf objectType] else schema.labels) =
        ((done ++ [f]).filter EffectiveField.isLabel).map (EffectiveField.labelOf objectType) := by
      rw [List.filter_append, List.map_append, ← hlabels, List.filter_singleton]
      cases f.isLabel
      · exact (List.append_nil _).symm
      · rfl
    dsimp only at hadd
    generalize (if f.isLabel then schema.labels ++ [f.labelOf objectType] else schema.labels) = labels
      at hadd hlabels'
    split at hadd
    · rename_i hclassification
      split at hadd
      · cases hadd
      rename_i variants hvariants
      cases hadd
      refine ⟨hseen', hnodup', hlabels', ?_⟩
      have hfresh : labelName objectType f.key ∉ PyDict.keys schema.classifications := by
        rw [hclassifications, PyDict.keys, List.map_map]
        intro hmem
        obtain ⟨g, hg, hname⟩ := List.mem_map.mp hmem
        have hkey := labelName_injective hname
        refine hnew ?_
        rw [hseen, ← hkey]
        exact List.mem_map_of_mem (List.mem_of_mem_filter hg)
      rw [List.filter_append, List.map_append, ← hclassifications, List.filter_singleton,
        hclassification]
      refine (if_neg hfresh).trans ?_
      simp [EffectiveField.classificationOf, hvariants]
    · rename_i hclassification
      cases hadd
      refine ⟨hseen', hnodup', hlabels', ?_⟩
      rw [List.filter_append, List.map_append, ← hclassifications, List.filter_singleton,
        Bool.eq_false_of_not_eq_true hclassification]
      exact (List.append_nil _).symm

/-- **What `compile_labels` makes.** -/
theorem compileLabels_ok (h : compileLabels client objectTypes = .ok schema) :
    (∀ a ∈ answers client objectTypes, (a.2.map EffectiveField.key).Nodup) ∧
      schema.labels = declaredLabels (answers client objectTypes) ∧
      schema.classifications = (declaredClassifications (answers client objectTypes)).foldl
        (fun d e => PyDict.set d e.1 e.2) [] := by
  have hprocessed := @Fallible.foldlM_processed _ _ _ (PyDict.fromKeys objectTypes) (addAnswer client) {}
    schema (fun done schema =>
      let declared := done.map fun name => (typeName client name, (client name).fields)
      (∀ a ∈ declared, (a.2.map EffectiveField.key).Nodup) ∧
        schema.labels = declaredLabels declared ∧
        schema.classifications = (declaredClassifications declared).foldl
          (fun d e => PyDict.set d e.1 e.2) []) [] ?_
      ⟨fun a ha => absurd ha List.not_mem_nil, rfl, rfl⟩ h
  · exact hprocessed
  · rintro name - done combined combined' ⟨hkeys, hlabels, hclassifications⟩ hadd
    obtain ⟨schema, hschema, hadd⟩ := Fallible.bind_ok.mp hadd
    cases hadd
    obtain ⟨hnodup, hlabels', hclassifications'⟩ := labelsFromFields_ok hschema
    refine ⟨?_, ?_, ?_⟩
    · rw [List.map_append, List.forall_mem_append]
      exact ⟨hkeys, List.forall_mem_singleton.mpr hnodup⟩
    · rw [List.map_append, declaredLabels, List.flatMap_append, ← declaredLabels, ← hlabels, hlabels']
      simp
    · rw [List.map_append, declaredClassifications, List.flatMap_append, List.foldl_append,
        ← declaredClassifications, ← hclassifications, hclassifications']
      simp

/-! ## When labels identify fields -/

/-- Two fields that could meet in a map: both labels, or both classifications. -/
def Competing (f g : EffectiveField) : Prop :=
  (f.isLabel = true ∧ g.isLabel = true) ∨ (f.isClassification = true ∧ g.isClassification = true)

/-- Two answers whose names and keys keep their labels apart: not one name with one key, and no name that
    goes on behind a dot with the front of the other's key. -/
def Apart (a b : PyStr × List EffectiveField) : Prop :=
  ∀ f ∈ a.2, ∀ g ∈ b.2, Competing f g →
    ¬ (a.1 = b.1 ∧ f.key = g.key) ∧ ¬ Extends 0x2E a.1 b.1 f.key g.key ∧
      ¬ Extends 0x2E b.1 a.1 g.key f.key

/-- The span carries what the label declares. -/
structure Carries (s : DescribedLabel) (span : ExtractedSpan) : Prop where
  label : span.label = s.label
  objectType : span.objectType = s.objectType
  fieldKey : span.fieldKey = s.fieldKey
  target : span.targetObjectTypeId = s.targetObjectTypeId

/-- Labels identify fields: names are distinct, the maps have every declared field, and a span carries
    the one field whose label the model returned. -/
structure Identified (declared : List (PyStr × List EffectiveField)) (schema : LabelSchema) : Prop where
  labels : (schema.labels.map fun s => s.label).Nodup
  classifications : ((declaredClassifications declared).map Prod.fst).Nodup
  asked : ∀ s ∈ declaredLabels declared,
    (modelSchema schema).entities.lookup s.label = some s.description
  specified : ∀ s ∈ declaredLabels declared, (specifications schema).lookup s.label = some s
  classified : ∀ c ∈ declaredClassifications declared, schema.classifications.lookup c.1 = some c.2
  spans : ∀ toFloat model tree result, extractLabels toFloat model tree schema = .ok result →
    ∀ span ∈ result.spans, ∃ e ∈ tree.elements, ∃ entity ∈ (model (modelSchema schema) e.text).entities,
      ∃ s ∈ declaredLabels declared, span.elementId = e.id ∧ entity.1 = s.label ∧ Carries s span ∧
        ∀ s' ∈ declaredLabels declared, s'.label = entity.1 → s' = s

variable {declared : List (PyStr × List EffectiveField)}

/-- **Names of selected fields are distinct** exactly when those of two answers are, since keys are
    checked inside an answer. -/
theorem nodup_names_iff {select : EffectiveField → Bool}
    (hkeys : ∀ a ∈ declared, (a.2.map EffectiveField.key).Nodup) :
    (declared.flatMap fun a => (a.2.filter select).map fun f => labelName a.1 f.key).Nodup ↔
      declared.Pairwise fun a b => ∀ f ∈ a.2, ∀ g ∈ b.2, select f = true → select g = true →
        labelName a.1 f.key ≠ labelName b.1 g.key := by
  rw [List.nodup_flatMap]
  have hinside : ∀ a ∈ declared, ((a.2.filter select).map fun f => labelName a.1 f.key).Nodup := by
    intro a ha
    have hsub : ((a.2.filter select).map EffectiveField.key).Nodup :=
      (hkeys a ha).sublist (List.filter_sublist.map EffectiveField.key)
    have hnames := hsub.map (@labelName_injective a.1)
    rwa [List.map_map] at hnames
  refine (and_iff_right hinside).trans (List.Pairwise.iff fun a b => ?_)
  constructor
  · intro hdisjoint f hf g hg hselect hselect' hname
    refine hdisjoint (List.mem_map_of_mem (List.mem_filter.mpr ⟨hf, hselect⟩)) ?_
    rw [hname]
    exact List.mem_map_of_mem (List.mem_filter.mpr ⟨hg, hselect'⟩)
  · intro hapart name hname hname'
    obtain ⟨f, hf, rfl⟩ := List.mem_map.mp hname
    obtain ⟨g, hg, heq⟩ := List.mem_map.mp hname'
    obtain ⟨hf, hselect⟩ := List.mem_filter.mp hf
    obtain ⟨hg, hselect'⟩ := List.mem_filter.mp hg
    exact hapart f hf g hg hselect hselect' heq.symm

theorem declaredLabels_names : (declaredLabels declared).map (fun s => s.label) =
    declared.flatMap fun a => (a.2.filter EffectiveField.isLabel).map fun f => labelName a.1 f.key := by
  rw [declaredLabels, List.map_flatMap]
  simp only [List.map_map]
  rfl

theorem declaredClassifications_names : (declaredClassifications declared).map Prod.fst =
    declared.flatMap fun a =>
      (a.2.filter EffectiveField.isClassification).map fun f => labelName a.1 f.key := by
  rw [declaredClassifications, List.map_flatMap]
  simp only [List.map_map]
  rfl

/-- **Names are distinct exactly when the answers are apart.** -/
theorem nodup_iff_apart (hkeys : ∀ a ∈ declared, (a.2.map EffectiveField.key).Nodup) :
    ((declaredLabels declared).map fun s => s.label).Nodup ∧
      ((declaredClassifications declared).map Prod.fst).Nodup ↔ declared.Pairwise Apart := by
  rw [declaredLabels_names, declaredClassifications_names, nodup_names_iff hkeys, nodup_names_iff hkeys,
    ← List.pairwise_and_iff]
  refine List.Pairwise.iff fun a b => ?_
  have hname : ∀ f g : EffectiveField, labelName a.1 f.key ≠ labelName b.1 g.key ↔
      ¬ (a.1 = b.1 ∧ f.key = g.key) ∧ ¬ Extends 0x2E a.1 b.1 f.key g.key ∧
        ¬ Extends 0x2E b.1 a.1 g.key f.key := by
    intro f g
    rw [Ne, labelName_eq_iff, not_or, not_or]
  constructor
  · rintro ⟨hlabels, hclassifications⟩ f hf g hg (⟨hselect, hselect'⟩ | ⟨hselect, hselect'⟩)
    · exact (hname f g).mp (hlabels f hf g hg hselect hselect')
    · exact (hname f g).mp (hclassifications f hf g hg hselect hselect')
  · intro hapart
    exact ⟨fun f hf g hg hselect hselect' =>
        (hname f g).mpr (hapart f hf g hg (Or.inl ⟨hselect, hselect'⟩)),
      fun f hf g hg hselect hselect' =>
        (hname f g).mpr (hapart f hf g hg (Or.inr ⟨hselect, hselect'⟩))⟩

/-! ## What spans carry -/

section Spans

variable {toFloat : PyValue → Except Failure PyFloat} {model : ModelSchema → PyStr → ModelResult}
  {labels : LabelSchema} {element : DocElement} {result result' : SpanResult} {tree : DocElementTree}

/-- `normalize_span` copies its label. -/
theorem normalizeSpan_carries {s : DescribedLabel} {value : List (PyStr × PyValue)}
    {span : ExtractedSpan} (h : normalizeSpan toFloat element s.toLabelSpec value = .ok span) :
    span.elementId = element.id ∧ Carries s span := by
  obtain ⟨_, -, h⟩ := Fallible.bind_ok.mp h
  obtain ⟨_, -, h⟩ := Fallible.bind_ok.mp h
  split at h
  · cases h
  obtain ⟨_, -, h⟩ := Fallible.bind_ok.mp h
  obtain ⟨-, h⟩ | ⟨-, h⟩ := Fallible.ite_ok h
  · cases h
  obtain ⟨_, -, h⟩ := Fallible.bind_ok.mp h
  obtain ⟨_, -, h⟩ := Fallible.bind_ok.mp h
  obtain ⟨_, -, h⟩ := Fallible.bind_ok.mp h
  obtain ⟨_, -, h⟩ := Fallible.bind_ok.mp h
  obtain ⟨-, h⟩ | ⟨-, h⟩ := Fallible.ite_ok h
  · cases h
  obtain ⟨_, -, h⟩ := Fallible.bind_ok.mp h
  obtain ⟨-, h⟩ | ⟨-, h⟩ := Fallible.ite_ok h
  · cases h
  obtain ⟨_, -, h⟩ := Fallible.bind_ok.mp h
  obtain ⟨-, h⟩ | ⟨-, h⟩ := Fallible.ite_ok h
  · cases h
  cases h
  exact ⟨rfl, rfl, rfl, rfl, rfl⟩

/-- A span of the element, from an entity of what the model returned for it. -/
def From (model : ModelSchema → PyStr → ModelResult) (labels : LabelSchema) (e : DocElement)
    (span : ExtractedSpan) : Prop :=
  ∃ entity ∈ (model (modelSchema labels) e.text).entities, ∃ s,
    (specifications labels).lookup entity.1 = some s ∧ span.elementId = e.id ∧ Carries s span

theorem addEntity_spans {entity : PyStr × List (List (PyStr × PyValue))}
    (hentity : entity ∈ (model (modelSchema labels) element.text).entities)
    (h : addEntity toFloat labels element result entity = .ok result') :
    ∀ span ∈ result'.spans, span ∈ result.spans ∨ From model labels element span := by
  rw [addEntity] at h
  split at h
  · cases h
  rename_i s hs
  refine @Fallible.foldlM_processed _ _ _ entity.2 _ result result' (fun _ reached =>
    ∀ span ∈ reached.spans, span ∈ result.spans ∨ From model labels element span) [] ?_
    (fun _ hspan => Or.inl hspan) h
  intro value _ _ reached reached' hreached hadd span hspan
  obtain ⟨added, hadded, hadd⟩ := Fallible.bind_ok.mp hadd
  cases hadd
  rcases List.mem_append.mp hspan with hspan | hspan
  · exact hreached span hspan
  · obtain rfl := List.mem_singleton.mp hspan
    obtain ⟨hid, hcarries⟩ := normalizeSpan_carries (Fallible.mapError_ok.mp hadded)
    exact Or.inr ⟨entity, hentity, s, hs, hid, hcarries⟩

theorem addElement_spans (h : addElement toFloat model labels result element = .ok result') :
    ∀ span ∈ result'.spans, span ∈ result.spans ∨ From model labels element span := by
  rw [addElement] at h
  split at h
  · cases h
    exact fun _ hspan => Or.inl hspan
  obtain ⟨reached, hfold, h⟩ := Fallible.bind_ok.mp h
  cases h
  refine @Fallible.foldlM_processed _ _ _ (model (modelSchema labels) element.text).entities _ result
    reached (fun _ reached =>
      ∀ span ∈ reached.spans, span ∈ result.spans ∨ From model labels element span) [] ?_
    (fun _ hspan => Or.inl hspan) hfold
  intro entity hentity _ before after hbefore hadd span hspan
  rcases addEntity_spans hentity hadd span hspan with hspan | hspan
  · exact hbefore span hspan
  · exact Or.inr hspan

/-- **Every span** is from an entity of an element. -/
theorem extractLabels_spans (h : extractLabels toFloat model tree labels = .ok result) :
    ∀ span ∈ result.spans, ∃ e ∈ tree.elements, From model labels e span := by
  refine @Fallible.foldlM_processed _ _ _ tree.elements (addElement toFloat model labels) {} result
      (fun _ reached => ∀ span ∈ reached.spans, ∃ e ∈ tree.elements, From model labels e span) [] ?_
      (fun _ hspan => absurd hspan List.not_mem_nil) h
  intro e he _ before after hbefore hadd span hspan
  rcases addElement_spans hadd span hspan with hspan | hspan
  · exact hbefore span hspan
  · exact ⟨e, he, hspan⟩

end Spans

/-- **LABELS IDENTIFY FIELDS exactly when the answers are apart.** -/
theorem labels_identify_iff (client : PyStr → Answer) (objectTypes : List PyStr) (schema : LabelSchema)
    (h : compileLabels client objectTypes = .ok schema) :
    Identified (answers client objectTypes) schema ↔ (answers client objectTypes).Pairwise Apart := by
  obtain ⟨hkeys, hlabels, hclassifications⟩ := compileLabels_ok h
  rw [← nodup_iff_apart hkeys]
  constructor
  · intro hidentified
    exact ⟨hlabels ▸ hidentified.labels, hidentified.classifications⟩
  · rintro ⟨hnames, hnames'⟩
    have hspecified : specifications schema =
        (declaredLabels (answers client objectTypes)).map fun s => (s.label, s) := by
      rw [specifications, hlabels]
      exact PyDict.foldl_set hnames
    have hentities : (modelSchema schema).entities =
        (declaredLabels (answers client objectTypes)).map fun s => (s.label, s.description) := by
      rw [modelSchema, hlabels]
      exact PyDict.foldl_set hnames
    have hclassified : schema.classifications = declaredClassifications (answers client objectTypes) := by
      rw [hclassifications]
      exact (@PyDict.foldl_set _ _ _ [] _ Prod.fst Prod.snd _ hnames').trans (List.map_id _)
    have hlookup : ∀ s ∈ declaredLabels (answers client objectTypes),
        (specifications schema).lookup s.label = some s := by
      intro s hs
      rw [hspecified]
      refine Table.lookup_of_mem ?_ (List.mem_map_of_mem hs)
      rwa [List.map_map]
    refine ⟨hlabels ▸ hnames, hnames', fun s hs => ?_, hlookup, fun c hc => ?_, ?_⟩
    · rw [hentities]
      refine Table.lookup_of_mem ?_ (List.mem_map.mpr ⟨s, hs, rfl⟩)
      rwa [List.map_map]
    · rw [hclassified]
      exact Table.lookup_of_mem hnames' hc
    · intro toFloat model tree result hextract span hspan
      obtain ⟨e, he, entity, hentity, s, hs, hid, hcarries⟩ := extractLabels_spans hextract span hspan
      rw [hspecified] at hs
      obtain ⟨s', hs', heq⟩ := List.mem_map.mp (Table.mem_of_lookup hs)
      obtain ⟨hname, rfl⟩ := Prod.mk.inj heq
      refine ⟨e, he, entity, hentity, s', hs', hid, hname.symm, hcarries, fun other hother hsame => ?_⟩
      exact List.inj_on_of_nodup_map hnames hother hs' (hsame.trans hname.symm)

/-- A relation of a type. -/
def relationField (key target : PyStr) : EffectiveField where
  key := key
  kind := lit "relation"
  targetObjectTypeId := some target

/-- A lease and its tenants. -/
def leaseClient (leaseKey : PyStr) (name : PyStr) : Answer :=
  if name = lit "Lease" then ⟨some name, [relationField leaseKey (lit "Person")]⟩
  else ⟨some (lit "Lease.tenant"), [relationField (lit "name") (lit "Company")]⟩

theorem labels_identify_lease : ∃ schema,
    compileLabels (leaseClient (lit "landlord")) [lit "Lease", lit "tenant", lit "Lease"] = .ok schema ∧
      (Identified (answers (leaseClient (lit "landlord")) [lit "Lease", lit "tenant", lit "Lease"]) schema ↔
        (answers (leaseClient (lit "landlord")) [lit "Lease", lit "tenant", lit "Lease"]).Pairwise Apart) :=
  ⟨_, rfl, labels_identify_iff (leaseClient (lit "landlord")) _ _ rfl⟩

/-- The key `tenant.name` of `Lease` and the key `name` of `Lease.tenant` have one label, and the map keeps
    the second only: a span of the first would be of a company. -/
theorem labels_meet : ∃ schema,
    compileLabels (leaseClient (lit "tenant.name")) [lit "Lease", lit "Lease.tenant"] = .ok schema ∧
      schema.labels.map (fun s => s.label) = [lit "Lease.tenant.name", lit "Lease.tenant.name"] ∧
      schema.labels.map (fun s => s.targetObjectTypeId) = [some (lit "Person"), some (lit "Company")] ∧
      (specifications schema).map (fun d => d.2.targetObjectTypeId) = [some (lit "Company")] :=
  ⟨_, rfl, rfl, rfl, rfl⟩

end ControlPlane.Documents
