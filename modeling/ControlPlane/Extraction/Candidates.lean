/-
  REVIEW ADDRESSING: does every row of a shard's output have a digest of its own?

  The worker builds rows, keeps one for each key and puts them into an Arrow table: `_base_row`,
  `_typed_rows_from_records` and `_canonical_rows` of `runpod/theorem_extraction_worker/worker.py`.
  The admin reads the table back and keys the rows by their digest: `_candidate_rows` and the map of
  `review_candidate` in `apps/extraction/admin.py`.

  1. The worker writes a record with everything escaped that is not ASCII, so the table takes ANY
     record.  The control plane reads the record and writes it again without escapes.
  2. Rows with different keys have different digests, where they have one (`digest_injective`): the
     text of a record is the text of its sorted fields, which the digest is injective in.
  3. A typed row has a digest exactly when its record is `Reviewable` (`digest_typed`): a lone
     surrogate cannot be encoded, and one row without a digest takes the whole shard from review.
-/
import ControlPlane.Extraction.Reviews
import ControlPlane.JsonEncode
import ControlPlane.PyError
import ControlPlane.Upsert

namespace ControlPlane.Extraction

open Json

/-! ## Rows -/

/-- A row of the extraction's Arrow table. -/
structure Row where
  tenantId : PyStr
  jobId : PyStr
  shard : Int
  stage : PyStr
  passageId : PyStr
  spanStart : Option Nat
  spanEnd : Option Nat
  subject : PyStr
  subjectKind : PyStr
  predicate : PyStr
  object : PyStr
  objectKind : PyStr
  objectTypeId : Option PyStr
  recordJson : Option PyStr
  confidence : Option PyFloat
  modelId : PyStr
  promptHash : PyStr
  schemaHash : PyStr
  extractorVersion : PyStr
  deriving DecidableEq

/-- The tuple by which `_canonical_rows` keeps rows apart. -/
structure RowKey where
  tenantId : PyStr
  jobId : PyStr
  shard : Int
  stage : PyStr
  passageId : PyStr
  subject : PyStr
  predicate : PyStr
  object : PyStr
  recordJson : Option PyStr
  deriving DecidableEq

namespace Row

def key (row : Row) : RowKey :=
  ⟨row.tenantId, row.jobId, row.shard, row.stage, row.passageId, row.subject, row.predicate,
    row.object, row.recordJson⟩

/-- `tuple(str(v) for v in item)` of the key. -/
def keyTexts (row : Row) : List PyStr :=
  [row.tenantId, row.jobId, PyStr.lit (toString row.shard), row.stage, row.passageId, row.subject,
    row.predicate, row.object, row.recordJson.getD (PyStr.lit "None")]

/-- What stands in the string columns. -/
def texts (row : Row) : List PyStr :=
  [row.tenantId, row.jobId, row.stage, row.passageId, row.subject, row.subjectKind, row.predicate,
    row.object, row.objectKind, row.modelId, row.promptHash, row.schemaHash, row.extractorVersion] ++
    row.objectTypeId.toList ++ row.recordJson.toList

/-- The row as `to_pylist` returns it. -/
def candidate (row : Row) : List (PyStr × Json) :=
  let textOrNull (text : Option PyStr) : Json := (text.map Json.str).getD .null
  let natOrNull (n : Option Nat) : Json := (n.map fun n => Json.int n).getD .null
  [(PyStr.lit "tenant_id", .str row.tenantId), (PyStr.lit "job_id", .str row.jobId),
    (PyStr.lit "shard", .int row.shard), (PyStr.lit "stage", .str row.stage),
    (PyStr.lit "passage_id", .str row.passageId), (PyStr.lit "span_start", natOrNull row.spanStart),
    (PyStr.lit "span_end", natOrNull row.spanEnd), (PyStr.lit "subject", .str row.subject),
    (PyStr.lit "subject_kind", .str row.subjectKind), (PyStr.lit "predicate", .str row.predicate),
    (PyStr.lit "object", .str row.object), (PyStr.lit "object_kind", .str row.objectKind),
    (PyStr.lit "object_type_id", textOrNull row.objectTypeId),
    (PyStr.lit "record_json", textOrNull row.recordJson),
    (PyStr.lit "confidence", (row.confidence.map Json.float).getD .null),
    (PyStr.lit "model_id", .str row.modelId), (PyStr.lit "prompt_hash", .str row.promptHash),
    (PyStr.lit "schema_hash", .str row.schemaHash),
    (PyStr.lit "extractor_version", .str row.extractorVersion)]

end Row

/-! ## The worker -/

/-- The stages of ATLAS. -/
inductive AtlasStage where
  | entityRelation
  | eventEntity
  | eventRelation
  | concept
  deriving DecidableEq, Repr

def AtlasStage.text : AtlasStage → PyStr
  | .entityRelation => PyStr.lit "entity_relation"
  | .eventEntity => PyStr.lit "event_entity"
  | .eventRelation => PyStr.lit "event_relation"
  | .concept => PyStr.lit "concept"

/-- What rows take from the `params` of a shard. -/
structure Params where
  tenantId : PyStr
  jobId : PyStr
  shard : Int
  modelId : Option PyStr

/-- What rows take from the contract. -/
structure Contract where
  defaultModel : PyStr
  promptHash : AtlasStage → PyStr
  schemaSha256 : PyStr
  extractorVersion : PyStr

/-- What typed rows take from `params["object_type"]`, with the hashes of its system prompt and its
    schema. -/
structure ObjectType where
  objectTypeId : PyStr
  labelIdentifierField : PyStr
  promptHash : PyStr
  schemaHash : PyStr

/-- A worker at one shard; `casefold` is Unicode's. -/
structure Extractor where
  py : Interpreter
  casefold : PyStr → PyStr
  params : Params
  contract : Contract
  objectType : ObjectType

/-- `text.find(needle)`. -/
def find (text needle : PyStr) : Option Nat :=
  (List.range (text.length + 1)).find? fun i => needle.isPrefixOf (text.drop i)

/-- What the model found: a triple, a participant or a concept of ATLAS in a chunk of a passage, or a
    record in a passage. -/
inductive Finding where
  | atlas (stage : AtlasStage) (passageId chunkText : PyStr) (chunkOffset : Option Nat)
      (subject subjectKind predicate object objectKind : PyStr)
  | typed (passageId passageText : PyStr) (record : List (PyStr × Json))

namespace Extractor

variable (w : Extractor)

/-- `_find_span`. -/
def findSpan (text subject : PyStr) (offset : Nat) : Option Nat × Option Nat :=
  match (find text subject).or (find (w.casefold text) (w.casefold subject)) with
  | none => (none, none)
  | some start => (some (offset + start), some (offset + start + subject.length))

/-- `_base_row`. -/
def baseRow (passageId passageText stage subject subjectKind predicate objectValue objectKind : PyStr)
    (chunkOffset : Option Nat) (promptHash schemaHash : PyStr)
    (objectTypeId recordJson : Option PyStr) : Row :=
  let span := match chunkOffset with
    | none => (none, none)
    | some offset => w.findSpan passageText subject offset
  { tenantId := w.params.tenantId
    jobId := w.params.jobId
    shard := w.params.shard
    stage := stage
    passageId := passageId
    spanStart := span.1
    spanEnd := span.2
    subject := subject
    subjectKind := subjectKind
    predicate := predicate
    object := objectValue
    objectKind := objectKind
    objectTypeId := objectTypeId
    recordJson := recordJson
    confidence := none
    modelId := match w.params.modelId with
      | some (c :: rest) => c :: rest
      | _ => w.contract.defaultModel
    promptHash := promptHash
    schemaHash := schemaHash
    extractorVersion := w.contract.extractorVersion }

/-- `json.dumps(record, sort_keys=True, separators=(",", ":"))`.  The integers of a record were read,
    so they are short enough to be written. -/
def recordJson (record : List (PyStr × Json)) : Except PyError PyStr :=
  if w.py.writeDepth < (Json.obj record).depth then .error ⟨.recursionError, []⟩
  else .ok (dumpsIn JsonReader.compact w.py.repr (.obj record))

/-- `_typed_rows_from_records`, one record. -/
def typedRow (passageId passageText : PyStr) (record : List (PyStr × Json)) : Except PyError Row :=
  let omitted : PyError := ⟨.valueError,
    PyStr.lit "typed record omitted label field " ++ w.objectType.labelIdentifierField⟩
  match record.lookup w.objectType.labelIdentifierField with
  | some (.str subject) =>
      if subject.blank then .error omitted
      else (w.recordJson record).map fun text =>
        w.baseRow passageId passageText (PyStr.lit "typed") subject (PyStr.lit "record")
          (PyStr.lit "is_a") w.objectType.objectTypeId (PyStr.lit "record") (some 0)
          w.objectType.promptHash w.objectType.schemaHash (some w.objectType.objectTypeId) (some text)
  | _ => .error omitted

/-- The row of a finding. -/
def rowOf : Finding → Except PyError Row
  | .atlas stage passageId chunkText chunkOffset subject subjectKind predicate object objectKind =>
      .ok (w.baseRow passageId chunkText stage.text subject subjectKind predicate object objectKind
        chunkOffset (w.contract.promptHash stage) w.contract.schemaSha256 none none)
  | .typed passageId passageText record => w.typedRow passageId passageText record

end Extractor

/-- `_canonical_rows`. -/
def canonicalRows (rows : List Row) : List Row :=
  Sorting.sortedBy Row.keyTexts (Table.putAll Row.key [] rows)

/-- `pa.Table.from_pylist(rows, schema=…)`: string columns are UTF-8, and the shard has 32 bits. -/
def arrowTable (rows : List Row) : Except PyError (List Row) :=
  if rows.any fun row => row.texts.any fun text => text.any PyStr.isSurrogate then
    .error ⟨.unicodeEncodeError, []⟩
  else if rows.any fun row => row.shard < -2147483648 || 2147483647 < row.shard then
    .error ⟨.valueError, []⟩
  else .ok rows

/-- The rows of the output table. -/
def Extractor.output (w : Extractor) (findings : List Finding) : Except PyError (List Row) := do
  let rows ← findings.mapM w.rowOf
  arrowTable (canonicalRows rows)

/-! ## The admin -/

section Admin

variable (py : Interpreter) (hexdigest : List UInt8 → PyStr) (tenantId : String)

/-- `_candidate_rows`: the two digests and the row.  The tenant's id is the text of a UUID. -/
def candidateRows (rows : List Row) : Except DigestError (List (PyStr × PyStr × Row)) :=
  rows.mapM fun row => do
    let digest ← candidateDigest py hexdigest (PyStr.lit tenantId) row.candidate
    let legacy ← candidateDigestForVersion py hexdigest (PyStr.lit tenantId) row.candidate
      legacyCandidateDigestVersion
    pure (digest, legacy, row)

/-- `candidates` of `review_candidate`. -/
def reviewCandidates (rows : List Row) : Except DigestError (List (PyStr × PyStr × Row)) :=
  (candidateRows py hexdigest tenantId rows).map fun candidates => Table.putAll Prod.fst [] candidates

/-- Every row has a digest, no two have the same, and the map has every row under its digest. -/
def Addressed (rows : List Row) : Prop :=
  ∃ digest : Row → PyStr,
    (∀ row ∈ rows, candidateDigest py hexdigest (PyStr.lit tenantId) row.candidate =
      .ok (digest row)) ∧
    (∀ row ∈ rows, ∀ row' ∈ rows, digest row = digest row' → row = row') ∧
    ∃ candidates, reviewCandidates py hexdigest tenantId rows = .ok candidates ∧
      ∀ row ∈ rows, ∃ legacy, candidates.lookup (digest row) = some (legacy, row)

/-- The control plane can read the record, and write and encode its canonical text. -/
structure Reviewable (record : List (PyStr × Json)) : Prop where
  encoded : hasSurrogate (.obj record) = false
  fits : JsonReader.fits py 0 (.obj record) = true
  depth : (Json.obj record).depth ≤ py.writeDepth

end Admin

/-! ## What the worker guarantees -/

section Output

variable {w : Extractor} {findings : List Finding} {output rows : List Row} {row row' : Row}

theorem mem_canonicalRows : row ∈ canonicalRows rows ↔ Table.LastOf Row.key rows row := by
  rw [canonicalRows, Sorting.mem_sortedBy, Table.mem_putAll_nil]

/-- One row for each key. -/
theorem canonicalRows_key (h : row ∈ canonicalRows rows) (h' : row' ∈ canonicalRows rows)
    (hkey : row.key = row'.key) : row = row' :=
  Table.eq_of_key Table.nodup_putAll_nil (Sorting.mem_sortedBy.mp h) (Sorting.mem_sortedBy.mp h') hkey

/-- The string columns of an output table hold no surrogates. -/
theorem output_ok (h : w.output findings = .ok output) : ∃ rows, findings.mapM w.rowOf = .ok rows ∧
    output = canonicalRows rows ∧
      ∀ row ∈ output, ∀ text ∈ row.texts, text.any PyStr.isSurrogate = false := by
  obtain ⟨rows, hrows, htable⟩ := Fallible.bind_ok.mp h
  unfold arrowTable at htable
  rcases Fallible.ite_ok htable with ⟨-, herror⟩ | ⟨hnone, hrest⟩
  · cases herror
  rcases Fallible.ite_ok hrest with ⟨-, herror⟩ | ⟨-, hok⟩
  · cases herror
  · obtain rfl : canonicalRows rows = output := Except.ok.inj hok
    refine ⟨rows, hrows, rfl, fun row hrow text htext => ?_⟩
    rw [← Bool.not_eq_true]
    exact fun hany => hnone (List.any_eq_true.mpr ⟨row, hrow, List.any_eq_true.mpr ⟨text, htext, hany⟩⟩)

/-- All rows of a shard agree on whose they are. -/
theorem rowOf_params {finding : Finding} (h : w.rowOf finding = .ok row) :
    row.tenantId = w.params.tenantId ∧ row.jobId = w.params.jobId ∧ row.shard = w.params.shard := by
  cases finding with
  | atlas => cases h; exact ⟨rfl, rfl, rfl⟩
  | typed passageId passageText record =>
    unfold Extractor.rowOf Extractor.typedRow at h
    dsimp only at h
    split at h
    · rcases Fallible.ite_ok h with ⟨-, herror⟩ | ⟨-, hmap⟩
      · cases herror
      · obtain ⟨text, -, rfl⟩ := Fallible.map_ok.mp hmap
        exact ⟨rfl, rfl, rfl⟩
    · cases h

/-- A typed row carries the text of its record. -/
theorem typedRow_ok {passageId passageText : PyStr} {record : List (PyStr × Json)}
    (h : w.typedRow passageId passageText record = .ok row) : row.stage = PyStr.lit "typed" ∧
      row.recordJson = some (writeIn JsonReader.compact w.py.repr (sortKeys (.obj record))) := by
  unfold Extractor.typedRow at h
  dsimp only at h
  split at h
  · rcases Fallible.ite_ok h with ⟨-, herror⟩ | ⟨-, hmap⟩
    · cases herror
    · obtain ⟨text, htext, rfl⟩ := Fallible.map_ok.mp hmap
      unfold Extractor.recordJson at htext
      rcases Fallible.ite_ok htext with ⟨-, herror⟩ | ⟨-, hdumps⟩
      · cases herror
      · refine ⟨rfl, ?_⟩
        rw [← dumpsIn_eq_writeIn, Except.ok.inj hdumps]
        rfl
  · cases h

theorem atlasRow_ok {stage : AtlasStage} {passageId chunkText subject subjectKind predicate object
    objectKind : PyStr} {chunkOffset : Option Nat}
    (h : w.rowOf (.atlas stage passageId chunkText chunkOffset subject subjectKind predicate object
      objectKind) = .ok row) : row.stage ≠ PyStr.lit "typed" ∧ row.recordJson = none := by
  have htext : stage.text ≠ PyStr.lit "typed" := by cases stage <;> decide
  obtain rfl := Except.ok.inj h
  exact ⟨htext, rfl⟩

end Output

/-! ## What the digest needs -/

/-- A literal has no surrogates. -/
theorem any_lit (text : String) : (PyStr.lit text).any PyStr.isSurrogate = false := by
  rw [List.any_eq_false]
  intro c hc
  obtain ⟨d, -, rfl⟩ := List.mem_map.mp hc
  have hlt : d.toNat < 0x110000 := by
    rcases d.valid with h | ⟨-, h⟩
    · exact Nat.lt_trans h (by decide)
    · exact h
  have hval : (Fin.ofNat 0x110000 d.toNat).val = d.toNat := Nat.mod_eq_of_lt hlt
  rw [PyStr.isSurrogate, hval, Bool.and_eq_true, decide_eq_true_eq, decide_eq_true_eq]
  rcases d.valid with h | ⟨h, -⟩
  · exact fun hboth => absurd hboth.1 (Nat.not_le.mpr h)
  · exact fun hboth => absurd hboth.2 (Nat.not_le.mpr h)

/-- What identifies a row, with the record that the control plane reads. -/
def Row.identity (row : Row) (record : Json) : Identity :=
  ⟨row.stage, row.passageId, row.subject, row.predicate, row.object, record⟩

section Digests

variable {py : Interpreter} {hexdigest : List UInt8 → PyStr} {tenantId : String} {row row' : Row}
  {record record' : Json}

theorem Row.identified (h : row.stage = PyStr.lit "typed" → ∃ text fields,
    row.recordJson = some text ∧ JsonReader.read py text = .ok (.obj fields) ∧
      record = .obj fields) : Identified py row.candidate (row.identity record) := by
  refine ⟨rfl, rfl, rfl, rfl, rfl, fun htyped => ?_⟩
  obtain ⟨text, fields, hjson, hread, hrecord⟩ := h htyped
  refine ⟨text, fields, ?_, hread, hrecord⟩
  have hfield : field row.candidate "record_json" = (row.recordJson.map Json.str).getD .null := rfl
  rw [hfield, hjson]
  rfl

/-- The texts in front of the record. -/
def Row.front (row : Row) (tenantId : String) : List PyStr :=
  [PyStr.lit tenantId, row.stage, row.passageId, row.subject, row.predicate, row.object]

theorem Row.front_any (htexts : ∀ text ∈ row.texts, text.any PyStr.isSurrogate = false)
    (tenantId : String) :
    ((row.front tenantId).any fun text => text.any PyStr.isSurrogate) = false := by
  rw [List.any_eq_false]
  intro text htext
  rw [Bool.not_eq_true]
  rcases List.mem_cons.mp htext with rfl | htext
  · exact any_lit tenantId
  · refine htexts text ?_
    simp only [List.mem_cons, List.not_mem_nil, or_false] at htext
    rcases htext with rfl | rfl | rfl | rfl | rfl <;> simp [Row.texts]

theorem items_typed {repr : PyFloat → PyStr} (h : row.stage = PyStr.lit "typed") :
    (row.identity record).items repr (PyStr.lit tenantId) =
      (row.front tenantId ++ [dumps repr record]).map .str := by
  have htyped : (row.identity record).typed := h
  rw [Identity.items, if_pos htyped]
  rfl

theorem items_untyped {repr : PyFloat → PyStr} (h : row.stage ≠ PyStr.lit "typed") :
    (row.identity record).items repr (PyStr.lit tenantId) = (row.front tenantId).map .str := by
  have huntyped : ¬ (row.identity record).typed := h
  rw [Identity.items, if_neg huntyped]
  rfl

theorem hashed_ok (text : PyStr) :
    (∃ digest, hashed hexdigest text = .ok digest) ↔ text.any PyStr.isSurrogate = false := by
  unfold hashed PyStr.encode
  cases text.any PyStr.isSurrogate with
  | true =>
    refine iff_of_false ?_ (by decide)
    rintro ⟨digest, h⟩
    cases h
  | false => exact iff_of_true ⟨_, rfl⟩ rfl

/-- A row has a digest when its record, if there is one, is written and encoded. -/
theorem digest_exists_iff (hwrite : 1 ≤ py.writeDepth)
    (h : Identified py row.candidate (row.identity record))
    (htexts : ∀ text ∈ row.texts, text.any PyStr.isSurrogate = false) :
    (∃ digest, candidateDigest py hexdigest (PyStr.lit tenantId) row.candidate = .ok digest) ↔
      (row.stage = PyStr.lit "typed" → record.depth ≤ py.writeDepth ∧
        (dumps py.repr record).any PyStr.isSurrogate = false) := by
  have hfront := row.front_any htexts tenantId
  rw [candidateDigest_identified h]
  by_cases htyped : row.stage = PyStr.lit "typed"
  · rw [items_typed htyped]
    by_cases hdeep : py.writeDepth < record.depth
    · rw [if_pos (Or.inl ⟨htyped, hdeep⟩)]
      refine iff_of_false ?_ fun h => absurd (h htyped).1 (Nat.not_le.mpr hdeep)
      rintro ⟨digest, h⟩
      cases h
    · rw [if_neg (by rintro (hboth | hflat); exacts [hdeep hboth.2, absurd hwrite (Nat.not_le.mpr hflat)]),
        hashed_ok, any_write_texts, List.any_append, hfront, Bool.false_or, List.any_cons,
        List.any_nil, Bool.or_false]
      exact ⟨fun hany _ => ⟨Nat.le_of_not_lt hdeep, hany⟩, fun h => (h htyped).2⟩
  · rw [items_untyped htyped, if_neg (by rintro (hboth | hflat); exacts [htyped hboth.1, absurd hwrite (Nat.not_le.mpr hflat)]),
      hashed_ok, any_write_texts]
    exact iff_of_true hfront fun h => absurd h htyped

/-- A record that cannot be read leaves the row without a digest. -/
theorem digest_unread {text : PyStr} {e : LoadsError} (hstage : row.stage = PyStr.lit "typed")
    (hjson : row.recordJson = some text) (hread : JsonReader.read py text = .error e)
    (he : e ≠ .malformed) (digest : PyStr) :
    candidateDigest py hexdigest (PyStr.lit tenantId) row.candidate ≠ .ok digest := by
  have hversion : ¬ (candidateDigestVersion ≠ legacyCandidateDigestVersion ∧
      candidateDigestVersion ≠ candidateDigestVersion) := fun hboth => hboth.2 rfl
  have htyped : isTyped (field row.candidate "stage") = true := by
    have hfield : field row.candidate "stage" = .str row.stage := rfl
    rw [hfield, isTyped, beq_iff_eq, hstage]
  have hrecord : field row.candidate "record_json" = .str text := by
    have hfield : field row.candidate "record_json" = (row.recordJson.map Json.str).getD .null := rfl
    rw [hfield, hjson]
    rfl
  have hraise : ∃ e', parsedRecord py (.str text) = .error e' := by
    simp only [parsedRecord, hread]
    cases e with
    | malformed => exact absurd rfl he
    | intDigits => exact ⟨_, rfl⟩
    | recursion => exact ⟨_, rfl⟩
  obtain ⟨e', hparsed⟩ := hraise
  unfold candidateDigest candidateDigestForVersion identity
  dsimp only
  rw [if_neg hversion, if_pos ⟨le_refl _, htyped⟩, hrecord, hparsed]
  intro h
  cases h

/-- A legacy digest leaves the record out. -/
theorem legacy_exists (hwrite : 1 ≤ py.writeDepth)
    (htexts : ∀ text ∈ row.texts, text.any PyStr.isSurrogate = false) :
    ∃ legacy, candidateDigestForVersion py hexdigest (PyStr.lit tenantId) row.candidate
      legacyCandidateDigestVersion = .ok legacy := by
  have hidentity : identity py (PyStr.lit tenantId) row.candidate legacyCandidateDigestVersion =
      .ok ((row.front tenantId).map .str) := by
    unfold identity
    dsimp only
    rw [if_neg fun hboth => absurd hboth.1 (by decide)]
    rfl
  have hdepth : (Json.arr ((row.front tenantId).map .str)).depth = 1 := rfl
  have hversion : ¬ (legacyCandidateDigestVersion ≠ legacyCandidateDigestVersion ∧
      legacyCandidateDigestVersion ≠ candidateDigestVersion) := fun hboth => hboth.1 rfl
  unfold candidateDigestForVersion
  rw [if_neg hversion, hidentity]
  simp only [bind, Except.bind, dumped, hdepth, if_neg (Nat.not_lt.mpr hwrite)]
  exact (hashed_ok _).mpr ((any_write_texts _).trans (row.front_any htexts tenantId))

section Laws

variable {P : ℚ → Prop} {repr : PyFloat → PyStr} (reads : JsonReader.ReprReads P repr)
  (laws : ReprLaws P py.repr) {fields fields' : List (PyStr × Json)}

include reads in
/-- The control plane reads a record with its keys sorted. -/
theorem read_record (h : JsonReader.Parsed P (.obj fields))
    (hfits : JsonReader.fits py 0 (.obj fields) = true) :
    JsonReader.read py (writeIn JsonReader.compact repr (sortKeys (.obj fields))) =
      .ok (sortKeys (.obj fields)) := by
  have hyields := @JsonReader.read_writeIn py _ _ reads _ (parsed_sortKeys h)
  rw [fits_sortKeys h, hfits] at hyields
  exact hyields

include reads in
theorem Row.identified_typed (h : JsonReader.Parsed P (.obj fields))
    (hfits : JsonReader.fits py 0 (.obj fields) = true)
    (hjson : row.recordJson =
      some (writeIn JsonReader.compact repr (sortKeys (.obj fields)))) :
    Identified py row.candidate (row.identity (sortKeys (.obj fields))) :=
  Row.identified fun _ => ⟨_, _, hjson, read_record reads h hfits, rfl⟩

/-- The row identifies a candidate, with this record. -/
structure Row.Reads (py : Interpreter) (repr : PyFloat → PyStr) (P : ℚ → Prop) (row : Row)
    (record : Json) : Prop where
  identified : Identified py row.candidate (row.identity record)
  floats : FloatsIn P record
  typed : row.stage = PyStr.lit "typed" → sortKeys record = record ∧
    row.recordJson = some (writeIn JsonReader.compact repr record)
  untyped : row.stage ≠ PyStr.lit "typed" → row.recordJson = none

theorem Row.reads_untyped (hstage : row.stage ≠ PyStr.lit "typed") (hjson : row.recordJson = none) :
    row.Reads py repr P .null where
  identified := Row.identified fun htyped => absurd htyped hstage
  floats _ hq := absurd hq List.not_mem_nil
  typed htyped := absurd htyped hstage
  untyped _ := hjson

include laws in
/-- Equal digests are digests of rows that agree on what is hashed. -/
theorem digest_injective (hhash : Function.Injective hexdigest) (h : row.Reads py repr P record)
    (h' : row'.Reads py repr P record') {digest : PyStr}
    (hdigest : candidateDigest py hexdigest (PyStr.lit tenantId) row.candidate = .ok digest)
    (hdigest' : candidateDigest py hexdigest (PyStr.lit tenantId) row'.candidate = .ok digest) :
    row.front tenantId = row'.front tenantId ∧ row.recordJson = row'.recordJson := by
  have hitems := (digest_eq_iff hhash laws h.identified h'.identified hdigest hdigest').mp rfl
  have hmap : Function.Injective (List.map Json.str) :=
    List.map_injective_iff.mpr fun _ _ => Json.str.inj
  by_cases htyped : row.stage = PyStr.lit "typed" <;>
    by_cases htyped' : row'.stage = PyStr.lit "typed"
  · rw [items_typed htyped, items_typed htyped'] at hitems
    obtain ⟨hfront, htext⟩ := List.append_inj (hmap hitems) rfl
    have hsame := (dumps_eq_iff laws h.floats h'.floats).mp (List.singleton_injective htext)
    rw [Same, (h.typed htyped).1, (h'.typed htyped').1] at hsame
    exact ⟨hfront, by rw [(h.typed htyped).2, (h'.typed htyped').2, hsame]⟩
  · rw [items_typed htyped, items_untyped htyped'] at hitems
    exact absurd (congrArg List.length (hmap hitems)) (by simp [Row.front])
  · rw [items_untyped htyped, items_typed htyped'] at hitems
    exact absurd (congrArg List.length (hmap hitems)) (by simp [Row.front])
  · rw [items_untyped htyped, items_untyped htyped'] at hitems
    exact ⟨hmap hitems, by rw [h.untyped htyped, h'.untyped htyped']⟩

include reads laws in
/-- **A typed row has a digest exactly when its record can be reviewed.** -/
theorem digest_typed (hwrite : 1 ≤ py.writeDepth) (h : JsonReader.Parsed P (.obj fields))
    (hstage : row.stage = PyStr.lit "typed")
    (hjson : row.recordJson = some (writeIn JsonReader.compact repr (sortKeys (.obj fields))))
    (htexts : ∀ text ∈ row.texts, text.any PyStr.isSurrogate = false) :
    (∃ digest, candidateDigest py hexdigest (PyStr.lit tenantId) row.candidate = .ok digest) ↔
      Reviewable py fields := by
  cases hfits : JsonReader.fits py 0 (.obj fields) with
  | false =>
    have hyields := @JsonReader.read_writeIn py _ _ reads _ (parsed_sortKeys h)
    rw [fits_sortKeys h, hfits] at hyields
    refine iff_of_false ?_ fun hreview => absurd (hreview.fits.symm.trans hfits) (by decide)
    rintro ⟨digest, hdigest⟩
    rcases hyields with hrecursion | hdigits
    · exact digest_unread hstage hjson hrecursion (by decide) digest hdigest
    · exact digest_unread hstage hjson hdigits (by decide) digest hdigest
  | true =>
    rw [digest_exists_iff hwrite (Row.identified_typed reads h hfits hjson) htexts, depth_sortKeys h,
      any_dumps laws (parsed_sortKeys h), hasSurrogate_sortKeys h]
    exact ⟨fun hboth => ⟨(hboth hstage).2, hfits, (hboth hstage).1⟩,
      fun hreview _ => ⟨hreview.depth, hreview.encoded⟩⟩

end Laws

end Digests

/-! ## The review map -/

section Review

variable {py : Interpreter} {hexdigest : List UInt8 → PyStr} {tenantId : String} {rows : List Row}

/-- Digests that tell the rows apart lead to every row. -/
theorem reviewCandidates_ok {digest legacy : Row → PyStr}
    (hdigest : ∀ row ∈ rows, candidateDigest py hexdigest (PyStr.lit tenantId) row.candidate =
      .ok (digest row))
    (hlegacy : ∀ row ∈ rows, candidateDigestForVersion py hexdigest (PyStr.lit tenantId)
      row.candidate legacyCandidateDigestVersion = .ok (legacy row))
    (hinj : ∀ row ∈ rows, ∀ row' ∈ rows, digest row = digest row' → row = row') :
    ∃ candidates, reviewCandidates py hexdigest tenantId rows = .ok candidates ∧
      ∀ row ∈ rows, candidates.lookup (digest row) = some (legacy row, row) := by
  have hrows : candidateRows py hexdigest tenantId rows =
      .ok (rows.map fun row => (digest row, legacy row, row)) := by
    refine Fallible.mapM_map fun row hrow => ?_
    simp only [hdigest row hrow, hlegacy row hrow]
    rfl
  refine ⟨_, by rw [reviewCandidates, hrows]; rfl, fun row hrow => ?_⟩
  refine Table.lookup_of_mem Table.nodup_putAll_nil (Table.mem_putAll_nil.mpr ?_)
  obtain ⟨last, hlast, hkey⟩ := @Table.exists_lastOf _ _ _ Prod.fst _ _
    (List.mem_map_of_mem (f := Prod.fst)
      (List.mem_map_of_mem (f := fun row => (digest row, legacy row, row)) hrow))
  obtain ⟨row', hrow', rfl⟩ := List.mem_map.mp hlast.mem
  rwa [hinj row' hrow' row hrow hkey] at hlast

end Review

/-- The row that the worker keeps for a record has a digest, so the record can be reviewed. -/
theorem reviewable_of_addressed {P : ℚ → Prop} {py : Interpreter} {w : Extractor}
    {hexdigest : List UInt8 → PyStr} {tenantId : String} (reads : JsonReader.ReprReads P w.py.repr)
    (laws : ReprLaws P py.repr) (hwrite : 1 ≤ py.writeDepth) {findings : List Finding}
    {passageId passageText : PyStr} {record : List (PyStr × Json)}
    (hparsed : JsonReader.Parsed P (.obj record)) {output : List Row}
    (houtput : w.output findings = .ok output) (haddressed : Addressed py hexdigest tenantId output)
    (hfinding : .typed passageId passageText record ∈ findings) : Reviewable py record := by
  obtain ⟨rows, hrows, rfl, htexts⟩ := output_ok houtput
  obtain ⟨digest, hdigest, -, -⟩ := haddressed
  obtain ⟨row, hrow, hrowOf⟩ := (Fallible.mapM_mem hrows).1 _ hfinding
  obtain ⟨hstage, hjson⟩ := typedRow_ok hrowOf
  obtain ⟨last, hlast, hkey⟩ := Table.exists_lastOf (List.mem_map_of_mem (f := Row.key) hrow)
  have hkept : last ∈ canonicalRows rows := mem_canonicalRows.mpr hlast
  exact (digest_typed reads laws hwrite hparsed ((congrArg RowKey.stage hkey).trans hstage)
    ((congrArg RowKey.recordJson hkey).trans hjson) (htexts last hkept)).mp
      ⟨digest last, hdigest last hkept⟩

/-- **Every row of a shard can be reviewed exactly when every typed record can.** -/
theorem review_addressing {P : ℚ → Prop} {py : Interpreter} {w : Extractor}
    {hexdigest : List UInt8 → PyStr} (hhash : Function.Injective hexdigest)
    (reads : JsonReader.ReprReads P w.py.repr) (laws : ReprLaws P py.repr)
    (hwrite : 1 ≤ py.writeDepth) (tenantId : String) {findings : List Finding}
    (hrecords : ∀ passageId passageText record, .typed passageId passageText record ∈ findings →
      JsonReader.Parsed P (.obj record)) {output : List Row}
    (houtput : w.output findings = .ok output) :
    Addressed py hexdigest tenantId output ↔
      ∀ passageId passageText record, .typed passageId passageText record ∈ findings →
        Reviewable py record := by
  constructor
  · exact fun haddressed passageId passageText record hfinding =>
      reviewable_of_addressed reads laws hwrite (hrecords _ _ _ hfinding) houtput haddressed hfinding
  · intro hreview
    obtain ⟨rows, hrows, rfl, htexts⟩ := output_ok houtput
    obtain ⟨-, hback⟩ := Fallible.mapM_mem hrows
    have hreads : ∀ row ∈ canonicalRows rows, (∃ record, row.Reads py w.py.repr P record) ∧
        ∃ digest, candidateDigest py hexdigest (PyStr.lit tenantId) row.candidate = .ok digest := by
      intro row hrow
      obtain ⟨finding, hfinding, hrowOf⟩ := hback row (mem_canonicalRows.mp hrow).mem
      cases finding with
      | typed passageId passageText record =>
        obtain ⟨hstage, hjson⟩ := typedRow_ok hrowOf
        have hparsed := hrecords _ _ _ hfinding
        have hrecord := hreview _ _ _ hfinding
        refine ⟨⟨sortKeys (.obj record), Row.identified_typed reads hparsed hrecord.fits hjson,
          parsed_floatsIn (parsed_sortKeys hparsed), fun _ => ⟨sortKeys_sortKeys hparsed, hjson⟩,
          fun huntyped => absurd hstage huntyped⟩, ?_⟩
        exact (digest_typed reads laws hwrite hparsed hstage hjson (htexts row hrow)).mpr hrecord
      | atlas stage =>
        obtain ⟨hstage, hjson⟩ := atlasRow_ok hrowOf
        have hrowReads := @Row.reads_untyped py row P w.py.repr hstage hjson
        exact ⟨⟨.null, hrowReads⟩, (digest_exists_iff hwrite hrowReads.identified
          (htexts row hrow)).mpr fun htyped => absurd htyped hstage⟩
    let digest (row : Row) : PyStr :=
      (candidateDigest py hexdigest (PyStr.lit tenantId) row.candidate).toOption.getD []
    let legacy (row : Row) : PyStr := (candidateDigestForVersion py hexdigest (PyStr.lit tenantId)
      row.candidate legacyCandidateDigestVersion).toOption.getD []
    have hdigest : ∀ row ∈ canonicalRows rows,
        candidateDigest py hexdigest (PyStr.lit tenantId) row.candidate = .ok (digest row) := by
      intro row hrow
      obtain ⟨d, hd⟩ := (hreads row hrow).2
      simp only [digest, hd]
      rfl
    have hlegacy : ∀ row ∈ canonicalRows rows, candidateDigestForVersion py hexdigest
        (PyStr.lit tenantId) row.candidate legacyCandidateDigestVersion = .ok (legacy row) := by
      intro row hrow
      obtain ⟨d, hd⟩ := @legacy_exists _ hexdigest tenantId _ hwrite
        (htexts row hrow)
      simp only [legacy, hd]
      rfl
    have hinj : ∀ row ∈ canonicalRows rows, ∀ row' ∈ canonicalRows rows,
        digest row = digest row' → row = row' := by
      intro row hrow row' hrow' heq
      obtain ⟨record, hrecord⟩ := (hreads row hrow).1
      obtain ⟨record', hrecord'⟩ := (hreads row' hrow').1
      obtain ⟨hfront, hjson⟩ := digest_injective laws hhash hrecord hrecord' (hdigest row hrow)
        ((hdigest row' hrow').trans (by rw [heq]))
      obtain ⟨f, -, hf⟩ := hback row (mem_canonicalRows.mp hrow).mem
      obtain ⟨f', -, hf'⟩ := hback row' (mem_canonicalRows.mp hrow').mem
      obtain ⟨htenant, hjob, hshard⟩ := rowOf_params hf
      obtain ⟨htenant', hjob', hshard'⟩ := rowOf_params hf'
      refine canonicalRows_key hrow hrow' ?_
      simp only [Row.front, List.cons.injEq, true_and, and_true] at hfront
      obtain ⟨hstage, hpassage, hsubject, hpredicate, hobject⟩ := hfront
      rw [Row.key, Row.key, htenant, htenant', hjob, hjob', hshard, hshard', hstage, hpassage,
        hsubject, hpredicate, hobject, hjson]
    obtain ⟨candidates, hcandidates, hlookup⟩ := reviewCandidates_ok hdigest hlegacy hinj
    exact ⟨digest, hdigest, hinj, candidates, hcandidates, fun row hrow => ⟨_, hlookup row hrow⟩⟩

/-! ## Small shards -/

/-- A worker that looks for law firms. -/
def smallExtractor : Extractor where
  py := smallPy fun _ => PyStr.lit "1.0"
  casefold := id
  params := ⟨PyStr.lit "tenant:1", PyStr.lit "job:1", 0, none⟩
  contract := ⟨PyStr.lit "model:1", AtlasStage.text, PyStr.lit "schema:1", PyStr.lit "version:1"⟩
  objectType := ⟨PyStr.lit "object-type:law-firm", PyStr.lit "name", PyStr.lit "prompt:1",
    PyStr.lit "schema:2"⟩

def smallRecord (field : String) (value : Json) : List (PyStr × Json) :=
  [(PyStr.lit "name", .str (PyStr.lit "Fett Law")), (PyStr.lit field, value)]

def smallFinding (record : List (PyStr × Json)) : Finding :=
  .typed (PyStr.lit "passage:1") (PyStr.lit "Fett Law declined.") record

theorem oneLaws : ReprLaws (· = 1) fun _ => PyStr.lit "1.0" where
  numeral _ _ := by decide
  marked _ _ := ⟨0x2E, by decide, Or.inl rfl⟩
  injective _ _ hq hq' _ := hq.trans hq'.symm
  unsigned _ _ := by decide

theorem smallRecord_parsed {field : String} {value : Json} (hfield : field = "score" ∨ field = "note")
    (h : JsonReader.Parsed (· = 1) value) :
    JsonReader.Parsed (· = 1) (.obj (smallRecord field value)) := by
  have hjoined : ∀ text ∈ [PyStr.lit "name", PyStr.lit "score", PyStr.lit "note",
      PyStr.lit "Fett Law"], JsonReader.Joined text := by
    unfold JsonReader.Joined
    decide
  refine .obj ?_ (fun f hf => ?_) fun f hf => ?_
  · show List.Nodup [PyStr.lit "name", PyStr.lit field]
    rcases hfield with rfl | rfl <;> decide
  · rcases List.mem_cons.mp hf with rfl | hf
    · exact hjoined _ (by simp)
    · rw [List.mem_singleton.mp hf]
      rcases hfield with rfl | rfl <;> exact hjoined _ (by simp)
  · rcases List.mem_cons.mp hf with rfl | hf
    · exact .str (hjoined _ (by simp))
    · rwa [List.mem_singleton.mp hf]

def smallTriple : Finding :=
  .atlas .entityRelation (PyStr.lit "passage:1") (PyStr.lit "Fett Law declined.") (some 0)
    (PyStr.lit "Fett Law") (PyStr.lit "entity") (PyStr.lit "declined") (PyStr.lit "offer")
    (PyStr.lit "entity")

/-- A triple and a record with a number. -/
theorem review_addressing_small : ∃ output,
    smallExtractor.output [smallTriple, smallFinding (smallRecord "score" (.float (.finite 1)))] =
      .ok output ∧ Addressed (smallPy fun _ => PyStr.lit "1.0") plainDigest "tenant:1" output := by
  obtain ⟨output, houtput⟩ := Fallible.isOk_iff.mp (by decide +kernel : (smallExtractor.output
    [smallTriple, smallFinding (smallRecord "score" (.float (.finite 1)))]).isOk = true)
  have hfinding : ∀ passageId passageText record, Finding.typed passageId passageText record ∈
      [smallTriple, smallFinding (smallRecord "score" (.float (.finite 1)))] →
      record = smallRecord "score" (.float (.finite 1)) := by
    intro passageId passageText record hmem
    simp only [smallTriple, smallFinding, List.mem_cons, reduceCtorEq, Finding.typed.injEq,
      List.not_mem_nil, or_false, false_or] at hmem
    exact hmem.2.2
  refine ⟨output, houtput, (review_addressing plainDigest_injective oneReads oneLaws (by decide)
    "tenant:1" (fun _ _ record hmem => ?_) houtput).mpr fun _ _ record hmem => ?_⟩
  · rw [hfinding _ _ _ hmem]
    exact smallRecord_parsed (Or.inl rfl) (.float rfl)
  · rw [hfinding _ _ _ hmem]
    exact ⟨by decide, by decide, by decide⟩

/-- A record with a lone surrogate takes its shard from review. -/
theorem lone_surrogate_unaddressed : ∃ output,
    smallExtractor.output [smallFinding (smallRecord "note" (.str [0xD83D]))] = .ok output ∧
    ¬ Addressed (smallPy fun _ => PyStr.lit "1.0") plainDigest "tenant:1" output := by
  obtain ⟨output, houtput⟩ := Fallible.isOk_iff.mp (by decide +kernel :
    (smallExtractor.output [smallFinding (smallRecord "note" (.str [0xD83D]))]).isOk = true)
  refine ⟨output, houtput, fun haddressed => ?_⟩
  have hparsed := @smallRecord_parsed _ (.str [0xD83D]) (Or.inr rfl)
    (.str (List.isChain_singleton _))
  have hreview := reviewable_of_addressed oneReads oneLaws (by decide) hparsed houtput haddressed
    List.mem_cons_self
  exact absurd hreview.encoded (by decide)

end ControlPlane.Extraction
