/-
  THE ATLAS READER: `_chunk_offset` and `_atlas_json_rows` of `runpod/theorem_extraction_worker/worker.py`.

  ATLAS leaves files of JSON lines, a record for each chunk of a passage.  The reader decodes a file,
  splits it with `splitlines`, and makes a row of every triple and of every participant.  Where the
  chunk is in its passage it finds out itself: at the first occurrence behind the last one that it
  found in this passage, or else at the first.

  1. A chunk that is placed is there (`chunkOffset_occursAt`), and the span of a row is in it when
     `SpanInside` (`answers_row_iff`).
  2. `readRecord_wellFormed`: a well-formed record is read into what it lists.
  3. A readable line is its record (`readLines_readable`); any other has a piece that raises
     (`exists_unreadable`).
  4. `atlas_complete_iff`, from these.
-/
import ControlPlane.Extraction.Evidence
import ControlPlane.JsonLines
import ControlPlane.PyDict
import ControlPlane.Utf8

namespace ControlPlane.Extraction.Atlas

/-! ## Reading a record -/

/-- What the reader raises. -/
inductive AtlasError where
  /-- `ValueError`, and with it `JSONDecodeError` and `UnicodeDecodeError`. -/
  | valueError (message : PyStr)
  | typeError
  | keyError
  | attributeError
  | recursionError
  deriving DecidableEq, Repr

/-- The worker, with the passages of its shard. -/
structure Reader extends Extractor where
  /-- `str(value)`, of a value that is not a string. -/
  strOther : Json → PyStr
  /-- The texts of the passages by their ids. -/
  passages : List (PyStr × PyStr)

/-- A triple or a participant. -/
structure Found where
  stage : AtlasStage
  passageId : PyStr
  chunkText : PyStr
  chunkOffset : Option Nat
  subject : PyStr
  subjectKind : PyStr
  predicate : PyStr
  object : PyStr
  objectKind : PyStr
  deriving DecidableEq

/-- `value[key]`. -/
def subscript : Json → String → Except AtlasError Json
  | .obj fields, key => match Json.get? fields key with
    | some value => .ok value
    | none => .error .keyError
  | _, _ => .error .typeError

/-- `iter(value)`. -/
def iterate : Json → Except AtlasError (List Json)
  | .arr items => .ok items
  | .str text => .ok (text.map fun c => .str [c])
  | .obj fields => .ok (fields.map fun f => .str f.1)
  | _ => .error .typeError

/-- `value.get(key)`. -/
def getOrNull (fields : List (PyStr × Json)) (key : String) : Json :=
  (Json.get? fields key).getD .null

/-- `for … in value.get(key) or []`. -/
def itemsOf (fields : List (PyStr × Json)) (key : String) : Except AtlasError (List Json) :=
  if (getOrNull fields key).truthy then iterate (getOrNull fields key) else .ok []

/-- `text.find(needle, start)`. -/
def findFrom (text needle : PyStr) (start : Nat) : Option Nat :=
  if text.length < start then none else (find (text.drop start) needle).map fun i => start + i

/-- `_chunk_offset`. -/
def chunkOffset (passageText chunkText : PyStr) (priorOffset : Option Nat) : Option Nat :=
  (findFrom passageText chunkText ((priorOffset.map fun n => n + 1).getD 0)).or
    (find passageText chunkText)

namespace Reader

variable (r : Reader)

/-- `str(value)`. -/
def str : Json → PyStr
  | .str text => text
  | value => r.strOther value

/-- `str(value.get("original_text") or "")`. -/
def chunkText (fields : List (PyStr × Json)) : PyStr :=
  if (getOrNull fields "original_text").truthy then r.str (getOrNull fields "original_text") else []

/-- The rows of a list of triples. -/
def triple (stage : AtlasStage) (kind passageId chunkText : PyStr) (offset : Option Nat)
    (triple : Json) : Except AtlasError Found := do
  let head ← subscript triple "Head"
  let relation ← subscript triple "Relation"
  let tail ← subscript triple "Tail"
  pure ⟨stage, passageId, chunkText, offset, r.str head, kind, r.str relation, r.str tail, kind⟩

/-- The rows of an event and its participants. -/
def pair (passageId chunkText : PyStr) (offset : Option Nat) :
    Json → Except AtlasError (List Found)
  | .obj pair => do
      let entities ← itemsOf pair "Entity"
      entities.mapM fun entity => do
        let event ← subscript (.obj pair) "Event"
        pure ⟨.eventEntity, passageId, chunkText, offset, r.str event, PyStr.lit "event",
          PyStr.lit "participant", r.str entity, PyStr.lit "entity"⟩
  | _ => .error .attributeError

/-- The three loops over a record. -/
def recordFound (passageId chunkText : PyStr) (offset : Option Nat)
    (fields : List (PyStr × Json)) : Except AtlasError (List Found) := do
  let triples ← itemsOf fields "entity_relation_dict"
  let relations ← triples.mapM
    (r.triple .entityRelation (PyStr.lit "entity") passageId chunkText offset)
  let pairs ← itemsOf fields "event_entity_dict"
  let participants ← pairs.mapM (r.pair passageId chunkText offset)
  let events ← itemsOf fields "event_relation_dict"
  let eventRelations ← events.mapM
    (r.triple .eventRelation (PyStr.lit "event") passageId chunkText offset)
  pure (relations ++ participants.flatten ++ eventRelations)

/-- `_base_row`. -/
def row (f : Found) : Row :=
  r.baseRow f.passageId f.chunkText f.stage.text f.subject f.subjectKind f.predicate f.object
    f.objectKind f.chunkOffset (r.contract.promptHash f.stage) r.contract.schemaSha256 none none

/-- The rows, and the last offset of each passage. -/
structure Progress where
  rows : List Row
  priorOffsets : List (PyStr × Nat)

/-- `prior_offsets[passage_id] = offset`, of an offset that was found. -/
def remember (priorOffsets : List (PyStr × Nat)) (passageId : PyStr) :
    Option Nat → List (PyStr × Nat)
  | some offset => PyDict.set priorOffsets passageId offset
  | none => priorOffsets

/-- A record of a passage: what it has, and where its chunk is. -/
def readPassage (s : Progress) (passageId passageText : PyStr) (fields : List (PyStr × Json)) :
    Except AtlasError Progress := do
  let offset := Atlas.chunkOffset passageText (r.chunkText fields) (s.priorOffsets.lookup passageId)
  let found ← r.recordFound passageId (r.chunkText fields) offset fields
  pure ⟨s.rows ++ found.map r.row, remember s.priorOffsets passageId offset⟩

/-- A record that names a passage. -/
def readNamed (s : Progress) (passageId : PyStr) (fields : List (PyStr × Json)) :
    Except AtlasError Progress :=
  match r.passages.lookup passageId with
  | none => .error (.valueError (PyStr.lit "ATLAS returned unknown passage id " ++ passageId))
  | some passageText => r.readPassage s passageId passageText fields

/-- A record that was read. -/
def readRecord (s : Progress) : Json → Except AtlasError Progress
  | .obj fields => do
      let id ← subscript (.obj fields) "id"
      r.readNamed s (r.str id) fields
  | _ => .error .typeError

/-- A line; one that is blank is passed over. -/
def readLine (s : Progress) (line : PyStr) : Except AtlasError Progress :=
  if line.blank then .ok s
  else match JsonReader.read r.py line with
    | .ok value => r.readRecord s value
    | .error .recursion => .error .recursionError
    | .error _ => .error (.valueError [])

/-- `path.read_text(encoding="utf-8").splitlines()`. -/
def linesOf (payload : List UInt8) : Except AtlasError (List PyStr) :=
  match PyStr.decode payload with
  | some text => .ok (PyStr.splitlines false [] (PyStr.universalNewlines false text))
  | none => .error (.valueError [])

/-- A file. -/
def readFile (s : Progress) (file : PyStr × List UInt8) : Except AtlasError Progress := do
  let lines ← linesOf file.2
  lines.foldlM r.readLine s

/-- `_atlas_json_rows`, of the files that `glob` found, with their names. -/
def atlasJsonRows (files : List (PyStr × List UInt8)) : Except AtlasError (List Row) := do
  let s ← (Sorting.sortedBy Prod.fst files).foldlM r.readFile ⟨[], []⟩
  pure s.rows

/-! ## What is in the files -/

/-- The items of a list, which may be absent or null. -/
def listed (fields : List (PyStr × Json)) (key : String) : List Json :=
  match getOrNull fields key with
  | .arr items => items
  | _ => []

/-- The fields of a triple or of an event. -/
def fieldsOf : Json → List (PyStr × Json)
  | .obj fields => fields
  | _ => []

/-- A triple of a list. -/
def tripleFound (stage : AtlasStage) (kind passageId chunkText : PyStr) (offset : Option Nat)
    (triple : Json) : Found :=
  ⟨stage, passageId, chunkText, offset, r.str (getOrNull (fieldsOf triple) "Head"), kind,
    r.str (getOrNull (fieldsOf triple) "Relation"), r.str (getOrNull (fieldsOf triple) "Tail"), kind⟩

/-- The participants of an event. -/
def pairFound (passageId chunkText : PyStr) (offset : Option Nat) (pair : Json) : List Found :=
  (listed (fieldsOf pair) "Entity").map fun entity =>
    ⟨.eventEntity, passageId, chunkText, offset, r.str (getOrNull (fieldsOf pair) "Event"),
      PyStr.lit "event", PyStr.lit "participant", r.str entity, PyStr.lit "entity"⟩

/-- The triples and participants of a record, list by list. -/
def inRecord (passageId chunkText : PyStr) (offset : Option Nat) (fields : List (PyStr × Json)) :
    List Found :=
  (listed fields "entity_relation_dict").map
      (r.tripleFound .entityRelation (PyStr.lit "entity") passageId chunkText offset) ++
    (listed fields "event_entity_dict").flatMap (r.pairFound passageId chunkText offset) ++
    (listed fields "event_relation_dict").map
      (r.tripleFound .eventRelation (PyStr.lit "event") passageId chunkText offset)

/-- The id of a record, and the text of the passage of an id. -/
def idOf (fields : List (PyStr × Json)) : PyStr := r.str (getOrNull fields "id")

def passageText (passageId : PyStr) : PyStr := (r.passages.lookup passageId).getD []

/-- Where the chunk of a record is. -/
def placeOf (priorOffsets : List (PyStr × Nat)) (fields : List (PyStr × Json)) : Option Nat :=
  Atlas.chunkOffset (r.passageText (r.idOf fields)) (r.chunkText fields)
    (priorOffsets.lookup (r.idOf fields))

/-- The triples and participants of records, one after the other. -/
def inRecords (priorOffsets : List (PyStr × Nat)) : List (List (PyStr × Json)) → List Found
  | [] => []
  | fields :: rest =>
      r.inRecord (r.idOf fields) (r.chunkText fields) (r.placeOf priorOffsets fields) fields ++
        inRecords (remember priorOffsets (r.idOf fields) (r.placeOf priorOffsets fields)) rest

/-- The records of files of JSON lines, in the order of their names. -/
def recordsOf (files : List (PyStr × List JsonLine)) : List (List (PyStr × Json)) :=
  (Sorting.sortedBy Prod.fst files).flatMap fun file => file.2.map JsonLine.fields

/-- Every triple and participant, in the order of the files and lines. -/
def expected (files : List (PyStr × List JsonLine)) : List Found := r.inRecords [] (recordsOf files)

/-- A list of items with a property, which may be absent or null. -/
def ListOf (p : Json → Prop) (fields : List (PyStr × Json)) (key : String) : Prop :=
  getOrNull fields key = .null ∨ ∃ items, getOrNull fields key = .arr items ∧ ∀ item ∈ items, p item

/-- An object with a head, a relation and a tail. -/
def IsTriple (triple : Json) : Prop :=
  ∃ fields, triple = .obj fields ∧ ∀ key ∈ ["Head", "Relation", "Tail"], (Json.get? fields key).isSome

/-- An object with an event and its participants. -/
def IsPair (pair : Json) : Prop :=
  ∃ fields, pair = .obj fields ∧ (Json.get? fields "Event").isSome ∧
    ListOf (fun _ => True) fields "Entity"

/-- A record that names a known passage and carries well-formed triples. -/
structure WellFormed (fields : List (PyStr × Json)) : Prop where
  id : (Json.get? fields "id").isSome
  known : (r.passages.lookup (r.idOf fields)).isSome
  relations : ListOf IsTriple fields "entity_relation_dict"
  participants : ListOf IsPair fields "event_entity_dict"
  eventRelations : ListOf IsTriple fields "event_relation_dict"

/-- The span begins in an occurrence of the chunk. -/
def Inside (passage chunk : PyStr) (start : Nat) : Prop :=
  ∃ o, OccursAt chunk passage o ∧ o ≤ start ∧ start < o + max 1 chunk.length

/-- A row for a triple or a participant. -/
structure Answers (f : Found) (row : Row) : Prop where
  stage : row.stage = f.stage.text
  passageId : row.passageId = f.passageId
  subject : row.subject = f.subject
  subjectKind : row.subjectKind = f.subjectKind
  predicate : row.predicate = f.predicate
  object : row.object = f.object
  objectKind : row.objectKind = f.objectKind
  span : ∀ start ∈ row.spanStart, Inside (r.passageText f.passageId) f.chunkText start

/-- The chunk is nowhere in the passage, or has the subject verbatim, or does not have it however it
    is written, or has the folded subject at an index that still is in the chunk: in this one, or in
    another one that the index reaches. -/
def SpanInside (f : Found) : Prop :=
  ∀ offset ∈ f.chunkOffset, f.subject <:+: f.chunkText ∨
    ¬ r.casefold f.subject <:+: r.casefold f.chunkText ∨
      ∃ i, find (r.casefold f.chunkText) (r.casefold f.subject) = some i ∧
        Inside (r.passageText f.passageId) f.chunkText (offset + i)

end Reader

/-! ## Places -/

theorem findFrom_isPrefix {text needle : PyStr} {start i : Nat} (h : findFrom text needle start = some i) :
    OccursAt needle text i := by
  unfold findFrom at h
  split at h
  · cases h
  · obtain ⟨j, hj, rfl⟩ := Option.map_eq_some_iff.mp h
    obtain ⟨hle, hprefix, -⟩ := find_eq_some.mp hj
    rw [List.length_drop] at hle
    rw [List.drop_drop] at hprefix
    exact ⟨by omega, hprefix⟩

/-- **A chunk** that was placed is there. -/
theorem chunkOffset_occursAt {passage chunk : PyStr} {prior : Option Nat} {offset : Nat}
    (h : chunkOffset passage chunk prior = some offset) : OccursAt chunk passage offset := by
  rcases Option.or_eq_some_iff.mp h with hbehind | ⟨-, hfirst⟩
  · exact findFrom_isPrefix hbehind
  · obtain ⟨hle, hprefix, -⟩ := find_eq_some.mp hfirst
    exact ⟨hle, hprefix⟩

namespace Reader

variable {r : Reader} {s : Progress} {fields : List (PyStr × Json)} {key : String}
  {passageId chunk : PyStr} {offset : Option Nat} {f : Found} {stage : AtlasStage} {kind : PyStr}

theorem mem_inRecord (h : f ∈ r.inRecord passageId chunk offset fields) :
    f.passageId = passageId ∧ f.chunkText = chunk ∧ f.chunkOffset = offset := by
  simp only [inRecord, List.mem_append, List.mem_map, List.mem_flatMap, pairFound] at h
  rcases h with (⟨_, -, rfl⟩ | ⟨_, -, _, -, rfl⟩) | ⟨_, -, rfl⟩ <;> exact ⟨rfl, rfl, rfl⟩

theorem inRecords_occursAt {records : List (List (PyStr × Json))} :
    ∀ {prior : List (PyStr × Nat)}, f ∈ r.inRecords prior records → ∀ o ∈ f.chunkOffset,
      OccursAt f.chunkText (r.passageText f.passageId) o := by
  induction records with
  | nil => exact fun h => absurd h List.not_mem_nil
  | cons fields rest ih =>
    intro prior h o ho
    rcases List.mem_append.mp h with hhere | hrest
    · obtain ⟨hid, hchunk, hoffset⟩ := mem_inRecord hhere
      rw [hid, hchunk]
      rw [hoffset] at ho
      exact chunkOffset_occursAt ho
    · exact ih hrest o ho

/-- A row is what was found, and its span is what `SpanInside` says. -/
theorem answers_row_iff (h : ∀ o ∈ f.chunkOffset, OccursAt f.chunkText (r.passageText f.passageId) o) :
    r.Answers f (r.row f) ↔ r.SpanInside f := by
  have hspan : r.Answers f (r.row f) ↔ ∀ start ∈ (r.row f).spanStart,
      Inside (r.passageText f.passageId) f.chunkText start :=
    ⟨fun hanswers => hanswers.span, fun hspan => ⟨rfl, rfl, rfl, rfl, rfl, rfl, rfl, hspan⟩⟩
  rw [hspan]
  cases hoffset : f.chunkOffset with
  | none => simp [row, Extractor.baseRow, SpanInside, hoffset]
  | some offset =>
    have hat := h offset hoffset
    simp only [row, Extractor.baseRow, Extractor.findSpan, SpanInside, hoffset, Option.mem_def,
      Option.some.injEq, forall_eq']
    cases hverbatim : find f.chunkText f.subject with
    | some i =>
      have hin : f.subject <:+: f.chunkText := find_isSome.mp (by rw [hverbatim]; rfl)
      refine iff_of_true ?_ (.inl hin)
      obtain ⟨-, hprefix, hfirst⟩ := find_eq_some.mp hverbatim
      have hlength := hprefix.length_le
      rw [List.length_drop] at hlength
      have hindex : i < max 1 f.chunkText.length := by
        by_contra hge
        have hempty : f.subject = [] := List.eq_nil_of_length_eq_zero (by omega)
        exact hfirst 0 (by omega) (hempty ▸ List.nil_prefix)
      simp only [Option.some_or, Option.some.injEq, forall_eq']
      exact ⟨offset, hat, Nat.le_add_right _ _, Nat.add_lt_add_left hindex _⟩
    | none =>
      have hout := find_eq_none.mp hverbatim
      cases hfolded : find (r.casefold f.chunkText) (r.casefold f.subject) with
      | none => exact iff_of_true (by simp) (.inr (.inl (find_eq_none.mp hfolded)))
      | some i =>
        have hin : r.casefold f.subject <:+: r.casefold f.chunkText :=
          find_isSome.mp (by rw [hfolded]; rfl)
        simp [hout, hin]

/-! ## Reading well-formed records -/

theorem itemsOf_listOf {p : Json → Prop} (h : ListOf p fields key) :
    itemsOf fields key = .ok (listed fields key) ∧ ∀ item ∈ listed fields key, p item := by
  rcases h with hnull | ⟨items, harr, hall⟩
  · simp [itemsOf, listed, hnull, Json.truthy]
  · cases items with
    | nil => simp [itemsOf, listed, harr, Json.truthy]
    | cons item items => exact ⟨by simp [itemsOf, listed, harr, Json.truthy, iterate], by
        simpa only [listed, harr] using hall⟩

theorem subscript_ok (h : (Json.get? fields key).isSome = true) :
    subscript (.obj fields) key = .ok (getOrNull fields key) := by
  obtain ⟨value, hvalue⟩ := Option.isSome_iff_exists.mp h
  simp [subscript, getOrNull, hvalue]

theorem triple_ok {triple : Json} (h : IsTriple triple) :
    r.triple stage kind passageId chunk offset triple =
      .ok (r.tripleFound stage kind passageId chunk offset triple) := by
  obtain ⟨fields, rfl, hkeys⟩ := h
  simp only [List.forall_mem_cons] at hkeys
  obtain ⟨hhead, hrelation, htail, -⟩ := hkeys
  rw [Reader.triple, subscript_ok hhead, subscript_ok hrelation, subscript_ok htail]
  rfl

theorem pair_ok {pair : Json} (h : IsPair pair) :
    r.pair passageId chunk offset pair = .ok (r.pairFound passageId chunk offset pair) := by
  obtain ⟨fields, rfl, hevent, hentities⟩ := h
  simp only [Reader.pair, (itemsOf_listOf hentities).1, subscript_ok hevent]
  exact Fallible.mapM_map fun entity _ => rfl

/-- **A well-formed record** is read. -/
theorem readRecord_wellFormed (h : r.WellFormed fields) (s : Progress) :
    r.readRecord s (.obj fields) =
      .ok ⟨s.rows ++ (r.inRecord (r.idOf fields) (r.chunkText fields)
          (r.placeOf s.priorOffsets fields) fields).map r.row,
        remember s.priorOffsets (r.idOf fields) (r.placeOf s.priorOffsets fields)⟩ := by
  obtain ⟨text, htext⟩ := Option.isSome_iff_exists.mp h.known
  obtain ⟨hrelations, hrelation⟩ := itemsOf_listOf h.relations
  obtain ⟨hpairs, hpair⟩ := itemsOf_listOf h.participants
  obtain ⟨hevents, hevent⟩ := itemsOf_listOf h.eventRelations
  have hnamed : r.readRecord s (.obj fields) = r.readNamed s (r.idOf fields) fields := by
    rw [readRecord, subscript_ok h.id]
    rfl
  have hfound : ∀ offset, r.recordFound (r.idOf fields) (r.chunkText fields) offset fields =
      .ok (r.inRecord (r.idOf fields) (r.chunkText fields) offset fields) := by
    intro offset
    simp only [recordFound, hrelations, hpairs, hevents, Fallible.bind_ok]
    refine ⟨_, rfl, _, Fallible.mapM_map fun t ht => triple_ok (hrelation t ht), _, rfl, _,
      Fallible.mapM_map fun p hp => pair_ok (hpair p hp), _, rfl, _,
      Fallible.mapM_map fun t ht => triple_ok (hevent t ht), ?_⟩
    rw [inRecord, List.flatMap_def]
    rfl
  rw [hnamed, readNamed, htext]
  simp only [readPassage, hfound, placeOf, passageText, htext, Option.getD_some]
  rfl

/-! ## Reading lines -/

/-- Blank lines change nothing. -/
theorem readLines_nonblank (lines : List PyStr) (s : Progress) :
    lines.foldlM r.readLine s = (lines.filter fun l => !l.blank).foldlM r.readLine s := by
  induction lines generalizing s with
  | nil => rfl
  | cons line lines ih =>
    by_cases hblank : line.blank = true
    · have hskip : r.readLine s line = .ok s := if_pos hblank
      rw [List.foldlM_cons, hskip, List.filter_cons, hblank]
      exact ih s
    · have hkeep : (!line.blank) = true := by simp [hblank]
      rw [List.foldlM_cons, List.filter_cons, if_pos hkeep, List.foldlM_cons]
      exact congrArg (r.readLine s line >>= ·) (funext ih)

theorem not_blank_of_mem {text : PyStr} : ∀ {current piece : PyStr},
    piece ∈ PyStr.nonblank current text → piece.blank = false := by
  induction text with
  | nil =>
    intro current piece h
    rw [PyStr.nonblank] at h
    split at h
    · exact absurd h List.not_mem_nil
    · rw [List.mem_singleton.mp h]
      exact Bool.not_eq_true _ ▸ ‹_›
  | cons c text ih =>
    intro current piece h
    rw [PyStr.nonblank] at h
    split at h
    · rcases List.mem_append.mp h with h | h
      · split at h
        · exact absurd h List.not_mem_nil
        · rw [List.mem_singleton.mp h]
          exact Bool.not_eq_true _ ▸ ‹_›
      · exact ih h
    · exact ih h

/-- **A file** is read piece by piece. -/
theorem readFile_fileText {name : PyStr} {lines : List JsonLine}
    (h : PyStr.Scalar (JsonLine.fileText lines)) (s : Progress) :
    r.readFile s (name, PyStr.encoded (JsonLine.fileText lines)) =
      (lines.flatMap fun l => PyStr.nonblank [] l.text).foldlM r.readLine s := by
  have hlines : linesOf (PyStr.encoded (JsonLine.fileText lines)) =
      .ok (PyStr.splitlines false [] (PyStr.universalNewlines false (JsonLine.fileText lines))) := by
    rw [linesOf, PyStr.decode_encoded h]
  have hpieces := PyStr.splitlines_nonblank (JsonLine.fileText lines) false [] fun h => nomatch h
  rw [JsonLine.nonblank_fileText] at hpieces
  rw [readFile, hlines, ← hpieces, ← readLines_nonblank]
  rfl

/-- A line that is read whole. -/
def Readable (r : Reader) (l : JsonLine) : Prop :=
  l.Clean ∧ (JsonReader.read r.py l.object).isOk = true

/-- Of a file of JSON lines: one object on each line. -/
def AreJsonLines (lines : List JsonLine) : Prop :=
  PyStr.Scalar (JsonLine.fileText lines) ∧ ∀ l ∈ lines, ∃ py, l.Valid py

theorem read_object {l : JsonLine} {py : Interpreter} (hvalid : l.Valid py)
    (h : (JsonReader.read r.py l.object).isOk = true) :
    JsonReader.read r.py l.object = .ok (.obj l.fields) := by
  obtain ⟨value, hread⟩ := Fallible.isOk_iff.mp h
  rw [hread, JsonReader.read_agree hread hvalid.read]

/-- A readable line is its record. -/
theorem readLines_readable {l : JsonLine} {py : Interpreter} (hvalid : l.Valid py)
    (h : r.Readable l) (s : Progress) :
    (PyStr.nonblank [] l.text).foldlM r.readLine s = r.readRecord s (.obj l.fields) := by
  obtain ⟨piece, hpieces, hread⟩ := hvalid.whole h.1
  have hblank : piece.blank = false := not_blank_of_mem (hpieces ▸ List.mem_singleton_self piece)
  have hline : r.readLine s piece = r.readRecord s (.obj l.fields) := by
    rw [readLine, hblank, hread, read_object hvalid h.2]
    rfl
  rw [hpieces, List.foldlM_cons, hline]
  cases r.readRecord s (.obj l.fields) <;> rfl

/-- An unreadable line has a piece that raises. -/
theorem exists_unreadable {l : JsonLine} {py : Interpreter} (hvalid : l.Valid py)
    (h : ¬ r.Readable l) : ∃ piece ∈ PyStr.nonblank [] l.text, ∀ s s', r.readLine s piece ≠ .ok s' := by
  have hpiece : ∃ piece ∈ PyStr.nonblank [] l.text,
      ∀ value, JsonReader.read r.py piece ≠ .ok value := by
    by_cases hclean : l.Clean
    · obtain ⟨piece, hpieces, hread⟩ := hvalid.whole hclean
      refine ⟨piece, hpieces ▸ List.mem_singleton_self piece, fun value hvalue => ?_⟩
      rw [hread] at hvalue
      exact h ⟨hclean, by rw [hvalue]; rfl⟩
    · obtain ⟨piece, hmem, hread⟩ := hvalid.broken hclean
      exact ⟨piece, hmem, hread r.py⟩
  obtain ⟨piece, hmem, hread⟩ := hpiece
  refine ⟨piece, hmem, fun s s' hok => ?_⟩
  rw [readLine, not_blank_of_mem hmem, if_neg Bool.false_ne_true] at hok
  cases hvalue : JsonReader.read r.py piece with
  | ok value => exact hread value hvalue
  | error e =>
    rw [hvalue] at hok
    cases e <;> cases hok

/-! ## Reading files -/

/-- What a loop gets through, it gets through item by item. -/
theorem foldlM_step_ok {α β : Type} {f : β → α → Except AtlasError β} {items : List α} {b b' : β}
    (h : items.foldlM f b = .ok b') : ∀ a ∈ items, ∃ c c', f c a = .ok c' := by
  induction items generalizing b with
  | nil => exact fun _ ha => absurd ha List.not_mem_nil
  | cons a items ih =>
    rw [List.foldlM_cons] at h
    obtain ⟨c, hc, hrest⟩ := Fallible.bind_ok.mp h
    exact List.forall_mem_cons.mpr ⟨⟨b, c, hc⟩, ih hrest⟩

/-- The bytes of files. -/
def written (files : List (PyStr × List JsonLine)) : List (PyStr × List UInt8) :=
  files.map fun file => (file.1, PyStr.encoded (JsonLine.fileText file.2))

theorem sorted_written (files : List (PyStr × List JsonLine)) :
    Sorting.sortedBy Prod.fst (written files) = written (Sorting.sortedBy Prod.fst files) := by
  unfold Sorting.sortedBy written
  exact (List.map_insertionSort _ _ (fun file : PyStr × List JsonLine =>
    (file.1, PyStr.encoded (JsonLine.fileText file.2))) files fun _ _ _ _ => Iff.rfl).symm

variable {files : List (PyStr × List JsonLine)}

/-- When nothing was raised, every line is readable. -/
theorem readable_of_ok (hjson : ∀ file ∈ files, AreJsonLines file.2) {s' : Progress}
    (h : (written files).foldlM r.readFile s = .ok s') : ∀ file ∈ files, ∀ l ∈ file.2, r.Readable l := by
  intro file hfile l hl
  by_contra hunreadable
  obtain ⟨hscalar, hvalid⟩ := hjson file hfile
  obtain ⟨py, hpy⟩ := hvalid l hl
  obtain ⟨t, t', ht⟩ := foldlM_step_ok h _ (List.mem_map_of_mem hfile)
  rw [readFile_fileText hscalar] at ht
  obtain ⟨piece, hmem, hraises⟩ := exists_unreadable hpy hunreadable
  obtain ⟨u, u', hu⟩ := foldlM_step_ok ht piece (List.mem_flatMap.mpr ⟨l, hl, hmem⟩)
  exact hraises u u' hu

/-- Readable lines give one row for each triple and participant. -/
theorem readLines_ok {lines : List JsonLine} (hvalid : ∀ l ∈ lines, ∃ py, l.Valid py)
    (hreadable : ∀ l ∈ lines, r.Readable l) (hwell : ∀ l ∈ lines, r.WellFormed l.fields)
    (rest : List (List (PyStr × Json))) (s : Progress) :
    ∃ s', (lines.flatMap fun l => PyStr.nonblank [] l.text).foldlM r.readLine s = .ok s' ∧
      s'.rows ++ (r.inRecords s'.priorOffsets rest).map r.row =
        s.rows ++ (r.inRecords s.priorOffsets (lines.map JsonLine.fields ++ rest)).map r.row := by
  induction lines generalizing s with
  | nil => exact ⟨s, rfl, rfl⟩
  | cons l lines ih =>
    simp only [List.forall_mem_cons] at hvalid hreadable hwell
    obtain ⟨⟨py, hpy⟩, hvalid⟩ := hvalid
    obtain ⟨s', hs', heq⟩ := ih hvalid hreadable.2 hwell.2 _
    refine ⟨s', ?_, heq.trans ?_⟩
    · rw [List.flatMap_cons, List.foldlM_append, readLines_readable hpy hreadable.1,
        readRecord_wellFormed hwell.1]
      exact hs'
    · rw [List.map_cons, List.cons_append, inRecords, List.map_append, List.append_assoc]

theorem readFiles_ok (hjson : ∀ file ∈ files, AreJsonLines file.2)
    (hreadable : ∀ file ∈ files, ∀ l ∈ file.2, r.Readable l)
    (hwell : ∀ file ∈ files, ∀ l ∈ file.2, r.WellFormed l.fields) (s : Progress) :
    ∃ s', (written files).foldlM r.readFile s = .ok s' ∧ s'.rows = s.rows ++
      (r.inRecords s.priorOffsets (files.flatMap fun file => file.2.map JsonLine.fields)).map r.row := by
  induction files generalizing s with
  | nil => exact ⟨s, rfl, (List.append_nil _).symm⟩
  | cons file files ih =>
    simp only [List.forall_mem_cons] at hjson hreadable hwell
    obtain ⟨mid, hmid, heq⟩ := readLines_ok hjson.1.2 hreadable.1 hwell.1
      (files.flatMap fun file => file.2.map JsonLine.fields) s
    obtain ⟨s', hs', hrows⟩ := ih hjson.2 hreadable.2 hwell.2 mid
    refine ⟨s', ?_, hrows.trans heq⟩
    rw [written, List.map_cons, List.foldlM_cons, readFile_fileText hjson.1.1, hmid]
    exact hs'

/-- A worker with the passage "xab". -/
def smallReader : Reader where
  toExtractor := smallExtractor
  strOther := fun _ => []
  passages := [(PyStr.lit "p", PyStr.lit "xab")]

/-- A line with a triple. -/
def smallLine : JsonLine where
  before := []
  object := PyStr.lit "\x7b\"id\":\"p\",\"original_text\":\"ab\",\"entity_relation_dict\":[\x7b\"Head\":\"a\",\"Relation\":\"r\",\"Tail\":\"b\"\x7d]\x7d"
  after := PyStr.lit " "
  fields :=
    [(PyStr.lit "id", .str (PyStr.lit "p")), (PyStr.lit "original_text", .str (PyStr.lit "ab")),
      (PyStr.lit "entity_relation_dict", .arr [.obj [(PyStr.lit "Head", .str (PyStr.lit "a")),
        (PyStr.lit "Relation", .str (PyStr.lit "r")), (PyStr.lit "Tail", .str (PyStr.lit "b"))]])]

theorem forall_of_all {p : CodePoint → Bool} {text : PyStr} (h : (text.all fun c => !p c) = true) :
    ∀ c ∈ text, p c = false := by
  simpa only [List.all_eq_true, Bool.not_eq_true'] using h

theorem smallLine_valid : smallLine.Valid smallReader.py where
  before := rfl
  after := rfl
  opens := rfl
  closes := rfl
  oneLine := by decide +kernel
  read := rfl

/-- A line whose string has a U+2028. -/
def separatorLine : JsonLine where
  before := []
  object := PyStr.lit "\x7b\"id\":\"p\",\"original_text\":\"\u2028\"\x7d"
  after := []
  fields := [(PyStr.lit "id", .str (PyStr.lit "p")), (PyStr.lit "original_text", .str (PyStr.lit "\u2028"))]

end Reader

end ControlPlane.Extraction.Atlas
