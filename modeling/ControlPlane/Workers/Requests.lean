/-
  REQUESTS OF THE WORKERS: `validate_input` of `runpod/theorem_offload_contract_worker/worker.py` and of
  `runpod/theorem_extraction_worker/worker.py`.

  A request is any JSON value.  Both workers make the same checks of contract, input and output
  (`checkArtifacts`); they differ in the operations they serve, in a row count that is null, in a
  `max_bytes` that is null, and in what they ask of the params.  Only one of them asks whether the
  operation is a string before it looks it up in a set, where a list or an object RAISES.

  `validateInput_iff`: what a valid request is, field by field.
-/
import ControlPlane.Fallible
import ControlPlane.Json

namespace ControlPlane.Workers

open PyStr (lit)

abbrev Fields := List (PyStr × Json)

/-! ## What is asked of a value -/

/-- `value.get(name)`. -/
def get (value : Fields) (name : String) : Json := (Json.get? value name).getD .null

/-- `value == text`. -/
def isText (text : String) : Json → Bool
  | .str s => s == lit text
  | _ => false

def isStr : Json → Bool
  | .str _ => true
  | _ => false

def isNull : Json → Bool
  | .null => true
  | _ => false

/-- `isinstance(value, Mapping)`. -/
def isMapping : Json → Bool
  | .obj _ => true
  | _ => false

/-- A string that is not empty. -/
def nonEmpty : Json → Bool
  | .str s => !s.isEmpty
  | _ => false

/-- A string whose `strip()` is not empty. -/
def nonBlank : Json → Bool
  | .str s => !s.blank
  | _ => false

def isHttps : Json → Bool
  | .str s => (lit "https://").isPrefixOf s
  | _ => false

/-- `_is_sha256_digest`, `_is_sha256`. -/
def isDigest : Json → Bool
  | .str s => s.isSha256Digest
  | _ => false

/-- `isinstance(value, int) and not isinstance(value, bool)`. -/
def isInt : Json → Bool
  | .int _ => true
  | _ => false

def nonNegative : Json → Bool
  | .int n => decide (0 ≤ n)
  | _ => false

def positive : Json → Bool
  | .int n => decide (0 < n)
  | _ => false

/-- It is one of these texts. -/
def oneOf (texts : List String) (value : Json) : Bool := texts.any fun text => isText text value

/-- `value.endswith(text)`. -/
def endsWith (text : String) : Json → Bool
  | .str s => (lit text).isSuffixOf s
  | _ => false

/-- A value that `hash` refuses. -/
def unhashable : Json → Bool
  | .arr _ | .obj _ => true
  | _ => false

/-! ## Checks -/

/-- The classes that the workers' `except` clauses list; `other` is derived from none of them. -/
inductive ErrorClass where
  | osError
  | valueError
  | keyError
  | typeError
  | other
  deriving DecidableEq

/-- An exception, and its `str`. -/
structure Raised where
  cls : ErrorClass
  text : PyStr := []
  deriving DecidableEq

/-- How a validation ends before its end. -/
inductive Stop where
  /-- It returns this message. -/
  | invalid (message : PyStr)
  | raised (e : Raised)
  deriving DecidableEq

/-- `if not ok: return message`. -/
def ensure (ok : Bool) (message : String) : Except Stop Unit :=
  if ok then .ok () else .error (.invalid (lit message))

def mapping (value : Json) (message : String) : Except Stop Fields :=
  match value with
  | .obj fields => .ok fields
  | _ => .error (.invalid (lit message))

def offloadContract : String := "theorem.offload.v1"

def extractionContract : String := "theorem.extraction.v1"

/-- The descriptors of input and output. -/
def checkArtifacts (rowsOk : Json → Bool) (rowsMessage : String) (value : Fields) :
    Except Stop Unit := do
  let descriptor ← mapping (get value "input") "input must be an Arrow descriptor object"
  ensure (isStr (get descriptor "schema_json")) "input.schema_json must be a string"
  ensure (rowsOk (get descriptor "rows")) rowsMessage
  ensure (isDigest (get descriptor "payload_digest")) "input.payload_digest must be a sha256 digest"
  ensure (nonEmpty (get descriptor "artifact_key")) "input.artifact_key must be a non-empty string"
  ensure (isHttps (get descriptor "read_url")) "input.read_url must be an HTTPS signed URL"
  let output ← mapping (get value "output") "output must be an object"
  ensure (nonEmpty (get output "artifact_key")) "output.artifact_key must be a non-empty string"
  ensure (isHttps (get output "write_url")) "output.write_url must be an HTTPS signed URL"

namespace OffloadWorker

def supportedOperations : List String :=
  ["data_science.tabfm.label_aggregate", "data_science.gnn.denoise", "data_science.gnn.embed",
    "data_science.community.assign"]

/-- `validate_input`. -/
def validateInput (value : Json) : Except Stop Unit := do
  let value ← mapping value "job input must be an object"
  ensure (isText offloadContract (get value "contract"))
    "contract must equal 'theorem.offload.v1'"
  ensure (oneOf supportedOperations (get value "operation"))
    "operation is not a supported Theorem Python offload operation"
  ensure (nonBlank (get value "operation_id")) "operation_id must be a non-empty string"
  checkArtifacts (fun rows => isNull rows || nonNegative rows)
    "input.rows must be a non-negative integer or null" value
  ensure (isMapping (get value "params")) "params must be an object"
  ensure (isNull (get value "max_bytes") || positive (get value "max_bytes"))
    "max_bytes must be a positive integer"

end OffloadWorker

namespace ExtractionWorker

def supportedOperations : List String :=
  ["data_science.extraction.atlas", "data_science.extraction.typed"]

/-- What a typed extraction needs. -/
def checkObjectType (params : Fields) : Except Stop Unit := do
  let objectType ← mapping (get params "object_type") "typed extraction requires params.object_type"
  ["object_type_id", "label_identifier_field", "system"].forM fun name =>
    ensure (nonBlank (get objectType name))
      ("params.object_type." ++ name ++ " must be a non-empty string")
  ensure (isMapping (get objectType "schema")) "params.object_type.schema must be an object"

/-- `validate_input`; `maxArtifactBytes` is `MAX_ARTIFACT_BYTES`. -/
def validateInput (maxArtifactBytes : Int) (value : Json) : Except Stop Unit := do
  let value ← mapping value "job input must be an object"
  ensure (isText offloadContract (get value "contract"))
    "contract must equal 'theorem.offload.v1'"
  -- `in SUPPORTED_OPERATIONS`, a frozenset
  if unhashable (get value "operation") then .error (.raised { cls := .typeError })
  ensure (oneOf supportedOperations (get value "operation"))
    "operation is not a supported extraction operation"
  ensure (nonBlank (get value "operation_id")) "operation_id must be a non-empty string"
  checkArtifacts nonNegative "input.rows must be a non-negative integer" value
  let params ← mapping (get value "params") "params must be an object"
  ensure (isText extractionContract (get params "contract"))
    "params.contract must equal 'theorem.extraction.v1'"
  ["tenant_id", "job_id"].forM fun name =>
    ensure (nonBlank (get params name)) ("params." ++ name ++ " must be a non-empty string")
  ensure (isInt (get params "shard")) "params.shard must be an integer"
  ensure (positive ((Json.get? value "max_bytes").getD (.int maxArtifactBytes)))
    "max_bytes must be a positive integer"
  if endsWith ".typed" (get value "operation") then checkObjectType params

end ExtractionWorker

/-! ## What is valid -/

variable {value : Json} {fields params : Fields} {rowsOk : Json → Bool} {rowsMessage message : String}
  {ok : Bool} {maxArtifactBytes : Int}

/-- What the checks of input and output ask for. -/
structure Artifacts (rowsOk : Json → Bool) (fields descriptor output : Fields) : Prop where
  input : get fields "input" = .obj descriptor
  schemaJson : isStr (get descriptor "schema_json") = true
  rows : rowsOk (get descriptor "rows") = true
  payloadDigest : isDigest (get descriptor "payload_digest") = true
  artifactKey : nonEmpty (get descriptor "artifact_key") = true
  readUrl : isHttps (get descriptor "read_url") = true
  outputMapping : get fields "output" = .obj output
  outputKey : nonEmpty (get output "artifact_key") = true
  writeUrl : isHttps (get output "write_url") = true

/-- A request that the offload worker executes. -/
structure OffloadWorker.Valid (fields descriptor output : Fields) : Prop where
  contract : isText offloadContract (get fields "contract") = true
  operation : oneOf supportedOperations (get fields "operation") = true
  operationId : nonBlank (get fields "operation_id") = true
  artifacts : Artifacts (fun rows => isNull rows || nonNegative rows) fields descriptor output
  params : isMapping (get fields "params") = true
  maxBytes : (isNull (get fields "max_bytes") || positive (get fields "max_bytes")) = true

/-- What a typed extraction has besides. -/
structure ExtractionWorker.Typed (params : Fields) : Prop where
  typed : ∃ objectType, get params "object_type" = .obj objectType ∧
    (∀ name ∈ ["object_type_id", "label_identifier_field", "system"],
      nonBlank (get objectType name) = true) ∧ isMapping (get objectType "schema") = true

/-- A request that the extraction worker executes. -/
structure ExtractionWorker.Valid (maxArtifactBytes : Int) (fields descriptor output params : Fields) :
    Prop where
  contract : isText offloadContract (get fields "contract") = true
  operation : oneOf supportedOperations (get fields "operation") = true
  operationId : nonBlank (get fields "operation_id") = true
  artifacts : Artifacts nonNegative fields descriptor output
  paramsMapping : get fields "params" = .obj params
  paramsContract : isText extractionContract (get params "contract") = true
  names : ∀ name ∈ ["tenant_id", "job_id"], nonBlank (get params name) = true
  shard : isInt (get params "shard") = true
  maxBytes : positive ((Json.get? fields "max_bytes").getD (.int maxArtifactBytes)) = true
  typed : endsWith ".typed" (get fields "operation") = true → ExtractionWorker.Typed params

theorem ensure_ok : ensure ok message = .ok () ↔ ok = true := by
  cases ok <;> simp [ensure]

/-- A check, and what comes behind it. -/
theorem then_ok {check rest : Except Stop Unit} :
    (check >>= fun _ => rest) = .ok () ↔ check = .ok () ∧ rest = .ok () := by
  rw [Fallible.bind_ok]
  constructor
  · rintro ⟨u, h, hrest⟩
    exact ⟨h, hrest⟩
  · rintro ⟨h, hrest⟩
    exact ⟨(), h, hrest⟩

theorem mapping_bind_ok {rest : Fields → Except Stop Unit} :
    (mapping value message >>= rest) = .ok () ↔
      ∃ fields, value = .obj fields ∧ rest fields = .ok () := by
  cases value with
  | obj fields =>
    constructor
    · exact fun h => ⟨fields, rfl, h⟩
    · rintro ⟨fields', heq, h⟩
      cases heq
      exact h
  | _ =>
    refine iff_of_false nofun ?_
    rintro ⟨fields, heq, -⟩
    cases heq

theorem checkArtifacts_ok : checkArtifacts rowsOk rowsMessage fields = .ok () ↔
    ∃ descriptor output, Artifacts rowsOk fields descriptor output := by
  unfold checkArtifacts
  simp only [mapping_bind_ok, then_ok, ensure_ok]
  constructor
  · rintro ⟨descriptor, h1, h2, h3, h4, h5, h6, output, h7, h8, h9⟩
    exact ⟨descriptor, output, h1, h2, h3, h4, h5, h6, h7, h8, h9⟩
  · rintro ⟨descriptor, output, h1, h2, h3, h4, h5, h6, h7, h8, h9⟩
    exact ⟨descriptor, h1, h2, h3, h4, h5, h6, output, h7, h8, h9⟩

/-- **The offload worker** accepts exactly the valid requests. -/
theorem OffloadWorker.validateInput_iff : OffloadWorker.validateInput value = .ok () ↔
    ∃ fields descriptor output, value = .obj fields ∧ OffloadWorker.Valid fields descriptor output := by
  unfold OffloadWorker.validateInput
  simp only [mapping_bind_ok, then_ok, checkArtifacts_ok, ensure_ok]
  constructor
  · rintro ⟨fields, rfl, h1, h2, h3, ⟨descriptor, output, h4⟩, h5, h6⟩
    exact ⟨fields, descriptor, output, rfl, h1, h2, h3, h4, h5, h6⟩
  · rintro ⟨fields, descriptor, output, rfl, h1, h2, h3, h4, h5, h6⟩
    exact ⟨fields, rfl, h1, h2, h3, ⟨descriptor, output, h4⟩, h5, h6⟩

theorem ExtractionWorker.checkObjectType_ok :
    ExtractionWorker.checkObjectType params = .ok () ↔ ExtractionWorker.Typed params := by
  unfold ExtractionWorker.checkObjectType
  simp only [mapping_bind_ok, then_ok, Fallible.forM_ok, ensure_ok]
  constructor
  · rintro ⟨objectType, h1, h2, h3⟩
    exact ⟨objectType, h1, h2, h3⟩
  · rintro ⟨objectType, h1, h2, h3⟩
    exact ⟨objectType, h1, h2, h3⟩

/-- One of the operations has no list and no object for a name. -/
theorem hashable_of_oneOf {texts : List String} (h : oneOf texts value = true) :
    unhashable value = false := by
  obtain ⟨text, -, htext⟩ := List.any_eq_true.mp h
  cases value with
  | str s => rfl
  | _ => cases htext

/-- **The extraction worker** accepts exactly the valid requests. -/
theorem ExtractionWorker.validateInput_iff :
    ExtractionWorker.validateInput maxArtifactBytes value = .ok () ↔
      ∃ fields descriptor output params, value = .obj fields ∧
        ExtractionWorker.Valid maxArtifactBytes fields descriptor output params := by
  unfold ExtractionWorker.validateInput
  simp only [mapping_bind_ok, then_ok, ensure_ok]
  constructor
  · rintro ⟨fields, rfl, h1, h⟩
    split at h
    · cases h
    · simp only [then_ok, checkArtifacts_ok, mapping_bind_ok, Fallible.forM_ok, ensure_ok] at h
      obtain ⟨h2, h3, ⟨descriptor, output, h4⟩, params, h5, h6, h7, h8, h9, h10⟩ := h
      refine ⟨fields, descriptor, output, params, rfl, h1, h2, h3, h4, h5, h6, h7, h8, h9,
        fun htyped => ?_⟩
      rw [if_pos htyped] at h10
      exact ExtractionWorker.checkObjectType_ok.mp h10
  · rintro ⟨fields, descriptor, output, params, rfl, h1, h2, h3, h4, h5, h6, h7, h8, h9, h10⟩
    refine ⟨fields, rfl, h1, ?_⟩
    rw [hashable_of_oneOf h2, if_neg Bool.false_ne_true]
    simp only [then_ok, checkArtifacts_ok, mapping_bind_ok, Fallible.forM_ok, ensure_ok]
    refine ⟨h2, h3, ⟨descriptor, output, h4⟩, params, h5, h6, h7, h8, h9, ?_⟩
    split
    · rename_i htyped
      exact ExtractionWorker.checkObjectType_ok.mpr (h10 htyped)
    · rfl

/-! ## What raises -/

section Quiet

variable {α β : Type} {x : Except Stop α} {g : α → Except Stop β} {names : List String}
  {check : String → Except Stop Unit}

/-- It does not raise. -/
def Quiet (x : Except Stop α) : Prop := ∀ e, x ≠ .error (.raised e)

theorem quiet_ok (a : α) : Quiet (.ok a) := nofun

theorem quiet_bind (hx : Quiet x) (hg : ∀ a, Quiet (g a)) : Quiet (x >>= g) := by
  intro e h
  rcases Fallible.bind_error.mp h with h | ⟨a, -, h⟩
  · exact hx e h
  · exact hg a e h

theorem quiet_ensure : Quiet (ensure ok message) := by
  cases ok <;> exact nofun

theorem quiet_mapping : Quiet (mapping value message) := by
  cases value <;> exact nofun

theorem quiet_forM (h : ∀ name, Quiet (check name)) : Quiet (names.forM check) := by
  induction names with
  | nil => exact quiet_ok ()
  | cons name names ih => exact quiet_bind (h name) fun _ => ih

theorem quiet_checkArtifacts : Quiet (checkArtifacts rowsOk rowsMessage fields) := by
  refine quiet_bind quiet_mapping fun descriptor => ?_
  iterate 5 refine quiet_bind quiet_ensure fun _ => ?_
  refine quiet_bind quiet_mapping fun output => ?_
  exact quiet_bind quiet_ensure fun _ => quiet_ensure

theorem OffloadWorker.quiet_validateInput (value : Json) :
    Quiet (OffloadWorker.validateInput value) := by
  refine quiet_bind quiet_mapping fun fields => ?_
  iterate 3 refine quiet_bind quiet_ensure fun _ => ?_
  refine quiet_bind quiet_checkArtifacts fun _ => ?_
  exact quiet_bind quiet_ensure fun _ => quiet_ensure

theorem ExtractionWorker.quiet_checkObjectType (params : Fields) :
    Quiet (ExtractionWorker.checkObjectType params) := by
  refine quiet_bind quiet_mapping fun objectType => ?_
  exact quiet_bind (quiet_forM fun _ => quiet_ensure) fun _ => quiet_ensure

/-- **The extraction worker's validation** raises on an operation that is a list or an object. -/
theorem ExtractionWorker.validateInput_raised {e : Raised} :
    ExtractionWorker.validateInput maxArtifactBytes (.obj fields) = .error (.raised e) ↔
      isText offloadContract (get fields "contract") = true ∧
        unhashable (get fields "operation") = true ∧ e = { cls := .typeError } := by
  have hrest : ∀ message (rest : Except Stop Unit),
      (ensure (isText offloadContract (get fields "contract")) message >>= fun _ => rest) =
        .error (.raised e) ↔ isText offloadContract (get fields "contract") = true ∧
          rest = .error (.raised e) := by
    intro message rest
    cases isText offloadContract (get fields "contract") with
    | true => exact (and_iff_right rfl).symm
    | false => exact iff_of_false nofun fun h => nomatch h.1
  refine (hrest _ _).trans (and_congr_right fun _ => ?_)
  cases unhashable (get fields "operation") with
  | true =>
    constructor
    · intro h
      cases h
      exact ⟨rfl, rfl⟩
    · rintro ⟨-, rfl⟩
      rfl
  | false =>
    rw [if_neg Bool.false_ne_true]
    refine iff_of_false ?_ fun h => nomatch h.1
    refine quiet_bind quiet_ensure (fun _ => ?_) e
    refine quiet_bind quiet_ensure fun _ => ?_
    refine quiet_bind quiet_checkArtifacts fun _ => ?_
    refine quiet_bind quiet_mapping fun params => ?_
    refine quiet_bind quiet_ensure fun _ => ?_
    refine quiet_bind (quiet_forM fun _ => quiet_ensure) fun _ => ?_
    refine quiet_bind quiet_ensure fun _ => ?_
    refine quiet_bind quiet_ensure fun _ => ?_
    split
    · exact ExtractionWorker.quiet_checkObjectType params
    · exact quiet_ok ()

end Quiet

end ControlPlane.Workers
