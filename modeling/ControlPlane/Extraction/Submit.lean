/-
  EXTRACTION ADMISSION: `submit` of `apps/extraction/api.py`.

  A job is known by what it computes: tenant, operation, kind of source, source and the hash of the
  effective parameters.  As in offload admission the row is committed first, and
  `submit_extraction.delay` comes after it.
-/
import ControlPlane.Admissions
import ControlPlane.Extraction.Ledger
import ControlPlane.Tenancy

namespace ControlPlane.Extraction

/-! ## Requests and rows -/

structure SubmitRequest where
  operation : String
  sourceKind : String
  sourceRef : List (PyStr × Json) := []
  params : List (PyStr × Json) := []

/-- What the route reads of the extraction contract file. -/
structure ContractFile where
  contract : PyStr
  defaultModelId : PyStr
  promptHashes : List (PyStr × Json)
  schemaHash : PyStr

/-- The contract, `float.__repr__`, the hexadecimal SHA-256, and the normal form by which the database
    compares JSON values. -/
structure SubmitSettings where
  contract : ContractFile
  repr : PyFloat → PyStr
  hexdigest : List UInt8 → String
  jsonb : Json → PyStr

/-- The columns that admission writes and no task changes. -/
structure Submission where
  operation : String
  sourceKind : String
  sourceRef : Json
  params : Json
  paramsHash : String

/-- The fields of `control_extract_job_idempotent_uniq`. -/
structure SubmissionKey where
  tenantId : String
  operation : String
  sourceKind : String
  paramsHash : String
  sourceRef : PyStr
  deriving DecidableEq

/-- `control_extractionjob`. -/
abbrev JobTable := Admissions SubmissionKey Submission ExtractionJob

/-! ## The checks -/

/-- `_effective_params`. -/
def effectiveParams (contract : ContractFile) (params : List (PyStr × Json)) :
    List (PyStr × Json) :=
  let params := Json.sortFields (Json.sortValues params)
  let modelId := match Json.get? params "model_id" with
    | some value => if value.truthy then value else .str contract.defaultModelId
    | none => .str contract.defaultModelId
  let params := Json.set params "contract" (.str contract.contract)
  let params := Json.set params "model_id" modelId
  let params := Json.set params "prompt_hashes" (.obj contract.promptHashes)
  Json.set params "schema_hash" (.str contract.schemaHash)

/-- One name of the loop in `_validate_typed_params`. -/
def checkObjectTypeField (objectType : List (PyStr × Json)) (name : String) :
    Option (Nat × String) :=
  match Json.get? objectType name with
  | some (.str text) =>
      if PyStr.blank text then
        some (400, "params.object_type." ++ name ++ " must be a non-empty string")
      else none
  | _ => some (400, "params.object_type." ++ name ++ " must be a non-empty string")

/-- `_validate_typed_params`. -/
def validateTypedParams (params : List (PyStr × Json)) : Option (Nat × String) :=
  match Json.get? params "object_type" with
  | some (.obj objectType) =>
      (["object_type_id", "label_identifier_field", "system"].findSome?
        (checkObjectTypeField objectType)).or (match Json.get? objectType "schema" with
          | some (.obj _) => none
          | _ => some (400, "params.object_type.schema must be an object"))
  | _ => some (400, "typed extraction requires params.object_type")

/-- What the route refuses before it looks at the table. -/
def refusal (cfg : SubmitSettings) (tenantId : String) (body : SubmitRequest) :
    Option (Nat × String) :=
  if body.operation ∉ ["atlas", "typed"] then
    some (400, "unsupported extraction operation: " ++ body.operation)
  else if body.sourceKind ∉ ["artifact", "web_corpus", "life_email"] then
    some (400, "unsupported extraction source: " ++ body.sourceKind)
  else (assertTenant tenantId body.sourceRef).or <| (assertTenant tenantId body.params).or <|
    if body.operation = "typed" then validateTypedParams (effectiveParams cfg.contract body.params)
    else none

/-- `canonical_hash`; `none` is `UnicodeEncodeError`. -/
def canonicalHash (cfg : SubmitSettings) (value : Json) : Option String :=
  (Json.canonicalJson cfg.repr value).map cfg.hexdigest

/-! ## The route -/

structure SubmitBody where
  shardCount : Nat
  deriving DecidableEq

/-- After the commit of job `i`: `delay`, `refresh_from_db` and the answer. -/
def dispatchSubmission (fate : Fate ExtractionJob) (i : Nat) (s : JobTable) :
    JobTable × Answer Nat SubmitBody :=
  match fate with
  | .answered refreshed =>
      ((s.dispatch i).update i fun _ => refreshed, .submitted i false ⟨refreshed.shardCount⟩)
  | .unanswered => (s.dispatch i, .raised)
  | .notDispatched | .rolledBack => (s, .raised)

/-- `submit`. -/
def submit (cfg : SubmitSettings) (tenantId : String) (body : SubmitRequest)
    (fate : Fate ExtractionJob) (s : JobTable) : JobTable × Answer Nat SubmitBody :=
  match refusal cfg tenantId body with
  | some (status, detail) => (s, .refused status detail)
  | none =>
      let params := Json.obj (effectiveParams cfg.contract body.params)
      let sourceRef := Json.sortKeys (.obj body.sourceRef)
      match canonicalHash cfg params with
      | none => (s, .raised)
      | some paramsHash =>
          let key : SubmissionKey :=
            { tenantId := tenantId
              operation := body.operation
              sourceKind := body.sourceKind
              paramsHash := paramsHash
              sourceRef := cfg.jsonb sourceRef }
          if fate = .rolledBack then (s, .raised)
          else match h : s.find? key with
            | some (existing, i) => (s, .submitted i true ⟨existing.progress.shardCount⟩)
            | none => dispatchSubmission fate s.rows.length (s.enrol key
                { operation := body.operation
                  sourceKind := body.sourceKind
                  sourceRef := sourceRef
                  params := params
                  paramsHash := paramsHash } {} h)

/-! ## What a call does -/

/-- A call of the route, for the admission table. -/
structure SubmitCall where
  tenantId : String
  body : SubmitRequest
  fate : Fate ExtractionJob

def SubmitCall.run (cfg : SubmitSettings) (call : SubmitCall) (s : JobTable) :
    JobTable × Answer Nat SubmitBody :=
  submit cfg call.tenantId call.body call.fate s

/-- The call ends between the commit and `delay`. -/
def SubmitCall.givesUp (call : SubmitCall) : Bool := call.fate == .notDispatched

variable {cfg : SubmitSettings} {tenantId : String} {body : SubmitRequest}
  {fate : Fate ExtractionJob} {s s' : JobTable} {answer : Answer Nat SubmitBody}

/-- Everything a call can do: end without an effect, reuse, or admit. -/
theorem submit_cases (h : submit cfg tenantId body fate s = (s', answer)) :
    (s' = s ∧ ((∃ status detail, answer = .refused status detail) ∨ answer = .raised)) ∨
    (s' = s ∧ ∃ key existing i, s.find? key = some (existing, i) ∧
      answer = .submitted i true ⟨existing.progress.shardCount⟩) ∨
    ∃ key content, ∃ hnew : s.find? key = none, fate ≠ .rolledBack ∧
      dispatchSubmission fate s.rows.length (s.enrol key content {} hnew) = (s', answer) := by
  unfold submit at h
  split at h
  · cases h
    exact Or.inl ⟨rfl, Or.inl ⟨_, _, rfl⟩⟩
  · dsimp only at h
    split at h
    · cases h
      exact Or.inl ⟨rfl, Or.inr rfl⟩
    · split at h
      · cases h
        exact Or.inl ⟨rfl, Or.inr rfl⟩
      · rename_i hfate
        split at h
        · rename_i existing i hfind
          cases h
          exact Or.inr (Or.inl ⟨rfl, _, existing, i, hfind, rfl⟩)
        · rename_i hfind
          exact Or.inr (Or.inr ⟨_, _, hfind, hfate, h⟩)

theorem submit_effect (cfg : SubmitSettings) (call : SubmitCall) (s : JobTable) :
    Admissions.Effect call.givesUp s (call.run cfg s).1 := by
  obtain ⟨s', answer, hrun⟩ : ∃ s' answer, call.run cfg s = (s', answer) := ⟨_, _, rfl⟩
  rw [hrun]
  rcases submit_cases hrun with ⟨rfl, -⟩ | ⟨rfl, -⟩ | ⟨key, content, hnew, hfate, hdispatch⟩
  · exact .nothing rfl rfl
  · exact .nothing rfl rfl
  · unfold dispatchSubmission at hdispatch
    split at hdispatch
    · rename_i refreshed hf
      cases hdispatch
      refine .admitted (by simp [Admissions.enrol, Admissions.dispatch, Admissions.update]) ?_
      simp [SubmitCall.givesUp, hf, Admissions.enrol, Admissions.dispatch, Admissions.update]
    · rename_i hf
      cases hdispatch
      refine .admitted (by simp [Admissions.enrol, Admissions.dispatch]) ?_
      simp [SubmitCall.givesUp, hf, Admissions.enrol, Admissions.dispatch]
    · rename_i hf
      cases hdispatch
      refine .admitted (by simp [Admissions.enrol]) ?_
      simp [SubmitCall.givesUp, hf, Admissions.enrol]
    · rename_i hf
      exact absurd hf hfate

end ControlPlane.Extraction
