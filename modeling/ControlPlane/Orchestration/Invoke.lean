/-
  OFFLOAD ADMISSION: `invoke_offload` of `apps/orchestration/api.py`.

  The route checks the request, and inside one transaction that holds the tenant's row it looks the
  `operation_id` up, enforces the quota and inserts the job.  Only after the commit does it enqueue
  `dispatch_offload`, so a call may end in between: `Fate` says how far it gets.

  What is compared on a reuse, and what is not, is read off `invokeOffload`: the operation and the
  input of the second request are never looked at.
-/
import ControlPlane.Admissions
import ControlPlane.Competence.Jobs
import ControlPlane.Json
import ControlPlane.Orchestration.Job

namespace ControlPlane.Orchestration

/-! ## Requests and rows -/

structure ArrowBatchDescriptor where
  arrowSchemaJson : String := ""
  rows : Option Int := none
  payloadDigest : String := ""
  artifactKey : String := ""
  downloadUrl : String := ""

structure InvokeRequest where
  operation : String
  operationId : String
  input : ArrowBatchDescriptor
  inputEntityIds : List String := []
  params : List (PyStr × Json) := []

/-- The columns that admission writes and no task changes; of `kwargs_json`, the keys it writes. -/
structure Submission where
  operation : String
  inputPayloadDigest : String
  params : List (PyStr × Json)
  inputEntityIds : List String
  inputSchemaJson : String
  inputRows : Option Int
  inputArtifactKey : String

structure Progress where
  status : Status := .queued
  celeryTaskId : String := ""
  deriving DecidableEq

/-- `control_job`, with its `UniqueConstraint(fields=["tenant", "operation_id"])`. -/
abbrev JobTable := Admissions (String × String) Submission Progress

def InvokeRequest.submission (body : InvokeRequest) : Submission where
  operation := body.operation
  inputPayloadDigest := body.input.payloadDigest
  params := body.params
  inputEntityIds := body.inputEntityIds
  inputSchemaJson := body.input.arrowSchemaJson
  inputRows := body.input.rows
  inputArtifactKey := body.input.artifactKey

/-! ## The checks -/

/-- `OFFLOAD_EXECUTION_MODE` and `R_OFFLOAD_EXECUTION_MODE`, and whether `ArtifactStore.from_settings`
    finds its settings (else what it says). -/
structure InvokeSettings where
  offloadExecutionMode : String := "stub"
  rOffloadExecutionMode : String := "stub"
  artifactStore : Except String Unit := .ok ()

/-- `REGISTERED_OPERATIONS`. -/
def registeredOperations : List String :=
  ["data_science.tabfm.label_aggregate", "data_science.gnn.denoise", "data_science.gnn.embed",
    "data_science.community.assign", "data_science.r.survey_weight", "data_science.r.mixed_model",
    "data_science.r.survival"]

def requiresArtifact (cfg : InvokeSettings) (operation : String) : Bool :=
  cfg.offloadExecutionMode == "runpod" ||
    (isROperation operation && cfg.rOffloadExecutionMode == "rpy2")

/-- The `try` block over the input of a live execution. -/
def checkInput (tenantId : String) (input : ArrowBatchDescriptor) : Option String :=
  match Competence.validateKey tenantId input.artifactKey with
  | .error (.configuration detail) | .error (.storage detail) | .error (.validation detail) =>
      some detail
  | .ok _ =>
      if !Competence.isSha256Address input.payloadDigest then
        some "input.payload_digest must be a sha256 digest"
      else if input.arrowSchemaJson = "" then some "input.schema_json is required for live execution"
      else if input.rows = none then some "input.rows is required for live execution"
      else none

/-- What the route refuses before it looks at the table. -/
def refusal (cfg : InvokeSettings) (tenantId : String) (body : InvokeRequest) :
    Option (Nat × String) :=
  if body.operation ∉ registeredOperations then
    some (400, "unknown operation: " ++ body.operation)
  else if requiresArtifact cfg body.operation then
    match cfg.artifactStore with
    | .error detail => some (503, "artifact storage unavailable: " ++ detail)
    | .ok _ => (checkInput tenantId body.input).map fun detail => (400, detail)
  else none

/-- `_enforce_concurrent_job_quota`; `limit` is `int(plan.limits["concurrent_jobs"])` of the tenant's
    newest active subscription, when there is one and the conversion succeeds. -/
def enforceConcurrentJobQuota (limit : Option Int) (tenantId : String) (s : JobTable) :
    Option (Nat × String) :=
  limit.bind fun limit =>
    let active := s.rows.countP fun row =>
      row.key.1 == tenantId && (row.progress.status == .queued || row.progress.status == .running)
    if limit < 0 then none
    else if limit ≤ active then
      some (429, "concurrent_jobs limit reached (" ++ toString active ++ "/" ++ toString limit ++ ")")
    else none

/-! ## The route -/

structure InvokeBody where
  operationId : String
  status : Status
  deriving DecidableEq

/-- After the commit of job `i`: `delay`, the save of `async_result.id`, and the answer. -/
def dispatchOffload (operationId : String) (fate : Fate (Option String)) (i : Nat) (s : JobTable) :
    JobTable × Answer Nat InvokeBody :=
  match fate with
  | .answered taskId =>
      ((s.dispatch i).update i fun p => { p with celeryTaskId := taskId.getD "" },
        .submitted i false ⟨operationId, .queued⟩)
  | .unanswered => (s.dispatch i, .raised)
  | .notDispatched | .rolledBack => (s, .raised)

/-- `invoke_offload`. -/
def invokeOffload (cfg : InvokeSettings) (tenantId : String) (limit : Option Int)
    (body : InvokeRequest) (fate : Fate (Option String)) (s : JobTable) : JobTable × Answer Nat InvokeBody :=
  match refusal cfg tenantId body with
  | some (status, detail) => (s, .refused status detail)
  | none =>
      if fate = .rolledBack then (s, .raised)
      else match h : s.find? (tenantId, body.operationId) with
        | some (existing, i) => (s, .submitted i true ⟨body.operationId, existing.progress.status⟩)
        | none => match enforceConcurrentJobQuota limit tenantId s with
          | some (status, detail) => (s, .refused status detail)
          | none => dispatchOffload body.operationId fate s.rows.length
              (s.enrol (tenantId, body.operationId) body.submission {} h)

/-! ## What a call does -/

variable {cfg : InvokeSettings} {tenantId : String} {limit : Option Int} {body : InvokeRequest}
  {fate : Fate (Option String)} {s s' : JobTable} {answer : Answer Nat InvokeBody}

/-- Everything a call can do: refuse, fail and change nothing, reuse, or admit. -/
theorem invoke_cases (h : invokeOffload cfg tenantId limit body fate s = (s', answer)) :
    (s' = s ∧ ((∃ status detail, answer = .refused status detail) ∨ answer = .raised)) ∨
    (refusal cfg tenantId body = none ∧ s' = s ∧ ∃ existing i,
      s.find? (tenantId, body.operationId) = some (existing, i) ∧
      answer = .submitted i true ⟨body.operationId, existing.progress.status⟩) ∨
    ∃ hnew : s.find? (tenantId, body.operationId) = none, fate ≠ .rolledBack ∧
      dispatchOffload body.operationId fate s.rows.length
        (s.enrol (tenantId, body.operationId) body.submission {} hnew) = (s', answer) := by
  unfold invokeOffload at h
  split at h
  · cases h
    exact Or.inl ⟨rfl, Or.inl ⟨_, _, rfl⟩⟩
  · rename_i hchecks
    split at h
    · cases h
      exact Or.inl ⟨rfl, Or.inr rfl⟩
    · rename_i hfate
      split at h
      · rename_i existing i hfind
        cases h
        exact Or.inr (Or.inl ⟨hchecks, rfl, existing, i, hfind, rfl⟩)
      · rename_i hfind
        split at h
        · cases h
          exact Or.inl ⟨rfl, Or.inl ⟨_, _, rfl⟩⟩
        · exact Or.inr (Or.inr ⟨hfind, hfate, h⟩)

/-- What the table looks like after a call that admits: the answer names the new row. -/
theorem dispatchOffload_cases {operationId : String} {i : Nat}
    (h : dispatchOffload operationId fate i s = (s', answer)) :
    (s' = s ∧ answer = .raised ∧ (fate = .notDispatched ∨ fate = .rolledBack)) ∨
    (s' = s.dispatch i ∧ answer = .raised ∧ fate = .unanswered) ∨
    ∃ taskId, fate = .answered taskId ∧ answer = .submitted i false ⟨operationId, .queued⟩ ∧
      s' = (s.dispatch i).update i fun p => { p with celeryTaskId := taskId.getD "" } := by
  unfold dispatchOffload at h
  split at h
  · rename_i taskId
    cases h
    exact Or.inr (Or.inr ⟨taskId, rfl, rfl, rfl⟩)
  · cases h
    exact Or.inr (Or.inl ⟨rfl, rfl, rfl⟩)
  · cases h
    exact Or.inl ⟨rfl, rfl, Or.inl rfl⟩
  · cases h
    exact Or.inl ⟨rfl, rfl, Or.inr rfl⟩

/-- A call of the route, for the admission table. -/
structure InvokeCall where
  tenantId : String
  limit : Option Int := none
  body : InvokeRequest
  fate : Fate (Option String)

def InvokeCall.run (cfg : InvokeSettings) (call : InvokeCall) (s : JobTable) :
    JobTable × Answer Nat InvokeBody :=
  invokeOffload cfg call.tenantId call.limit call.body call.fate s

/-- The call ends between the commit and `delay`. -/
def InvokeCall.givesUp (call : InvokeCall) : Bool := call.fate == .notDispatched

theorem invoke_effect (cfg : InvokeSettings) (call : InvokeCall) (s : JobTable) :
    Admissions.Effect call.givesUp s (call.run cfg s).1 := by
  obtain ⟨s', answer, hrun⟩ : ∃ s' answer, call.run cfg s = (s', answer) := ⟨_, _, rfl⟩
  rw [hrun]
  rcases invoke_cases hrun with ⟨rfl, -⟩ | ⟨-, rfl, -⟩ | ⟨hnew, hfate, hdispatch⟩
  · exact .nothing rfl rfl
  · exact .nothing rfl rfl
  · refine .admitted ?_ ?_ <;>
      rcases dispatchOffload_cases hdispatch with ⟨rfl, -, hor⟩ | ⟨rfl, -, hf⟩ | ⟨taskId, hf, -, rfl⟩
    · simp [Admissions.enrol]
    · simp [Admissions.enrol, Admissions.dispatch]
    · simp [Admissions.enrol, Admissions.dispatch, Admissions.update]
    · have hf : call.fate = .notDispatched := hor.resolve_right hfate
      simp [InvokeCall.givesUp, hf, Admissions.enrol]
    · simp [InvokeCall.givesUp, hf, Admissions.enrol, Admissions.dispatch]
    · simp [InvokeCall.givesUp, hf, Admissions.enrol, Admissions.dispatch, Admissions.update]

end ControlPlane.Orchestration
