/-
  THE COMPETENCE JOB MACHINE: `apps/competence/tasks.py` with the submission and the cleanup of
  `apps/competence/api.py`, as an interleaved program.

  A process is one DELIVERY of `run_competence_fit`.  Between two of its program points it makes one
  row transaction, one query, or one call to the object store:

  * `claim` → `fit` → (`put` → `readBack` → `record`) for the prior pack and again for the model →
    `finishSuccess`; a refusal, an invalid request or a failure goes to `finishProblem`,
  * a storage failure goes back to `claim` while retries are left: Celery delivers the message again
    under the SAME task id.  Anybody may deliver a job at any time, under any task id, and a worker
    may die at any point.

  Submissions, sweeps and cleanups are moves of the store.  A cleanup deletes objects while it holds
  the row lock, so that no other row transaction runs in between; its deletions and its receipt are
  one move.  Which rows are stale is for the clock to say: a sweep names any it likes.
-/
import ControlPlane.Competence.Jobs
import ControlPlane.Interleave

namespace ControlPlane.Competence

open ControlPlane.Interleave

variable {c : Canonical}

/-! ## Row transactions -/

/-- What a delivery leaves in `refusal_json` and `error`, and with which status. -/
structure Problem where
  status : JobStatus
  code : String
  detail : String
  retryable : Bool
  deriving DecidableEq, Repr

/-- What `run_competence_fit` returns. -/
inductive TaskResult where
  | missing
  | joined (status : JobStatus)
  | canceled
  | reused
  | succeeded (scorerId scorerVersion modelArtifactId priorPackId : String)
  | problem (status : JobStatus) (code : String) (retryable : Bool)
  deriving DecidableEq, Repr

/-- `_claim_job`: the row as it is saved, or as it is. -/
def claimJob (taskId : String) (job : CompetenceJob c) : CompetenceJob c :=
  if job.status = .succeeded ∨ job.status = .refused ∨ job.status = .canceled then job
  else if job.status = .running ∧ job.celeryTaskId ≠ "" ∧ job.celeryTaskId ≠ taskId then job
  else
    { job with
      status := .running
      celeryTaskId := taskId
      attemptCount := job.attemptCount + 1
      error := ""
      refusal := none }

/-- `_record_artifact`. -/
def recordArtifact (artifactId artifactKey : String) (job : CompetenceJob c) :
    Except ArtifactError (CompetenceJob c) :=
  if (job.artifactKeys.lookup artifactId).any (· ≠ artifactKey) then
    .error (.validation "artifact identity is already bound to a different object key")
  else .ok { job with artifactKeys := dictSet job.artifactKeys artifactId artifactKey }

/-- `_finish_success`. -/
def finishSuccess (scorer : ScorerArtifact c) (artifactKeys : List (String × String))
    (job : CompetenceJob c) : CompetenceJob c × TaskResult :=
  if job.status = .canceled then (job, .canceled)
  else if job.status = .succeeded then (job, .reused)
  else if job.status ≠ .running then (job, .joined job.status)
  else
    ({ job with
        scorer := some scorer
        artifactKeys := artifactKeys
        status := .succeeded
        error := ""
        refusal := none },
      .succeeded scorer.fields.scorerId scorer.fields.scorerVersion
        scorer.fields.modelArtifact.artifactId scorer.fields.priorPack.priorPackId)

/-- `_finish_problem`. -/
def finishProblem (p : Problem) (job : CompetenceJob c) : CompetenceJob c × TaskResult :=
  if job.status = .canceled then (job, .canceled)
  else
    ({ job with
        status := p.status
        error := p.detail
        refusal := some ⟨p.code, p.detail, p.retryable⟩ },
      .problem p.status p.code p.retryable)

/-- The `except` clauses for the errors of the fit. -/
def FitError.problem : FitError → Problem
  | .refusal code detail => ⟨.refused, code, detail, false⟩
  | .validation message => ⟨.refused, "invalid_persisted_request", Text.take message 2000, false⟩
  | .outOfRangeFloat =>
      ⟨.failed, "competence_fit_failed", "Out of range float values are not JSON compliant", false⟩
  | .zeroDivision => ⟨.failed, "competence_fit_failed", "float division by zero", false⟩

/-- The `except` clauses for the errors of the artifact store. -/
def ArtifactError.problem : ArtifactError → Problem
  | .configuration detail | .storage detail =>
      ⟨.failed, "artifact_storage_unavailable", detail, true⟩
  | .validation detail => ⟨.failed, "artifact_publication_invalid", detail, false⟩

/-! ## Deliveries -/

/-- A publication under way: the artifact being published, and the keys of those published. -/
structure Publication (c : Canonical) where
  job : JobBinding
  fitted : Fitted c
  kind : ArtifactKind
  published : List (String × String)
  deriving DecidableEq

inductive Pc (c : Canonical) where
  | claim
  | fit (job : JobBinding)
  | put (w : Publication c)
  | readBack (w : Publication c) (artifactKey : String)
  | record (w : Publication c) (artifactKey : String)
  | finishSuccess (fitted : Fitted c) (artifactKeys : List (String × String))
  | finishProblem (problem : Problem)
  | done (result : TaskResult)
  /-- The worker died. -/
  | crashed
  deriving DecidableEq

/-- A delivery of `run_competence_fit(job_id)`; `retries` is `self.request.retries`. -/
structure Delivery (c : Canonical) where
  jobId : String
  taskId : String
  retries : Nat
  pc : Pc c
  deriving DecidableEq

/-- Between its claim and its return. -/
def Delivery.working (p : Delivery c) : Bool :=
  match p.pc with
  | .claim | .done _ | .crashed => false
  | _ => true

/-- What the object store answers; a call that fails may have had its effect. -/
inductive Reply where
  | ok
  | failed (effect : Bool) (detail : String)
  deriving DecidableEq, Repr

/-- What the world answers to a step: the object store does, or the worker dies. -/
inductive Answer where
  | store (reply : Reply)
  | crash
  deriving DecidableEq, Repr

/-- The database and the object store. -/
structure Store (c : Canonical) where
  jobs : List (CompetenceJob c)
  objects : List StoredObject
  deriving DecidableEq

def Store.find (d : Store c) (id : String) : Option (CompetenceJob c) :=
  d.jobs.find? fun job => job.id = id

/-- What one step of a delivery writes. -/
inductive Write (c : Canonical) where
  | nothing
  | save (job : CompetenceJob c)
  | put (o : StoredObject)

def Store.apply (d : Store c) : Write c → Store c
  | .nothing => d
  | .save job => { d with jobs := Table.modify CompetenceJob.id job.id (fun _ => job) d.jobs }
  | .put o => { d with objects := putObject d.objects o }

/-- The `except` clauses of `run_competence_fit` for the artifact store; `max_retries` is 3. -/
def Delivery.fail (p : Delivery c) (e : ArtifactError) : Delivery c :=
  match e with
  | .validation _ => { p with pc := .finishProblem e.problem }
  | _ =>
      if p.retries < 3 then { p with retries := p.retries + 1, pc := .claim }
      else { p with pc := .finishProblem e.problem }

def Fitted.payload (f : Fitted c) : ArtifactKind → Payload
  | .priorPack => .priorPack f.priorPackPayload
  | .scorerModel => .model f.modelPayload

def Fitted.descriptor (f : Fitted c) : ArtifactKind → ContentAddressedArtifact
  | .priorPack => f.scorer.fields.priorPack.artifact
  | .scorerModel => f.scorer.fields.modelArtifact

def Publication.payload (w : Publication c) : Payload := w.fitted.payload w.kind

/-- The checks of `write_competence_artifact` before the write, and the key. -/
def Publication.target (maxBytes : Nat) (w : Publication c) : Except ArtifactError String :=
  if w.kind.mediaType ≠ (w.fitted.descriptor w.kind).mediaType then
    .error (.validation "competence artifact kind and media type do not match")
  else if c.byteLength w.payload = 0 ∨ maxBytes < c.byteLength w.payload then
    .error (.validation "competence artifact must be non-empty and within ARTIFACT_MAX_BYTES")
  else competenceArtifactKey c w.job.tenantId w.job.projectId w.job.request.scope.candidateId w.kind
    (c.address w.payload)

/-- `get_bytes` when the store answers, and the two comparisons after it. -/
def Publication.verify (maxBytes : Nat) (w : Publication c) (artifactKey : String)
    (objects : List StoredObject) : Except ArtifactError Unit :=
  match objects.find? fun o => o.key = artifactKey with
  | none => .error (.storage "artifact storage object is missing")
  | some o =>
      if maxBytes < c.byteLength o.payload then
        .error (.validation "artifact exceeds ARTIFACT_MAX_BYTES")
      else if o.payload ≠ w.payload then
        .error (.validation "competence artifact readback does not match published bytes")
      else if c.address w.payload ≠ (w.fitted.descriptor w.kind).payloadDigest ∨
          c.byteLength w.payload ≠ (w.fitted.descriptor w.kind).byteLength then
        .error (.validation (match w.kind with
          | .priorPack => "published prior pack does not match its fitted descriptor"
          | .scorerModel => "published scorer model does not match its fitted descriptor"))
      else .ok ()

/-- After the prior pack comes the model, after the model the end of `_publish`. -/
def Publication.next (w : Publication c) (artifactKey : String) : Pc c :=
  let published := dictSet w.published (c.address w.payload) artifactKey
  match w.kind with
  | .priorPack => .put { w with kind := .scorerModel, published := published }
  | .scorerModel => .finishSuccess w.fitted published

/-- The caller of `_claim_job` looks at the status of the row only. -/
def afterClaim (job : CompetenceJob c) : Pc c :=
  if job.status = .running then .fit job.binding else .done (.joined job.status)

/-- One step of `run_competence_fit`: what it writes, and what becomes of the delivery. -/
def next (maxBytes : Nat) (d : Store c) (p : Delivery c) (reply : Reply) :
    Option (Write c × Delivery c) :=
  match p.pc with
  | .claim => match d.find p.jobId with
    | none => some (.nothing, { p with pc := .done .missing })
    | some job =>
        let job := claimJob p.taskId job
        some (.save job, { p with pc := afterClaim job })
  | .fit b => match fitJob d.jobs b, reply with
    | .error e, _ => some (.nothing, { p with pc := .finishProblem e.problem })
    | .ok _, .failed _ detail => some (.nothing, p.fail (.configuration detail))
    | .ok fitted, .ok => some (.nothing, { p with pc := .put ⟨b, fitted, .priorPack, []⟩ })
  | .put w => match w.target maxBytes, reply with
    | .error e, _ => some (.nothing, p.fail e)
    | .ok key, .ok => some (.put ⟨key, w.payload, p.jobId⟩, { p with pc := .readBack w key })
    | .ok key, .failed effect _ =>
        some (if effect then .put ⟨key, w.payload, p.jobId⟩ else .nothing,
          p.fail (.storage "artifact storage write competence artifact failed"))
  | .readBack w key => match validateKey w.job.tenantId key, reply with
    | .error e, _ => some (.nothing, p.fail e)
    | .ok _, .failed _ _ => some (.nothing, p.fail (.storage "artifact storage read failed"))
    | .ok _, .ok => match w.verify maxBytes key d.objects with
      | .error e => some (.nothing, p.fail e)
      | .ok _ => some (.nothing, { p with pc := .record w key })
  | .record w key => (d.find p.jobId).map fun job =>
      match recordArtifact (c.address w.payload) key job with
      | .error e => (.nothing, p.fail e)
      | .ok job => (.save job, { p with pc := w.next key })
  | .finishSuccess fitted keys => (d.find p.jobId).map fun job =>
      let r := finishSuccess fitted.scorer keys job
      (.save r.1, { p with pc := .done r.2 })
  | .finishProblem problem => (d.find p.jobId).map fun job =>
      let r := finishProblem problem job
      (.save r.1, { p with pc := .done r.2 })
  | .done _ | .crashed => none

/-! ## Moves of the store -/

/-- `_submit`, for a principal of this tenant with these projects: an answer with a status is a
    refusal, `true` says that the job is reused. -/
def submit (operation : Operation) (tenantId : String) (projects : List String) (id : String)
    (body : FitRequest) (d : Store c) : Except (Nat × Refusal) (Bool × Store c) :=
  match validateFitRequest body operation.kind with
  | some problem => .error (422, problem)
  | none =>
      if body.scope.tenantId ≠ tenantId then
        .error (403, ⟨"tenant_substitution_refused",
          "request tenant must equal the tenant derived from the verified machine key", false⟩)
      else if body.scope.projectId ∉ projects then
        .error (404, ⟨"project_not_found", "project does not exist inside the admitted tenant",
          false⟩)
      else
        let binding : JobBinding :=
          { id := id
            tenantId := tenantId
            projectId := body.scope.projectId
            operation := operation
            operationId := body.operationId
            requestDigest := c.address (.request body)
            request := body }
        match d.jobs.find? fun job =>
          job.binding.tenantId = tenantId ∧ job.binding.operationId = body.operationId with
        | some existing =>
            if { existing.binding with id := id } ≠ binding then
              .error (409, ⟨"conflicting_idempotency_key",
                "operation_id is already bound to another request digest", false⟩)
            else .ok (true, d)
        | none => .ok (false, { d with jobs := { binding := binding, status := .queued } :: d.jobs })

/-- The transaction of `sweep_competence_jobs`; the deliveries that it dispatches are started like
    all others. -/
def sweep (stale : List String) (d : Store c) : Store c :=
  { d with
    jobs := d.jobs.map fun job =>
      if job.id ∈ stale ∧ job.status = .running then
        { job with status := .queued, celeryTaskId := "" }
      else job }

/-- The deletions of a cleanup, up to the first that fails. -/
def deleteArtifacts (job : CompetenceJob c) (tenantId candidateId : String)
    (answer : String → Reply) :
    List String → List StoredObject → List StoredObject × Except ArtifactError Unit
  | [], objects => (objects, .ok ())
  | artifactId :: rest, objects => match job.artifactKeys.lookup artifactId with
    | none => (objects, .error (.validation "artifact ownership record is malformed"))
    | some key =>
        match validateCompetenceKey c tenantId job.binding.projectId candidateId key with
        | .error e => (objects, .error e)
        | .ok _ => match answer key with
          | .ok => deleteArtifacts job tenantId candidateId answer rest (deleteObject objects key)
          | .failed effect _ => (if effect then deleteObject objects key else objects,
              .error (.storage "artifact storage delete failed"))

/-- The `except` clauses of the cleanup. -/
def ArtifactError.cleanupRefusal : ArtifactError → Nat × Refusal
  | .configuration detail => (503, ⟨"artifact_storage_unavailable", detail, true⟩)
  | .storage _ => (503, ⟨"artifact_cleanup_failed",
      "artifact storage could not complete cleanup", true⟩)
  | .validation detail => (409, ⟨"artifact_ownership_mismatch", detail, false⟩)

def cleanupReceipt (c : Canonical) (body : CleanupRequest) (job : CompetenceJob c) :
    CleanupReceipt where
  receiptId := c.address (.cleanupReceipt
    { cleanupOperationId := body.cleanupOperationId
      requestDigest := c.address (.cleanupRequest body)
      jobId := job.id
      scope := body.scope
      artifactIds := body.artifactIds })
  cleanupOperationId := body.cleanupOperationId
  requestDigest := c.address (.cleanupRequest body)
  jobId := job.id
  scope := body.scope
  artifactIds := body.artifactIds
  cleaned := true
  reused := false

/-- `cleanup_competence_job`, for a principal of this tenant; `configured` is what
    `ArtifactStore.from_settings` says, `answer` what the store answers to a deletion. -/
def cleanup (tenantId jobId : String) (body : CleanupRequest) (configured : Reply)
    (answer : String → Reply) (d : Store c) : Store c × Except (Nat × Refusal) CleanupReceipt :=
  if body.contract ≠ competenceExchangeSchema then
    (d, .error (400, ⟨"unsupported_contract", "unsupported contract " ++ body.contract, false⟩))
  else if body.jobId ≠ jobId then
    (d, .error (400, ⟨"job_id_mismatch", "path and body job_id must match", false⟩))
  else if body.scope.tenantId ≠ tenantId then
    (d, .error (403, ⟨"tenant_substitution_refused",
      "request tenant must equal the tenant derived from the verified machine key", false⟩))
  else if Text.blank body.cleanupOperationId ∨ body.artifactIds = [] ∨
      body.artifactIds ≠ Text.sortedSet body.artifactIds ∨
      ¬ (body.artifactIds.all isSha256Address) then
    (d, .error (400, ⟨"invalid_cleanup_scope",
      "cleanup requires a canonical non-empty list of content-addressed artifacts", false⟩))
  else match d.jobs.find? fun job => job.id = jobId ∧ job.binding.tenantId = tenantId with
    | none => (d, .error (404, ⟨"job_not_found", "competence job was not found", false⟩))
    | some job =>
        if body.scope ≠ job.binding.request.scope ∨ job.binding.projectId ≠ body.scope.projectId then
          (d, .error (409, ⟨"cleanup_scope_mismatch",
            "cleanup scope does not match the exact competence job", false⟩))
        else match job.cleanupReceipt with
          | some receipt =>
              if job.cleanupRequestDigest ≠ c.address (.cleanupRequest body) then
                (d, .error (409, ⟨"conflicting_cleanup_replay",
                  "job cleanup is already bound to another request digest", false⟩))
              else (d, .ok { receipt with reused := true })
          | none =>
              if Text.sortedSet body.artifactIds ≠
                  Text.sortedSet (job.artifactKeys.map Prod.fst) then
                (d, .error (409, ⟨"artifact_ownership_mismatch",
                  "cleanup artifacts do not exactly match this job's owned artifacts", false⟩))
              else match configured with
                | .failed _ detail => (d, .error (ArtifactError.configuration detail).cleanupRefusal)
                | .ok =>
                    let (objects, outcome) := deleteArtifacts job tenantId body.scope.candidateId
                      answer body.artifactIds d.objects
                    match outcome with
                    | .error e => ({ d with objects := objects }, .error e.cleanupRefusal)
                    | .ok _ =>
                        let receipt := cleanupReceipt c body job
                        (({ d with objects := objects } : Store c).apply (.save
                          { job with
                            cleanupRequestDigest := receipt.requestDigest
                            cleanupReceipt := some receipt }), .ok receipt)

/-- What happens to the store without a delivery. -/
inductive Move where
  | submit (operation : Operation) (tenantId : String) (projects : List String) (id : String)
      (body : FitRequest)
  | sweep (stale : List String)
  | cleanup (tenantId jobId : String) (body : CleanupRequest) (configured : Reply)
      (answer : String → Reply)

/-- A refused submission leaves the store alone; the id of a new job is new. -/
def move (d : Store c) : Move → Option (Store c)
  | .submit operation tenantId projects id body =>
      if (d.find id).isSome then none
      else match submit operation tenantId projects id body d with
        | .ok (_, d') => some d'
        | .error _ => some d
  | .sweep stale => some (sweep stale d)
  | .cleanup tenantId jobId body configured answer =>
      some (cleanup tenantId jobId body configured answer d).1

/-! ## The program -/

/-- A new delivery has not claimed yet; Celery gives every task an id. -/
def Delivery.starts (p : Delivery c) : Bool := p.pc = .claim ∧ p.taskId ≠ ""

/-- The competence job machine, with `ARTIFACT_MAX_BYTES`. -/
def jobMachine (c : Canonical) (maxBytes : Nat) : Program (Store c) (Delivery c) Answer Move where
  start := Delivery.starts
  act d p
    | .store reply => (next maxBytes d p reply).map fun r => (d.apply r.1, r.2)
    | .crash => some (d, { p with pc := .crashed })
  env := move

/-- No job has been submitted yet. -/
def initial (c : Canonical) : Config (Store c) (Delivery c) := ⟨⟨[], []⟩, []⟩

/-! ## What a step can be -/

/-- Everything a step of a delivery can be: what it writes, and where it goes. -/
inductive Next (maxBytes : Nat) (d : Store c) (p : Delivery c) : Write c → Delivery c → Prop where
  | crash : Next maxBytes d p .nothing { p with pc := .crashed }
  | missing (hpc : p.pc = .claim) : Next maxBytes d p .nothing { p with pc := .done .missing }
  | claim {job : CompetenceJob c} (hpc : p.pc = .claim) (hjob : d.find p.jobId = some job) :
      Next maxBytes d p (.save (claimJob p.taskId job))
        { p with pc := afterClaim (claimJob p.taskId job) }
  | fit {b : JobBinding} {f : Fitted c} (hpc : p.pc = .fit b) (hfit : fitJob d.jobs b = .ok f) :
      Next maxBytes d p .nothing { p with pc := .put ⟨b, f, .priorPack, []⟩ }
  | unfit {b : JobBinding} (hpc : p.pc = .fit b) (e : FitError) :
      Next maxBytes d p .nothing { p with pc := .finishProblem e.problem }
  | fail (hworking : p.working = true) (e : ArtifactError) : Next maxBytes d p .nothing (p.fail e)
  | put {w : Publication c} {key : String} (hpc : p.pc = .put w)
      (htarget : w.target maxBytes = .ok key) :
      Next maxBytes d p (.put ⟨key, w.payload, p.jobId⟩) { p with pc := .readBack w key }
  | putFail {w : Publication c} {key : String} (hpc : p.pc = .put w)
      (htarget : w.target maxBytes = .ok key) (e : ArtifactError) :
      Next maxBytes d p (.put ⟨key, w.payload, p.jobId⟩) (p.fail e)
  | readBack {w : Publication c} {key : String} (hpc : p.pc = .readBack w key)
      (hverify : w.verify maxBytes key d.objects = .ok ()) :
      Next maxBytes d p .nothing { p with pc := .record w key }
  | record {w : Publication c} {key : String} {job job' : CompetenceJob c}
      (hpc : p.pc = .record w key) (hjob : d.find p.jobId = some job)
      (hrecord : recordArtifact (c.address w.payload) key job = .ok job') :
      Next maxBytes d p (.save job') { p with pc := w.next key }
  | finishSuccess {f : Fitted c} {keys : List (String × String)} {job : CompetenceJob c}
      (hpc : p.pc = .finishSuccess f keys) (hjob : d.find p.jobId = some job) :
      Next maxBytes d p (.save (finishSuccess f.scorer keys job).1)
        { p with pc := .done (finishSuccess f.scorer keys job).2 }
  | finishProblem {problem : Problem} {job : CompetenceJob c} (hpc : p.pc = .finishProblem problem)
      (hjob : d.find p.jobId = some job) :
      Next maxBytes d p (.save (finishProblem problem job).1)
        { p with pc := .done (finishProblem problem job).2 }

theorem next_cases {maxBytes : Nat} {d : Store c} {p p' : Delivery c} {reply : Reply}
    {w : Write c} (h : next maxBytes d p reply = some (w, p')) : Next maxBytes d p w p' := by
  unfold next at h
  split at h
  · rename_i hpc
    split at h
    · cases h
      exact .missing hpc
    · rename_i hjob
      cases h
      exact .claim hpc hjob
  · rename_i hpc
    split at h
    · cases h
      exact .unfit hpc _
    · cases h
      exact .fail (by rw [Delivery.working, hpc]) _
    · rename_i hfit
      cases h
      exact .fit hpc hfit
  · rename_i hpc
    have hworking : p.working = true := by rw [Delivery.working, hpc]
    split at h
    · cases h
      exact .fail hworking _
    · rename_i htarget
      cases h
      exact .put hpc htarget
    · rename_i effect _ htarget
      cases effect
      · cases h
        exact .fail hworking _
      · cases h
        exact .putFail hpc htarget _
  · rename_i hpc
    have hworking : p.working = true := by rw [Delivery.working, hpc]
    split at h
    · cases h
      exact .fail hworking _
    · cases h
      exact .fail hworking _
    · split at h
      · cases h
        exact .fail hworking _
      · rename_i hverify
        cases h
        exact .readBack hpc hverify
  · rename_i hpc
    obtain ⟨job, hjob, h⟩ := Option.map_eq_some_iff.mp h
    split at h
    · cases h
      exact .fail (by rw [Delivery.working, hpc]) _
    · rename_i hrecord
      cases h
      exact .record hpc hjob hrecord
  · rename_i hpc
    obtain ⟨job, hjob, h⟩ := Option.map_eq_some_iff.mp h
    cases h
    exact .finishSuccess hpc hjob
  · rename_i hpc
    obtain ⟨job, hjob, h⟩ := Option.map_eq_some_iff.mp h
    cases h
    exact .finishProblem hpc hjob
  · cases h
  · cases h

theorem jobMachine_act {maxBytes : Nat} {d d' : Store c} {p p' : Delivery c} {answer : Answer}
    (h : (jobMachine c maxBytes).act d p answer = some (d', p')) :
    ∃ w, Next maxBytes d p w p' ∧ d' = d.apply w := by
  cases answer with
  | store reply =>
    obtain ⟨⟨w, p''⟩, hnext, heq⟩ := Option.map_eq_some_iff.mp h
    cases heq
    exact ⟨w, next_cases hnext, rfl⟩
  | crash =>
    cases h
    exact ⟨.nothing, .crash, rfl⟩

/-- A delivery keeps its job and its task id. -/
theorem Next.same {maxBytes : Nat} {d : Store c} {p p' : Delivery c} {w : Write c}
    (h : Next maxBytes d p w p') : p'.jobId = p.jobId ∧ p'.taskId = p.taskId := by
  have hfail : ∀ e, (p.fail e).jobId = p.jobId ∧ (p.fail e).taskId = p.taskId := by
    intro e
    unfold Delivery.fail
    split
    · exact ⟨rfl, rfl⟩
    · split <;> exact ⟨rfl, rfl⟩
  cases h with
  | fail _ e => exact hfail e
  | putFail _ _ e => exact hfail e
  | _ => exact ⟨rfl, rfl⟩

theorem find_some {d : Store c} {id : String} {job : CompetenceJob c} (h : d.find id = some job) :
    job ∈ d.jobs ∧ job.id = id :=
  ⟨List.mem_of_find?_eq_some h, by simpa using List.find?_some h⟩

theorem find_eq_some {d : Store c} (hids : (d.jobs.map CompetenceJob.id).Nodup)
    {job : CompetenceJob c} (hjob : job ∈ d.jobs) : d.find job.id = some job := by
  have hfound : (d.find job.id).isSome = true := List.find?_isSome.mpr ⟨job, hjob, by simp⟩
  obtain ⟨job', hjob'⟩ := Option.isSome_iff_exists.mp hfound
  obtain ⟨hmem, hid⟩ := find_some hjob'
  rw [hjob', Table.eq_of_key hids hmem hjob hid]

/-- Saving a row of the table replaces it and nothing else. -/
theorem mem_save {d : Store c} {job job' r : CompetenceJob c} (hjob : job ∈ d.jobs)
    (hid : job'.id = job.id) :
    r ∈ (d.apply (.save job')).jobs ↔ r = job' ∨ (r ∈ d.jobs ∧ r.id ≠ job'.id) := by
  rw [Store.apply, Table.mem_modify]
  constructor
  · rintro (⟨_, -, -, rfl⟩ | h)
    · exact Or.inl rfl
    · exact Or.inr h
  · rintro (rfl | h)
    · exact Or.inl ⟨job, hjob, hid.symm, rfl⟩
    · exact Or.inr h

/-- What every row transaction keeps. -/
structure Keeps (job job' : CompetenceJob c) : Prop where
  binding : job'.binding = job.binding
  receipt : job'.cleanupReceipt = job.cleanupReceipt

theorem Keeps.id {job job' : CompetenceJob c} (h : Keeps job job') : job'.id = job.id :=
  congrArg JobBinding.id h.binding

theorem claimJob_keeps (taskId : String) (job : CompetenceJob c) :
    Keeps job (claimJob taskId job) := by
  unfold claimJob
  split
  · exact ⟨rfl, rfl⟩
  · split <;> exact ⟨rfl, rfl⟩

theorem recordArtifact_keeps {artifactId key : String} {job job' : CompetenceJob c}
    (h : recordArtifact artifactId key job = .ok job') : Keeps job job' := by
  unfold recordArtifact at h
  split at h
  · cases h
  · cases h
    exact ⟨rfl, rfl⟩

theorem finishSuccess_keeps (scorer : ScorerArtifact c) (keys : List (String × String))
    (job : CompetenceJob c) : Keeps job (finishSuccess scorer keys job).1 := by
  unfold finishSuccess
  split
  · exact ⟨rfl, rfl⟩
  · split
    · exact ⟨rfl, rfl⟩
    · split <;> exact ⟨rfl, rfl⟩

theorem finishProblem_keeps (problem : Problem) (job : CompetenceJob c) :
    Keeps job (finishProblem problem job).1 := by
  unfold finishProblem
  split <;> exact ⟨rfl, rfl⟩

/-- A row transaction saves a row of the delivery's own job. -/
theorem Next.saved {maxBytes : Nat} {d : Store c} {p p' : Delivery c} {job' : CompetenceJob c}
    (h : Next maxBytes d p (.save job') p') : ∃ job, d.find p.jobId = some job ∧ Keeps job job' := by
  cases h with
  | claim _ hjob => exact ⟨_, hjob, claimJob_keeps ..⟩
  | record _ hjob hrecord => exact ⟨_, hjob, recordArtifact_keeps hrecord⟩
  | finishSuccess _ hjob => exact ⟨_, hjob, finishSuccess_keeps ..⟩
  | finishProblem _ hjob => exact ⟨_, hjob, finishProblem_keeps ..⟩

/-- Every row after a step is a row before it, up to what transactions change. -/
theorem Next.row {maxBytes : Nat} {d : Store c} {p p' : Delivery c} {w : Write c}
    (h : Next maxBytes d p w p') {job' : CompetenceJob c} (hjob' : job' ∈ (d.apply w).jobs) :
    ∃ job ∈ d.jobs, Keeps job job' := by
  cases w with
  | save saved =>
    obtain ⟨old, hold, hkeeps⟩ := h.saved
    rcases (mem_save (find_some hold).1 hkeeps.id).mp hjob' with rfl | ⟨hmem, -⟩
    · exact ⟨old, (find_some hold).1, hkeeps⟩
    · exact ⟨job', hmem, rfl, rfl⟩
  | _ => exact ⟨job', hjob', rfl, rfl⟩

/-! ## What a move can be -/

/-- The key of a recorded artifact. -/
def CompetenceJob.recorded (job : CompetenceJob c) (key : String) : Bool :=
  (job.artifactKeys.map Prod.fst).any fun artifactId => job.artifactKeys.lookup artifactId == some key

/-- Everything a move of the store can be. -/
inductive Moved (d : Store c) : Move → Store c → Prop where
  | same (w : Move) : Moved d w d
  | submit {operation : Operation} {tenantId id : String} {projects : List String}
      {body : FitRequest} (binding : JobBinding) (hnew : ∀ job ∈ d.jobs, job.id ≠ binding.id) :
      Moved d (.submit operation tenantId projects id body)
        { d with jobs := { binding := binding, status := .queued } :: d.jobs }
  | sweep (stale : List String) : Moved d (.sweep stale) (sweep stale d)
  | delete (w : Move) {objects : List StoredObject} (hobjects : objects ⊆ d.objects) :
      Moved d w { d with objects := objects }
  | cleanup {tenantId jobId : String} {body : CleanupRequest} {configured : Reply}
      {answer : String → Reply} {job : CompetenceJob c} {objects : List StoredObject}
      (digest : String) (receipt : CleanupReceipt) (hjob : job ∈ d.jobs) (hid : job.id = jobId)
      (hfirst : job.cleanupReceipt = none) (hobjects : objects ⊆ d.objects) (hclean : ∀ o ∈ objects, job.recorded o.key = false) :
      Moved d (.cleanup tenantId jobId body configured answer)
        (({ d with objects := objects } : Store c).apply (.save
        { job with cleanupRequestDigest := digest, cleanupReceipt := some receipt }))

theorem deleteObject_subset (objects : List StoredObject) (key : String) :
    deleteObject objects key ⊆ objects :=
  List.filter_subset_self ..

theorem deleteArtifacts_subset (job : CompetenceJob c) (tenantId candidateId : String)
    (answer : String → Reply) (artifactIds : List String) (objects : List StoredObject) :
    (deleteArtifacts job tenantId candidateId answer artifactIds objects).1 ⊆ objects := by
  induction artifactIds generalizing objects with
  | nil => exact List.Subset.refl _
  | cons artifactId rest ih =>
    unfold deleteArtifacts
    split
    · exact List.Subset.refl _
    · split
      · exact List.Subset.refl _
      · split
        · exact List.Subset.trans (ih _) (deleteObject_subset ..)
        · split
          · exact deleteObject_subset ..
          · exact List.Subset.refl _

/-- When all deletions succeed, no object is left under a key that they name. -/
theorem deleteArtifacts_ok {job : CompetenceJob c} {tenantId candidateId : String}
    {answer : String → Reply} {artifactIds : List String} {objects objects' : List StoredObject}
    (h : deleteArtifacts job tenantId candidateId answer artifactIds objects = (objects', .ok ())) :
    ∀ o ∈ objects', ∀ artifactId ∈ artifactIds, job.artifactKeys.lookup artifactId ≠ some o.key := by
  induction artifactIds generalizing objects with
  | nil => exact fun _ _ _ hid => absurd hid List.not_mem_nil
  | cons artifactId rest ih =>
    unfold deleteArtifacts at h
    split at h
    · cases h
    rename_i key hkey
    split at h
    · cases h
    split at h
    · intro o ho artifactId' hid hlookup
      rcases List.mem_cons.mp hid with rfl | hid
      · -- the rest of the loop does not bring the deleted key back
        have hsub := deleteArtifacts_subset job tenantId candidateId answer rest
          (deleteObject objects key)
        rw [h] at hsub
        have hne : o.key ≠ key := by simpa using (List.mem_filter.mp (hsub ho)).2
        rw [hkey] at hlookup
        exact hne (Option.some.inj hlookup).symm
      · exact ih h o ho artifactId' hid hlookup
    · split at h <;> cases h

theorem submit_ok {d d' : Store c} {operation : Operation} {tenantId id : String}
    {projects : List String} {body : FitRequest} {reused : Bool}
    (hfresh : d.find id = none) (h : submit operation tenantId projects id body d = .ok (reused, d')) :
    Moved d (.submit operation tenantId projects id body) d' := by
  unfold submit at h
  split at h
  · cases h
  split at h
  · cases h
  split at h
  · cases h
  dsimp only at h
  split at h
  · split at h
    · cases h
    · cases h
      exact .same _
  · cases h
    refine .submit _ fun job hjob hid => ?_
    simpa [hid] using List.find?_eq_none.mp hfresh job hjob

theorem cleanup_moved (d : Store c) (tenantId jobId : String) (body : CleanupRequest)
    (configured : Reply) (answer : String → Reply) :
    Moved d (.cleanup tenantId jobId body configured answer)
      (cleanup tenantId jobId body configured answer d).1 := by
  unfold cleanup
  iterate 4
    split
    · exact .same _
  split
  · exact .same _
  rename_i job hjob
  split
  · exact .same _
  split
  · split <;> exact .same _
  rename_i hfirst
  split
  · exact .same _
  rename_i hids
  split
  · exact .same _
  dsimp only
  split
  · exact .delete _ (deleteArtifacts_subset ..)
  · rename_i hok
    have hid : job.id = jobId := by
      have hfound := List.find?_some hjob
      simp only [decide_eq_true_eq] at hfound
      exact hfound.1
    refine .cleanup _ _ (List.mem_of_find?_eq_some hjob) hid hfirst (deleteArtifacts_subset ..)
      fun o ho => ?_
    -- a recorded key belongs to an artifact that the request names, and is deleted
    by_contra hrecorded
    obtain ⟨artifactId, hid, hlookup⟩ := List.any_eq_true.mp (Bool.not_eq_false _ ▸ hrecorded)
    rw [← Text.mem_sortedSet, ← not_not.mp hids, Text.mem_sortedSet] at hid
    exact deleteArtifacts_ok (Prod.ext rfl hok) o ho artifactId hid (beq_iff_eq.mp hlookup)

theorem move_cases {d d' : Store c} {w : Move} (h : move d w = some d') : Moved d w d' := by
  cases w with
  | submit operation tenantId projects id body =>
    simp only [move] at h
    split at h
    · cases h
    rename_i hfresh
    split at h
    · rename_i hsubmit
      cases h
      exact submit_ok (by simpa using hfresh) hsubmit
    · cases h
      exact .same _
  | sweep stale =>
    cases h
    exact .sweep stale
  | cleanup tenantId jobId body configured answer =>
    cases h
    exact cleanup_moved ..

/-! ## Rows have distinct ids -/

theorem nodup_apply {d : Store c} {w : Write c} (hids : (d.jobs.map CompetenceJob.id).Nodup) :
    ((d.apply w).jobs.map CompetenceJob.id).Nodup := by
  cases w with
  | save job =>
    rw [Store.apply, Table.modify_map_key fun _ _ hk => hk.symm]
    exact hids
  | _ => exact hids

theorem nodup_moved {d d' : Store c} {w : Move} (hids : (d.jobs.map CompetenceJob.id).Nodup)
    (h : Moved d w d') : (d'.jobs.map CompetenceJob.id).Nodup := by
  cases h with
  | same => exact hids
  | submit binding hnew =>
    refine List.nodup_cons.mpr ⟨fun hmem => ?_, hids⟩
    obtain ⟨job, hjob, hid⟩ := List.mem_map.mp hmem
    exact hnew job hjob hid
  | sweep stale =>
    have hsame : (sweep stale d).jobs.map CompetenceJob.id = d.jobs.map CompetenceJob.id := by
      rw [sweep, List.map_map]
      refine List.map_congr_left fun job _ => ?_
      simp only [Function.comp]
      split <;> rfl
    rw [hsame]
    exact hids
  | delete => exact hids
  | cleanup => exact nodup_apply hids

end ControlPlane.Competence
