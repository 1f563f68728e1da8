/-
  The offload tasks of `apps/orchestration/tasks.py` and `cancel_offload_job` of
  `apps/orchestration/api.py`, as an interleaved program over ONE row of `control_job`.

  A process is one delivery of a task (or one request) at one of its program points; between two
  points it makes one ORM read, one `save`, or one call of a remote service.  Local copies of the
  row travel with the process, so a `save` writes what was read earlier, and `update_fields` says
  which columns it writes:

  * `dispatch_offload`        `dispatch` → `dispatchTwin` → `dispatchSave` → the runner,
  * `_run_runpod_offload`     `runpod` → submit → save → (poll → observe → wait)* → result → verify,
  * `_run_r_offload`          `rOffload` → compute → verify,
  * `_complete_stub`, `complete_extraction_stub`, both ending in the full save `succeed`,
  * `_fail_job`               `failJob` → `failSave`,
  * `cancel_offload_job`      `cancelRoute` → `cancelRouteSave`,
  * `cancel_job_task`         `cancelTask` → `cancelTaskRemote` → `cancelTaskSave`,
  * `re_run_job`              `reRun` → `reRunSave` → `reRunQueue`.

  Enqueueing a task (`delay`, `apply_async`) only makes its delivery possible; every task may be
  started at any time and any number of times, so no queue is kept.  The extraction cancel route
  does nothing to this row but enqueue `cancel_job_task`.

  The board also holds the remote jobs that were submitted for this row, with the status RunPod
  reports for each and whether a cancel request for it was issued.
-/
import ControlPlane.Interleave
import ControlPlane.Orchestration.Job

namespace ControlPlane.Orchestration

open ControlPlane.Interleave

/-! ## Settings, the store, replies -/

/-- `OFFLOAD_EXECUTION_MODE` and `R_OFFLOAD_EXECUTION_MODE`: the live value, `"stub"`, or
    anything else. -/
inductive ExecutionMode where
  | live
  | stub
  | unsupported (name : String)
  deriving DecidableEq, Repr

/-- What `settings` and the process environment fix for the tasks. -/
structure Settings where
  offloadExecutionMode : ExecutionMode := .live
  rOffloadExecutionMode : ExecutionMode := .live
  serverlessEndpointId : String := "endpoint"
  extractionEndpointId : String := "endpoint"
  workerImageDigest : String := "image"
  extractionImageDigest : String := "image"
  jobTimeoutSeconds : String := "900"
  /-- `hashlib.sha256(text.encode()).hexdigest()`. -/
  sha256 : String → String := id

/-- `_runpod_endpoint_id`. -/
def Settings.endpointId (cfg : Settings) (operation : String) : String :=
  if isExtractionOperation operation then cfg.extractionEndpointId else cfg.serverlessEndpointId

/-- `_runpod_image_digest`. -/
def Settings.imageDigest (cfg : Settings) (operation : String) : String :=
  if isExtractionOperation operation then cfg.extractionImageDigest else cfg.workerImageDigest

/-- `ArtifactStore.output_key`. -/
def Settings.outputKey (cfg : Settings) (tenantId operationId : String) : String :=
  "tenants/" ++ tenantId ++ "/outputs/" ++ cfg.sha256 operationId ++ ".arrow"

/-- A job submitted to RunPod. -/
structure Remote where
  status : String
  cancelRequested : Bool
  deriving DecidableEq, Repr

/-- `RunpodServerlessClient.SUCCESS`. -/
def success : String := "COMPLETED"

/-- `RunpodServerlessClient.FAILURE_STATUSES`. -/
def failureStatuses : List String := ["ERROR", "FAILED", "CANCELLED", "TIMED_OUT"]

/-- The statuses at which `wait` returns. -/
def remoteTerminal (status : String) : Bool := status == success || failureStatuses.contains status

/-- The row and the remote jobs submitted for it. -/
structure Board where
  job : Job
  remotes : List Remote
  deriving DecidableEq, Repr

/-- `StoredArrowArtifact`: what a runner publishes on the row. -/
structure Output where
  artifactKey : String
  schemaJson : String
  rows : Option Nat
  payloadDigest : String
  deriving DecidableEq, Repr

/-- What the world answers to a step. -/
inductive Reply where
  /-- The call goes through. -/
  | ok
  /-- The call raises one of the error classes its caller catches. -/
  | error (message : String)
  /-- An exception nobody catches, or the death of the worker. -/
  | crash
  /-- A RUNNING or SUCCEEDED twin of this job exists. -/
  | twin
  /-- `monotonic() >= deadline`. -/
  | deadline
  /-- The broker accepts the task under this id. -/
  | taskId (id : String)
  /-- The runner has a stored and verified output. -/
  | output (out : Output)
  deriving DecidableEq, Repr

/-! ## Processes -/

/-- A delivery at one of its program points.  `submitted` is the runner's local variable: the
    remote job it has submitted, if any. -/
inductive Proc where
  | dispatch (requestId : String)
  | dispatchTwin (requestId : String) (job : Job)
  | dispatchSave (requestId : String) (job : Job)
  | dispatchQueue (job : Job)
  | runOffloadPython
  | runOffloadR
  | completeStub
  | completeExtractionStub
  | extractionStubRows (job : Job)
  | runpod
  | runpodSubmit (job : Job)
  | runpodSave (job : Job) (remote : Nat)
  | runpodPoll (remote : Nat)
  | runpodObserve (remote : Nat) (status : String)
  | runpodWait (remote : Nat)
  | runpodCaught (submitted : Option Nat) (message : String)
  | runpodResult (remote : Nat) (status : String)
  | rOffload
  | rCompute
  | verified (submitted : Option Nat) (out : Output)
  | succeed (submitted : Option Nat) (job : Job) (out : Output)
  | failJob (submitted : Option Nat) (message : String)
  | failSave (submitted : Option Nat) (job : Job) (message : String)
  | cancelRoute
  | cancelRouteSave (seen : Status)
  | cancelTask
  | cancelTaskRemote (job : Job)
  | cancelTaskSave (job : Job)
  | reRun
  | reRunSave
  | reRunQueue
  | returned (submitted : Option Nat)
  | crashed
  deriving DecidableEq, Repr

/-- The tasks and requests that the broker and the web server start.  `run_offload_python` is only
    called by `dispatch_offload`. -/
def Proc.starts : Proc → Bool
  | .dispatch _ | .runOffloadR | .cancelRoute | .cancelTask | .reRun => true
  | _ => false

/-- A process that has returned or died takes no further step. -/
def Proc.ended : Proc → Bool
  | .returned _ | .crashed => true
  | _ => false

/-! ## Writes of the row -/

/-- `save(update_fields=["status", "started_at", "celery_task_id", ...])` in `dispatch_offload`. -/
def Board.saveRunning (b : Board) (taskId : String) : Board :=
  { b with job := { b.job with status := .running, celeryTaskId := taskId } }

/-- `save(update_fields=["celery_task_id", ...])`. -/
def Board.saveTaskId (b : Board) (taskId : String) : Board :=
  { b with job := { b.job with celeryTaskId := taskId } }

/-- `save(update_fields=["kwargs_json", "logs", ...])`. -/
def Board.saveKwargs (b : Board) (kwargs : Kwargs) : Board :=
  { b with job := { b.job with kwargs := kwargs } }

/-- `save(update_fields=["status", "error", ...])` in `_fail_job`. -/
def Board.saveFailed (b : Board) (error : String) : Board :=
  { b with job := { b.job with status := .failed, error := error } }

/-- `save(update_fields=["status", ...])` with CANCELED. -/
def Board.saveCanceled (b : Board) : Board :=
  { b with job := { b.job with status := .canceled } }

/-- `save(update_fields=["status", "error", ...])` in `re_run_job`. -/
def Board.saveQueued (b : Board) : Board :=
  { b with job := { b.job with status := .queued, error := "" } }

/-- The copy of the row that a runner saves in full when it is done. -/
def Job.complete (job : Job) (out : Output) : Job :=
  { job with
    outputArtifactKey := out.artifactKey
    outputSchemaJson := out.schemaJson
    outputRows := out.rows
    outputPayloadDigest := out.payloadDigest
    status := .succeeded }

/-- `client.submit`: RunPod accepts a new job, queued. -/
def Board.submitRemote (b : Board) : Board :=
  { b with remotes := b.remotes ++ [⟨"IN_QUEUE", false⟩] }

/-- `client.cancel(job_id)`: the request is issued, whatever becomes of it. -/
def Board.requestCancel (b : Board) (remote : Nat) : Board :=
  { b with remotes := b.remotes.modify remote fun r => { r with cancelRequested := true } }

/-! ## One step of one process -/

/-- `_complete_stub`'s synthetic output. -/
def stubOutput (cfg : Settings) (job : Job) : Output where
  artifactKey := job.outputArtifactKey
  schemaJson := job.kwargs.inputSchemaJson
  rows := job.kwargs.inputRows
  payloadDigest := cfg.sha256 (job.operationId ++ ":" ++ job.inputPayloadDigest ++ ":stub")

/-- The checks `_run_runpod_offload` makes itself before it submits: the message of the first one
    that fails. -/
def runpodRefusal (cfg : Settings) (job : Job) : Option String :=
  if job.tenantId = none then some "RunPod jobs require an admitted tenant"
  else if cfg.endpointId job.operation = "" then
    some "RunPod endpoint id is required for the selected operation"
  else if cfg.imageDigest job.operation = "" then
    some "RunPod worker image digest is required for provenance"
  else none

/-- The message by which `persist_status` reports a cancellation to its own `except` clause. -/
def cancelledMessage : String := "Job was cancelled during execution"

def deadlineMessage (cfg : Settings) (remote : Nat) : String :=
  "RunPod job " ++ toString remote ++ " exceeded the " ++ cfg.jobTimeoutSeconds ++
    "s control-plane deadline"

/-- `dispatch_offload` and `run_offload_python` / `run_offload_r`. -/
def dispatchStep (cfg : Settings) (b : Board) : Proc → Reply → Option (Board × Proc)
  | .dispatch requestId, .ok =>
      some (b, if b.job.status = .canceled then .returned none else .dispatchTwin requestId b.job)
  | .dispatchTwin _ _, .twin => some (b, .returned none)
  | .dispatchTwin requestId job, .ok => some (b, .dispatchSave requestId job)
  | .dispatchSave requestId job, .ok =>
      let taskId := if requestId = "" then job.celeryTaskId else requestId
      some (b.saveRunning taskId,
        if isROperation job.operation then .dispatchQueue { job with celeryTaskId := taskId }
        else .runOffloadPython)
  | .dispatchQueue job, .taskId id =>
      some (b.saveTaskId (if id = "" then job.celeryTaskId else id), .returned none)
  | .runOffloadPython, .ok =>
      some (b, match cfg.offloadExecutionMode with
        | .live => .runpod
        | .unsupported name =>
            .failJob none ("unsupported OFFLOAD_EXECUTION_MODE='" ++ name ++ "'")
        | .stub =>
            if isExtractionOperation b.job.operation then .completeExtractionStub
            else .completeStub)
  | .runOffloadR, .ok =>
      some (b, match cfg.rOffloadExecutionMode with
        | .live => .rOffload
        | .unsupported name =>
            .failJob none ("unsupported R_OFFLOAD_EXECUTION_MODE='" ++ name ++ "'")
        | .stub => .completeStub)
  | _, _ => none

/-- `_run_runpod_offload`, with `RunpodServerlessClient.wait` and `persist_status` inlined. -/
def runpodStep (cfg : Settings) (b : Board) : Proc → Reply → Option (Board × Proc)
  | .runpod, .ok =>
      some (b, if b.job.status = .canceled then .returned none else .runpodSubmit b.job)
  | .runpodSubmit _, .error message => some (b, .runpodCaught none message)
  | .runpodSubmit job, .ok =>
      some (match runpodRefusal cfg job with
        | some message => (b, .runpodCaught none message)
        | none => (b.submitRemote, .runpodSave job b.remotes.length))
  | .runpodSave job remote, .ok =>
      some (b.saveKwargs { job.kwargs with
          outputArtifactKey := job.tenantId.map fun tenant => cfg.outputKey tenant job.operationId
          runpod := some ⟨cfg.endpointId job.operation, remote⟩ },
        .runpodPoll remote)
  | .runpodPoll remote, .error message => some (b, .runpodCaught (some remote) message)
  | .runpodPoll remote, .ok =>
      (b.remotes[remote]?).map fun r => (b, .runpodObserve remote r.status)
  | .runpodObserve remote status, .ok =>
      -- `persist_status` refreshes the row before anything else
      some (b, if b.job.status = .canceled then .runpodCaught (some remote) cancelledMessage
        else if remoteTerminal status then .runpodResult remote status
        else .runpodWait remote)
  | .runpodWait remote, .ok => some (b, .runpodPoll remote)
  | .runpodWait remote, .deadline =>
      some (b.requestCancel remote, .runpodCaught (some remote) (deadlineMessage cfg remote))
  | .runpodCaught submitted message, .ok =>
      some (b, if Text.contains cancelledMessage message ∧ b.job.status = .canceled
        then .returned submitted else .failJob submitted message)
  | .runpodResult remote status, .ok =>
      if status = success then none
      else some (b, .failJob (some remote) ("RunPod job finished as " ++ status))
  | .runpodResult remote _, .error message => some (b, .failJob (some remote) message)
  | .runpodResult remote status, .output out =>
      if status = success then some (b, .verified (some remote) out) else none
  | _, _ => none

/-- `_run_r_offload`, the stubs, the common success path and `_fail_job`. -/
def finishStep (cfg : Settings) (b : Board) : Proc → Reply → Option (Board × Proc)
  | .completeStub, .ok =>
      some (b, if b.job.status = .canceled then .returned none
        else .succeed none b.job (stubOutput cfg b.job))
  | .completeExtractionStub, .ok =>
      some (b, if b.job.status = .canceled then .returned none else .extractionStubRows b.job)
  | .extractionStubRows _, .error message => some (b, .failJob none message)
  | .extractionStubRows job, .output out => some (b, .succeed none job out)
  | .rOffload, .ok => some (b, if b.job.status = .canceled then .returned none else .rCompute)
  | .rCompute, .error message => some (b, .failJob none message)
  | .rCompute, .output out => some (b, .verified none out)
  | .verified submitted out, .ok =>
      some (b, if b.job.status = .canceled then .returned submitted
        else .succeed submitted b.job out)
  | .succeed submitted job out, .ok => some ({ b with job := job.complete out }, .returned submitted)
  | .failJob submitted message, .ok =>
      some (b, if b.job.status = .canceled then .returned submitted
        else .failSave submitted b.job message)
  | .failSave submitted _ message, .ok => some (b.saveFailed message, .returned submitted)
  | _, _ => none

/-- `cancel_offload_job`, `cancel_job_task` and `re_run_job`. -/
def cancelStep (cfg : Settings) (b : Board) : Proc → Reply → Option (Board × Proc)
  | .cancelRoute, .ok =>
      some (b, if b.job.status.terminal then .returned none else .cancelRouteSave b.job.status)
  | .cancelRouteSave _, .ok => some (b.saveCanceled, .returned none)
  | .cancelTask, .ok => some (b, .cancelTaskRemote b.job)
  | .cancelTaskRemote job, .ok =>
      some (match job.kwargs.runpod with
        | some handle =>
            if cfg.offloadExecutionMode = .live then b.requestCancel handle.jobId else b
        | none => b, .cancelTaskSave job)
  | .cancelTaskSave _, .ok => some (b.saveCanceled, .returned none)
  | .reRun, .ok => some (b, .reRunSave)
  | .reRunSave, .ok => some (b.saveQueued, .reRunQueue)
  | .reRunQueue, .taskId id => some (b.saveTaskId id, .returned none)
  | _, _ => none

/-- One step of any process: it may die at every point, else it moves as its function says. -/
def act (cfg : Settings) (b : Board) (p : Proc) (r : Reply) : Option (Board × Proc) :=
  if r = .crash then (if p.ended then none else some (b, .crashed))
  else (dispatchStep cfg b p r).or
    ((runpodStep cfg b p r).or ((finishStep cfg b p r).or (cancelStep cfg b p r)))

/-- RunPod moves one of the remote jobs; a terminal status is final there. -/
def remoteMove (b : Board) (w : Nat × String) : Option Board :=
  (b.remotes[w.1]?).bind fun r =>
    if remoteTerminal r.status then none
    else some { b with remotes := b.remotes.set w.1 { r with status := w.2 } }

/-- The offload program over one row. -/
def program (cfg : Settings) : Program Board Proc Reply (Nat × String) where
  start := Proc.starts
  act := act cfg
  env := remoteMove

/-- A freshly created row: nothing submitted, nobody at work. -/
def fresh (job : Job) : Config Board Proc := ⟨⟨job, []⟩, []⟩

end ControlPlane.Orchestration
