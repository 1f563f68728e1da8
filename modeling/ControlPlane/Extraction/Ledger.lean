/-
  THE EXTRACTION LEDGER: one row of `control_extractionjob`, its shards, and the offload jobs that
  execute them (`apps/extraction/models.py`).

  A shard names an immutable input artifact by key, digest, schema and row count; `input` is the
  table that they name, as the positions of its rows in the source.  Offload jobs are rows of
  `control_job` and are referred to by their position in `offloads`.

  Every change that `apps/extraction` makes to the database is one `Write`: a `save`, a
  `create`, the enqueueing of a task, or one whole `transaction.atomic()` block.  `Ledger.apply`
  says what it does; WHO makes which write WHEN is the subject of `Extraction.Program`.
-/
import ControlPlane.Table
import ControlPlane.Orchestration.Job

namespace ControlPlane.Extraction

/-! ## Rows -/

/-- `ExtractionJob.Status`. -/
inductive JobStatus where
  | queued
  | running
  | partialDone
  | succeeded
  | failed
  | canceled
  deriving DecidableEq, Repr

/-- The statuses `cancel` refuses to cancel. -/
def JobStatus.terminal : JobStatus → Bool
  | .succeeded | .failed | .canceled => true
  | .queued | .running | .partialDone => false

/-- `ExtractionShard.Status`. -/
inductive ShardStatus where
  | queued
  | running
  | succeeded
  | failed
  | canceled
  | superseded
  deriving DecidableEq, Repr

/-- The shards that `cancel` passes over. -/
def ShardStatus.final : ShardStatus → Bool
  | .succeeded | .failed | .canceled | .superseded => true
  | .queued | .running => false

structure ExtractionJob where
  status : JobStatus := .queued
  shardCount : Nat := 0
  rowsTotal : Nat := 0
  error : String := ""
  deriving DecidableEq, Repr

structure Shard where
  index : Nat
  /-- The rows of the input artifact. -/
  input : List Nat
  orchestrationJob : Option Nat := none
  outputArtifactKey : String := ""
  outputRows : Option Nat := none
  outputDigest : String := ""
  status : ShardStatus := .queued
  error : String := ""
  deriving DecidableEq, Repr

/-- The rows an active shard stands for; a superseded one stands for none. -/
def Shard.covers (s : Shard) : List Nat := if s.status = .superseded then [] else s.input

/-- What `plan_shards` returns: at least one table, and the tables are the source cut into
    consecutive pieces. -/
structure Plan where
  rows : Nat
  tables : List (List Nat)
  nonempty : tables ≠ []
  cut : tables.flatten = List.range rows
  deriving DecidableEq

/-- What is fixed for one extraction job: its tenant and operation, `hashlib.sha256` over
    `"{job_id}:{index}:{input_digest}"`, and the digest of a stored table. -/
structure Settings where
  tenantId : String := "tenant"
  operation : String := "atlas"
  inputDigest : List Nat → String
  operationId : Nat → String → String

/-- The job with its shards and offload jobs.  `dispatches` and `cancels` record the offload jobs
    for which `dispatch_offload` and `cancel_job_task` were enqueued, `answered` whether the cancel
    route has answered `canceled: true`, `planned` the number of source rows in the adopted plan. -/
structure Ledger where
  job : ExtractionJob := {}
  shards : List Shard := []
  offloads : List Orchestration.Job := []
  dispatches : List Nat := []
  cancels : List Nat := []
  answered : Bool := false
  planned : Nat := 0
  deriving DecidableEq, Repr

/-! ## Folding statuses -/

/-- The map in `_sync_shard`. -/
def mapped : Orchestration.Status → ShardStatus
  | .queued => .queued
  | .running => .running
  | .succeeded => .succeeded
  | .failed => .failed
  | .canceled => .canceled

/-- The shard object after `_sync_shard` has compared it with its offload job. -/
def Shard.sync (s : Shard) (row : Orchestration.Job) : Shard :=
  { s with
    status := mapped row.status
    outputArtifactKey := row.outputArtifactKey
    outputRows := row.outputRows
    outputDigest := row.outputPayloadDigest
    error := row.error }

/-- The status `reconcile_extraction` gives the job, from the shards in its view. -/
def foldStatus (active : List Shard) : JobStatus :=
  let statuses := active.map Shard.status
  if active ≠ [] ∧ ∀ t ∈ statuses, t = .succeeded then .succeeded
  else if ShardStatus.running ∈ statuses ∨ ShardStatus.queued ∈ statuses then .running
  else if statuses ≠ [] ∧ ∀ t ∈ statuses, t = .canceled then .canceled
  else if ShardStatus.succeeded ∈ statuses then .partialDone
  else .failed

/-- `sum(shard.output_rows or 0 for shard in active)`. -/
def rowsTotal (active : List Shard) : Nat :=
  active.foldl (fun total s => total + s.outputRows.getD 0) 0

/-! ## Creating rows -/

/-- `operation_id(job.id, shard.index, shard.input_digest)`. -/
def Settings.shardOperationId (cfg : Settings) (s : Shard) : String :=
  cfg.operationId s.index (cfg.inputDigest s.input)

/-- The row that `_create_orchestration_job` inserts for a shard. -/
def newOffload (cfg : Settings) (s : Shard) : Orchestration.Job where
  tenantId := some cfg.tenantId
  operation := "data_science.extraction." ++ cfg.operation
  operationId := cfg.shardOperationId s
  inputPayloadDigest := cfg.inputDigest s.input
  kwargs := { inputRows := some s.input.length }

/-- The shards that submission creates from a plan, offload job `first + i` for shard `i`. -/
def plannedShards (first : Nat) (plan : Plan) : List Shard :=
  plan.tables.mapIdx fun i table =>
    { index := i, input := table, orchestrationJob := some (first + i) }

/-- `(… .order_by("-index").values_list("index", flat=True).first() or 0) + 1`. -/
def Ledger.nextIndex (l : Ledger) : Nat := (l.shards.map Shard.index).foldr max 0 + 1

/-- The two replacements `replan_shard` creates for a refused shard. -/
def Ledger.replacements (l : Ledger) (s : Shard) : List Shard :=
  let splitAt := s.input.length / 2
  [{ index := l.nextIndex, input := s.input.take splitAt },
    { index := l.nextIndex + 1, input := s.input.drop splitAt }]

/-! ## Writes -/

inductive Write where
  | nothing
  /-- `shard.save()`: the whole row. -/
  | saveShard (s : Shard)
  | saveShardStatus (index : Nat) (status : ShardStatus)
  | saveShardError (index : Nat) (error : String)
  | saveShardOffload (index : Nat) (offload : Nat)
  | createOffload (s : Shard)
  | saveOffloadError (offload : Nat) (error : String)
  | saveOffloadTaskId (offload : Nat) (id : String)
  /-- `dispatch_offload.delay`. -/
  | delayDispatch (offload : Nat)
  /-- `cancel_job_task.delay`. -/
  | delayCancel (offload : Nat)
  /-- The last save of `reconcile_extraction`. -/
  | saveJob (status : JobStatus) (shardCount rowsTotal : Nat)
  /-- The last save of `cancel`, and its answer. -/
  | cancelJob
  | failPlanning (error : String)
  | adopt (plan : Plan)
  | replan (s : Shard)
  /-- The operator's re-run of the failed shards. -/
  | requeueFailed
  deriving DecidableEq

def Ledger.modifyShard (l : Ledger) (index : Nat) (f : Shard → Shard) : Ledger :=
  { l with shards := Table.modify Shard.index index f l.shards }

/-- The shards that `rerun_failed_shards` re-queues. -/
def Shard.rerunnable (s : Shard) : Bool := s.status == .failed && s.orchestrationJob.isSome

/-- The job's status after the operator's re-run. -/
def Ledger.requeuedStatus (l : Ledger) : JobStatus :=
  if l.shards.any Shard.rerunnable = true ∧
      (l.job.status = .failed ∨ l.job.status = .partialDone) then .running
  else l.job.status

/-- What a write does to the database. -/
def Ledger.apply (cfg : Settings) (l : Ledger) : Write → Ledger
  | .nothing => l
  | .saveShard s => l.modifyShard s.index fun _ => s
  | .saveShardStatus index status => l.modifyShard index fun t => { t with status := status }
  | .saveShardError index error => l.modifyShard index fun t => { t with error := error }
  | .saveShardOffload index offload =>
      l.modifyShard index fun t => { t with orchestrationJob := some offload }
  | .createOffload s => { l with offloads := l.offloads ++ [newOffload cfg s] }
  | .saveOffloadError offload error =>
      { l with offloads := l.offloads.modify offload fun row => { row with error := error } }
  | .saveOffloadTaskId offload id =>
      { l with offloads := l.offloads.modify offload fun row => { row with celeryTaskId := id } }
  | .delayDispatch offload => { l with dispatches := l.dispatches ++ [offload] }
  | .delayCancel offload => { l with cancels := l.cancels ++ [offload] }
  | .saveJob status shardCount rowsTotal =>
      { l with job := { l.job with
          status := status, shardCount := shardCount, rowsTotal := rowsTotal } }
  | .cancelJob => { l with job := { l.job with status := .canceled }, answered := true }
  | .failPlanning error => { l with job := { l.job with status := .failed, error := error } }
  | .adopt plan =>
      let shards := plannedShards l.offloads.length plan
      { l with
        job := { l.job with status := .running, shardCount := shards.length, error := "" }
        shards := shards
        offloads := l.offloads ++ shards.map (newOffload cfg)
        planned := plan.rows }
  | .replan s =>
      { l with
        shards := Table.modify Shard.index s.index (fun t => { t with status := .superseded })
          l.shards ++ l.replacements s }
  | .requeueFailed =>
      { l with
        job := { l.job with status := l.requeuedStatus }
        shards := l.shards.map fun t =>
          if t.rerunnable then { t with status := .queued, error := "" } else t }

end ControlPlane.Extraction
