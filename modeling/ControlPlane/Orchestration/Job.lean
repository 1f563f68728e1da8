/-
  The offload ledger row, `apps/orchestration/models.py` (table `control_job`).

  `Job` carries the columns that a writer of the row reads or overwrites: a Django `save()` without
  `update_fields` writes the whole row back, so a stale copy of any of them matters.  Of
  `kwargs_json` the keys that the tasks touch are fields of `Kwargs`; the log text and the two
  timestamps decide nothing and are left out.
-/
import ControlPlane.Text

namespace ControlPlane.Orchestration

/-- `Job.Status`. -/
inductive Status where
  | queued
  | running
  | succeeded
  | failed
  | canceled
  deriving DecidableEq, Repr

/-- The statuses `cancel_offload_job` refuses to cancel. -/
def Status.terminal : Status → Bool
  | .succeeded | .failed | .canceled => true
  | .queued | .running => false

/-- `kwargs_json["runpod"]`: the endpoint and the remote job the runner submitted. -/
structure RunpodHandle where
  endpointId : String
  jobId : Nat
  deriving DecidableEq, Repr

/-- The keys of `kwargs_json` that the tasks read or write. -/
structure Kwargs where
  inputArtifactKey : String := ""
  inputSchemaJson : String := "{}"
  inputRows : Option Nat := none
  outputArtifactKey : Option String := none
  runpod : Option RunpodHandle := none
  deriving DecidableEq, Repr

/-- A row of `control_job`. -/
structure Job where
  tenantId : Option String := none
  operation : String
  operationId : String := ""
  status : Status := .queued
  celeryTaskId : String := ""
  inputPayloadDigest : String := ""
  outputSchemaJson : String := ""
  outputArtifactKey : String := ""
  outputPayloadDigest : String := ""
  outputRows : Option Nat := none
  error : String := ""
  kwargs : Kwargs := {}
  deriving DecidableEq, Repr

/-- `_is_r_operation`. -/
def isROperation (operation : String) : Bool := Text.startswith operation "data_science.r."

/-- The test by which extraction shards are routed to their own endpoint. -/
def isExtractionOperation (operation : String) : Bool :=
  Text.startswith operation "data_science.extraction."

end ControlPlane.Orchestration
