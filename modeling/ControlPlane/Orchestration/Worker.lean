/-
  A WORKER'S ANSWERS: `_run_runpod_offload` of `apps/orchestration/tasks.py`, from the moment the id of
  the remote job is saved, with `RunpodServerlessClient.status` and `wait` of
  `apps/orchestration/runpod.py`.

  What RunPod answers to a poll is a body of bytes that the worker chose, so all of it is read here as
  the code reads it: the JSON, the status, the logs that go into the row, the descriptor of the output.
  An exception has its class, because the two `except` clauses list theirs: `RecursionError`,
  `UnicodeEncodeError` of `persist_status` and whatever the database raises are on neither list.

  The database stores some characters and some numbers (`takes`, `fits`); a row that cannot be stored
  makes `save` raise, and the row stays as it was.  A column of a row therefore holds `Text`, text that
  was stored.  The provenance call behind the last save is left out: it swallows its errors.
-/
import ControlPlane.JsonLoads
import ControlPlane.Orchestration.Artifacts
import ControlPlane.Orchestration.Offload
import ControlPlane.PyRepr

namespace ControlPlane.Orchestration

open ControlPlane.Competence (ArtifactError tenantPrefix)

/-! ## Settings and the row -/

/-- The interpreter, the artifact store and the database. -/
structure Backend extends Interpreter, StoreSettings where
  /-- `str.upper`. -/
  upper : PyStr → PyStr
  /-- `str.isprintable`, of one character. -/
  printable : CodePoint → Bool
  /-- How deep a value may be nested before `repr` raises `RecursionError`. -/
  reprDepth : Nat
  /-- The characters that a text column takes. -/
  takes : CodePoint → Bool
  /-- The numbers that an integer column takes. -/
  fits : Nat → Bool
  takes_plain : ∀ c, PyStr.isPlain c = true ∨ c = 0x0A → takes c = true
  repr_plain : ∀ x, (repr x).all PyStr.isPlain = true
  /-- `arrow_schema_json` is a `json.dumps` that escapes everything that is not ASCII. -/
  schema_plain : ∀ stream schemaJson rows, decode stream = some (schemaJson, rows) →
    schemaJson.all PyStr.isPlain = true

namespace Backend

variable (b : Backend)

/-- The database takes it. -/
def Takes (text : PyStr) : Prop := text.all b.takes = true

instance (text : PyStr) : Decidable (b.Takes text) := inferInstanceAs (Decidable (_ = true))

/-- Text in the database. -/
def Text : Type := {text : PyStr // b.Takes text}

/-- What a text column makes of a text: the driver cannot encode a surrogate, and what else it does not
    take the database refuses. -/
def column (text : PyStr) : Except PyError b.Text :=
  if h : b.Takes text then .ok ⟨text, h⟩
  else if text.any PyStr.isSurrogate then .error { cls := .unicodeEncodeError }
  else .error { cls := .databaseError }

/-- What the integer column makes of a number. -/
def intColumn (n : Nat) : Except PyError Nat :=
  if b.fits n then .ok n else .error { cls := .databaseError }

end Backend

/-- The columns of `control_job` that are written from here on. -/
structure Record (b : Backend) where
  status : Status := .running
  logs : b.Text
  error : b.Text
  outputArtifactKey : String := ""
  outputSchemaJson : b.Text
  outputRows : Option Nat := none
  outputPayloadDigest : b.Text

namespace Record

variable {b : Backend}

/-- `refresh_from_db`, when the job may have been canceled. -/
def refresh (row : Record b) (canceled : Bool) : Record b :=
  if canceled then { row with status := .canceled } else row

/-- `job.save()`: the row it wrote, or what it raised. -/
def save (row : Record b) : Except PyError (Record b) → Record b × Except PyError Unit
  | .ok written => (written, .ok ())
  | .error e => (row, .error e)

end Record

/-- The text behind `_append_log`: the last 16,000 characters. -/
def appendLog (logs line : PyStr) : PyStr := PyStr.takeLast (logs ++ (line.rstrip ++ [0x0A])) 16000

/-! ## What is outside -/

/-- How the store refuses an object. -/
inductive Refusal where
  | missing
  | failed
  deriving DecidableEq, Repr

def Refusal.raised : Refusal → ArtifactError
  | .missing => .storage "artifact storage object is missing"
  | .failed => .storage "artifact storage read failed"

/-- One `GET /status`: the text of what httpx raised, or the body; and whether the job has been
    canceled when `persist_status` refreshes it. -/
structure Poll where
  reply : Except PyStr (List UInt8)
  canceled : Bool := false

/-- A remote job and what becomes of it: the polls until the deadline has passed, the answer to the
    cancel request that is sent then, the objects in the store when it is over, and whether the job
    has been canceled by that time.  `timeout` is `f"{timeout_seconds:g}"`. -/
structure RemoteJob (b : Backend) where
  tenantId : String
  operationId : String
  jobId : b.Text
  timeout : b.Text
  first : Poll
  later : List Poll
  cancelReply : Except PyStr (List UInt8)
  objects : String → Except Refusal Response
  canceled : Bool

/-! ## Reading an answer -/

/-- A status answer: the status as it is compared, and the object. -/
structure RemoteState where
  status : PyStr
  payload : List (PyStr × Json)

/-- The statuses at which `wait` returns. -/
def endsWait (status : PyStr) : Bool :=
  status == PyStr.lit success || (failureStatuses.map PyStr.lit).contains status

namespace Backend

variable (b : Backend)

/-- `_request`, on what httpx has got. -/
def request (reply : Except PyStr (List UInt8)) : Except PyError (List (PyStr × Json)) :=
  match reply with
  | .error message => .error ⟨.runpodApi, message⟩
  | .ok body =>
      match Json.loads b.toInterpreter body with
      | .ok (.obj payload) => .ok payload
      | .ok _ => .error ⟨.runpodApi, PyStr.lit "RunPod returned a non-object JSON response"⟩
      | .error .recursion => .error { cls := .recursionError }
      | .error _ => .error ⟨.runpodApi, PyStr.lit "RunPod returned a non-JSON response"⟩

/-- `str(value)`. -/
def text (value : Json) : Except PyError PyStr :=
  if b.reprDepth < value.depth then .error { cls := .recursionError }
  else .ok (value.pyStr b.printable b.repr)

/-- `str(payload.get(key) or default)`. -/
def textOr (value : Option Json) (default : PyStr) : Except PyError PyStr :=
  match value with
  | some value => if value.truthy then b.text value else .ok default
  | none => .ok default

/-- `RunpodServerlessClient.status`. -/
def status (reply : Except PyStr (List UInt8)) : Except PyError RemoteState := do
  let payload ← b.request reply
  let text ← b.textOr (Json.get? payload "status") []
  if b.upper text.strip = [] then
    .error ⟨.runpodApi, PyStr.lit "RunPod /status response did not include status"⟩
  else .ok ⟨b.upper text.strip, payload⟩

/-- `rendered_logs`. -/
def rendered : Json → Except PyError PyStr
  | .str text => .ok text
  | value =>
      if b.writeDepth < value.depth then .error { cls := .recursionError }
      else .ok (value.dumpsPlain b.repr)

/-- `logs_hash`. -/
def logsHash (text : PyStr) : Except PyError String :=
  match text.encode with
  | none => .error { cls := .unicodeEncodeError }
  | some bytes => .ok (b.hexdigest bytes)

/-- The rendered logs of an answer and their hash, when it carries any. -/
def remoteLogs (payload : List (PyStr × Json)) : Except PyError (Option (PyStr × String)) :=
  match Json.get? payload "logs" with
  | some value =>
      if value.truthy then do
        let text ← b.rendered value
        let hash ← b.logsHash text
        pure (some (text, hash))
      else .ok none
  | none => .ok none

end Backend

/-! ## Polling -/

/-- `last_status` and `last_logs_hash`. -/
structure Seen where
  status : PyStr := []
  logsHash : String := ""

/-- Both after an answer. -/
def Seen.update (seen : Seen) (status : PyStr) : Option (PyStr × String) → Seen
  | some (_, hash) => ⟨status, hash⟩
  | none => ⟨status, seen.logsHash⟩

/-- The lines that `persist_status` appends. -/
def news (jobId : PyStr) (seen : Seen) (status : PyStr) (logs : Option (PyStr × String)) :
    List PyStr :=
  (if status ≠ seen.status then [PyStr.lit "[RunPod] " ++ jobId ++ PyStr.lit ": " ++ status]
    else []) ++
  match logs with
  | some (text, hash) =>
      if hash ≠ seen.logsHash then [PyStr.lit "[RunPod remote] " ++ text.takeLast 2000] else []
  | none => []

section Wait

variable (b : Backend) (x : RemoteJob b)

/-- `persist_status`, behind the refresh. -/
def persistStatus (seen : Seen) (row : Record b) (s : RemoteState) :
    Except PyError (Seen × Record b) := do
  let logs ← b.remoteLogs s.payload
  if news x.jobId.val seen s.status logs = [] then pure (seen.update s.status logs, row)
  else
    let stored ← b.column ((news x.jobId.val seen s.status logs).foldl appendLog row.logs.val)
    pure (seen.update s.status logs, { row with logs := stored })

/-- One round of `wait`, to the end of `on_update`. -/
def round (p : Poll) (seen : Seen) (row : Record b) :
    Record b × Except PyError (Seen × RemoteState) :=
  match b.status p.reply with
  | .error e => (row, .error e)
  | .ok s =>
      if p.canceled then
        (row.refresh true, .error ⟨.runpodTimeout, PyStr.lit cancelledMessage⟩)
      else match persistStatus b x seen row s with
        | .error e => (row, .error e)
        | .ok (seen, row) => (row, .ok (seen, s))

/-- The deadline: what is raised once the cancel request has been sent. -/
def expired : PyError :=
  match b.request x.cancelReply with
  | .error ⟨.recursionError, message⟩ => ⟨.recursionError, message⟩
  | _ => ⟨.runpodTimeout, PyStr.lit "RunPod job " ++ x.jobId.val ++ PyStr.lit " exceeded the " ++
      x.timeout.val ++ PyStr.lit "s control-plane deadline"⟩

/-- `wait`; behind the last poll the deadline has passed. -/
def wait (p : Poll) (later : List Poll) (seen : Seen) (row : Record b) :
    Record b × Except PyError RemoteState :=
  match round b x p seen row with
  | (row, .error e) => (row, .error e)
  | (row, .ok (seen, s)) =>
      if endsWait s.status then (row, .ok s)
      else match later with
        | [] => (row, .error (expired b x))
        | next :: later => wait next later seen row

end Wait

/-! ## The result -/

section Result

variable (b : Backend) (x : RemoteJob b)

/-- `_fail_job`. -/
def failJob (row : Record b) (error : PyStr) : Record b × Except PyError Unit :=
  if row.status = .canceled then (row, .ok ())
  else row.save do
    let message ← b.column error
    let logs ← b.column (appendLog row.logs.val (PyStr.lit "[RunPod] failed: " ++ error))
    pure { row with status := .failed, error := message, logs := logs }

/-- `_runpod_handler_output`. -/
def handlerOutput (payload : List (PyStr × Json)) : Except PyError Json :=
  match Json.get? payload "output" with
  | some (.obj envelope) =>
      if ((Json.get? envelope "error").getD .null).truthy then do
        let message ← b.text ((Json.get? envelope "error").getD .null)
        .error ⟨.valueError, PyStr.lit "RunPod handler error: " ++ message⟩
      else .ok ((Json.get? envelope "output").getD .null)
  | _ => .error ⟨.valueError,
      PyStr.lit "RunPod status output must contain a handler result object"⟩

/-- `rows` of a descriptor; `none` is a value it may not have. -/
def descriptorRows : Json → Option (Option Int)
  | .null => some none
  | .int n => if n < 0 then none else some (some n)
  | _ => none

/-- `_output_descriptor`. -/
def outputDescriptor : Json → Except PyError Expected
  | .obj output =>
      match (Json.get? output "schema_json").getD .null,
          (Json.get? output "payload_digest").getD .null with
      | .str schemaJson, .str payloadDigest =>
          if payloadDigest.isSha256Digest then
            match descriptorRows ((Json.get? output "rows").getD .null) with
            | some rows => .ok ⟨payloadDigest, schemaJson, rows⟩
            | none => .error ⟨.valueError,
                PyStr.lit "RunPod output.rows must be a non-negative integer or null"⟩
          else .error ⟨.valueError,
            PyStr.lit "RunPod output.payload_digest must be a sha256 digest"⟩
      | .str _, _ => .error ⟨.valueError,
          PyStr.lit "RunPod output.payload_digest must be a sha256 digest"⟩
      | _, _ => .error ⟨.valueError, PyStr.lit "RunPod output.schema_json must be a string"⟩
  | _ => .error ⟨.valueError, PyStr.lit "RunPod output must be an ArrowBatch descriptor object"⟩

/-- `ArtifactStore.output_key`. -/
def RemoteJob.outputKey {b : Backend} (x : RemoteJob b) : String :=
  tenantPrefix x.tenantId ++ "outputs/" ++ b.hexdigest (Text.bytes x.operationId) ++ ".arrow"

/-- The `try` around `read_arrow`: the claim of the worker, verified. -/
def verifiedOutput (payload : List (PyStr × Json)) : Except PyError StoredArrowArtifact := do
  let output ← handlerOutput b payload
  let claimed ← outputDescriptor output
  (b.readArrow (fun key => (x.objects key).mapError Refusal.raised) x.tenantId x.outputKey
    claimed).mapError raised

/-- The columns of a verified output, with the last line of the log. -/
def complete (row : Record b) (artifact : StoredArrowArtifact) : Except PyError (Record b) := do
  let schemaJson ← b.column artifact.schemaJson
  let rows ← b.intColumn artifact.rows
  let payloadDigest ← b.column artifact.payloadDigest
  let logs ← b.column (appendLog row.logs.val (PyStr.lit "[RunPod] completed " ++ x.jobId.val))
  pure { row with
    status := .succeeded
    outputArtifactKey := artifact.artifactKey
    outputSchemaJson := schemaJson
    outputRows := some rows
    outputPayloadDigest := payloadDigest
    logs := logs }

/-- The first `except`. -/
def waitHandlers : List ErrorClass :=
  [.artifactConfiguration, .artifactStorage, .artifactValidation, .runpodApi, .runpodConfiguration,
    .runpodTimeout]

/-- The second. -/
def resultHandlers : List ErrorClass := [.artifactStorage, .artifactValidation, .valueError]

/-- `wait` has raised. -/
def interrupted (row : Record b) (e : PyError) : Record b × Except PyError Unit :=
  if e.caughtBy waitHandlers then
    if PyStr.contains (PyStr.lit cancelledMessage) e.message ∧ row.status = .canceled then
      (row, .ok ())
    else failJob b row e.message
  else (row, .error e)

/-- `wait` has returned. -/
def concluded (row : Record b) (s : RemoteState) : Record b × Except PyError Unit :=
  if s.status = PyStr.lit success then
    match verifiedOutput b x s.payload with
    | .error e => if e.caughtBy resultHandlers then failJob b row e.message else (row, .error e)
    | .ok artifact =>
        if row.status = .canceled then (row, .ok ()) else row.save (complete b x row artifact)
  else
    match b.textOr (Json.get? s.payload "error")
        (PyStr.lit "RunPod job finished as " ++ s.status) with
    | .error e => (row, .error e)
    | .ok error => failJob b row error

/-- What comes after `wait`. -/
def settle : Record b × Except PyError RemoteState → Record b × Except PyError Unit
  | (row, .error e) => interrupted b (row.refresh x.canceled) e
  | (row, .ok s) => concluded b x (row.refresh x.canceled) s

/-- `_run_runpod_offload`, from `wait` on. -/
def runRunpodOffload (row : Record b) : Record b × Except PyError Unit :=
  settle b x (wait b x x.first x.later {} row)

end Result

end ControlPlane.Orchestration
