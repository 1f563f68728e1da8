/-
  INGESTION OF ROLLOUTS: `theorem_control/rl/ingest.py`, on the tables of `theorem_control/rl/models.py`.

  `parse_traces` reads one JSON object a line and refuses the payload at the first line that is not a
  rollout.  Which class of exception it raises there matters to its callers, so the model keeps the
  classes: a wrong shape is a `TypeError`, an integer too large for a float an `OverflowError`,
  everything else that is wrong with a value a `ValueError`.

  `ingest_trajectories` publishes all rollouts as one Arrow shard, reads it back, and then writes one
  `Trajectory` with its `GraderVerdict` for each rollout, in one transaction.  The key of a trajectory
  within its run is the digest of its trace.

  The object store and the database are outside: `Weather` is what they answer, `Ingestion` what
  pyarrow makes of a table.
-/
import ControlPlane.JsonLoads
import ControlPlane.Orchestration.Artifacts
import ControlPlane.Upsert

namespace ControlPlane.Rl

open ControlPlane.Competence (ArtifactError validateKey tenantPrefix)
open ControlPlane.Orchestration (Expected Response StoredArrowArtifact StoreSettings raised)

/-! ## Settings and rows -/

/-- The interpreter, the artifact store, and pyarrow's encoding of a table with `TRACE_SCHEMA`: the
    IPC stream of its rows. -/
structure Ingestion extends Interpreter, StoreSettings where
  /-- `arrow_schema_json(TRACE_SCHEMA)`. -/
  traceSchemaJson : PyStr
  encodeArrowIpc : List (PyStr × PyStr × PyFloat × PyStr × PyFloat × PyStr) → List UInt8

/-- A row of `parse_traces`. -/
structure Trace where
  taskKey : PyStr
  traceDigest : PyStr
  reward : PyFloat
  metrics : List (PyStr × Json)
  metricsJson : PyStr
  resolved : PyFloat
  tripwireFlags : List PyStr
  tripwireFlagsJson : PyStr

structure GraderVerdict where
  resolved : PyFloat
  metricValues : List (PyStr × Json)
  tripwireFlags : List PyStr

/-- A trajectory of the run, with the verdict that is one-to-one with it. -/
structure Trajectory where
  taskKey : PyStr
  traceDigest : PyStr
  reward : PyFloat
  metrics : List (PyStr × Json)
  arrowShardKey : String
  graderVerdict : GraderVerdict

/-- The trajectories of one run, `control_trajectory_run_trace_uniq`. -/
structure Trajectories where
  rows : List Trajectory
  unique : (rows.map Trajectory.traceDigest).Nodup

/-- An entry of `artifact_descriptors`. -/
structure Descriptor where
  kind : String
  artifactKey : String
  payloadDigest : PyStr
  schemaJson : PyStr := []
  rows : Option Nat := none
  contentType : String
  byteLength : Option Nat := none
  deriving DecidableEq, Repr

/-- What ingestion writes of a run. -/
structure Ledger where
  trajectories : Trajectories := ⟨[], List.nodup_nil⟩
  artifactDescriptors : List Descriptor := []
  artifactKeys : List String := []

/-! ## Reading a line -/

/-- The exceptions that reading a line can raise. -/
inductive ParseError where
  | valueError (message : String)
  | unicodeEncodeError
  | recursionError
  | typeError (message : String)
  | overflowError
  deriving DecidableEq, Repr

/-- The exception itself. -/
def ParseError.raised : ParseError → PyError
  | .valueError message => ⟨.valueError, PyStr.lit message⟩
  | .unicodeEncodeError => { cls := .unicodeEncodeError }
  | .recursionError => { cls := .recursionError }
  | .typeError message => ⟨.typeError, PyStr.lit message⟩
  | .overflowError => { cls := .overflowError }

section Parse

variable (py : Ingestion)

/-- `canonical_json`. -/
def canonicalJson (value : Json) : Except ParseError (List UInt8) :=
  if py.writeDepth < value.depth then .error .recursionError
  else match Json.canonicalJson py.repr value with
    | none => .error .unicodeEncodeError
    | some payload => .ok payload

/-- `float(value)`. -/
def toFloat : Json → Except ParseError PyFloat
  | .bool b => .ok (if b then 1 else 0)
  | .int n =>
      match PyFloat.ofInt n with
      | some x => .ok x
      | none => .error .overflowError
  | .float x => .ok x
  | .negZero => .ok 0
  | .str text =>
      match PyFloat.ofText py.decimal text with
      | some x => .ok x
      | none => .error (.valueError "")
  | .null | .arr _ | .obj _ => .error (.typeError "")

/-- `_reward_score`. -/
def rewardScore : Json → Except ParseError PyFloat
  | .bool b => toFloat py (.bool b)
  | .int n => toFloat py (.int n)
  | .float x => toFloat py (.float x)
  | .negZero => toFloat py .negZero
  | .obj fields =>
      match Json.get? fields "score", Json.get? fields "value" with
      | some value, _ => toFloat py value
      | none, some value => toFloat py value
      | none, none =>
          .error (.valueError "reward value must be numeric or contain a numeric score")
  | .null | .str _ | .arr _ =>
      .error (.valueError "reward value must be numeric or contain a numeric score")

/-- `value.get("weight", 1.0) if isinstance(value, Mapping) else 1.0`. -/
def weight : Json → Json
  | .obj fields => (Json.get? fields "weight").getD (.float 1)
  | _ => .float 1

/-- The `sum` over the rewards that are not None. -/
def sumRewards : PyFloat → List Json → Except ParseError PyFloat
  | total, [] => .ok total
  | total, .null :: values => sumRewards total values
  | total, value :: values => do
      let score ← rewardScore py value
      let factor ← toFloat py (weight value)
      sumRewards (total.add (score.mul factor)) values

/-- `value.get(key, default)` of a `dict`. -/
def getD (fields : List (PyStr × Json)) (key : String) (default : Json) : Json :=
  (Json.get? fields key).getD default

/-- `a or b`. -/
def either (a b : Json) : Json := if a.truthy then a else b

/-- `value.get(key, default) if isinstance(value, Mapping) else otherwise`. -/
def ofMapping (value : Json) (key : String) (default otherwise : Json) : Json :=
  match value with
  | .obj fields => getD fields key default
  | _ => otherwise

/-- The expression `task_key`. -/
def taskKeyOf (item : List (PyStr × Json)) : Json :=
  let task := getD item "task" (.obj [])
  let taskData := ofMapping task "data" (.obj []) (.obj [])
  either (getD item "task_key" .null) <| either (getD item "task_id" .null) <|
    either (getD item "name" .null) <| either (ofMapping task "key" .null .null)
      (ofMapping taskData "task_id" .null .null)

/-- The value that `resolved` is read from. -/
def resolvedValue (item metrics rewards : List (PyStr × Json)) : Json :=
  getD rewards "resolved" (getD metrics "resolved" (getD item "reward" (.float 0)))

/-- `reward`. -/
def rewardOf (item rewards : List (PyStr × Json)) (resolved : PyFloat) : Except ParseError PyFloat :=
  match getD item "reward" .null with
  | .null => if rewards ≠ [] then sumRewards py 0 (rewards.map Prod.snd) else .ok resolved
  | explicit => rewardScore py explicit

/-- `0.0 <= resolved <= 1.0`. -/
def inRange (resolved : PyFloat) : Bool := PyFloat.le 0 resolved && PyFloat.le resolved 1

/-- The tripwire flags, before they are looked at. -/
def flagsValue (item metrics info : List (PyStr × Json)) : Json :=
  let grader := getD info "django_v1" (.obj [])
  getD item "tripwire_flags"
    (getD metrics "tripwire_flags" (ofMapping grader "tripwires" (.obj []) (.obj [])))

/-- The names in a list of flags; `none` when one is no string. -/
def flagNames : List Json → Option (List PyStr)
  | [] => some []
  | .str name :: flags => (flagNames flags).map (name :: ·)
  | _ :: _ => none

/-- The flags that fired; `none` when they are neither an object nor a list of strings. -/
def firedFlags : Json → Option (List PyStr)
  | .obj fields => some ((fields.filter fun f => f.2.truthy).map Prod.fst)
  | .arr items => flagNames items
  | _ => none

/-- `traces.jsonl line {line_number} …`. -/
def lineMessage (line : Nat) (text : String) : String := s!"traces.jsonl line {line} " ++ text

/-- `supplied_digest is not None and supplied_digest != computed_digest`. -/
def mismatch (supplied : Json) (computed : PyStr) : Bool :=
  match supplied with
  | .null => false
  | .str text => text != computed
  | _ => true

/-- `rows.append`. -/
def traceRow (taskKey digest : PyStr) (reward : PyFloat) (metrics : List (PyStr × Json))
    (resolved : PyFloat) (flags : List PyStr) : Except ParseError Trace := do
  let _ ← canonicalJson py (.obj metrics)
  let _ ← canonicalJson py (.arr (flags.map .str))
  .ok ⟨taskKey, digest, reward, metrics, Json.dumps py.repr (.obj metrics), resolved, flags,
    Json.dumps py.repr (.arr (flags.map .str))⟩

/-- From the tripwire flags on. -/
def checkTrace (line : Nat) (item metrics : List (PyStr × Json)) (taskKey : PyStr)
    (resolved reward : PyFloat) (info : List (PyStr × Json)) : Except ParseError Trace :=
  match firedFlags (flagsValue item metrics info) with
  | none => .error (.valueError (lineMessage line "tripwire flags are invalid"))
  | some flags =>
      if flags ≠ [] ∧ !resolved.eq 0 then
        .error (.valueError (lineMessage line "resolves despite a tripwire"))
      else do
        let trace ← canonicalJson py (getD item "trace" (.obj item))
        if mismatch (getD item "trace_digest" .null) (py.sha256Digest trace) then
          .error (.valueError (lineMessage line "digest mismatch"))
        else traceRow py taskKey (py.sha256Digest trace) reward metrics resolved flags

/-- The body of the loop for a line that is JSON. -/
def parseItem (line : Nat) (value : Json) : Except ParseError Trace :=
  match value with
  | .obj item =>
      match taskKeyOf item with
      | .str taskKey =>
          if PyStr.blank taskKey then .error (.valueError (lineMessage line "lacks task_key"))
          else match getD item "metrics" (.obj []) with
            | .obj metrics =>
                match getD item "rewards" (.obj []) with
                | .obj rewards => do
                    let resolved ← rewardScore py (resolvedValue item metrics rewards)
                    let reward ← rewardOf py item rewards resolved
                    if !inRange resolved then
                      .error (.valueError (lineMessage line "resolved is out of range"))
                    else match getD item "info" (.obj []) with
                      | .obj info => checkTrace py line item metrics taskKey resolved reward info
                      | _ => .error (.typeError (lineMessage line "info must be an object"))
                | _ => .error (.typeError (lineMessage line "rewards must be an object"))
            | _ => .error (.typeError (lineMessage line "metrics must be an object"))
      | _ => .error (.valueError (lineMessage line "lacks task_key"))
  | _ => .error (.typeError (lineMessage line "must be an object"))

/-- The body of the loop. -/
def parseLine (line : Nat × List UInt8) : Except ParseError Trace :=
  match Json.loads py.toInterpreter line.2 with
  | .ok value => parseItem py line.1 value
  | .error .malformed => .error (.valueError s!"invalid traces.jsonl line {line.1}")
  | .error .intDigits => .error (.valueError "")
  | .error .recursion => .error .recursionError

/-! ## Reading the payload -/

/-- `bytes.splitlines()`; `line` is the line at hand. -/
def splitlines (line : List UInt8) : List UInt8 → List (List UInt8)
  | [] => if line = [] then [] else [line]
  | 0x0A :: rest => line :: splitlines [] rest
  | 0x0D :: 0x0A :: rest => line :: splitlines [] rest
  | 0x0D :: rest => line :: splitlines [] rest
  | byte :: rest => splitlines (line ++ [byte]) rest

/-- `not raw_line.strip()`. -/
def blankLine (line : List UInt8) : Bool :=
  line.all fun byte => byte = 0x20 || (0x09 ≤ byte && byte ≤ 0x0D)

/-- The lines with their numbers, without the blank ones. -/
def traceLines (payload : List UInt8) : List (Nat × List UInt8) :=
  let lines := splitlines [] payload
  ((List.range lines.length).map (· + 1)).zip lines |>.filter fun line => !blankLine line.2

/-- `parse_traces`. -/
def parseTraces (payload : List UInt8) : Except ParseError (List Trace) := do
  let rows ← (traceLines payload).mapM (parseLine py)
  if rows = [] then .error (.valueError "traces.jsonl did not contain any trajectories")
  else .ok rows

end Parse

/-! ## Publishing and writing the rows -/

/-- What the object store and the database answer to one ingestion: to the `put_object` of the shard,
    to the `get_object` that reads it back, and to writing a rollout's trajectory and verdict, where
    the database may raise. -/
structure Weather where
  put : Except ArtifactError Unit
  readBack : Except ArtifactError Response
  database : Trace → Option PyError

section Ingest

variable (py : Ingestion) (w : Weather) (tenantId runId : String)

/-- A row of the table with `TRACE_SCHEMA`. -/
def Trace.arrowRow (row : Trace) : PyStr × PyStr × PyFloat × PyStr × PyFloat × PyStr :=
  (row.taskKey, row.traceDigest, row.reward, row.metricsJson, row.resolved, row.tripwireFlagsJson)

/-- `pa.Table.from_pylist`: a lone surrogate in a task key does not go into a UTF-8 column; the other
    texts were encoded before. -/
def fromPylist (rows : List Trace) :
    Except PyError (List (PyStr × PyStr × PyFloat × PyStr × PyFloat × PyStr)) :=
  if rows.any fun row => row.taskKey.any PyStr.isSurrogate then .error { cls := .unicodeEncodeError }
  else .ok (rows.map Trace.arrowRow)

/-- `rl_artifact_key(tenant_id, run_id, "trajectories.arrow", source_digest)`. -/
def rlArtifactKey (payload : List UInt8) : Except ArtifactError String :=
  if !PyStr.isSha256Digest (py.sha256Digest payload) then
    .error (.validation "artifact identity must be a sha256 digest")
  else .ok (tenantPrefix tenantId ++ "rl/" ++ runId ++ "/trajectories.arrow/" ++ py.hexdigest payload)

/-- What `write_table` returns. -/
def shardArtifact (artifactKey : String)
    (table : List (PyStr × PyStr × PyFloat × PyStr × PyFloat × PyStr)) : StoredArrowArtifact :=
  ⟨artifactKey, py.sha256Digest (py.encodeArrowIpc table), py.traceSchemaJson, table.length⟩

/-- What `read_arrow` is told of it. -/
def described (artifact : StoredArrowArtifact) : Expected :=
  ⟨artifact.payloadDigest, artifact.schemaJson, some artifact.rows⟩

/-- `write_table`, and the `read_arrow` behind it. -/
def writeShard (artifactKey : String)
    (table : List (PyStr × PyStr × PyFloat × PyStr × PyFloat × PyStr)) :
    Except ArtifactError StoredArrowArtifact := do
  validateKey tenantId artifactKey
  if py.maxBytes < (py.encodeArrowIpc table).length then
    .error (.validation "artifact exceeds ARTIFACT_MAX_BYTES")
  else do
    w.put
    let _ ← py.readArrow (fun _ => w.readBack) tenantId artifactKey
      (described (shardArtifact py artifactKey table))
    .ok (shardArtifact py artifactKey table)

/-- From the payload to the published shard. -/
def publishShard (payload : List UInt8) : Except PyError (List Trace × StoredArrowArtifact) := do
  let rows ← (parseTraces py payload).mapError ParseError.raised
  let table ← fromPylist rows
  let artifactKey ← (rlArtifactKey py tenantId runId payload).mapError raised
  let artifact ← (writeShard py w tenantId artifactKey table).mapError raised
  .ok (rows, artifact)

/-- The trajectory and the verdict of a rollout. -/
def Trace.trajectory (shardKey : String) (row : Trace) : Trajectory where
  taskKey := row.taskKey
  traceDigest := row.traceDigest
  reward := row.reward
  metrics := row.metrics
  arrowShardKey := shardKey
  graderVerdict := ⟨row.resolved, row.metrics, row.tripwireFlags⟩

/-- The two `update_or_create` for each row. -/
def Trajectories.updateOrCreate (t : Trajectories) (shardKey : String) (rows : List Trace) :
    Trajectories where
  rows := Table.putAll Trajectory.traceDigest t.rows (rows.map (Trace.trajectory shardKey))
  unique := Table.nodup_putAll t.unique

/-- The descriptor of the shard. -/
def shardDescriptor (artifact : StoredArrowArtifact) : Descriptor where
  kind := "trajectories"
  artifactKey := artifact.artifactKey
  payloadDigest := artifact.payloadDigest
  schemaJson := artifact.schemaJson
  rows := some artifact.rows
  contentType := "application/vnd.apache.arrow.stream"

/-- The transaction of `ingest_trajectories`. -/
def Ledger.mint (l : Ledger) (rows : List Trace) (artifact : StoredArrowArtifact) : Ledger :=
  let descriptors :=
    l.artifactDescriptors.filter (fun item => item.kind ≠ "trajectories") ++ [shardDescriptor artifact]
  { trajectories := l.trajectories.updateOrCreate artifact.artifactKey rows
    artifactDescriptors := descriptors
    artifactKeys := descriptors.map Descriptor.artifactKey }

/-- `ingest_trajectories`: the tables afterwards, and what it returns or raises. -/
def ingestTrajectories (payload : List UInt8) (l : Ledger) : Ledger × Except PyError Descriptor :=
  match publishShard py w tenantId runId payload with
  | .error e => (l, .error e)
  | .ok (rows, artifact) =>
      match rows.findSome? w.database with
      | some e => (l, .error e)
      | none => (l.mint rows artifact, .ok (shardDescriptor artifact))

end Ingest

end ControlPlane.Rl
