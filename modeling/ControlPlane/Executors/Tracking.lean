/-
  MLFLOW RECEIPTS: `executors/registry.py` and `publish` of `extract/bench/__main__.py`, over one
  tracking store.

  Three kinds of callers write runs there: `execute` runs an executor and records what it made,
  `observe_execution` records that the pipeline ran one, and the harness publishes what it measured.
  `_measured_fitness` reads: `list_executors` shows what it finds, and an observation refers to it.

  Every request to the store is one step, between two of them anybody else may take steps, a request
  may fail, carried out or not, and a caller may die.  The callers record in the same way, so they are
  one machine: a `Recording` is the tags of a run and what is written to it, one request after the
  other, and its `Recovery` what is still written when a request fails.
-/
import ControlPlane.Interleave
import ControlPlane.PyFloat
import ControlPlane.PyStr
import ControlPlane.Sorting
import Mathlib.Data.Prod.Lex

namespace ControlPlane.Executors

open PyStr Interleave
open Sorting (sortedBy)

/-! ## The tracking store -/

inductive RunStatus where
  | running
  | finished
  | failed
  deriving DecidableEq, Repr

/-- A request that writes to a run. -/
inductive Write where
  | setTag (key value : PyStr)
  | logParam (key value : PyStr)
  | logMetric (key : PyStr) (value : PyFloat)
  | logArtifact (path : PyStr)
  | setTerminated (status : RunStatus)
  deriving DecidableEq

namespace Write

def tagOf (key : PyStr) : Write → Option PyStr
  | setTag k value => if k = key then some value else none
  | _ => none

def paramOf (key : PyStr) : Write → Option PyStr
  | logParam k value => if k = key then some value else none
  | _ => none

def metricOf (key : PyStr) : Write → Option PyFloat
  | logMetric k value => if k = key then some value else none
  | _ => none

def statusOf : Write → Option RunStatus
  | setTerminated status => some status
  | _ => none

end Write

/-- What the last of the writes that tell something tells. -/
def latest {α : Type} (tells : Write → Option α) (written : List Write) : Option α :=
  written.reverse.findSome? tells

/-- A run: how it was created, and what was written to it since. -/
structure Run where
  experiment : Nat
  startTime : Nat
  tags : List (PyStr × PyStr)
  written : List Write

namespace Run

variable (run : Run)

def tag (key : PyStr) : Option PyStr :=
  (latest (Write.tagOf key) run.written).or (run.tags.lookup key)

def param (key : PyStr) : Option PyStr := latest (Write.paramOf key) run.written

def metric (key : PyStr) : Option PyFloat := latest (Write.metricOf key) run.written

def status : RunStatus := (latest Write.statusOf run.written).getD .running

def add (w : Write) : Run := { run with written := run.written ++ [w] }

end Run

/-- Experiments by their names and runs; the place of either stands for its id. -/
structure Store where
  experiments : List PyStr
  runs : List Run

namespace Store

/-- `get_experiment_by_name`. -/
def experimentByName (s : Store) (name : PyStr) : Option Nat := s.experiments.findIdx? (· = name)

/-- `create_experiment`; `none` is `MlflowException`, as the name is taken. -/
def createExperiment (s : Store) (name : PyStr) : Option Store :=
  if name ∈ s.experiments then none
  else some { s with experiments := s.experiments ++ [name] }

/-- `create_run`. -/
def createRun (s : Store) (experiment now : Nat) (tags : List (PyStr × PyStr)) : Store :=
  { s with runs := s.runs ++ [⟨experiment, now, tags, []⟩] }

def write (s : Store) (run : Nat) (w : Write) : Store :=
  { s with runs := s.runs.modify run fun r => r.add w }

end Store

/-! ## The registry -/

/-- A registered executor. -/
inductive Executor where
  | discovery
  | corpusFiling
  | parsePaddle
  | spansGliner2
  | claimsVerifyMinicheck
  | resolveLink
  deriving DecidableEq, Repr

namespace Executor

def name : Executor → PyStr
  | discovery => lit "discovery"
  | corpusFiling => lit "corpus_filing"
  | parsePaddle => lit "parse.paddle"
  | spansGliner2 => lit "spans.gliner2"
  | claimsVerifyMinicheck => lit "claims.verify.minicheck"
  | resolveLink => lit "resolve.link"

def fitnessMetric : Executor → PyStr
  | discovery | corpusFiling => lit "held_out_filing_accuracy"
  | parsePaddle => lit "exact_text_f1"
  | spansGliner2 => lit "span_f1"
  | claimsVerifyMinicheck => lit "gold_agreement"
  | resolveLink => lit "resolution_accuracy"

/-- The executors of the extraction pipeline. -/
def ofPipeline : Executor → Bool
  | discovery | corpusFiling => false
  | parsePaddle | spansGliner2 | claimsVerifyMinicheck | resolveLink => true

end Executor

/-- `EXECUTORS`. -/
def EXECUTORS : List Executor :=
  [.discovery, .corpusFiling, .parsePaddle, .spansGliner2, .claimsVerifyMinicheck, .resolveLink]

def tier : PyStr := lit "Learned"

def modelHarness : PyStr := lit "model_harness"

def indexExperiment (tenant : PyStr) : PyStr := lit "theorem-index/" ++ tenant

def runtimeExperiment (tenant : PyStr) : PyStr := lit "theorem-extraction-runtime/" ++ tenant

def harnessExperiment (tenant : PyStr) : PyStr := lit "theorem-extraction/" ++ tenant

/-- What `_measured_fitness` returns. -/
structure Fitness where
  value : PyFloat
  metric : PyStr
  run : Nat
  deriving DecidableEq

/-! ## What the callers record -/

/-- What is still written when a request fails. -/
inductive Recovery where
  /-- Nothing. -/
  | propagate
  /-- `except Exception: set_terminated(FAILED)`. -/
  | markFailed
  /-- `finally: log_metric("elapsed_seconds")`, once the run was to be terminated. -/
  | logElapsed (elapsed : PyFloat)

def Recovery.writes : Recovery → Write → List Write
  | propagate, _ => []
  | markFailed, _ => [.setTerminated .failed]
  | logElapsed elapsed, .setTerminated _ => [.logMetric (lit "elapsed_seconds") elapsed]
  | logElapsed _, _ => []

/-- A run to be made. -/
structure Recording where
  tags : List (PyStr × PyStr)
  script : List Write
  recovery : Recovery

/-- `not tenant or not tenant.strip() or payload.get("tenant_id", tenant) != tenant` is false. -/
def admitted (tenant : PyStr) (payloadTenant : Option PyStr) : Bool :=
  !tenant.blank && payloadTenant.getD tenant == tenant

/-- What an executor returns, as far as `execute` records it. -/
structure Executed where
  implementation : PyStr
  /-- `accuracy` and `held_out_count`. -/
  fitness : Option (PyFloat × PyFloat)
  outputDigest : PyStr

/-- A call of `execute`; without a result the executor raises. -/
structure ExecuteCall where
  tenant : PyStr
  payloadTenant : Option PyStr
  executor : Executor
  inputDigest : PyStr
  result : Option Executed

/-- `theorem.fitness_status` of an execution without a fitness. -/
def fitnessStatus (executor : Executor) (implementation : PyStr) : PyStr :=
  if implementation = lit "exact_singleton_centroid" then lit "not_measured_exact_singleton"
  else if executor.ofPipeline then lit "not_measured_no_gold"
  else lit "not_measured_no_held_out_filings"

/-- What is written of a result before the run is terminated. -/
def Executed.writes (executor : Executor) (r : Executed) : List Write :=
  (match r.fitness with
    | some (accuracy, heldOut) =>
        [.logMetric executor.fitnessMetric accuracy, .logMetric (lit "held_out_count") heldOut]
    | none => [.setTag (lit "theorem.fitness_status") (fitnessStatus executor r.implementation)]) ++
  [.logParam (lit "implementation") r.implementation, .logParam (lit "output_digest") r.outputDigest]

def ExecuteCall.recording (c : ExecuteCall) : Recording where
  tags := [(lit "theorem.tenant", c.tenant), (lit "theorem.executor", c.executor.name),
    (lit "theorem.tier", tier), (lit "theorem.input_digest", c.inputDigest)]
  script := match c.result with
    | some r => r.writes c.executor ++ [.setTerminated .finished]
    | none => [.setTerminated .failed]
  recovery := if c.result.isSome then .markFailed else .propagate

/-- A call of `observe_execution`, and how the observed operation goes. -/
structure ObserveCall where
  tenant : PyStr
  payloadTenant : Option PyStr
  executor : Executor
  inputDigest : PyStr
  evidenceClass : PyStr
  raises : Bool
  elapsed : PyFloat

def ObserveCall.recording (c : ObserveCall) (runId : Nat → PyStr) (fitness : Option Fitness) :
    Recording where
  tags := [(lit "theorem.tenant", c.tenant), (lit "theorem.executor", c.executor.name),
      (lit "theorem.tier", tier), (lit "theorem.evidence", c.evidenceClass),
      (lit "theorem.input_digest", c.inputDigest),
      (lit "theorem.fitness_status",
        if fitness.isSome then lit "measured_reference" else lit "not_measured")] ++
    (fitness.map fun f => (lit "theorem.fitness_run_id", runId f.run)).toList
  script := [.setTerminated (if c.raises then .failed else .finished),
    .logMetric (lit "elapsed_seconds") c.elapsed]
  recovery := .logElapsed c.elapsed

/-! ## What the harness publishes -/

/-- A row of the harness: a document at a stage. -/
structure Row where
  document : PyStr
  stage : PyStr
  measured : Bool
  metrics : List (PyStr × PyFloat)

/-- `STAGES`. -/
def STAGES : List PyStr :=
  [lit "parse.docling", lit "parse.paddle", lit "parse.mineru", lit "parse.native",
    lit "spans.gliner2", lit "spans.relex", lit "fields", lit "claims.decompose",
    lit "claims.verify.minicheck", lit "resolve.link"]

def stageRows (rows : List Row) (stage : PyStr) : List Row := rows.filter fun r => r.stage = stage

/-- The measured rows of a stage. -/
def measuredRows (rows : List Row) (stage : PyStr) : List Row :=
  (stageRows rows stage).filter Row.measured

/-- The measured values of a metric. -/
def metricValues (rows : List Row) (stage metric : PyStr) : List PyFloat :=
  (measuredRows rows stage).filterMap fun r => r.metrics.lookup metric

/-- The metrics of a stage, each once. -/
def metricNames (rows : List Row) (stage : PyStr) : List PyStr :=
  ((measuredRows rows stage).flatMap fun r => r.metrics.map Prod.fst).dedup

/-- `sum(values) / len(values)`, for values that are not empty. -/
def mean (values : List PyFloat) : PyFloat :=
  ((values.foldl PyFloat.add 0).div (.finite values.length)).getD .nan

def documents (rows : List Row) (stage : PyStr) : List PyStr :=
  (stageRows rows stage).map Row.document

/-- One row for each of 100 documents and each stage. -/
def wellFormed (rows : List Row) : Bool :=
  rows.length == 100 * STAGES.length && STAGES.all fun stage =>
    (stageRows rows stage).length == 100 &&
      ((documents rows stage).all fun d => d ∈ documents rows (lit "parse.docling")) &&
      ((documents rows (lit "parse.docling")).all fun d => d ∈ documents rows stage) &&
      (documents rows stage).dedup.length == 100

/-- A call of `publish`: the rows, the checks (stage and status) and the policy of the acceptance,
    the digest over the documents and sources of a stage, and the artifacts that exist. -/
structure Publication where
  tenant : PyStr
  rows : List Row
  checks : List (PyStr × PyStr)
  policySha256 : PyStr
  corpusDigest : PyStr → PyStr
  artifacts : List PyStr
  /-- The set of the metrics of a stage, in the order in which it is iterated. -/
  names : PyStr → List PyStr
  namesPerm : ∀ stage, (names stage).Perm (metricNames rows stage)

namespace Publication

variable (p : Publication) (stage : PyStr)

def acceptance : PyStr :=
  if (stage, lit "missing_evidence") ∈ p.checks then lit "missing_evidence"
  else if (stage, lit "failed_quality") ∈ p.checks then lit "failed_quality"
  else lit "passed"

/-- As many rows of the stage are measured as there are. -/
def measured : Bool := (measuredRows p.rows stage).length == (stageRows p.rows stage).length

/-- What is written of a stage before its run is terminated. -/
def writes : List Write :=
  [.setTag (lit "theorem.acceptance") (p.acceptance stage),
    .setTag (lit "theorem.threshold_policy") p.policySha256,
    .logMetric (lit "document_count") (.finite (stageRows p.rows stage).length),
    .logMetric (lit "measured_count") (.finite (measuredRows p.rows stage).length),
    .logMetric (lit "missing_count")
      (.finite ((stageRows p.rows stage).length - (measuredRows p.rows stage).length))] ++
  ((p.names stage).map fun metric => .logMetric metric (mean (metricValues p.rows stage metric))) ++
  p.artifacts.map Write.logArtifact

def recording : Recording where
  tags := [(lit "theorem.tenant", p.tenant), (lit "theorem.executor", stage),
    (lit "theorem.corpus", lit "authored_fixture_100"), (lit "theorem.evidence", modelHarness),
    (lit "theorem.corpus_digest", p.corpusDigest stage)]
  script := p.writes stage ++
    [.setTerminated (if p.measured stage then .finished else .failed)]
  recovery := .propagate

end Publication

/-! ## Searching -/

section Search

variable (runId : Nat → PyStr) (s : Store)

def Store.startTime (i : Nat) : Nat := (s.runs[i]?.map Run.startTime).getD 0

/-- `start_time DESC`, then the run id. -/
def recency (i : Nat) : Lex (Natᵒᵈ × Lex (PyStr × Nat)) :=
  toLex (OrderDual.toDual (s.startTime i), toLex (runId i, i))

/-- The filter of `_measured_fitness`. -/
def harnessRun (experiment : Nat) (executor : Executor) (run : Run) : Bool :=
  run.experiment = experiment ∧ run.tag (lit "theorem.executor") = some executor.name ∧
    run.tag (lit "theorem.evidence") = some modelHarness ∧ run.status = .finished

def harnessRuns (experiment : Nat) (executor : Executor) : List Nat :=
  (List.range s.runs.length).filter fun i =>
    (s.runs[i]?.map (harnessRun experiment executor)).getD false

def matching (experiment : Nat) (executor : Executor) : List Nat :=
  sortedBy (recency runId s) (harnessRuns s experiment executor)

/-- `search_runs`: a page of at most 100 runs. -/
def searchRuns (experiment : Nat) (executor : Executor) (offset : Nat) : List Nat :=
  ((matching runId s experiment executor).drop offset).take 100

/-- A run with a finite value of the metric. -/
def fitnessOf (executor : Executor) (i : Nat) : Option Fitness :=
  match s.runs[i]?.bind fun run => run.metric executor.fitnessMetric with
  | some value =>
      if value.isfinite then some ⟨value, executor.fitnessMetric, i⟩ else none
  | none => none

end Search

/-! ## The callers as processes -/

/-- A call. -/
inductive Task where
  | execute (c : ExecuteCall)
  | observe (c : ObserveCall)
  | publish (p : Publication)
  | list (tenant : PyStr)

namespace Task

/-- The checks before the first request. -/
def checks : Task → Bool
  | execute c => admitted c.tenant c.payloadTenant
  | observe c => admitted c.tenant c.payloadTenant
  | publish p => wellFormed p.rows
  | list tenant => !tenant.blank

def tenant : Task → PyStr
  | execute c => c.tenant
  | observe c => c.tenant
  | publish p => p.tenant
  | list tenant => tenant

/-- The executors whose fitness is looked up first. -/
def executors : Task → List Executor
  | execute _ => []
  | observe c => [c.executor]
  | publish _ => []
  | list _ => EXECUTORS

/-- The experiment of the runs that are made. -/
def experiment : Task → PyStr
  | execute c => indexExperiment c.tenant
  | observe c => runtimeExperiment c.tenant
  | publish p => harnessExperiment p.tenant
  | list tenant => harnessExperiment tenant

/-- The runs that are made, one after the other. -/
def recordings (runId : Nat → PyStr) (found : List (Executor × Option Fitness)) :
    Task → List Recording
  | execute c => [c.recording]
  | observe c => found.map fun e => c.recording runId e.2
  | publish p => STAGES.map p.recording
  | list _ => []

end Task

/-- Where a process stands; `todo` are the runs to be made later. -/
inductive Point where
  /-- Before everything. -/
  | called
  /-- At `_measured_fitness` of the first of the executors; before its `get_experiment_by_name`, or
      with the experiment and the offset of the next page. -/
  | searching (executors : List Executor) (place : Option (Nat × Nat))
  /-- At the first, or after a failure at the second, `get_experiment_by_name`. -/
  | looking (again : Bool)
  | creatingExperiment
  | creatingRun (experiment : Nat) (todo : List Recording)
  | recording (experiment run : Nat) (rec : Recording) (script : List Write) (todo : List Recording)
  | recovering (run : Nat) (script : List Write)
  /-- Returned, raised or dead. -/
  | ended

/-- A process: its call, what it found so far, and where it stands. -/
structure Proc where
  task : Task
  found : List (Executor × Option Fitness)
  point : Point

/-- How the world answers a request, at a time; a failure may be a `MlflowException`. -/
inductive Reply where
  | answered (now : Nat)
  | failed (now : Nat) (carriedOut mlflow : Bool)
  | crash

/-- After some searches: the next one, or what comes after them. -/
def Task.next (t : Task) : List Executor → Point
  | [] => match t with
    | .list _ => .ended
    | _ => .looking false
  | executors => .searching executors none

/-- After some runs: the next one, or the return. -/
def nextRun (experiment : Nat) : List Recording → Point
  | [] => .ended
  | todo => .creatingRun experiment todo

/-- After some writes: the next one, or what comes after them. -/
def nextWrite (experiment run : Nat) (rec : Recording) (todo : List Recording) : List Write → Point
  | [] => nextRun experiment todo
  | script => .recording experiment run rec script todo

section Step

variable (runId : Nat → PyStr) (s : Store) (p : Proc)

def Proc.at (point : Point) : Proc := { p with point := point }

/-- What `_measured_fitness` found, and what comes next. -/
def Proc.report (executor : Executor) (rest : List Executor) (fitness : Option Fitness) : Proc :=
  ⟨p.task, p.found ++ [(executor, fitness)], p.task.next rest⟩

/-- One request of a process, and what its function does with the answer. -/
def act : Reply → Option (Store × Proc)
  | .crash => some (s, p.at .ended)
  | .answered now =>
    match p.point with
    | .called =>
        some (s, p.at (if p.task.checks then p.task.next p.task.executors else .ended))
    | .searching (executor :: rest) none =>
        match s.experimentByName (harnessExperiment p.task.tenant) with
        | none => some (s, p.report executor rest none)
        | some e => some (s, p.at (.searching (executor :: rest) (some (e, 0))))
    | .searching (executor :: rest) (some (e, offset)) =>
        match (searchRuns runId s e executor offset).findSome? (fitnessOf s executor) with
        | some f => some (s, p.report executor rest (some f))
        | none =>
            if (searchRuns runId s e executor offset).length = 100 then
              some (s, p.at (.searching (executor :: rest) (some (e, offset + 100))))
            else some (s, p.report executor rest none)
    | .looking again =>
        match s.experimentByName p.task.experiment with
        | some e => some (s, p.at (nextRun e (p.task.recordings runId p.found)))
        | none => some (s, p.at (if again then .ended else .creatingExperiment))
    | .creatingExperiment =>
        match s.createExperiment p.task.experiment with
        | some s' =>
            some (s', p.at (nextRun s.experiments.length (p.task.recordings runId p.found)))
        | none => some (s, p.at (.looking true))
    | .creatingRun e (rec :: todo) =>
        some (s.createRun e now rec.tags,
          p.at (nextWrite e s.runs.length rec todo rec.script))
    | .recording e run rec (w :: script) todo =>
        some (s.write run w, p.at (nextWrite e run rec todo script))
    | .recovering run (w :: script) => some (s.write run w, p.at (.recovering run script))
    | .recovering _ [] => some (s, p.at .ended)
    | _ => none
  | .failed now carriedOut mlflow =>
    match p.point with
    | .searching _ _ => some (s, p.at .ended)
    | .looking _ => some (s, p.at .ended)
    | .creatingExperiment =>
        some (if carriedOut then (s.createExperiment p.task.experiment).getD s else s,
          p.at (if mlflow then .looking true else .ended))
    | .creatingRun e (rec :: _) =>
        some (if carriedOut then s.createRun e now rec.tags else s, p.at .ended)
    | .recording _ run rec (w :: _) _ =>
        some (if carriedOut then s.write run w else s,
          p.at (.recovering run (rec.recovery.writes w)))
    | .recovering run (w :: _) =>
        some (if carriedOut then s.write run w else s, p.at .ended)
    | _ => none

/-- The pool of all callers; `admits` are the calls that are ever made. -/
def program (admits : Task → Bool) : Program Store Proc Reply Empty where
  start p := match p with
    | ⟨task, [], .called⟩ => admits task
    | _ => false
  act := act runId
  env _ w := w.elim

/-- Before all calls. -/
def fresh : Config Store Proc := ⟨⟨[], []⟩, []⟩

end Step

end ControlPlane.Executors
