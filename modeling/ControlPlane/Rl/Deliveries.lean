/-
  ONE DELIVERY FROM CLAIM TO LAST STATUS: `run_eval` and `run_prime_rl_training` of
  `theorem_control/rl/tasks.py`, on the traces.jsonl that the evaluation or the Pod has left.

  Both tasks catch a list of exception classes and end the run as FAILED.  `TypeError` is on neither
  list, and neither is `OverflowError`, though `parse_traces` raises both on the content of a line;
  what the database raises on a value it does not take is on neither list.  Such an exception leaves
  the task, and the run stays RUNNING (`run_stays_running`).  `traces_finish_iff` says that nothing
  else does: whatever else fails on the way, the run ends in a terminal status, and a Pod of a failed
  training was asked to stop.

  The services around a delivery raise what they declare, which is what their callers list: an error
  of the outside world is `Declared` for the task that meets it.
-/
import ControlPlane.Rl.Misfits
import ControlPlane.Rl.Rollouts
import ControlPlane.Rl.Submit

namespace ControlPlane.Rl

open ControlPlane.Competence (ArtifactError)
open ControlPlane.Fallible
open ControlPlane.Orchestration (StoredArrowArtifact)

/-! ## The run and the world -/

/-- The columns of the run that a delivery writes, and the Pods a DELETE request was issued for. -/
structure RunState where
  status : Status := .queued
  podId : String := ""
  error : PyStr := []
  ledger : Ledger := {}
  terminated : List String := []

/-- The `except` of `run_eval`. -/
def evalHandlers : List ErrorClass :=
  [.artifactConfiguration, .artifactStorage, .artifactValidation, .osError, .runtimeError,
    .subprocessError, .valueError]

/-- The `except` of `run_prime_rl_training`. -/
def trainingHandlers : List ErrorClass :=
  [.artifactConfiguration, .artifactStorage, .artifactValidation, .podApi, .podConfiguration,
    .podTimeout, .runtimeError, .valueError]

/-- An exception that these handlers list. -/
abbrev Declared (handlers : List ErrorClass) : Type :=
  {e : PyError // e.caughtBy handlers = true}

/-- What an evaluation meets: settings, the command with its one traces.jsonl, the weather of the
    ingestion, the resolved configuration with its artifact; `canceled` is what the refresh of
    `_finish` finds. -/
structure EvalWorld where
  fromSettings : Except (Declared evalHandlers) Unit
  evaluate : Except (Declared evalHandlers) Unit
  weather : Weather
  publish : Except (Declared evalHandlers) (List Descriptor)
  canceled : Bool

/-- What a training meets; `wait` tells whether it saw the run canceled. -/
structure TrainingWorld where
  fromSettings : Except (Declared trainingHandlers) Unit
  podClient : Except (Declared trainingHandlers) Unit
  create : Except (Declared trainingHandlers) {pod : String // pod ≠ ""}
  wait : Except (Declared trainingHandlers) Bool
  readOutputs : Except (Declared trainingHandlers) Unit
  weather : Weather
  publish : Except (Declared trainingHandlers) (List Descriptor)
  deleteIncoming : Except (Declared trainingHandlers) Unit
  canceled : Bool

/-! ## The tasks -/

namespace RunState

/-- The write of `_claim`. -/
def claim (r : RunState) : RunState := { r with status := .running, error := [] }

/-- `_finish`. -/
def finish (r : RunState) (canceled : Bool) (status : Status) (error : PyStr) : RunState :=
  { r with status := if canceled then .canceled else status, error := error }

/-- A DELETE request for a Pod; what comes back does not matter. -/
def terminate (r : RunState) (pod : String) : RunState :=
  { r with terminated := r.terminated ++ [pod] }

/-- The task is over without a last status; `cancel_run` may have set one. -/
def abandon (r : RunState) (canceled : Bool) : RunState :=
  { r with status := if canceled then .canceled else r.status }

end RunState

/-- `publish_supporting_artifacts`, once everything is stored. -/
def Ledger.publish (l : Ledger) (items : List Descriptor) : Ledger :=
  let descriptors := items.foldl
    (fun descriptors item => descriptors.filter (fun d => d.kind ≠ item.kind) ++ [item])
    l.artifactDescriptors
  { l with artifactDescriptors := descriptors, artifactKeys := descriptors.map Descriptor.artifactKey }

section Tasks

variable (py : Ingestion) (tenantId runId : String) (payload : List UInt8)

/-- The `try` of `run_eval`. -/
def evalBody (w : EvalWorld) (r : RunState) : RunState × Except PyError Unit :=
  match w.fromSettings with
  | .error e => (r, .error e)
  | .ok _ =>
  match w.evaluate with
  | .error e => (r, .error e)
  | .ok _ =>
  match ingestTrajectories py w.weather tenantId runId payload r.ledger with
  | (l, .error e) => ({ r with ledger := l }, .error e)
  | (l, .ok _) =>
  match w.publish with
  | .error e => ({ r with ledger := l }, .error e)
  | .ok items => ({ r with ledger := l.publish items }, .ok ())

/-- `run_eval`: the run afterwards, and what the task raises. -/
def runEval (w : EvalWorld) (r : RunState) : RunState × Except PyError Unit :=
  match r.status with
  | .canceled | .succeeded => (r, .ok ())
  | _ =>
  match evalBody py tenantId runId payload w r.claim with
  | (r, .ok _) => (r.finish w.canceled .succeeded [], .ok ())
  | (r, .error e) =>
      if e.caughtBy evalHandlers then (r.finish w.canceled .failed e.message, .ok ())
      else (r.abandon w.canceled, .error e)

/-- From the wait on, the Pod being created and named by the row. -/
def podBody (w : TrainingWorld) (pod : String) (r : RunState) : RunState × Except PyError Status :=
  match w.wait with
  | .error e => (r, .error e)
  | .ok true => (r.terminate pod, .ok .canceled)
  | .ok false =>
  match w.readOutputs with
  | .error e => (r, .error e)
  | .ok _ =>
  match ingestTrajectories py w.weather tenantId runId payload r.ledger with
  | (l, .error e) => ({ r with ledger := l }, .error e)
  | (l, .ok _) =>
  match w.publish with
  | .error e => ({ r with ledger := l }, .error e)
  | .ok items =>
  match w.deleteIncoming with
  | .error e => ({ r with ledger := l.publish items }, .error e)
  | .ok _ => ({ r with ledger := l.publish items }, .ok .succeeded)

/-- The handler of `run_prime_rl_training`; without a client it asks nobody. -/
def trainingExcept (w : TrainingWorld) (client : Bool) (r : RunState) (e : PyError) :
    RunState × Except PyError Unit :=
  if e.caughtBy trainingHandlers then
    let r := if client ∧ r.podId ≠ "" then r.terminate r.podId else r
    (r.finish w.canceled .failed e.message, .ok ())
  else (r.abandon w.canceled, .error e)

/-- The `try` of `run_prime_rl_training` with its handler. -/
def trainingBody (w : TrainingWorld) (r : RunState) : RunState × Except PyError Unit :=
  match w.fromSettings with
  | .error e => trainingExcept w false r e
  | .ok _ =>
  match w.podClient with
  | .error e => trainingExcept w false r e
  | .ok _ =>
  match w.create with
  | .error e => trainingExcept w true r e
  | .ok pod =>
  match podBody py tenantId runId payload w pod { r with podId := pod } with
  | (r, .ok status) => (r.finish w.canceled status [], .ok ())
  | (r, .error e) => trainingExcept w true r e

/-- `run_prime_rl_training`. -/
def runPrimeRlTraining (w : TrainingWorld) (r : RunState) : RunState × Except PyError Unit :=
  match r.status with
  | .canceled =>
      (match w.podClient with
        | .ok _ => if r.podId ≠ "" then r.terminate r.podId else r
        | .error _ => r, .ok ())
  | .succeeded => (r, .ok ())
  | _ => trainingBody py tenantId runId payload w r.claim

end Tasks

/-! ## What gets past the handlers -/

/-- The handlers catch everything that ingestion raises on its own but a `TypeError` and an
    `OverflowError`. -/
structure Usual (handlers : List ErrorClass) : Prop where
  parse : ∀ e : ParseError, e.raised.caughtBy handlers = !e.wild
  artifact : ∀ e : ArtifactError, (Orchestration.raised e).caughtBy handlers = true
  unicode : PyError.caughtBy { cls := .unicodeEncodeError } handlers = true

theorem usual_evalHandlers : Usual evalHandlers :=
  ⟨fun e => by cases e <;> rfl, fun e => by cases e <;> rfl, rfl⟩

theorem usual_trainingHandlers : Usual trainingHandlers :=
  ⟨fun e => by cases e <;> rfl, fun e => by cases e <;> rfl, rfl⟩

section Escapes

variable (handlers : List ErrorClass) (py : Ingestion) (w : Weather) (tenantId runId : String)
  (payload : List UInt8)

/-- The payload gets past the handlers: its first line that is not accepted is a misfit, or all lines
    are accepted, the shard is published, and the database raises on a row what nobody catches. -/
def Escapes : Prop :=
  MisfitPayload py payload ∨
    ∃ rows artifact e, publishShard py w tenantId runId payload = .ok (rows, artifact) ∧
      rows.findSome? w.database = some e ∧ e.caughtBy handlers = false

variable {handlers py w tenantId runId payload}

theorem publishShard_uncaught (hh : Usual handlers) :
    (∃ e, publishShard py w tenantId runId payload = .error e ∧ e.caughtBy handlers = false) ↔
      MisfitPayload py payload := by
  rw [← wild_parseTraces]
  constructor
  · rintro ⟨e, he, huncaught⟩
    rcases bind_error.mp he with hparse | ⟨rows, -, he⟩
    · obtain ⟨e', he', rfl⟩ := mapError_error.mp hparse
      exact ⟨e', he', by simpa [hh.parse] using huncaught⟩
    · rcases bind_error.mp he with htable | ⟨table, -, he⟩
      · unfold fromPylist at htable
        split at htable
        · cases htable
          exact absurd (huncaught.symm.trans hh.unicode) (by decide)
        · cases htable
      · rcases bind_error.mp he with hkey | ⟨key, -, he⟩
        · obtain ⟨e', -, rfl⟩ := mapError_error.mp hkey
          exact absurd (huncaught.symm.trans (hh.artifact e')) (by decide)
        · rcases bind_error.mp he with hwrite | ⟨artifact, -, he⟩
          · obtain ⟨e', -, rfl⟩ := mapError_error.mp hwrite
            exact absurd (huncaught.symm.trans (hh.artifact e')) (by decide)
          · cases he
  · rintro ⟨e, he, hwild⟩
    refine ⟨e.raised, bind_error.mpr (Or.inl (mapError_error.mpr ⟨e, he, rfl⟩)), ?_⟩
    rw [hh.parse, hwild]
    rfl

/-- **Ingestion.**  What it raises is not caught exactly when the payload escapes. -/
theorem ingest_uncaught (hh : Usual handlers) {l : Ledger} :
    (∃ l' e, ingestTrajectories py w tenantId runId payload l = (l', .error e) ∧
      e.caughtBy handlers = false) ↔ Escapes handlers py w tenantId runId payload := by
  rw [Escapes, ← publishShard_uncaught hh]
  unfold ingestTrajectories
  cases hpublish : publishShard py w tenantId runId payload with
  | error e =>
    constructor
    · rintro ⟨l', e', heq, huncaught⟩
      cases heq
      exact Or.inl ⟨e, rfl, huncaught⟩
    · rintro (⟨e', heq, huncaught⟩ | ⟨_, _, _, heq, _⟩)
      · cases heq
        exact ⟨l, e, rfl, huncaught⟩
      · cases heq
  | ok published =>
    obtain ⟨rows, artifact⟩ := published
    cases hrefusal : rows.findSome? w.database with
    | none =>
      simp only [hrefusal]
      constructor
      · rintro ⟨l', e', heq, -⟩
        cases heq
      · rintro (⟨_, heq, _⟩ | ⟨_, _, e, heq, hsome, -⟩)
        · cases heq
        · cases heq
          rw [hrefusal] at hsome
          cases hsome
    | some e =>
      simp only [hrefusal]
      constructor
      · rintro ⟨l', e', heq, huncaught⟩
        cases heq
        exact Or.inr ⟨rows, artifact, e, rfl, hrefusal, huncaught⟩
      · rintro (⟨_, heq, _⟩ | ⟨_, _, e', heq, hsome, huncaught⟩)
        · cases heq
        · cases heq
          obtain rfl : e = e' := Option.some.inj (hrefusal.symm.trans hsome)
          exact ⟨l, e, rfl, huncaught⟩

end Escapes

/-! ## The deliveries -/

/-- `_claim` takes the run. -/
def RunState.Open (r : RunState) : Prop := r.status ≠ .canceled ∧ r.status ≠ .succeeded

/-- The evaluation leaves a traces.jsonl, and it is read. -/
def EvalWorld.Reads (w : EvalWorld) : Prop := w.fromSettings.isOk = true ∧ w.evaluate.isOk = true

/-- The Pod that a training creates. -/
def TrainingWorld.pod (w : TrainingWorld) : Option String :=
  match w.fromSettings, w.podClient, w.create with
  | .ok _, .ok _, .ok pod => some pod
  | _, _, _ => none

/-- The Pod leaves a traces.jsonl, and it is read. -/
def TrainingWorld.Reads (w : TrainingWorld) : Prop :=
  w.pod.isSome = true ∧ w.wait = .ok false ∧ w.readOutputs.isOk = true

section Deliveries

variable {py : Ingestion} {tenantId runId : String} {payload : List UInt8} {r r' : RunState}
  {e : PyError}

/-- How the `try` of `run_eval` raises: with a declared exception, or out of the ingestion. -/
theorem evalBody_error {w : EvalWorld}
    (h : evalBody py tenantId runId payload w r = (r', .error e)) :
    r'.status = r.status ∧ (e.caughtBy evalHandlers = true ∨ (w.Reads ∧
      ∃ l, ingestTrajectories py w.weather tenantId runId payload r.ledger = (l, .error e))) := by
  unfold evalBody at h
  split at h
  · rename_i declared _
    cases h
    exact ⟨rfl, Or.inl declared.2⟩
  rename_i hsettings
  split at h
  · rename_i declared _
    cases h
    exact ⟨rfl, Or.inl declared.2⟩
  rename_i hevaluate
  split at h
  · rename_i l e' hingest
    cases h
    exact ⟨rfl, Or.inr ⟨⟨by rw [hsettings]; rfl, by rw [hevaluate]; rfl⟩, l, hingest⟩⟩
  split at h
  · rename_i declared _
    cases h
    exact ⟨rfl, Or.inl declared.2⟩
  · cases h

/-- An exception out of the ingestion is what the `try` raises. -/
theorem evalBody_ingest {w : EvalWorld} {l : Ledger} (hreads : w.Reads)
    (h : ingestTrajectories py w.weather tenantId runId payload r.ledger = (l, .error e)) :
    evalBody py tenantId runId payload w r = ({ r with ledger := l }, .error e) := by
  obtain ⟨_, hsettings⟩ := isOk_iff.mp hreads.1
  obtain ⟨_, hevaluate⟩ := isOk_iff.mp hreads.2
  simp only [evalBody, hsettings, hevaluate, h]

/-- A status that `_finish` writes. -/
theorem finish_terminal {canceled : Bool} {status : Status} {error : PyStr}
    (h : status.terminal = true) : (r.finish canceled status error).status.terminal = true := by
  show (if canceled = true then Status.canceled else status).terminal = true
  split
  · rfl
  · exact h

/-- A run that is abandoned while it is RUNNING. -/
theorem abandon_terminal {canceled : Bool} (h : r.status = .running) :
    (r.abandon canceled).status.terminal = true ↔ canceled = true := by
  cases canceled with
  | true => exact iff_of_true rfl rfl
  | false =>
    refine iff_of_false ?_ (nomatch ·)
    show ¬ r.status.terminal = true
    rw [h]
    exact (nomatch ·)

theorem not_open (h : ¬ r.Open) : r.status = .canceled ∨ r.status = .succeeded := by
  by_cases hc : r.status = .canceled
  · exact Or.inl hc
  · exact Or.inr (not_not.mp fun hs => h ⟨hc, hs⟩)

/-- The end of `run_eval` for a run that is taken. -/
theorem runEval_open {w : EvalWorld} (hopen : r.Open) :
    runEval py tenantId runId payload w r =
      match evalBody py tenantId runId payload w r.claim with
      | (r, .ok _) => (r.finish w.canceled .succeeded [], .ok ())
      | (r, .error e) =>
          if e.caughtBy evalHandlers then (r.finish w.canceled .failed e.message, .ok ())
          else (r.abandon w.canceled, .error e) := by
  obtain ⟨hcanceled, hsucceeded⟩ := hopen
  unfold runEval
  cases hst : r.status with
  | canceled => exact absurd hst hcanceled
  | succeeded => exact absurd hst hsucceeded
  | _ => rfl

/-- **Evaluations.**  The run ends in a terminal status, but where the payload is read and escapes. -/
theorem runEval_terminal (w : EvalWorld) :
    (runEval py tenantId runId payload w r).1.status.terminal = true ↔
      ¬ (r.Open ∧ w.Reads ∧ w.canceled = false ∧
        Escapes evalHandlers py w.weather tenantId runId payload) := by
  by_cases hopen : r.Open
  · rw [runEval_open hopen, ← ingest_uncaught usual_evalHandlers (l := r.claim.ledger)]
    cases hbody : evalBody py tenantId runId payload w r.claim with
    | mk r' result =>
      cases result with
      | ok u =>
        refine iff_of_true (finish_terminal rfl) ?_
        rintro ⟨-, hreads, -, l, e, hingest, -⟩
        cases hbody.symm.trans (evalBody_ingest hreads hingest)
      | error e =>
        obtain ⟨hst, hcause⟩ := evalBody_error hbody
        cases hcaught : e.caughtBy evalHandlers with
        | true =>
          simp only [hcaught, if_true]
          refine iff_of_true (finish_terminal rfl) ?_
          rintro ⟨-, hreads, -, l, e', hingest, huncaught⟩
          cases hbody.symm.trans (evalBody_ingest hreads hingest)
          cases huncaught.symm.trans hcaught
        | false =>
          have hcause := hcause.resolve_left (by rw [hcaught]; exact Bool.false_ne_true)
          obtain ⟨hreads, l, hingest⟩ := hcause
          simp only [hcaught, Bool.false_eq_true, if_false]
          rw [abandon_terminal hst]
          constructor
          · rintro hcanceled ⟨-, -, hnot, -⟩
            cases hcanceled.symm.trans hnot
          · intro hnot
            cases hcanceled : w.canceled with
            | true => rfl
            | false => exact absurd ⟨hopen, hreads, hcanceled, l, e, hingest, hcaught⟩ hnot
  · refine iff_of_true ?_ fun h => hopen h.1
    unfold runEval
    rcases not_open hopen with hst | hst
    · simp only [hst]
      rfl
    · simp only [hst]
      rfl

/-- How the `try` of `run_prime_rl_training` raises once the Pod is there. -/
theorem podBody_error {w : TrainingWorld} {pod : String}
    (h : podBody py tenantId runId payload w pod r = (r', .error e)) :
    r'.status = r.status ∧ r'.podId = r.podId ∧ (e.caughtBy trainingHandlers = true ∨
      ((w.wait = .ok false ∧ w.readOutputs.isOk = true) ∧
        ∃ l, ingestTrajectories py w.weather tenantId runId payload r.ledger = (l, .error e))) := by
  unfold podBody at h
  split at h
  · rename_i declared _
    cases h
    exact ⟨rfl, rfl, Or.inl declared.2⟩
  · cases h
  rename_i hwait
  split at h
  · rename_i declared _
    cases h
    exact ⟨rfl, rfl, Or.inl declared.2⟩
  rename_i hread
  split at h
  · rename_i l e' hingest
    cases h
    exact ⟨rfl, rfl, Or.inr ⟨⟨hwait, by rw [hread]; rfl⟩, l, hingest⟩⟩
  split at h
  · rename_i declared _
    cases h
    exact ⟨rfl, rfl, Or.inl declared.2⟩
  split at h
  · rename_i declared _
    cases h
    exact ⟨rfl, rfl, Or.inl declared.2⟩
  · cases h

/-- It returns to write SUCCEEDED, or CANCELED. -/
theorem podBody_ok {w : TrainingWorld} {pod : String} {status : Status}
    (h : podBody py tenantId runId payload w pod r = (r', .ok status)) :
    status = .succeeded ∨ status = .canceled := by
  unfold podBody at h
  split at h
  · cases h
  · cases h
    exact Or.inr rfl
  split at h
  · cases h
  split at h
  · cases h
  split at h
  · cases h
  split at h
  · cases h
  · cases h
    exact Or.inl rfl

/-- An exception out of the ingestion is what it raises. -/
theorem podBody_ingest {w : TrainingWorld} {pod : String} {l : Ledger} (hwait : w.wait = .ok false)
    (hread : w.readOutputs.isOk = true)
    (h : ingestTrajectories py w.weather tenantId runId payload r.ledger = (l, .error e)) :
    podBody py tenantId runId payload w pod r = ({ r with ledger := l }, .error e) := by
  obtain ⟨_, hread⟩ := isOk_iff.mp hread
  simp only [podBody, hwait, hread, h]

/-- What a training that has created its Pod owes: a terminal status, and where it is FAILED a DELETE
    request. -/
def Settles (pod : String) (r : RunState) : Prop :=
  r.status.terminal = true ∧ (r.status = .failed → pod ∈ r.terminated)

/-- The handler on a declared exception. -/
theorem trainingExcept_caught {w : TrainingWorld} {client : Bool}
    (h : e.caughtBy trainingHandlers = true) :
    (trainingExcept w client r e).1.status.terminal = true ∧
      (client = true → r.podId ≠ "" → Settles r.podId (trainingExcept w client r e).1) := by
  have hterminal : (trainingExcept w client r e).1.status.terminal = true := by
    simp only [trainingExcept, h, if_true]
    exact finish_terminal rfl
  refine ⟨hterminal, fun hclient hpod => ⟨hterminal, fun _ => ?_⟩⟩
  simp only [trainingExcept, h, if_true, hclient, hpod, ne_eq, not_false_eq_true, and_self]
  exact List.mem_append_right _ (List.mem_singleton.mpr rfl)

theorem trainingExcept_uncaught {w : TrainingWorld} {client : Bool}
    (h : e.caughtBy trainingHandlers = false) :
    trainingExcept w client r e = (r.abandon w.canceled, .error e) := by
  simp only [trainingExcept, h, Bool.false_eq_true, if_false]

/-- The end of `run_prime_rl_training` once the Pod is there. -/
def podEnd (py : Ingestion) (tenantId runId : String) (payload : List UInt8) (w : TrainingWorld)
    (pod : String) (r : RunState) : RunState :=
  match podBody py tenantId runId payload w pod { r with podId := pod } with
  | (r, .ok status) => r.finish w.canceled status []
  | (r, .error e) => (trainingExcept w true r e).1

theorem podEnd_settles {w : TrainingWorld} {pod : String} (hpod : pod ≠ "")
    (hst : r.status = .running) :
    Settles pod (podEnd py tenantId runId payload w pod r) ↔
      ¬ ((w.wait = .ok false ∧ w.readOutputs.isOk = true) ∧ w.canceled = false ∧
        Escapes trainingHandlers py w.weather tenantId runId payload) := by
  rw [← ingest_uncaught usual_trainingHandlers (l := r.ledger)]
  unfold podEnd
  cases hbody : podBody py tenantId runId payload w pod { r with podId := pod } with
  | mk r' result =>
    cases result with
    | ok status =>
      refine iff_of_true ⟨?_, fun hfailed => ?_⟩ ?_
      · rcases podBody_ok hbody with rfl | rfl <;> exact finish_terminal rfl
      · have hcases : (if w.canceled = true then Status.canceled else status) = .failed := hfailed
        split at hcases
        · cases hcases
        · rcases podBody_ok hbody with rfl | rfl <;> cases hcases
      · rintro ⟨⟨hwait, hread⟩, -, l, e, hingest, -⟩
        cases hbody.symm.trans (podBody_ingest hwait hread hingest)
    | error e =>
      obtain ⟨hstatus, hpodId, hcause⟩ := podBody_error hbody
      cases hcaught : e.caughtBy trainingHandlers with
      | true =>
        have hsettles := (trainingExcept_caught (w := w) (r := r') hcaught).2 rfl
          (by rw [hpodId]; exact hpod)
        refine iff_of_true (by rw [hpodId] at hsettles; exact hsettles) ?_
        rintro ⟨⟨hwait, hread⟩, -, l, e', hingest, huncaught⟩
        cases hbody.symm.trans (podBody_ingest hwait hread hingest)
        cases huncaught.symm.trans hcaught
      | false =>
        have hcause := hcause.resolve_left (by rw [hcaught]; exact Bool.false_ne_true)
        obtain ⟨hreads, l, hingest⟩ := hcause
        show Settles pod (trainingExcept w true r' e).1 ↔ _
        rw [trainingExcept_uncaught hcaught]
        have hrunning : r'.status = .running := hstatus.trans hst
        constructor
        · rintro ⟨hterminal, -⟩ ⟨-, hnot, -⟩
          cases ((abandon_terminal hrunning).mp hterminal).symm.trans hnot
        · intro hnot
          have hcanceled : w.canceled = true := by
            cases hcanceled : w.canceled with
            | true => rfl
            | false => exact absurd ⟨hreads, hcanceled, l, e, hingest, hcaught⟩ hnot
          refine ⟨(abandon_terminal hrunning).mpr hcanceled, fun hfailed => ?_⟩
          have hcases : (if w.canceled = true then Status.canceled else r'.status) = .failed := hfailed
          rw [if_pos hcanceled] at hcases
          cases hcases

/-- The end of `run_prime_rl_training` for a run that is taken. -/
theorem training_open {w : TrainingWorld} (hopen : r.Open) :
    runPrimeRlTraining py tenantId runId payload w r =
      trainingBody py tenantId runId payload w r.claim := by
  obtain ⟨hcanceled, hsucceeded⟩ := hopen
  unfold runPrimeRlTraining
  cases hst : r.status with
  | canceled => exact absurd hst hcanceled
  | succeeded => exact absurd hst hsucceeded
  | _ => rfl

/-- With the Pod created, the `try` is its rest. -/
theorem trainingBody_pod {w : TrainingWorld} {pod : String} (h : w.pod = some pod) :
    pod ≠ "" ∧ (trainingBody py tenantId runId payload w r).1 =
      podEnd py tenantId runId payload w pod r := by
  unfold TrainingWorld.pod at h
  split at h
  · rename_i created hsettings hclient hcreate
    cases h
    refine ⟨created.2, ?_⟩
    simp only [trainingBody, hsettings, hclient, hcreate, podEnd]
    split <;> rfl
  · cases h

/-- Without a Pod the run fails. -/
theorem trainingBody_no_pod {w : TrainingWorld} (h : w.pod = none) :
    (trainingBody py tenantId runId payload w r).1.status.terminal = true := by
  unfold trainingBody
  split
  · rename_i declared _
    exact (trainingExcept_caught declared.2).1
  rename_i hsettings
  split
  · rename_i declared _
    exact (trainingExcept_caught declared.2).1
  rename_i hclient
  split
  · rename_i declared _
    exact (trainingExcept_caught declared.2).1
  · rename_i created hcreate
    rw [TrainingWorld.pod, hsettings, hclient, hcreate] at h
    cases h

/-- **Trainings.**  The run ends in a terminal status, and with a DELETE request for its Pod where it
    is FAILED, but where the payload is read and escapes. -/
theorem runPrimeRlTraining_settles (w : TrainingWorld) :
    ((runPrimeRlTraining py tenantId runId payload w r).1.status.terminal = true ∧
      ∀ pod, r.Open → w.pod = some pod →
        Settles pod (runPrimeRlTraining py tenantId runId payload w r).1) ↔
      ¬ (r.Open ∧ w.Reads ∧ w.canceled = false ∧
        Escapes trainingHandlers py w.weather tenantId runId payload) := by
  by_cases hopen : r.Open
  · rw [training_open hopen]
    cases hcreated : w.pod with
    | none =>
      refine iff_of_true ⟨trainingBody_no_pod hcreated, fun _ _ h => nomatch h⟩ ?_
      rintro ⟨-, ⟨hpod, -⟩, -⟩
      rw [hcreated] at hpod
      cases hpod
    | some pod =>
      obtain ⟨hpod, hend⟩ : pod ≠ "" ∧ (trainingBody py tenantId runId payload w r.claim).1 =
          podEnd py tenantId runId payload w pod r.claim := trainingBody_pod hcreated
      have hsettles : Settles pod (podEnd py tenantId runId payload w pod r.claim) ↔ _ :=
        podEnd_settles hpod rfl
      rw [hend]
      constructor
      · rintro ⟨-, hall⟩ ⟨-, ⟨-, hread⟩, hcanceled, hescapes⟩
        exact hsettles.mp (hall pod hopen rfl) ⟨hread, hcanceled, hescapes⟩
      · intro hnot
        have hthis := hsettles.mpr fun ⟨hread, hcanceled, hescapes⟩ =>
          hnot ⟨hopen, ⟨by rw [hcreated]; rfl, hread⟩, hcanceled, hescapes⟩
        refine ⟨hthis.1, fun pod' _ heq => ?_⟩
        exact Option.some.inj heq ▸ hthis
  · refine iff_of_true ⟨?_, fun _ h => absurd h hopen⟩ fun h => hopen h.1
    unfold runPrimeRlTraining
    rcases not_open hopen with hst | hst
    · simp only [hst]
      split
      · split <;> exact hst ▸ rfl
      · exact hst ▸ rfl
    · simp only [hst]
      rfl

end Deliveries

/-- **Traces and last statuses.**  Whatever bytes are left as traces.jsonl and whatever else happens
    around the delivery: `run_eval` ends with the run in a terminal status, and
    `run_prime_rl_training` does, having asked for the termination of its Pod where it fails, if and
    only if it is not so that the payload is read, escapes, and the run is not canceled meanwhile. -/
theorem traces_finish_iff (py : Ingestion) (tenantId runId : String) (payload : List UInt8)
    (evaluation : EvalWorld) (training : TrainingWorld) (r : RunState) :
    ((runEval py tenantId runId payload evaluation r).1.status.terminal = true ↔
      ¬ (r.Open ∧ evaluation.Reads ∧ evaluation.canceled = false ∧
        Escapes evalHandlers py evaluation.weather tenantId runId payload)) ∧
    (((runPrimeRlTraining py tenantId runId payload training r).1.status.terminal = true ∧
      ∀ pod, r.Open → training.pod = some pod →
        Settles pod (runPrimeRlTraining py tenantId runId payload training r).1) ↔
      ¬ (r.Open ∧ training.Reads ∧ training.canceled = false ∧
        Escapes trainingHandlers py training.weather tenantId runId payload)) :=
  ⟨runEval_terminal evaluation, runPrimeRlTraining_settles training⟩

/-! ## A concrete payload -/

/-- One line whose metrics are a list. -/
def listMetrics : List UInt8 := Text.bytes "\x7b\"task_key\":\"a\",\"metrics\":[]\x7d\n"

/-- Nothing else goes wrong. -/
def calmEvaluation : EvalWorld where
  fromSettings := .ok ()
  evaluate := .ok ()
  weather := fairWeather 1
  publish := .ok []
  canceled := false

def calmTraining : TrainingWorld where
  fromSettings := .ok ()
  podClient := .ok ()
  create := .ok ⟨"pod", by decide⟩
  wait := .ok false
  readOutputs := .ok ()
  weather := fairWeather 1
  publish := .ok []
  deleteIncoming := .ok ()
  canceled := false

/-- The `TypeError` for metrics that are no object leaves both tasks, and the run stays RUNNING. -/
theorem run_stays_running : ¬ ∀ (py : Ingestion) (tenantId runId : String) (payload : List UInt8)
    (evaluation : EvalWorld) (training : TrainingWorld) (r : RunState),
    (runEval py tenantId runId payload evaluation r).1.status.terminal = true ∧
      (runPrimeRlTraining py tenantId runId payload training r).1.status.terminal = true := by
  intro hlaw
  have h := hlaw toyIngestion "t" "r" listMetrics calmEvaluation calmTraining {}
  exact absurd h (by decide +kernel)

end ControlPlane.Rl
