/-
  TRAINING AND EVALUATION RUNS: the row of `theorem_control/rl/models.py` and its admission, `_submit`
  of `theorem_control/rl/api.py`.

  Both routes share one table and one space of operation ids.  The configuration is compared by the
  digest of its canonical JSON; everything else that a run computes from is compared itself.
-/
import ControlPlane.Admissions
import ControlPlane.Competence.Contract
import ControlPlane.Tenancy

namespace ControlPlane.Rl

/-! ## Rows -/

/-- `TrainingRun.Operation`. -/
inductive Operation where
  | eval
  | primeRlTrain
  deriving DecidableEq, Repr

/-- `TrainingRun.Status`. -/
inductive Status where
  | queued
  | running
  | succeeded
  | failed
  | canceled
  deriving DecidableEq, Repr

/-- The statuses in which `cancel_run` leaves a run alone. -/
def Status.terminal : Status → Bool
  | .succeeded | .failed | .canceled => true
  | .queued | .running => false

/-- The columns that admission writes and no task changes. -/
structure Submission where
  operation : Operation
  tasksetRef : String
  configDigest : String
  configJson : List (PyStr × Json)
  imageDigest : String

/-- `control_trainingrun`, with its `UniqueConstraint(fields=["tenant", "operation_id"])`. -/
abbrev RunTable := Admissions (String × String) Submission Status

/-! ## The checks -/

structure RunRequest where
  operationId : String
  tasksetRef : String
  config : List (PyStr × Json) := []
  imageDigest : String := ""

/-- `is_immutable_image_reference`: the text is cut at its last `@`. -/
def isImmutableImageReference (value : String) : Bool :=
  let backwards := value.toList.reverse
  let digest := String.ofList (backwards.takeWhile (· != '@')).reverse
  match backwards.dropWhile (· != '@') with
  | _ :: image => !image.isEmpty && Competence.isSha256Address digest
  | [] => false

/-- `_validate_request`. -/
def validateRequest (operation : Operation) (body : RunRequest) : Option (Nat × String) :=
  if Text.blank body.operationId ∨ 128 < Text.len body.operationId then
    some (400, "operation_id must be between 1 and 128 characters")
  else if Text.blank body.tasksetRef ∨ 512 < Text.len body.tasksetRef then
    some (400, "taskset_ref must be between 1 and 512 characters")
  else if operation = .primeRlTrain ∧ !isImmutableImageReference body.imageDigest then
    some (400, "training requires an immutable image_digest")
  else none

/-- `float.__repr__` and the hexadecimal SHA-256. -/
structure DigestSettings where
  repr : PyFloat → PyStr
  hexdigest : List UInt8 → String

/-- `config_digest`; `none` is `UnicodeEncodeError`. -/
def configDigest (cfg : DigestSettings) (config : List (PyStr × Json)) : Option String :=
  (Json.canonicalJson cfg.repr (.obj config)).map fun payload => "sha256:" ++ cfg.hexdigest payload

/-- `full_clean`, as far as the request has not been checked before: `config_json` is not blank, and
    what `clean` looks at. -/
def Submission.fullClean (row : Submission) : Bool :=
  !row.configJson.isEmpty && decide (Text.len row.imageDigest ≤ 512) &&
    decide (Text.len row.configDigest ≤ 71) && Competence.isSha256Address row.configDigest &&
    (row.operation != .primeRlTrain || isImmutableImageReference row.imageDigest)

/-! ## The route -/

structure SubmissionBody where
  status : Status
  configDigest : String
  deriving DecidableEq

/-- `_submit`; `on_commit` enqueues the task of the route. -/
def submitRun (cfg : DigestSettings) (tenantId : String) (operation : Operation)
    (body : RunRequest) (fate : Fate Unit) (s : RunTable) :
    RunTable × Answer Nat SubmissionBody :=
  match (assertTenant tenantId body.config).or (validateRequest operation body) with
  | some (status, detail) => (s, .refused status detail)
  | none => match configDigest cfg body.config with
    | none => (s, .raised)
    | some digest =>
        let row : Submission :=
          { operation := operation
            tasksetRef := body.tasksetRef
            configDigest := digest
            configJson := body.config
            imageDigest := body.imageDigest }
        if fate = .rolledBack then (s, .raised)
        else match h : s.find? (tenantId, body.operationId) with
          | some (existing, i) =>
              if existing.content.operation ≠ operation ∨
                  existing.content.tasksetRef ≠ body.tasksetRef ∨
                  existing.content.configDigest ≠ digest ∨
                  existing.content.imageDigest ≠ body.imageDigest then
                (s, .refused 409 "operation_id was already used for another run")
              else (s, .submitted i true ⟨existing.progress, existing.content.configDigest⟩)
          | none =>
              if !row.fullClean then (s, .raised)
              else
                let s' := s.enrol (tenantId, body.operationId) row .queued h
                match fate with
                | .answered _ =>
                    (s'.dispatch s.rows.length,
                      .submitted s.rows.length false ⟨.queued, digest⟩)
                | .unanswered => (s'.dispatch s.rows.length, .raised)
                | .notDispatched | .rolledBack => (s', .raised)

/-! ## What a call does -/

variable {cfg : DigestSettings} {tenantId : String} {operation : Operation} {body : RunRequest}
  {fate : Fate Unit} {s s' : RunTable} {answer : Answer Nat SubmissionBody}

/-- What a row must hold for a request to be answered with it. -/
structure Submission.Matches (cfg : DigestSettings) (row : Submission) (operation : Operation)
    (body : RunRequest) : Prop where
  operation : row.operation = operation
  tasksetRef : row.tasksetRef = body.tasksetRef
  digest : Rl.configDigest cfg body.config = some row.configDigest
  imageDigest : row.imageDigest = body.imageDigest

/-- A run that an answer names is in the table under the request's key, and holds its request. -/
theorem submitted_matches {i : Nat} {reused : Bool} {reply : SubmissionBody}
    (h : submitRun cfg tenantId operation body fate s = (s', .submitted i reused reply)) :
    ∃ row, s'.find? (tenantId, body.operationId) = some (row, i) ∧
      row.content.Matches cfg operation body := by
  unfold submitRun at h
  split at h
  · cases h
  · split at h
    · cases h
    · rename_i digest hdigest
      dsimp only at h
      split at h
      · cases h
      · split at h
        · -- a reuse
          rename_i existing j hfind
          split at h
          · cases h
          · rename_i hsame
            push Not at hsame
            cases h
            exact ⟨existing, hfind, hsame.1, hsame.2.1, hsame.2.2.1 ▸ hdigest, hsame.2.2.2⟩
        · rename_i hnew
          split at h
          · cases h
          · split at h
            · cases h
              refine ⟨⟨(tenantId, body.operationId),
                ⟨operation, body.tasksetRef, digest, body.config, body.imageDigest⟩, .queued⟩, ?_, rfl,
                rfl, hdigest, rfl⟩
              exact Admissions.find?_eq_some.mpr
                ⟨by simp [Admissions.dispatch, Admissions.enrol], rfl⟩
            · cases h
            · cases h
            · cases h

/-- Under a key that is in the table, a call reuses the row or changes nothing. -/
theorem submit_under_key {row : Admitted (String × String) Submission Status} {i : Nat}
    (hfind : s.find? (tenantId, body.operationId) = some (row, i))
    (h : submitRun cfg tenantId operation body fate s = (s', answer)) :
    s' = s ∧ ((∃ reply, answer = .submitted i true reply) ∨
      (∃ status detail, answer = .refused status detail) ∨ answer = .raised) := by
  unfold submitRun at h
  split at h
  · cases h
    exact ⟨rfl, Or.inr (Or.inl ⟨_, _, rfl⟩)⟩
  · split at h
    · cases h
      exact ⟨rfl, Or.inr (Or.inr rfl)⟩
    · dsimp only at h
      split at h
      · cases h
        exact ⟨rfl, Or.inr (Or.inr rfl)⟩
      · split at h
        · rename_i existing j hfind'
          obtain ⟨rfl, rfl⟩ := Prod.mk.inj (Option.some.inj (hfind'.symm.trans hfind))
          split at h
          · cases h
            exact ⟨rfl, Or.inr (Or.inl ⟨_, _, rfl⟩)⟩
          · cases h
            exact ⟨rfl, Or.inl ⟨_, rfl⟩⟩
        · rename_i hnone
          cases hnone.symm.trans hfind

end ControlPlane.Rl
