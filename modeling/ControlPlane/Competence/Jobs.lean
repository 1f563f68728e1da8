/-
  COMPETENCE JOBS: the rows of `apps/competence/models.py`, the competence part of the object store of
  `apps/orchestration/artifacts.py`, and what a worker computes from them before it publishes.

  The fields of a row that no code ever writes again are its `binding`; the rest moves.  The request
  and the scorer are kept as the values that their JSON validates to, an empty `scorer_json` is
  `none`.  A row's `artifact_keys_json` is a Python dict, here a list of pairs whose keys are distinct.
-/
import ControlPlane.Competence.Fitter
import ControlPlane.Table

namespace ControlPlane.Competence

/-! ## Rows -/

inductive Operation where
  | fit
  | refit
  deriving DecidableEq, Repr

/-- `f"{operation}_request"`. -/
def Operation.kind : Operation → MessageKind
  | .fit => .fitRequest
  | .refit => .refitRequest

/-- `CompetenceJob.Status`. -/
inductive JobStatus where
  | queued
  | running
  | succeeded
  | failed
  | refused
  | canceled
  deriving DecidableEq, Repr

/-- What a job is bound to when it is submitted. -/
structure JobBinding where
  id : String
  tenantId : String
  projectId : String
  operation : Operation
  operationId : String
  requestDigest : String
  request : FitRequest
  deriving DecidableEq

/-- `CompetenceCleanupReceipt`. -/
structure CleanupReceipt where
  receiptId : String
  cleanupOperationId : String
  requestDigest : String
  jobId : String
  scope : RequestScope
  artifactIds : List String
  cleaned : Bool
  reused : Bool
  deriving DecidableEq, Repr

/-- `CompetenceJob`. -/
structure CompetenceJob (c : Canonical) where
  binding : JobBinding
  status : JobStatus
  celeryTaskId : String := ""
  attemptCount : Nat := 0
  scorer : Option (ScorerArtifact c) := none
  refusal : Option Refusal := none
  artifactKeys : List (String × String) := []
  cleanupRequestDigest : String := ""
  cleanupReceipt : Option CleanupReceipt := none
  error : String := ""
  deriving DecidableEq

def CompetenceJob.id {c : Canonical} (job : CompetenceJob c) : String := job.binding.id

/-- `d[key] = value` on a dict. -/
def dictSet (d : List (String × String)) (key value : String) : List (String × String) :=
  if (d.lookup key).isSome then d.map fun p => if p.1 = key then (key, value) else p
  else d ++ [(key, value)]

/-- Assigning what is there already changes nothing. -/
theorem dictSet_self {d : List (String × String)} {key value : String}
    (hkeys : (d.map Prod.fst).Nodup) (h : d.lookup key = some value) : dictSet d key value = d := by
  rw [dictSet, if_pos (by rw [h]; rfl)]
  have hmem : (key, value) ∈ d := by
    obtain ⟨before, after, rfl, -⟩ := List.lookup_eq_some_iff.mp h
    exact List.mem_append_right _ (List.mem_cons_self ..)
  refine (List.map_congr_left fun p hp => ?_).trans (List.map_id d)
  split
  · rename_i hkey
    exact Table.eq_of_key hkeys hmem hp hkey.symm
  · rfl

theorem lookup_dictSet (d : List (String × String)) (key value k : String) :
    (dictSet d key value).lookup k = if k = key then some value else d.lookup k := by
  have hmap : ∀ d : List (String × String),
      (d.map fun p => if p.1 = key then (key, value) else p).lookup k =
        if k = key then (d.lookup k).map fun _ => value else d.lookup k := by
    intro d
    induction d with
    | nil => simp
    | cons p d ih =>
      rw [List.map_cons, List.lookup_cons, List.lookup_cons, ih]
      by_cases hp : p.1 = key <;> by_cases hk : k = key <;> grind
  unfold dictSet
  split
  · rename_i hsome
    obtain ⟨old, hold⟩ := Option.isSome_iff_exists.mp hsome
    rw [hmap]
    split
    · rename_i hk
      rw [hk, hold, Option.map_some]
    · rfl
  · rename_i hnone
    rw [Option.not_isSome_iff_eq_none] at hnone
    rw [List.lookup_append]
    by_cases hk : k = key
    · subst hk
      simp [hnone]
    · simp [hk, List.lookup_cons, beq_eq_false_iff_ne.mpr hk]

theorem dictSet_nodup {d : List (String × String)} {key value : String}
    (hkeys : (d.map Prod.fst).Nodup) : ((dictSet d key value).map Prod.fst).Nodup := by
  unfold dictSet
  split
  · have hsame : (d.map fun p => if p.1 = key then (key, value) else p).map Prod.fst =
        d.map Prod.fst := by
      rw [List.map_map]
      refine List.map_congr_left fun p _ => ?_
      simp only [Function.comp]
      split
      · rename_i hp
        exact hp.symm
      · rfl
    exact hsame.symm ▸ hkeys
  · rename_i hnone
    rw [List.map_append, List.nodup_append]
    refine ⟨hkeys, List.nodup_singleton _, ?_⟩
    rintro k hk k' hk' rfl
    obtain rfl : k = key := by simpa using hk'
    obtain ⟨p, hp, hpk⟩ := List.mem_map.mp hk
    refine hnone (List.lookup_isSome_iff.mpr ⟨p, hp, ?_⟩)
    exact beq_iff_eq.mpr hpk.symm

/-! ## The object store -/

/-- `ArtifactConfigurationError`, `ArtifactStorageError` and `ArtifactValidationError`. -/
inductive ArtifactError where
  | configuration (detail : String)
  | storage (detail : String)
  | validation (detail : String)
  deriving DecidableEq, Repr

/-- An object, with the job whose delivery put it there last; no code reads `writtenBy`. -/
structure StoredObject where
  key : String
  payload : Payload
  writtenBy : String
  deriving DecidableEq

/-- `put_object` replaces what is stored under the key. -/
def putObject (objects : List StoredObject) (o : StoredObject) : List StoredObject :=
  o :: objects.filter fun o' => o'.key ≠ o.key

def deleteObject (objects : List StoredObject) (key : String) : List StoredObject :=
  objects.filter fun o => o.key ≠ key

def ArtifactKind.text : ArtifactKind → String
  | .scorerModel => "scorer_model"
  | .priorPack => "prior_pack"

/-- `expected_media_types`. -/
def ArtifactKind.mediaType : ArtifactKind → String
  | .scorerModel => "application/vnd.theorem.competence-scorer+json"
  | .priorPack => "application/vnd.theorem.prior-pack+json"

def tenantPrefix (tenantId : String) : String := "tenants/" ++ tenantId ++ "/"

/-- The prefix of one candidate's artifacts. -/
def competencePrefix (c : Canonical) (tenantId projectId candidateId : String) : String :=
  tenantPrefix tenantId ++ "projects/" ++ projectId ++ "/competence/" ++
    c.hexdigest (.text candidateId) ++ "/"

/-- `competence_artifact_key`. -/
def competenceArtifactKey (c : Canonical) (tenantId projectId candidateId : String)
    (kind : ArtifactKind) (payloadDigest : String) : Except ArtifactError String :=
  if Text.blank candidateId then .error (.validation "competence artifact scope is malformed")
  else if !isSha256Address payloadDigest then
    .error (.validation "artifact identity must be a sha256 digest")
  else .ok (competencePrefix c tenantId projectId candidateId ++ kind.text ++ "/" ++
    Text.removeprefix payloadDigest "sha256:")

/-- `validate_key`. -/
def validateKey (tenantId key : String) : Except ArtifactError Unit :=
  if key = "" then .error (.validation "artifact_key is required")
  else if 512 < Text.len key ∨ Text.backslash ∈ Text.bytes key ∨
      Text.bytes ".." ∈ (Text.bytes key).splitOn Text.slash then
    .error (.validation "artifact_key is malformed")
  else if !Text.startswith key (tenantPrefix tenantId) then
    .error (.validation "artifact_key is outside the admitted tenant prefix")
  else .ok ()

/-- `validate_competence_key`. -/
def validateCompetenceKey (c : Canonical) (tenantId projectId candidateId key : String) :
    Except ArtifactError Unit := do
  validateKey tenantId key
  if !Text.startswith key (competencePrefix c tenantId projectId candidateId) then
    .error (.validation
      "artifact_key is outside the admitted competence project/candidate scope")
  else .ok ()

/-! ## What a worker computes -/

/-- What `_resolve_previous` makes of one row. -/
def CompetenceJob.previousFor {c : Canonical} (b : JobBinding) (expected : PreviousScorer)
    (candidate : CompetenceJob c) : Option (ScorerArtifact c × FitRequest) :=
  if candidate.binding.tenantId = b.tenantId ∧ candidate.binding.projectId = b.projectId ∧
      candidate.status = .succeeded ∧ candidate.id ≠ b.id then
    candidate.scorer.bind fun scorer =>
      if expected.names scorer then some (scorer, candidate.binding.request) else none
  else none

/-- `_resolve_previous`. -/
def resolvePrevious {c : Canonical} (jobs : List (CompetenceJob c)) (b : JobBinding) :
    Except FitError (Option (ScorerArtifact c) × Option FitRequest) :=
  match b.request.previousScorer with
  | none => .ok (none, none)
  | some expected => match jobs.findSome? (CompetenceJob.previousFor b expected) with
    | some (scorer, request) => .ok (some scorer, some request)
    | none => .error (.refusal "previous_scorer_not_found"
        "refit requires the exact prior scorer inside this tenant and project")

/-- `_validate_job_binding`. -/
def validateJobBinding (c : Canonical) (b : JobBinding) : Except FitError Unit :=
  if b.request.contract ≠ competenceExchangeSchema ∨ b.request.messageKind ≠ b.operation.kind ∨
      c.address (.request b.request) ≠ b.requestDigest ∨
      b.request.scope.tenantId ≠ b.tenantId ∨ b.request.scope.projectId ≠ b.projectId then
    .error (.refusal "job_binding_mismatch"
      "persisted competence request does not match its immutable job binding")
  else .ok ()

/-- What `run_competence_fit` does between its claim and its first publication. -/
def fitJob {c : Canonical} (jobs : List (CompetenceJob c)) (b : JobBinding) :
    Except FitError (Fitted c) := do
  validateJobBinding c b
  let (scorer, previous) ← resolvePrevious jobs b
  fitCompetence c b.request b.requestDigest scorer previous

/-! ## What a computation that succeeds has computed -/

/-- Every step of an `Except` computation that succeeds has succeeded. -/
theorem ok_of_bind {α β : Type} {x : Except FitError α} {f : α → Except FitError β} {b : β}
    (h : (x >>= f) = .ok b) : ∃ a, x = .ok a ∧ f a = .ok b := by
  cases x with
  | error e => cases h
  | ok a => exact ⟨a, rfl, h⟩

theorem BetaBernoulli.value_of_ok {b : Beta} {v : BetaBernoulli}
    (h : BetaBernoulli.modelValidate b = .ok v) : v.value = b := by
  unfold BetaBernoulli.modelValidate at h
  split at h
  · split at h
    · cases h
      rfl
    · cases h
  · cases h

theorem ScorerArtifact.fields_of_ok {c : Canonical} {fields : ScorerFields c} {v : ScorerArtifact c}
    (h : ScorerArtifact.modelValidate fields = .ok v) : v.fields = fields := by
  unfold ScorerArtifact.modelValidate at h
  split at h
  · cases h
    rfl
  · cases h

/-- A refit that starts has found exactly the scorer it names, within its scope, and shares no
    lineage with the request of that scorer. -/
theorem startingPrior_refit {c : Canonical} {request previous : FitRequest}
    {scorer : ScorerArtifact c} {start : Beta} (hkind : request.messageKind = .refitRequest)
    (h : startingPrior request (some scorer) (some previous) = .ok start) :
    previous.scope = request.scope ∧
      (∀ e ∈ request.evidence, e.causalLineageId ∉ previous.evidence.map Evidence.causalLineageId) ∧
      start = scorer.fields.posterior.value := by
  unfold startingPrior at h
  rw [if_neg (by rw [hkind]; decide)] at h
  dsimp only at h
  split at h
  · cases h
  split at h
  · cases h
  rename_i hscope
  split at h
  · cases h
  rename_i hoverlap
  refine ⟨not_not.mp hscope, fun e he hmem => hoverlap ?_, (Except.ok.inj h).symm⟩
  exact List.any_eq_true.mpr ⟨e, he, List.contains_iff_mem.mpr hmem⟩

theorem assemble_posterior {c : Canonical} {request : FitRequest} {requestDigest : String}
    {k : Learned} {f : Fitted c} (h : assemble c request requestDigest k = .ok f) :
    f.scorer.fields.posterior.value = k.posterior := by
  unfold assemble at h
  -- three documents that JSON can express, then the mean, the artifacts and the prior
  obtain ⟨-, -, h⟩ := ok_of_bind h
  obtain ⟨-, -, h⟩ := ok_of_bind h
  obtain ⟨-, -, h⟩ := ok_of_bind h
  obtain ⟨mean, -, h⟩ := ok_of_bind h
  obtain ⟨modelArtifact, -, h⟩ := ok_of_bind h
  obtain ⟨priorArtifact, -, h⟩ := ok_of_bind h
  obtain ⟨priorPackArtifact, -, h⟩ := ok_of_bind h
  obtain ⟨prior, -, h⟩ := ok_of_bind h
  obtain ⟨posterior, hposterior, h⟩ := ok_of_bind h
  obtain ⟨receipt, -, h⟩ := ok_of_bind h
  obtain ⟨scorer, hscorer, h⟩ := ok_of_bind h
  cases h
  rw [ScorerArtifact.fields_of_ok hscorer]
  exact BetaBernoulli.value_of_ok hposterior

theorem fitCompetence_ok {c : Canonical} {request : FitRequest} {requestDigest : String}
    {scorer : Option (ScorerArtifact c)} {previous : Option FitRequest} {f : Fitted c}
    (h : fitCompetence c request requestDigest scorer previous = .ok f) :
    ∃ start posterior observations, startingPrior request scorer previous = .ok start ∧
      observeHeldOut ((request.byRole .training).foldl Beta.observeTraining start) []
        (request.byRole .heldOut) = .ok (posterior, observations) ∧
      f.scorer.fields.posterior.value = posterior := by
  obtain ⟨-, -, h⟩ := ok_of_bind h
  obtain ⟨start, hstart, h⟩ := ok_of_bind h
  obtain ⟨⟨posterior, observations⟩, hobserve, h⟩ := ok_of_bind h
  refine ⟨start, posterior, observations, hstart, hobserve, ?_⟩
  exact assemble_posterior h

theorem fitJob_ok {c : Canonical} {jobs : List (CompetenceJob c)} {b : JobBinding} {f : Fitted c}
    (h : fitJob jobs b = .ok f) : ∃ scorer previous, resolvePrevious jobs b = .ok (scorer, previous) ∧
      fitCompetence c b.request b.requestDigest scorer previous = .ok f := by
  obtain ⟨-, -, h⟩ := ok_of_bind h
  obtain ⟨⟨scorer, previous⟩, hresolve, h⟩ := ok_of_bind h
  exact ⟨scorer, previous, hresolve, h⟩

end ControlPlane.Competence
