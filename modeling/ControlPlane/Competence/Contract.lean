/-
  THE COMPETENCE CONTRACT, `apps/competence/contract.py`: the request, the scorer artifact, and the
  validators that pydantic runs when a value is built.

  A validated type carries its validator as a field, so an artifact that the contract refuses cannot
  be written down; `modelValidate` is the constructor that may refuse.  What the code serialises to
  canonical JSON and hashes is a `Payload`, one constructor for each kind of document, and
  `Canonical` is SHA-256 over that JSON: the digest of a payload, of which the contract needs no more
  than that it has sixty-four hexadecimal digits, and the length of the bytes.
-/
import ControlPlane.PyFloat
import ControlPlane.Text

namespace ControlPlane.Competence

/-! ## Requests -/

/-- `COMPETENCE_EXCHANGE_SCHEMA`. -/
def competenceExchangeSchema : String := "theorem.competence.v1"

/-- `PromotionEvidenceClass`. -/
inductive EvidenceClass where
  | deterministicFixture
  | local
  | ci
  | hosted
  | live
  deriving DecidableEq, Repr

/-- `EVIDENCE_CLASS_RANK`. -/
def EvidenceClass.rank : EvidenceClass → Nat
  | .deterministicFixture => 0
  | .local => 1
  | .ci => 2
  | .hosted => 3
  | .live => 4

/-- `PracticeEpisodeRole`. -/
inductive Role where
  | training
  | heldOut
  deriving DecidableEq, Repr

/-- `message_kind` of a `CompetenceFitRequest`. -/
inductive MessageKind where
  | fitRequest
  | refitRequest
  deriving DecidableEq, Repr

def MessageKind.text : MessageKind → String
  | .fitRequest => "fit_request"
  | .refitRequest => "refit_request"

structure RequestScope where
  tenantId : String
  projectId : String
  packContentHash : String
  candidateId : String
  candidateLineageId : String
  deriving DecidableEq, Repr

/-- `ImportanceWeightedSelectionOutcome`. -/
structure Selection where
  decisionRef : String
  policyId : String
  policyVersion : Nat
  seed : Nat
  behaviorProbability : PyFloat
  targetProbability : PyFloat
  importanceWeight : PyFloat
  observedOutcome : PyFloat
  weightedOutcome : PyFloat
  deriving DecidableEq

/-- `CompetenceEvidenceSummary`. -/
structure Evidence where
  causalLineageId : String
  role : Role
  episodeRef : String
  episodeDigest : String
  survived : Bool
  sourceEvidenceRefs : List String
  selection : Option Selection
  deriving DecidableEq

structure PreviousScorer where
  scorerId : String
  scorerVersion : String
  modelArtifactId : String
  priorPackId : String
  deriving DecidableEq, Repr

/-- `CompetenceFitRequest`. -/
structure FitRequest where
  contract : String
  messageKind : MessageKind
  operationId : String
  scope : RequestScope
  trainingCorpusDigest : String
  evaluationCorpusDigest : String
  evidence : List Evidence
  w02DecisionRefs : List String
  sourceEvidenceRefs : List String
  previousScorer : Option PreviousScorer
  minimumPosteriorMean : PyFloat
  requestedOracleClass : EvidenceClass
  substitutionAllowed : Bool
  liveOracleRequired : Bool
  deriving DecidableEq

/-! ## Content addresses -/

/-- `is_sha256_address`, and `is_sha256_digest` of the artifact store; behind the prefix,
    `removeprefix` is a `drop`. -/
def isSha256Address (value : String) : Bool :=
  Text.startswith value "sha256:" &&
    Text.areHex64 ((Text.bytes value).drop (Text.bytes "sha256:").length)

/-- `{"alpha": …, "beta": …}`. -/
structure Beta where
  alpha : PyFloat
  beta : PyFloat
  deriving DecidableEq

def Beta.isfinite (b : Beta) : Bool := b.alpha.isfinite && b.beta.isfinite

/-- The document of schema `theorem.competence-prior-pack.v1`. -/
structure PriorPackValue where
  requestDigest : String
  scope : RequestScope
  trainingCorpusDigest : String
  prior : Beta
  trainingLineageIds : List String
  previousScorer : Option PreviousScorer
  deriving DecidableEq

/-- The document of schema `theorem.competence-scorer.v1`. -/
structure ModelValue where
  scorerId : String
  scorerVersion : String
  requestDigest : String
  scope : RequestScope
  trainingCorpusDigest : String
  evaluationCorpusDigest : String
  priorPackId : String
  prior : Beta
  posterior : Beta
  distinctLineageIds : List String
  selectionDecisionRefs : List String
  previousScorer : Option PreviousScorer
  deriving DecidableEq

/-- The `metadata` of a posterior receipt. -/
structure ReceiptMetadata where
  scope : RequestScope
  evaluationCorpusDigest : String
  scorerVersion : String
  modelArtifactHash : String
  priorPackId : String
  distinctLineageIds : List String
  selectionDecisionRefs : List String
  deriving DecidableEq

/-- A `PosteriorReceipt` without its hash. -/
structure ReceiptPayload where
  kind : String
  modelId : String
  prior : Beta
  observations : List Selection
  posterior : Beta
  metadata : ReceiptMetadata
  deriving DecidableEq

/-- `CompetenceCleanupRequest`. -/
structure CleanupRequest where
  contract : String
  cleanupOperationId : String
  jobId : String
  scope : RequestScope
  artifactIds : List String
  deriving DecidableEq, Repr

/-- The document whose digest identifies a cleanup receipt. -/
structure CleanupReceiptPayload where
  cleanupOperationId : String
  requestDigest : String
  jobId : String
  scope : RequestScope
  artifactIds : List String
  deriving DecidableEq, Repr

/-- What is serialised and hashed; a `text` is hashed as it is. -/
inductive Payload where
  | request (value : FitRequest)
  | scope (value : RequestScope)
  | priorPack (value : PriorPackValue)
  | model (value : ModelValue)
  | receipt (value : ReceiptPayload)
  | cleanupRequest (value : CleanupRequest)
  | cleanupReceipt (value : CleanupReceiptPayload)
  | text (value : String)
  deriving DecidableEq

/-- `hashlib.sha256(canonical_json_bytes(value)).hexdigest()`, and the length of the bytes. -/
structure Canonical where
  hexdigest : Payload → String
  byteLength : Payload → Nat
  hex64 : ∀ payload, Text.isHex64 (hexdigest payload) = true

/-- `sha256_digest(canonical_json_bytes(value))`. -/
def Canonical.address (c : Canonical) (payload : Payload) : String :=
  "sha256:" ++ c.hexdigest payload

theorem Canonical.isSha256Address (c : Canonical) (payload : Payload) :
    isSha256Address (c.address payload) = true := by
  rw [Competence.isSha256Address, address, Text.startswith_append, Text.bytes_append,
    List.drop_left]
  exact c.hex64 payload

/-! ## Validated artifacts -/

/-- How a fit fails: by a refusal of its own, by a pydantic `ValidationError`, by a float that JSON
    cannot express, or by a division by zero. -/
inductive FitError where
  | refusal (code detail : String)
  | validation (message : String)
  | outOfRangeFloat
  | zeroDivision
  deriving DecidableEq, Repr

/-- `BetaBernoulli`. -/
structure BetaBernoulli where
  value : Beta
  positive : (value.isfinite && (PyFloat.lt 0 value.alpha && PyFloat.lt 0 value.beta)) = true
  deriving DecidableEq

def BetaBernoulli.modelValidate (b : Beta) : Except FitError BetaBernoulli :=
  if hfinite : b.isfinite = true then
    if hpositive : (PyFloat.lt 0 b.alpha && PyFloat.lt 0 b.beta) = true then
      .ok ⟨b, by rw [hfinite, hpositive]; rfl⟩
    else .error (.validation "beta parameters must be positive")
  else .error (.validation "beta parameters must be finite")

inductive ArtifactKind where
  | scorerModel
  | priorPack
  deriving DecidableEq, Repr

/-- `ContentAddressedArtifact`. -/
structure ContentAddressedArtifact where
  artifactId : String
  kind : ArtifactKind
  payloadDigest : String
  mediaType : String
  byteLength : Nat
  addressed : (artifactId == payloadDigest && isSha256Address payloadDigest &&
    !Text.blank mediaType) = true
  deriving DecidableEq

def ContentAddressedArtifact.modelValidate (artifactId : String) (kind : ArtifactKind)
    (payloadDigest mediaType : String) (byteLength : Nat) :
    Except FitError ContentAddressedArtifact :=
  if haddress : (artifactId == payloadDigest && isSha256Address payloadDigest) = true then
    if hmedia : Text.blank mediaType = true then
      .error (.validation "artifact media_type is required")
    else
      .ok ⟨artifactId, kind, payloadDigest, mediaType, byteLength, by simp [haddress, hmedia]⟩
  else .error (.validation "artifact identity must equal its sha256 payload digest")

/-- `CompetencePriorPackArtifact`. -/
structure PriorPackArtifact where
  priorPackId : String
  artifact : ContentAddressedArtifact
  exact : (!Text.blank priorPackId && artifact.kind == .priorPack) = true
  deriving DecidableEq

def PriorPackArtifact.modelValidate (priorPackId : String) (artifact : ContentAddressedArtifact) :
    Except FitError PriorPackArtifact :=
  if h : (!Text.blank priorPackId && artifact.kind == .priorPack) = true then
    .ok ⟨priorPackId, artifact, h⟩
  else .error (.validation "prior pack identity or artifact kind is invalid")

/-- `PosteriorReceipt`. -/
structure PosteriorReceipt (c : Canonical) where
  payload : ReceiptPayload
  receiptHash : String
  addressed : (!Text.blank payload.kind && !Text.blank payload.modelId &&
    Text.isHex64 receiptHash && receiptHash == c.hexdigest (.receipt payload)) = true
  deriving DecidableEq

def PosteriorReceipt.modelValidate (c : Canonical) (payload : ReceiptPayload)
    (receiptHash : String) : Except FitError (PosteriorReceipt c) :=
  if h : (!Text.blank payload.kind && !Text.blank payload.modelId &&
      Text.isHex64 receiptHash && receiptHash == c.hexdigest (.receipt payload)) = true then
    .ok ⟨payload, receiptHash, h⟩
  else .error (.validation "posterior receipt identity is invalid")

/-- The fields of a `CompetenceScorerArtifact`. -/
structure ScorerFields (c : Canonical) where
  scorerId : String
  scorerVersion : String
  modelArtifact : ContentAddressedArtifact
  priorPack : PriorPackArtifact
  prior : BetaBernoulli
  posterior : BetaBernoulli
  posteriorReceipt : PosteriorReceipt c
  minimumPosteriorMean : PyFloat
  distinctLineageIds : List String
  selectionDecisionRefs : List String
  oracleClass : EvidenceClass
  evidenceClass : EvidenceClass
  substitutionAllowed : Bool
  liveOracleRequired : Bool
  accepted : Bool
  deriving DecidableEq

/-- `scorer_contract_is_complete`: what makes a scorer artifact incomplete. -/
def ScorerFields.incomplete {c : Canonical} (s : ScorerFields c) : Bool :=
  Text.blank s.scorerId || Text.blank s.scorerVersion ||
    s.modelArtifact.kind != .scorerModel ||
    s.posteriorReceipt.payload.modelId != s.scorerId ||
    !s.minimumPosteriorMean.isfinite ||
    !(PyFloat.le 0 s.minimumPosteriorMean && s.minimumPosteriorMean.le 1) ||
    s.distinctLineageIds != Text.sortedSet s.distinctLineageIds ||
    s.distinctLineageIds.isEmpty ||
    s.selectionDecisionRefs != Text.sortedSet s.selectionDecisionRefs ||
    s.selectionDecisionRefs.isEmpty ||
    (s.liveOracleRequired && s.evidenceClass != .live) ||
    (!s.substitutionAllowed && decide (s.evidenceClass.rank < s.oracleClass.rank))

/-- `CompetenceScorerArtifact`. -/
structure ScorerArtifact (c : Canonical) where
  fields : ScorerFields c
  complete : fields.incomplete = false
  deriving DecidableEq

def ScorerArtifact.modelValidate {c : Canonical} (fields : ScorerFields c) :
    Except FitError (ScorerArtifact c) :=
  if h : fields.incomplete = false then .ok ⟨fields, h⟩
  else .error (.validation "scorer artifact is incomplete or below its oracle class")

end ControlPlane.Competence
