/-
  THE FITTER, `apps/competence/fitter.py`: a Beta-Bernoulli posterior from sufficient evidence.

  `fitCompetence` follows `fit_competence` from the evidence check to the assembly of the scorer
  artifact, whose validators may still refuse it.  A posterior is a fold of `observe` over the
  training evidence and then the held-out evidence, each sorted by lineage; on proper evidence it
  stays positive and finite (`Beta.Positive`).
-/
import ControlPlane.Competence.Admission

namespace ControlPlane.Competence

/-! ## The posterior -/

/-- `_beta_observe`. -/
def Beta.observe (prior : Beta) (outcome weight : PyFloat) : Beta where
  alpha := prior.alpha.add (outcome.mul weight)
  beta := prior.beta.add ((PyFloat.sub 1 outcome).mul weight)

/-- Training evidence counts its survival with weight one. -/
def Beta.observeTraining (prior : Beta) (e : Evidence) : Beta :=
  prior.observe (if e.survived then 1 else 0) 1

/-- The loop over the held-out evidence: the posterior, and the observations for the receipt. -/
def observeHeldOut (posterior : Beta) (observations : List Selection) :
    List Evidence → Except FitError (Beta × List Selection)
  | [] => .ok (posterior, observations)
  | e :: rest => match e.selection with
    | none => .error (.refusal "missing_selection_evidence"
        "held-out competence evidence requires W02 selection evidence")
    | some s => observeHeldOut (posterior.observe s.observedOutcome s.importanceWeight)
        (observations ++ [s]) rest

/-- `_validate_learning_evidence`. -/
def validateLearningEvidence : List Evidence → Except FitError Unit
  | [] => .ok ()
  | e :: rest =>
      if e.role ≠ .heldOut then validateLearningEvidence rest
      else match e.selection with
        | none => .error (.refusal "missing_selection_evidence"
            "held-out competence evidence requires W02 selection evidence")
        | some s =>
            if s.outOfRange then .error (.refusal "invalid_selection_evidence"
              "selection probabilities and weighted outcomes must be finite probabilities")
            else validateLearningEvidence rest

/-- The evidence of one role, in the order the fitter observes it. -/
def FitRequest.byRole (request : FitRequest) (role : Role) : List Evidence :=
  Text.sortedBy Evidence.causalLineageId (request.evidence.filter fun e => e.role == role)

/-! ## Where a fit starts -/

/-- The request names exactly this scorer. -/
def PreviousScorer.names {c : Canonical} (p : PreviousScorer) (s : ScorerArtifact c) : Bool :=
  p.scorerId == s.fields.scorerId && p.scorerVersion == s.fields.scorerVersion &&
    p.modelArtifactId == s.fields.modelArtifact.artifactId &&
    p.priorPackId == s.fields.priorPack.priorPackId

/-- `_starting_prior`. -/
def startingPrior {c : Canonical} (request : FitRequest) (previousScorer : Option (ScorerArtifact c))
    (previousRequest : Option FitRequest) : Except FitError Beta :=
  if request.messageKind = .fitRequest then .ok ⟨1, 1⟩
  else match previousScorer, previousRequest with
    | some scorer, some previous =>
        if !request.previousScorer.any fun p => p.names scorer then
          .error (.refusal "previous_scorer_mismatch"
            "refit previous scorer identity is not exact")
        else if previous.scope ≠ request.scope then
          .error (.refusal "previous_scorer_scope_mismatch"
            "refit cannot move a scorer across package or candidate scope")
        else if request.evidence.any fun e =>
            (previous.evidence.map Evidence.causalLineageId).contains e.causalLineageId then
          .error (.refusal "refit_lineage_overlap"
            "refit evidence overlaps causal lineage already consumed by the prior scorer")
        else .ok scorer.fields.posterior.value
    | _, _ => .error (.refusal "previous_scorer_not_found"
        "refit requires the exact prior scorer inside this tenant and project")

/-! ## The artifact -/

def fitterVersion : String := "beta-bernoulli-ipw-v1"

/-- `_scorer_id`. -/
def scorerId (c : Canonical) (request : FitRequest) : String :=
  "capability-competence:" ++ Text.take (c.hexdigest (.scope request.scope)) 32

def scorerVersion (requestDigest : String) : String :=
  fitterVersion ++ ":" ++ Text.take (Text.removeprefix requestDigest "sha256:") 24

/-- `FittedCompetence`. -/
structure Fitted (c : Canonical) where
  scorer : ScorerArtifact c
  modelPayload : ModelValue
  priorPackPayload : PriorPackValue
  deriving DecidableEq

/-- Canonical JSON is written with `allow_nan=False`. -/
def canonicalFinite (betas : List Beta) (observations : List Selection) : Except FitError Unit :=
  if betas.all Beta.isfinite && observations.all (·.floats.all PyFloat.isfinite) then .ok ()
  else .error .outOfRangeFloat

/-- `posterior["alpha"] / (posterior["alpha"] + posterior["beta"])`. -/
def Beta.mean (b : Beta) : Except FitError PyFloat :=
  match b.alpha.div (b.alpha.add b.beta) with
  | some mean => .ok mean
  | none => .error .zeroDivision

/-- What the fit has computed when the scorer is assembled. -/
structure Learned where
  training : List Evidence
  heldOut : List Evidence
  prior : Beta
  posterior : Beta
  observations : List Selection

def Learned.lineageIds (k : Learned) : List String :=
  Text.sorted (k.heldOut.map Evidence.causalLineageId)

def Learned.decisionRefs (k : Learned) : List String :=
  Text.sorted (k.heldOut.filterMap fun e => e.selection.map Selection.decisionRef)

def priorPackValue (request : FitRequest) (requestDigest : String) (k : Learned) :
    PriorPackValue where
  requestDigest := requestDigest
  scope := request.scope
  trainingCorpusDigest := request.trainingCorpusDigest
  prior := k.prior
  trainingLineageIds := k.training.map Evidence.causalLineageId
  previousScorer := request.previousScorer

def modelValue (c : Canonical) (request : FitRequest) (requestDigest : String) (k : Learned) :
    ModelValue where
  scorerId := scorerId c request
  scorerVersion := scorerVersion requestDigest
  requestDigest := requestDigest
  scope := request.scope
  trainingCorpusDigest := request.trainingCorpusDigest
  evaluationCorpusDigest := request.evaluationCorpusDigest
  priorPackId := c.address (.priorPack (priorPackValue request requestDigest k))
  prior := k.prior
  posterior := k.posterior
  distinctLineageIds := k.lineageIds
  selectionDecisionRefs := k.decisionRefs
  previousScorer := request.previousScorer

def receiptPayload (c : Canonical) (request : FitRequest) (requestDigest : String) (k : Learned) :
    ReceiptPayload where
  kind := "capability_competence"
  modelId := scorerId c request
  prior := k.prior
  observations := k.observations
  posterior := k.posterior
  metadata :=
    { scope := request.scope
      evaluationCorpusDigest := request.evaluationCorpusDigest
      scorerVersion := scorerVersion requestDigest
      modelArtifactHash := c.address (.model (modelValue c request requestDigest k))
      priorPackId := c.address (.priorPack (priorPackValue request requestDigest k))
      distinctLineageIds := k.lineageIds
      selectionDecisionRefs := k.decisionRefs }

/-- The assembly of the scorer, with every validator on the way. -/
def assemble (c : Canonical) (request : FitRequest) (requestDigest : String) (k : Learned) :
    Except FitError (Fitted c) := do
  let priorPack := priorPackValue request requestDigest k
  canonicalFinite [k.prior] []
  let priorPackDigest := c.address (.priorPack priorPack)
  let model := modelValue c request requestDigest k
  canonicalFinite [k.prior, k.posterior] []
  let modelDigest := c.address (.model model)
  let receipt := receiptPayload c request requestDigest k
  canonicalFinite [k.prior, k.posterior] k.observations
  let mean ← k.posterior.mean
  let modelArtifact ← ContentAddressedArtifact.modelValidate modelDigest .scorerModel modelDigest
    "application/vnd.theorem.competence-scorer+json" (c.byteLength (.model model))
  let priorArtifact ← ContentAddressedArtifact.modelValidate priorPackDigest .priorPack
    priorPackDigest "application/vnd.theorem.prior-pack+json" (c.byteLength (.priorPack priorPack))
  let priorPackArtifact ← PriorPackArtifact.modelValidate priorPackDigest priorArtifact
  let prior ← BetaBernoulli.modelValidate k.prior
  let posterior ← BetaBernoulli.modelValidate k.posterior
  let posteriorReceipt ← PosteriorReceipt.modelValidate c receipt (c.hexdigest (.receipt receipt))
  let scorer ← ScorerArtifact.modelValidate
    { scorerId := scorerId c request
      scorerVersion := scorerVersion requestDigest
      modelArtifact := modelArtifact
      priorPack := priorPackArtifact
      prior := prior
      posterior := posterior
      posteriorReceipt := posteriorReceipt
      minimumPosteriorMean := request.minimumPosteriorMean
      distinctLineageIds := k.lineageIds
      selectionDecisionRefs := k.decisionRefs
      oracleClass := request.requestedOracleClass
      evidenceClass := request.requestedOracleClass
      substitutionAllowed := request.substitutionAllowed
      liveOracleRequired := request.liveOracleRequired
      accepted := request.minimumPosteriorMean.le mean }
  return { scorer := scorer, modelPayload := model, priorPackPayload := priorPack }

/-- `fit_competence`. -/
def fitCompetence (c : Canonical) (request : FitRequest) (requestDigest : String)
    (previousScorer : Option (ScorerArtifact c)) (previousRequest : Option FitRequest) :
    Except FitError (Fitted c) := do
  validateLearningEvidence request.evidence
  let start ← startingPrior request previousScorer previousRequest
  let training := request.byRole .training
  let heldOut := request.byRole .heldOut
  let prior := training.foldl Beta.observeTraining start
  let (posterior, observations) ← observeHeldOut prior [] heldOut
  assemble c request requestDigest
    { training := training, heldOut := heldOut, prior := prior, posterior := posterior
      observations := observations }

/-! ## Positive posteriors -/

/-- Both parameters are positive rationals. -/
def Beta.Positive (b : Beta) : Prop :=
  ∃ x y : ℚ, b.alpha = .finite x ∧ b.beta = .finite y ∧ 0 < x ∧ 0 < y

theorem BetaBernoulli.value_positive (b : BetaBernoulli) : b.value.Positive := by
  have h := b.positive
  simp only [Beta.isfinite, Bool.and_eq_true] at h
  obtain ⟨⟨hx, hy⟩, hposx, hposy⟩ := h
  obtain ⟨x, hx⟩ := PyFloat.isfinite_iff.mp hx
  obtain ⟨y, hy⟩ := PyFloat.isfinite_iff.mp hy
  refine ⟨x, y, hx, hy, ?_, ?_⟩
  · simpa [hx] using hposx
  · simpa [hy] using hposy

theorem Beta.Positive.isfinite {b : Beta} (h : b.Positive) : b.isfinite = true := by
  obtain ⟨x, y, hx, hy, -, -⟩ := h
  rw [Beta.isfinite, hx, hy]
  rfl

theorem Beta.Positive.modelValidate {b : Beta} (h : b.Positive) :
    ∃ v, BetaBernoulli.modelValidate b = .ok v ∧ v.value = b := by
  have hfinite := h.isfinite
  obtain ⟨x, y, hx, hy, hposx, hposy⟩ := h
  have hpositive : (PyFloat.lt 0 b.alpha && PyFloat.lt 0 b.beta) = true := by
    simp [hx, hy, hposx, hposy]
  exact ⟨_, by rw [BetaBernoulli.modelValidate, dif_pos hfinite, dif_pos hpositive], rfl⟩

theorem Beta.Positive.mean {b : Beta} (h : b.Positive) : ∃ m, b.mean = .ok m := by
  obtain ⟨x, y, hx, hy, hposx, hposy⟩ := h
  have hne : x + y ≠ 0 := by linarith
  exact ⟨.finite (x / (x + y)), by rw [Beta.mean, hx, hy, PyFloat.add_finite, PyFloat.div_finite hne]⟩

/-- An outcome in [0, 1] with a non-negative weight keeps both parameters positive. -/
theorem Beta.Positive.observe {b : Beta} (h : b.Positive) {o w : ℚ} (ho : 0 ≤ o) (ho' : o ≤ 1)
    (hw : 0 ≤ w) : (b.observe (.finite o) (.finite w)).Positive := by
  obtain ⟨x, y, hx, hy, hposx, hposy⟩ := h
  refine ⟨x + o * w, y + (1 - o) * w, by simp [Beta.observe, hx], by simp [Beta.observe, hy], ?_, ?_⟩
  · have := mul_nonneg ho hw
    linarith
  · have := mul_nonneg (sub_nonneg.mpr ho') hw
    linarith

theorem Beta.Positive.observeTraining {b : Beta} (h : b.Positive) (e : Evidence) :
    (b.observeTraining e).Positive := by
  rw [Beta.observeTraining]
  cases e.survived
  · simpa using h.observe (o := 0) (w := 1) (by norm_num) (by norm_num) (by norm_num)
  · simpa using h.observe (o := 1) (w := 1) (by norm_num) (by norm_num) (by norm_num)

theorem Beta.Positive.train {b : Beta} (h : b.Positive) (es : List Evidence) :
    (es.foldl Beta.observeTraining b).Positive := by
  induction es generalizing b with
  | nil => exact h
  | cons e es ih => exact ih (h.observeTraining e)

/-- On proper evidence the held-out loop returns, its posterior is positive, and its observations
    are finite. -/
theorem observeHeldOut_ok {es : List Evidence} (hes : ∀ e ∈ es, e.role = .heldOut ∧ e.Proper) :
    ∀ {b : Beta} {obs : List Selection}, b.Positive →
      (obs.all (·.floats.all PyFloat.isfinite)) = true →
      ∃ posterior obs', observeHeldOut b obs es = .ok (posterior, obs') ∧ posterior.Positive ∧
        (obs'.all (·.floats.all PyFloat.isfinite)) = true := by
  induction es with
  | nil => exact fun hb hobs => ⟨_, _, rfl, hb, hobs⟩
  | cons e es ih =>
    intro b obs hb hobs
    obtain ⟨hrole, hproper⟩ := hes e (List.mem_cons_self ..)
    obtain ⟨s, hs, hsel⟩ := hproper hrole
    obtain ⟨o, ho, ho0, ho1⟩ := hsel.outcome
    obtain ⟨w, hw, hw0⟩ := hsel.weight
    have hb' : (b.observe s.observedOutcome s.importanceWeight).Positive := by
      rw [ho, hw]
      exact hb.observe ho0 ho1 hw0
    simp only [observeHeldOut, hs]
    refine ih (fun e' he' => hes e' (List.mem_cons_of_mem _ he')) hb' ?_
    rw [List.all_append, hobs]
    simpa using hsel.finite

theorem validateLearningEvidence_ok {es : List Evidence} (hes : ∀ e ∈ es, e.Proper) :
    validateLearningEvidence es = .ok () := by
  induction es with
  | nil => rfl
  | cons e es ih =>
    have hrest := ih fun e' he' => hes e' (List.mem_cons_of_mem _ he')
    unfold validateLearningEvidence
    split
    · exact hrest
    · rename_i hrole
      obtain ⟨s, hs, hproper⟩ := hes e (List.mem_cons_self ..) (not_not.mp hrole)
      simp [hs, hproper.inRange, hrest]

theorem mem_byRole {request : FitRequest} {role : Role} {e : Evidence} :
    e ∈ request.byRole role ↔ e ∈ request.evidence ∧ e.role = role := by
  rw [FitRequest.byRole, (Text.sortedBy_perm _ _).mem_iff, List.mem_filter]
  simp

end ControlPlane.Competence
