/-
  ADMISSION: `_validate_fit_request` of `apps/competence/api.py`, and what a request that passes it is
  known to satisfy.

  The validator answers with its first refusal.  Its loop over the evidence collects what it has
  seen in SETS, so it forgets how often a decision was named; `Admitted` lists what it does know.
-/
import ControlPlane.Competence.Contract

namespace ControlPlane.Competence

/-- `CompetenceRefusal`; the validator's refusals are never retryable. -/
structure Refusal where
  code : String
  detail : String
  retryable : Bool := false
  deriving DecidableEq, Repr

/-! ## The validator -/

/-- The identity of a named previous scorer is incomplete. -/
def PreviousScorer.incomplete (p : PreviousScorer) : Bool :=
  Text.blank p.scorerId || Text.blank p.scorerVersion || !isSha256Address p.modelArtifactId ||
    Text.blank p.priorPackId

/-- `rel_tol=1e-12` and `abs_tol=1e-12`. -/
def tolerance : ℚ := 1 / 10 ^ 12

def Selection.floats (s : Selection) : List PyFloat :=
  [s.behaviorProbability, s.targetProbability, s.importanceWeight, s.observedOutcome,
    s.weightedOutcome]

/-- The range checks that admission and the fitter share, in the order of the former. -/
def Selection.outOfRange (s : Selection) : Bool :=
  !(PyFloat.lt 0 s.behaviorProbability && s.behaviorProbability.le 1) ||
    !(PyFloat.le 0 s.targetProbability && s.targetProbability.le 1) ||
    !(s.floats.all PyFloat.isfinite) ||
    s.importanceWeight.lt 0 ||
    !(PyFloat.le 0 s.observedOutcome && s.observedOutcome.le 1) ||
    !(PyFloat.le 0 s.weightedOutcome && s.weightedOutcome.le s.importanceWeight)

/-- W02's correction is refused. -/
def Selection.invalid (s : Selection) : Bool :=
  Text.blank s.decisionRef || s.outOfRange ||
    !((s.targetProbability.div s.behaviorProbability).any fun ratio =>
      s.importanceWeight.isclose ratio tolerance tolerance) ||
    !s.weightedOutcome.isclose (s.observedOutcome.mul s.importanceWeight) tolerance tolerance

/-- The sets the loop collects. -/
structure Seen where
  lineages : List String := []
  decisionRefs : List String := []
  sourceRefs : List String := []
  roles : List Role := []

/-- One piece of evidence is refused. -/
def Evidence.invalid (seen : Seen) (e : Evidence) : Bool :=
  Text.blank e.causalLineageId || seen.lineages.contains e.causalLineageId ||
    Text.blank e.episodeRef || !isSha256Address e.episodeDigest ||
    e.sourceEvidenceRefs.isEmpty ||
    e.sourceEvidenceRefs != Text.sortedSet e.sourceEvidenceRefs

def Seen.add (seen : Seen) (e : Evidence) : Seen :=
  { seen with
    lineages := seen.lineages ++ [e.causalLineageId]
    sourceRefs := seen.sourceRefs ++ e.sourceEvidenceRefs
    roles := seen.roles ++ [e.role] }

def Seen.addDecision (seen : Seen) (s : Selection) : Seen :=
  { seen with decisionRefs := seen.decisionRefs ++ [s.decisionRef] }

/-- The loop over `body.evidence`. -/
def validateEvidence (seen : Seen) : List Evidence → Except Refusal Seen
  | [] => .ok seen
  | e :: rest =>
      if e.invalid seen then
        .error ⟨"invalid_evidence",
          "evidence must have unique lineages, content identity, and unique source refs", false⟩
      else match e.role with
        | .training => validateEvidence (seen.add e) rest
        | .heldOut => match e.selection with
          | none => .error ⟨"missing_selection_evidence",
              "held-out evidence requires W02 selection correction", false⟩
          | some s =>
              if s.invalid then
                .error ⟨"invalid_selection_evidence",
                  "W02 correction must be finite and have non-zero behavior support", false⟩
              else validateEvidence ((seen.add e).addDecision s) rest

/-- The checks before the loop: the first refusal, if any. -/
def validateHeader (body : FitRequest) (expectedKind : MessageKind) : Option Refusal :=
  if body.contract ≠ competenceExchangeSchema then
    some ⟨"unsupported_contract", "unsupported contract " ++ body.contract, false⟩
  else if body.messageKind ≠ expectedKind then
    some ⟨"message_kind_mismatch", "expected " ++ expectedKind.text, false⟩
  else if expectedKind = .fitRequest ∧ body.previousScorer ≠ none then
    some ⟨"fit_has_previous_scorer", "fit cannot name a previous scorer", false⟩
  else if expectedKind = .refitRequest ∧ body.previousScorer = none then
    some ⟨"refit_missing_previous_scorer", "refit requires a previous scorer", false⟩
  else if body.previousScorer.any PreviousScorer.incomplete then
    some ⟨"invalid_previous_scorer", "previous scorer identity is incomplete", false⟩
  else if Text.blank body.operationId ∨ 128 < body.operationId.length then
    some ⟨"invalid_operation_id", "operation_id must contain 1 to 128 characters", false⟩
  else if Text.blank body.scope.candidateId ∨ Text.blank body.scope.candidateLineageId ∨
      body.evidence = [] then
    some ⟨"incomplete_scope", "candidate scope and evidence are required", false⟩
  else if ¬ ([body.scope.packContentHash, body.trainingCorpusDigest,
      body.evaluationCorpusDigest].all isSha256Address) then
    some ⟨"invalid_content_address",
      "package and corpus identities must be sha256 content addresses", false⟩
  else if body.trainingCorpusDigest = body.evaluationCorpusDigest then
    some ⟨"corpus_overlap", "training and evaluation corpora must be distinct", false⟩
  else if ¬ (body.minimumPosteriorMean.isfinite ∧ PyFloat.le 0 body.minimumPosteriorMean ∧
      body.minimumPosteriorMean.le 1) then
    some ⟨"invalid_posterior_floor", "minimum_posterior_mean must be in [0, 1]", false⟩
  else if body.liveOracleRequired ∧ body.requestedOracleClass ≠ .live then
    some ⟨"live_oracle_mismatch",
      "live_oracle_required requires requested_oracle_class=live", false⟩
  else none

/-- The checks after the loop. -/
def validateSummaries (body : FitRequest) (seen : Seen) : Option Refusal :=
  if ¬ (.training ∈ seen.roles ∧ .heldOut ∈ seen.roles) then
    some ⟨"incomplete_corpora", "fit requires training and held-out evidence", false⟩
  else if body.w02DecisionRefs ≠ Text.sortedSet seen.decisionRefs then
    some ⟨"decision_ref_mismatch",
      "w02_decision_refs must exactly summarize held-out evidence", false⟩
  else if body.sourceEvidenceRefs ≠ Text.sortedSet seen.sourceRefs then
    some ⟨"source_ref_mismatch",
      "source_evidence_refs must exactly summarize exported evidence", false⟩
  else none

/-- `_validate_fit_request`: `none` is admission. -/
def validateFitRequest (body : FitRequest) (expectedKind : MessageKind) : Option Refusal :=
  match validateHeader body expectedKind with
  | some problem => some problem
  | none => match validateEvidence {} body.evidence with
    | .error problem => some problem
    | .ok seen => validateSummaries body seen

/-! ## What admission knows -/

/-- A correction within its ranges, as rationals. -/
structure Selection.Proper (s : Selection) : Prop where
  nonblank : Text.blank s.decisionRef = false
  inRange : s.outOfRange = false
  outcome : ∃ q : ℚ, s.observedOutcome = .finite q ∧ 0 ≤ q ∧ q ≤ 1
  weight : ∃ q : ℚ, s.importanceWeight = .finite q ∧ 0 ≤ q
  finite : ∀ x ∈ s.floats, x.isfinite = true

theorem Selection.proper_of_valid {s : Selection} (h : s.invalid = false) : s.Proper := by
  simp only [invalid, Bool.or_eq_false_iff] at h
  obtain ⟨⟨⟨hblank, hrange⟩, -⟩, -⟩ := h
  have hparts := hrange
  simp only [outOfRange, Bool.or_eq_false_iff, Bool.not_eq_false', Bool.and_eq_true] at hparts
  obtain ⟨⟨⟨⟨⟨-, -⟩, hfinite⟩, hweight⟩, houtcome⟩, -⟩ := hparts
  have hall : ∀ x ∈ s.floats, x.isfinite = true := List.all_eq_true.mp hfinite
  obtain ⟨o, ho⟩ := PyFloat.isfinite_iff.mp (hall s.observedOutcome (by simp [floats]))
  obtain ⟨w, hw⟩ := PyFloat.isfinite_iff.mp (hall s.importanceWeight (by simp [floats]))
  refine ⟨hblank, hrange, ⟨o, ho, ?_⟩, ⟨w, hw, ?_⟩, hall⟩
  · simpa [ho] using houtcome
  · simpa [hw] using hweight

/-- Held-out evidence carries a proper correction. -/
def Evidence.Proper (e : Evidence) : Prop :=
  e.role = .heldOut → ∃ s, e.selection = some s ∧ s.Proper

/-- What a request that was admitted as `kind` satisfies. -/
structure Admitted (body : FitRequest) (kind : MessageKind) : Prop where
  messageKind : body.messageKind = kind
  previous : kind = .fitRequest → body.previousScorer = none
  floorFinite : body.minimumPosteriorMean.isfinite = true
  floor : PyFloat.le 0 body.minimumPosteriorMean = true ∧ body.minimumPosteriorMean.le 1 = true
  live : body.liveOracleRequired = true → body.requestedOracleClass = .live
  proper : ∀ e ∈ body.evidence, e.Proper
  /-- No lineage twice within one request. -/
  lineages : (body.evidence.map Evidence.causalLineageId).Nodup
  heldOut : ∃ e ∈ body.evidence, e.role = .heldOut

theorem validateEvidence_ok {es : List Evidence} :
    ∀ {seen seen' : Seen}, validateEvidence seen es = .ok seen' →
      (∀ e ∈ es, e.Proper ∧ e.causalLineageId ∉ seen.lineages) ∧
      (es.map Evidence.causalLineageId).Nodup ∧
      ∀ role ∈ seen'.roles, role ∈ seen.roles ∨ ∃ e ∈ es, e.role = role := by
  induction es with
  | nil =>
    intro seen seen' h
    cases h
    exact ⟨fun _ h => absurd h List.not_mem_nil, List.nodup_nil, fun _ h => Or.inl h⟩
  | cons e rest ih =>
    intro seen seen' h
    -- whatever the role, the rest was validated with this lineage and role added
    have hstep : ∃ next : Seen, validateEvidence next rest = .ok seen' ∧
        next.lineages = seen.lineages ++ [e.causalLineageId] ∧
        next.roles = seen.roles ++ [e.role] ∧ e.causalLineageId ∉ seen.lineages ∧ e.Proper := by
      unfold validateEvidence at h
      split at h
      · cases h
      rename_i hvalid
      have hnew : e.causalLineageId ∉ seen.lineages := by
        simp only [Evidence.invalid, Bool.or_eq_true, not_or] at hvalid
        simpa using hvalid.1.1.1.1.2
      split at h
      · rename_i hrole
        exact ⟨seen.add e, h, rfl, rfl, hnew, fun hheld => by rw [hrole] at hheld; cases hheld⟩
      · split at h
        · cases h
        rename_i s hs
        split at h
        · cases h
        rename_i hsel
        exact ⟨(seen.add e).addDecision s, h, rfl, rfl, hnew,
          fun _ => ⟨s, hs, Selection.proper_of_valid (by simpa using hsel)⟩⟩
    obtain ⟨next, hrest, hlineages, hroles, hnew, hproper⟩ := hstep
    obtain ⟨hall, hnodup, hfrom⟩ := ih hrest
    have hout : ∀ e' ∈ rest, e'.causalLineageId ∉ seen.lineages ∧
        e'.causalLineageId ≠ e.causalLineageId := by
      intro e' he'
      have := (hall e' he').2
      rw [hlineages] at this
      simpa using this
    refine ⟨fun e' he' => ?_, ?_, fun role hrole => ?_⟩
    · rcases List.mem_cons.mp he' with rfl | he'
      · exact ⟨hproper, hnew⟩
      · exact ⟨(hall e' he').1, (hout e' he').1⟩
    · refine List.nodup_cons.mpr ⟨fun hmem => ?_, hnodup⟩
      obtain ⟨e', he', heq⟩ := List.mem_map.mp hmem
      exact (hout e' he').2 heq
    · rcases hfrom role hrole with hmem | ⟨e', he', heq⟩
      · rw [hroles] at hmem
        rcases List.mem_append.mp hmem with hmem | hmem
        · exact Or.inl hmem
        · exact Or.inr ⟨e, List.mem_cons_self .., (List.mem_singleton.mp hmem).symm⟩
      · exact Or.inr ⟨e', List.mem_cons_of_mem _ he', heq⟩

/-- A check that answers `none` has passed, and so have the checks after it. -/
theorem unrefused_iff {p : Prop} [Decidable p] {problem : Refusal} {next : Option Refusal} :
    (if p then some problem else next) = none ↔ ¬ p ∧ next = none := by
  split
  · rename_i hp
    simp [hp]
  · rename_i hp
    simp [hp]

theorem validateHeader_none {body : FitRequest} {kind : MessageKind}
    (h : validateHeader body kind = none) : body.messageKind = kind ∧
      (kind = .fitRequest → body.previousScorer = none) ∧
      (body.minimumPosteriorMean.isfinite = true ∧ PyFloat.le 0 body.minimumPosteriorMean = true ∧
        body.minimumPosteriorMean.le 1 = true) ∧
      (body.liveOracleRequired = true → body.requestedOracleClass = .live) := by
  simp only [validateHeader, unrefused_iff] at h
  obtain ⟨-, hkind, hprevious, -, -, -, -, -, -, hfloor, hlive, -⟩ := h
  refine ⟨not_not.mp hkind, fun hfit => ?_, not_not.mp hfloor, fun hl => ?_⟩
  · by_contra hne
    exact hprevious ⟨hfit, hne⟩
  · by_contra hne
    exact hlive ⟨hl, hne⟩

/-- **Admission** establishes everything in `Admitted`. -/
theorem admitted_of_validate {body : FitRequest} {kind : MessageKind}
    (h : validateFitRequest body kind = none) : Admitted body kind := by
  unfold validateFitRequest at h
  split at h
  · cases h
  rename_i hheader
  split at h
  · cases h
  rename_i seen hseen
  obtain ⟨hkind, hprevious, ⟨hfinite, hfloor⟩, hlive⟩ := validateHeader_none hheader
  obtain ⟨hall, hnodup, hfrom⟩ := validateEvidence_ok hseen
  refine ⟨hkind, hprevious, hfinite, hfloor, hlive, fun e he => (hall e he).1, hnodup, ?_⟩
  simp only [validateSummaries, unrefused_iff] at h
  rcases hfrom .heldOut (not_not.mp h.1).2 with hmem | hex
  · cases hmem
  · exact hex

end ControlPlane.Competence
