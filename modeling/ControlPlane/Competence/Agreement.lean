/-
  ADMISSION AGAINST THE FITTER: does every admitted fit request get a scorer?

  Both sides check the same evidence, but admission collects the decision references of the held-out
  evidence in a SET, and the scorer artifact wants the sorted LIST of them to be free of repetitions.
  Two held-out episodes that name one decision are admitted and then stranded
  (`admitted_but_refused`).  Everything else agrees: an admitted fit request is fitted exactly when
  its held-out evidence names no decision twice (`fitted_iff`).
-/
import ControlPlane.Competence.Fitter

namespace ControlPlane.Competence

variable {c : Canonical} {request : FitRequest} {requestDigest : String} {k : Learned}

/-! ## The assembly -/

/-- What the last validator reads of the scorer that a fit assembles. -/
structure Describes (request : FitRequest) (requestDigest : String) (k : Learned)
    (fields : ScorerFields c) : Prop where
  scorerId : fields.scorerId = scorerId c request
  scorerVersion : fields.scorerVersion = scorerVersion requestDigest
  modelKind : fields.modelArtifact.kind = .scorerModel
  modelId : fields.posteriorReceipt.payload.modelId = Competence.scorerId c request
  floor : fields.minimumPosteriorMean = request.minimumPosteriorMean
  lineageIds : fields.distinctLineageIds = k.lineageIds
  decisionRefs : fields.selectionDecisionRefs = k.decisionRefs
  oracleClass : fields.oracleClass = request.requestedOracleClass
  evidenceClass : fields.evidenceClass = request.requestedOracleClass
  live : fields.liveOracleRequired = request.liveOracleRequired

theorem address_not_blank (c : Canonical) (payload : Payload) :
    Text.blank (c.address payload) = false :=
  Text.not_blank_append (by decide) _

theorem scorerId_not_blank (c : Canonical) (request : FitRequest) :
    Text.blank (scorerId c request) = false :=
  Text.not_blank_append (by decide) _

theorem scorerVersion_not_blank (requestDigest : String) :
    Text.blank (scorerVersion requestDigest) = false :=
  Text.not_blank_append (by decide) _

theorem artifact_ok (c : Canonical) (payload : Payload) (kind : ArtifactKind) (mediaType : String)
    (hmedia : Text.blank mediaType = false) :
    ∃ a, ContentAddressedArtifact.modelValidate (c.address payload) kind (c.address payload)
        mediaType (c.byteLength payload) = .ok a ∧ a.kind = kind ∧
      a.artifactId = c.address payload := by
  have haddress : (c.address payload == c.address payload &&
      isSha256Address (c.address payload)) = true := by
    rw [c.isSha256Address]
    simp
  exact ⟨_, by rw [ContentAddressedArtifact.modelValidate, dif_pos haddress,
    dif_neg (by simp [hmedia])], rfl, rfl⟩

theorem priorPack_ok (c : Canonical) (payload : Payload) {artifact : ContentAddressedArtifact}
    (hkind : artifact.kind = .priorPack) :
    ∃ p, PriorPackArtifact.modelValidate (c.address payload) artifact = .ok p ∧
      p.priorPackId = c.address payload :=
  ⟨_, dif_pos (by rw [address_not_blank, hkind]; rfl), rfl⟩

theorem receipt_ok (c : Canonical) (request : FitRequest) (requestDigest : String) (k : Learned) :
    ∃ v, PosteriorReceipt.modelValidate c (receiptPayload c request requestDigest k)
        (c.hexdigest (.receipt (receiptPayload c request requestDigest k))) = .ok v ∧
      v.payload = receiptPayload c request requestDigest k := by
  have hkind : Text.blank "capability_competence" = false := by decide
  have haddressed : (!Text.blank (receiptPayload c request requestDigest k).kind &&
      !Text.blank (receiptPayload c request requestDigest k).modelId &&
      Text.isHex64 (c.hexdigest (.receipt (receiptPayload c request requestDigest k))) &&
      c.hexdigest (.receipt (receiptPayload c request requestDigest k)) ==
        c.hexdigest (.receipt (receiptPayload c request requestDigest k))) = true := by
    rw [c.hex64, beq_self_eq_true]
    simp [receiptPayload, hkind, scorerId_not_blank]
  exact ⟨_, dif_pos haddressed, rfl⟩

/-- On positive posteriors every validator but the last accepts: the fit returns exactly when the
    scorer it describes is complete. -/
theorem assemble_ok (c : Canonical) (request : FitRequest) (requestDigest : String) {k : Learned}
    (hprior : k.prior.Positive) (hposterior : k.posterior.Positive)
    (hobs : (k.observations.all (·.floats.all PyFloat.isfinite)) = true) :
    ∃ fields : ScorerFields c, Describes request requestDigest k fields ∧
      ((∃ f, assemble c request requestDigest k = .ok f) ↔ fields.incomplete = false) := by
  obtain ⟨mean, hmean⟩ := hposterior.mean
  obtain ⟨model, hmodel, hmodelKind, hmodelId⟩ := artifact_ok c
    (.model (modelValue c request requestDigest k)) .scorerModel
    "application/vnd.theorem.competence-scorer+json" (by decide)
  obtain ⟨pack, hpack, hpackKind, hpackId⟩ := artifact_ok c
    (.priorPack (priorPackValue request requestDigest k)) .priorPack
    "application/vnd.theorem.prior-pack+json" (by decide)
  obtain ⟨priorPack, hpriorPack, hpriorPackId⟩ := priorPack_ok c
    (.priorPack (priorPackValue request requestDigest k)) hpackKind
  obtain ⟨prior, hpriorOk, hpriorValue⟩ := hprior.modelValidate
  obtain ⟨posterior, hposteriorOk, hposteriorValue⟩ := hposterior.modelValidate
  obtain ⟨receipt, hreceipt, hreceiptPayload⟩ := receipt_ok c request requestDigest k
  have hfinite₁ : canonicalFinite [k.prior] [] = .ok () := by
    simp [canonicalFinite, hprior.isfinite]
  have hfinite₂ : canonicalFinite [k.prior, k.posterior] [] = .ok () := by
    simp [canonicalFinite, hprior.isfinite, hposterior.isfinite]
  have hfinite₃ : canonicalFinite [k.prior, k.posterior] k.observations = .ok () := by
    simp [canonicalFinite, hprior.isfinite, hposterior.isfinite, hobs]
  let fields : ScorerFields c :=
    { scorerId := scorerId c request
      scorerVersion := scorerVersion requestDigest
      modelArtifact := model
      priorPack := priorPack
      prior := prior
      posterior := posterior
      posteriorReceipt := receipt
      minimumPosteriorMean := request.minimumPosteriorMean
      distinctLineageIds := k.lineageIds
      selectionDecisionRefs := k.decisionRefs
      oracleClass := request.requestedOracleClass
      evidenceClass := request.requestedOracleClass
      substitutionAllowed := request.substitutionAllowed
      liveOracleRequired := request.liveOracleRequired
      accepted := request.minimumPosteriorMean.le mean }
  have hmodelId : receipt.payload.modelId = scorerId c request := by
    rw [hreceiptPayload, receiptPayload]
  refine ⟨fields, ⟨rfl, rfl, hmodelKind, hmodelId, rfl, rfl, rfl, rfl, rfl, rfl⟩, ?_⟩
  simp only [assemble, bind, Except.bind, hfinite₁, hfinite₂, hfinite₃, hmean, hmodel, hpack,
    hpriorPack, hpriorOk, hposteriorOk, hreceipt, pure, Except.pure]
  constructor
  · rintro ⟨f, hf⟩
    by_contra hincomplete
    rw [ScorerArtifact.modelValidate, dif_neg hincomplete] at hf
    cases hf
  · intro hcomplete
    rw [ScorerArtifact.modelValidate, dif_pos hcomplete]
    exact ⟨_, rfl⟩

/-! ## What the last validator asks for -/

/-- The decision references of the held-out evidence, each as often as it is named. -/
def FitRequest.heldOutDecisionRefs (request : FitRequest) : List String :=
  (request.evidence.filter fun e => e.role == .heldOut).filterMap fun e =>
    e.selection.map Selection.decisionRef

theorem byRole_perm (request : FitRequest) (role : Role) :
    (request.byRole role).Perm (request.evidence.filter fun e => e.role == role) :=
  Text.sortedBy_perm ..

theorem sorted_ne_nil {texts : List String} (h : texts ≠ []) : Text.sorted texts ≠ [] := fun hnil =>
  h (List.perm_nil.mp (hnil ▸ Text.sorted_perm texts).symm)

section

variable {kind : MessageKind} (hadmitted : Admitted request kind) (hk : k.heldOut = request.byRole .heldOut)

include hadmitted hk

/-- Admission knows the held-out lineages to be distinct, and to exist. -/
theorem lineageIds_complete :
    k.lineageIds = Text.sortedSet k.lineageIds ∧ k.lineageIds ≠ [] := by
  have hperm : (k.heldOut.map Evidence.causalLineageId).Perm
      ((request.evidence.filter fun e => e.role == .heldOut).map Evidence.causalLineageId) := by
    rw [hk]
    exact (byRole_perm request .heldOut).map _
  have hnodup : (k.heldOut.map Evidence.causalLineageId).Nodup :=
    hperm.nodup_iff.mpr (hadmitted.lineages.sublist (List.filter_sublist.map _))
  refine ⟨(Text.sorted_eq_sortedSet_iff _).mpr hnodup, sorted_ne_nil fun hnil => ?_⟩
  obtain ⟨e, he, hrole⟩ := hadmitted.heldOut
  have hmem : e ∈ k.heldOut := by
    rw [hk]
    exact mem_byRole.mpr ⟨he, hrole⟩
  rw [List.map_eq_nil_iff.mp hnil] at hmem
  cases hmem

/-- It knows every decision they name, but not how often. -/
theorem decisionRefs_complete_iff :
    (k.decisionRefs = Text.sortedSet k.decisionRefs ↔ request.heldOutDecisionRefs.Nodup) ∧
      k.decisionRefs ≠ [] := by
  have hperm : (k.heldOut.filterMap fun e => e.selection.map Selection.decisionRef).Perm
      request.heldOutDecisionRefs := by
    rw [hk]
    exact (byRole_perm request .heldOut).filterMap _
  refine ⟨(Text.sorted_eq_sortedSet_iff _).trans hperm.nodup_iff, sorted_ne_nil fun hnil => ?_⟩
  obtain ⟨e, he, hrole⟩ := hadmitted.heldOut
  obtain ⟨s, hs, -⟩ := hadmitted.proper e he hrole
  have hmem : s.decisionRef ∈ request.heldOutDecisionRefs :=
    List.mem_filterMap.mpr ⟨e, List.mem_filter.mpr ⟨he, by rw [hrole]; rfl⟩, by rw [hs]; rfl⟩
  rw [← hperm.mem_iff, hnil] at hmem
  cases hmem

/-- Of everything that makes a scorer incomplete, an admitted request leaves one thing open. -/
theorem incomplete_iff {fields : ScorerFields c} (hfields : Describes request requestDigest k fields) :
    fields.incomplete = false ↔ request.heldOutDecisionRefs.Nodup := by
  obtain ⟨hlineages, hlineagesNe⟩ := lineageIds_complete hadmitted hk
  obtain ⟨hrefs, hrefsNe⟩ := decisionRefs_complete_iff hadmitted hk
  have hlive : (fields.liveOracleRequired && fields.evidenceClass != .live) = false := by
    rw [hfields.live, hfields.evidenceClass]
    cases h : request.liveOracleRequired
    · rfl
    · rw [hadmitted.live h]
      rfl
  have hlineages' : (k.lineageIds != Text.sortedSet k.lineageIds) = false := by
    rw [← hlineages, bne_self_eq_false]
  rw [← hrefs, ScorerFields.incomplete, hlive, hfields.scorerId, hfields.scorerVersion,
    hfields.modelKind, hfields.modelId, hfields.floor, hfields.lineageIds, hfields.decisionRefs,
    hfields.oracleClass, hfields.evidenceClass, scorerId_not_blank, scorerVersion_not_blank,
    hadmitted.floorFinite, hadmitted.floor.1, hadmitted.floor.2, hlineages']
  simp [hlineagesNe, hrefsNe]

end

/-! ## Recorded requests -/

def recordedScope : RequestScope where
  tenantId := "11111111-1111-4111-8111-111111111111"
  projectId := "22222222-2222-4222-8222-222222222222"
  packContentHash := "sha256:aaaaaaaaaaaaaaaaaaaaaaaaaaaaaaaaaaaaaaaaaaaaaaaaaaaaaaaaaaaaaaaa"
  candidateId := "candidate"
  candidateLineageId := "lineage"

def recordedTraining (lineage : String) : Evidence where
  causalLineageId := lineage
  role := .training
  episodeRef := "episode:" ++ lineage
  episodeDigest := "sha256:dddddddddddddddddddddddddddddddddddddddddddddddddddddddddddddddd"
  survived := true
  sourceEvidenceRefs := ["source:" ++ lineage]
  selection := none

/-- A held-out episode that behaved as its target policy would have, and survived. -/
def recordedHeldOut (lineage decision : String) : Evidence :=
  { recordedTraining lineage with
    role := .heldOut
    selection := some
      { decisionRef := decision
        policyId := "policy"
        policyVersion := 1
        seed := 7
        behaviorProbability := .finite (1 / 2)
        targetProbability := .finite (1 / 2)
        importanceWeight := 1
        observedOutcome := 1
        weightedOutcome := 1 } }

/-- A request with one training lineage and the given held-out lineages and decisions. -/
def recordedRequest (operationId training : String) (heldOut : List (String × String))
    (previous : Option PreviousScorer) : FitRequest where
  contract := competenceExchangeSchema
  messageKind := if previous.isSome then .refitRequest else .fitRequest
  operationId := operationId
  scope := recordedScope
  trainingCorpusDigest := "sha256:bbbbbbbbbbbbbbbbbbbbbbbbbbbbbbbbbbbbbbbbbbbbbbbbbbbbbbbbbbbbbbbb"
  evaluationCorpusDigest := "sha256:cccccccccccccccccccccccccccccccccccccccccccccccccccccccccccccccc"
  evidence := recordedTraining training :: heldOut.map fun p => recordedHeldOut p.1 p.2
  w02DecisionRefs := Text.sortedSet (heldOut.map Prod.snd)
  sourceEvidenceRefs := Text.sortedSet
    (("source:" ++ training) :: heldOut.map fun p => "source:" ++ p.1)
  previousScorer := previous
  minimumPosteriorMean := .finite (1 / 2)
  requestedOracleClass := .local
  substitutionAllowed := false
  liveOracleRequired := false

abbrev Hex64 : Type := { text : String // Text.isHex64 text = true }

/-- A request, and SHA-256 of the documents that it leads to. -/
structure RecordedFit where
  request : FitRequest
  requestHex : Hex64
  priorPackHex : Hex64
  modelHex : Hex64
  receiptHex : Hex64

def recordedScopeHex : Hex64 :=
  ⟨"dc66fbf11eb391d1d8f2a15897bd1c6d2a2c21f2d79bea411c7d971c1c382117",
    by decide +kernel⟩

def firstFit : RecordedFit where
  request := recordedRequest "fit-1" "t1" [("h1", "decision-1")] none
  requestHex := ⟨"f2219e2cbff578bbc3be2339f5e91b8487481e7f04408012e7c3cf410f56857d",
    by decide +kernel⟩
  priorPackHex := ⟨"2fe337b1cf021a378177ebae337ea9ad3c041b82c77a3f31260e2d68c2f57cdf",
    by decide +kernel⟩
  modelHex := ⟨"c38f81832e6c450a18e6bb3947bf3c02345427955f18a733e74d5d5824da748f",
    by decide +kernel⟩
  receiptHex := ⟨"d4795c1478763b6799245d2e7cab867c7422f87a99315b69f013af86078e1251",
    by decide +kernel⟩

/-- Two held-out episodes name one decision. -/
def twiceNamed : RecordedFit where
  request := recordedRequest "fit-1" "t1" [("h1", "decision-1"), ("h2", "decision-1")] none
  requestHex := ⟨"c5142b66d93b712b670480f9234a76b77054da31f257ecac7af5604213578a63",
    by decide +kernel⟩
  priorPackHex := ⟨"ab0bfea642942df2250b4bde8b547068f618fd4d91d6d69f8310bf822c2a895c",
    by decide +kernel⟩
  modelHex := ⟨"df03b406181d2e9272ce8648ba0de36386cd7ffefc203f1ca4f02f304b317faf",
    by decide +kernel⟩
  receiptHex := ⟨"c5becdabcaedfda9ab15c45fbf399f5e6a8d45a0906037af29fcf9ed7d0cbe17",
    by decide +kernel⟩

/-- A refit of the first scorer. -/
def secondFit : RecordedFit where
  request := recordedRequest "fit-2" "t2" [("h2", "decision-2")] (some
    { scorerId := "capability-competence:dc66fbf11eb391d1d8f2a15897bd1c6d"
      scorerVersion := "beta-bernoulli-ipw-v1:f2219e2cbff578bbc3be2339"
      modelArtifactId := "sha256:" ++ firstFit.modelHex.val
      priorPackId := "sha256:" ++ firstFit.priorPackHex.val })
  requestHex := ⟨"a5ad2cb42984599dbfe89740336f52b6a983655b3982803f6c949885a2f80b8f",
    by decide +kernel⟩
  priorPackHex := ⟨"08fc1fb96e4459699b7aceccdae69541b3c98067c008a86e3acd7cf9f2e95de3",
    by decide +kernel⟩
  modelHex := ⟨"624e3d3b49eaba5ed7c78de77f5ca89293d02ca628672b4b0fbbed644ebf8a2e",
    by decide +kernel⟩
  receiptHex := ⟨"91d13fc081bfc745c3065cfe0b8ba3b9cf933328e899aec0bd065315a0efcb21",
    by decide +kernel⟩

/-- A refit of the second scorer with the training lineage of the first. -/
def thirdFit : RecordedFit where
  request := recordedRequest "fit-3" "t1" [("h3", "decision-3")] (some
    { scorerId := "capability-competence:dc66fbf11eb391d1d8f2a15897bd1c6d"
      scorerVersion := "beta-bernoulli-ipw-v1:a5ad2cb42984599dbfe89740"
      modelArtifactId := "sha256:" ++ secondFit.modelHex.val
      priorPackId := "sha256:" ++ secondFit.priorPackHex.val })
  requestHex := ⟨"0a343fd825edcde45caa63ffeac008aaa56696a9c8cf78d58b20e1df52f35d3e",
    by decide +kernel⟩
  priorPackHex := ⟨"c624940bbb47bba86afcb489db8d9dd2b82be525262a6c597ab2e4e63b1bd1e7",
    by decide +kernel⟩
  modelHex := ⟨"2762e600354f1983847f70f1918c0e16779559371dbea108d8ad255e20b834cb",
    by decide +kernel⟩
  receiptHex := ⟨"4020b33de035c10c1eb168145e2f1d8c641f80c2f468405a44de09c16ad2bf6c",
    by decide +kernel⟩

def recordedFits : List RecordedFit := [firstFit, twiceNamed, secondFit, thirdFit]

/-- The digest `hex` of the recorded fit that `isIt` recognises. -/
def recordedHex (isIt : RecordedFit → Bool) (hex : RecordedFit → Hex64) : Hex64 :=
  ((recordedFits.find? isIt).map hex).getD recordedScopeHex

/-- SHA-256 of every document that the recorded requests lead to. -/
def recordedSha256 : Payload → Hex64
  | .request r => recordedHex (fun f => f.request == r) RecordedFit.requestHex
  | .scope _ => recordedScopeHex
  | .priorPack v => recordedHex (fun f => v.requestDigest == "sha256:" ++ f.requestHex.val)
      RecordedFit.priorPackHex
  | .model v => recordedHex (fun f => v.requestDigest == "sha256:" ++ f.requestHex.val)
      RecordedFit.modelHex
  | .receipt p => recordedHex (fun f => p.metadata.modelArtifactHash == "sha256:" ++ f.modelHex.val)
      RecordedFit.receiptHex
  | .cleanupRequest r => if r.artifactIds.length = 1 then
      ⟨"2be66cefb19e34790f7e8679c4da48bf7b08097afe0de8392abc6494595930bb",
        by decide +kernel⟩
    else ⟨"116e948007b59fa3404272ef7877bbb88681d61444f95d0c294148a8763a5fc8",
      by decide +kernel⟩
  | .cleanupReceipt r => if r.artifactIds.length = 1 then
      ⟨"0d54c3040d1fe5294aef63e520dfa5aba25400df4c98939c953cedb487772ef5",
        by decide +kernel⟩
    else ⟨"9439fcc4c3efaaaafca8aadd43a16c0299dd9d03985389cbae25db736b74d77e",
      by decide +kernel⟩
  | .text _ => ⟨"dda18a0e21ae47c53b4309434cbc02ae8bf764fa83a6defbb719431242722aa7",
      by decide +kernel⟩

def recorded : Canonical where
  hexdigest payload := (recordedSha256 payload).val
  hex64 payload := (recordedSha256 payload).property
  byteLength
    | .request r => if r.previousScorer.isSome then 1758
        else if r.evidence.length = 2 then 1417 else 1858
    | .scope _ => 258
    | .priorPack v => if v.previousScorer.isSome then 945 else 629
    | .model v => if v.previousScorer.isSome then 1345
        else if v.distinctLineageIds.length = 1 then 1029 else 1047
    | .receipt p => if p.observations.length = 1 then 1092 else 1311
    | .cleanupRequest r => if r.artifactIds.length = 1 then 510 else 584
    | .cleanupReceipt r => if r.artifactIds.length = 1 then 533 else 607
    | .text t => t.length

/-! ## Admission against the fitter -/

/-- Wherever a fit starts, it returns exactly when its held-out evidence names no decision twice. -/
theorem fits_iff {kind : MessageKind} (hadmitted : Admitted request kind)
    {scorer : Option (ScorerArtifact c)} {previous : Option FitRequest} {start : Beta}
    (hstart : startingPrior request scorer previous = .ok start) (hpositive : start.Positive) :
    (∃ f, fitCompetence c request requestDigest scorer previous = .ok f) ↔
      request.heldOutDecisionRefs.Nodup := by
  have hlearning := validateLearningEvidence_ok hadmitted.proper
  have hprior := hpositive.train (request.byRole .training)
  have hheldOut : ∀ e ∈ request.byRole .heldOut, e.role = .heldOut ∧ e.Proper := fun e he =>
    ⟨(mem_byRole.mp he).2, hadmitted.proper e (mem_byRole.mp he).1⟩
  obtain ⟨posterior, observations, hobserve, hposterior, hobs⟩ :=
    observeHeldOut_ok hheldOut hprior (List.all_nil (f := _))
  simp only [fitCompetence, bind, Except.bind, hlearning, hstart, hobserve]
  obtain ⟨fields, hfields, hassemble⟩ := assemble_ok c request requestDigest
    (k := ⟨_, request.byRole .heldOut, _, posterior, observations⟩) hprior hposterior hobs
  exact hassemble.trans (incomplete_iff hadmitted rfl hfields)

theorem Beta.uniform_positive : (Beta.mk 1 1).Positive :=
  ⟨1, 1, by simp, by simp, one_pos, one_pos⟩

/-- **An admitted fit request is fitted exactly when its held-out evidence names no decision
    twice**; whatever else the contract asks of a scorer, admission has already established. -/
theorem fitted_iff (h : validateFitRequest request .fitRequest = none) :
    (∃ f, fitCompetence c request requestDigest none none = .ok f) ↔
      request.heldOutDecisionRefs.Nodup := by
  have hadmitted := admitted_of_validate h
  have hstart : startingPrior (c := c) request none none = .ok ⟨1, 1⟩ :=
    if_pos hadmitted.messageKind
  exact fits_iff hadmitted hstart Beta.uniform_positive

theorem firstFit_admitted : validateFitRequest firstFit.request .fitRequest = none := by
  decide +kernel

theorem fitted_first : ∃ f, fitCompetence recorded firstFit.request
    (recorded.address (.request firstFit.request)) none none = .ok f :=
  (fitted_iff firstFit_admitted).mpr (by decide +kernel)

/-- Two held-out episodes name one decision: admitted, and never fitted. -/
theorem admitted_but_refused : validateFitRequest twiceNamed.request .fitRequest = none ∧
    ¬ ∃ f, fitCompetence recorded twiceNamed.request
      (recorded.address (.request twiceNamed.request)) none none = .ok f := by
  have hvalid : validateFitRequest twiceNamed.request .fitRequest = none := by decide +kernel
  have hstart : startingPrior (c := recorded) twiceNamed.request none none = .ok ⟨1, 1⟩ :=
    if_pos (admitted_of_validate hvalid).messageKind
  refine ⟨hvalid, fun hfitted => ?_⟩
  have hnodup := (fits_iff (admitted_of_validate hvalid) hstart Beta.uniform_positive).mp hfitted
  exact absurd hnodup (by decide +kernel)

end ControlPlane.Competence
