/-
  THE POSTERIOR LAW: what is the posterior at the end of a chain of fits, in exact arithmetic?

  A chain is what `fit_competence` accepts: a fit, then refits, each from the scorer and the request
  before it (`Fits`).  Every item of evidence moves the posterior by a pair of rationals that does not
  depend on the posterior, so the order of the items cannot matter, nor where one request ends and
  the next begins: the last posterior is the closed form `law` of all the evidence, in any order
  (`posterior_law`).

  1. one item moves `alpha` and `beta` by rationals (`count_finite`);
  2. a fold of them is the closed form (`foldl_count`), which a permutation keeps (`law_perm`);
  3. the chain is one fold (`Fits.posterior`), by induction on the chain.
-/
import ControlPlane.Competence.Lineage
import Mathlib.Algebra.Order.BigOperators.Group.List
import Mathlib.Tactic.Ring

namespace ControlPlane

/-- The float as a rational, 0 when it is not finite. -/
def PyFloat.value : PyFloat → ℚ
  | .finite q => q
  | _ => 0

@[simp] theorem PyFloat.value_finite (q : ℚ) : (PyFloat.finite q).value = q := rfl

namespace Competence

variable {c : Canonical}

/-! ## Chains of fits -/

/-- The requests that `fit_competence` has accepted one after the other, the newest first, and what
    it returned last. -/
inductive Fits (c : Canonical) : List FitRequest → Fitted c → Prop where
  | fit {request : FitRequest} {digest : String} {scorer : Option (ScorerArtifact c)}
      {previous : Option FitRequest} {f : Fitted c} (hkind : request.messageKind = .fitRequest)
      (hfit : fitCompetence c request digest scorer previous = .ok f) : Fits c [request] f
  | refit {request previous : FitRequest} {older : List FitRequest} {digest : String}
      {f f' : Fitted c} (hchain : Fits c (previous :: older) f')
      (hkind : request.messageKind = .refitRequest)
      (hfit : fitCompetence c request digest (some f'.scorer) (some previous) = .ok f) :
      Fits c (request :: previous :: older) f

/-- All the evidence of a chain. -/
def evidenceOf (requests : List FitRequest) : List Evidence :=
  requests.flatMap FitRequest.evidence

/-! ## The closed form -/

/-- The observed outcome of a held-out item. -/
def Evidence.outcome (e : Evidence) : ℚ := e.selection.elim 0 fun s => s.observedOutcome.value

/-- The importance weight of a held-out item. -/
def Evidence.weight (e : Evidence) : ℚ := e.selection.elim 0 fun s => s.importanceWeight.value

def trainingOf (es : List Evidence) : List Evidence := es.filter fun e => e.role == .training

def heldOutOf (es : List Evidence) : List Evidence := es.filter fun e => e.role == .heldOut

/-- `alpha` after the evidence. -/
def alphaAfter (es : List Evidence) : ℚ :=
  1 + ((trainingOf es).countP fun e => e.survived) +
    ((heldOutOf es).map fun e => e.outcome * e.weight).sum

/-- `beta` after the evidence. -/
def betaAfter (es : List Evidence) : ℚ :=
  1 + ((trainingOf es).countP fun e => !e.survived) +
    ((heldOutOf es).map fun e => (1 - e.outcome) * e.weight).sum

/-- The posterior that the evidence calls for, in any order. -/
def law (es : List Evidence) : Beta := ⟨.finite (alphaAfter es), .finite (betaAfter es)⟩

/-- Held-out evidence carries a correction that passes the range check. -/
def Evidence.Measured (e : Evidence) : Prop :=
  e.role = .heldOut → ∃ s, e.selection = some s ∧ s.outOfRange = false

/-- A correction in range is a pair of rationals. -/
theorem Selection.ranges {s : Selection} (h : s.outOfRange = false) :
    ∃ o w, s.observedOutcome = .finite o ∧ s.importanceWeight = .finite w ∧
      0 ≤ o ∧ o ≤ 1 ∧ 0 ≤ w := by
  simp only [outOfRange, Bool.or_eq_false_iff, Bool.not_eq_false', Bool.and_eq_true] at h
  obtain ⟨⟨⟨⟨⟨-, -⟩, hfinite⟩, hweight⟩, houtcome⟩, -⟩ := h
  have hall : ∀ x ∈ s.floats, x.isfinite = true := List.all_eq_true.mp hfinite
  obtain ⟨o, ho⟩ := PyFloat.isfinite_iff.mp (hall s.observedOutcome (by simp [floats]))
  obtain ⟨w, hw⟩ := PyFloat.isfinite_iff.mp (hall s.importanceWeight (by simp [floats]))
  have hunit : 0 ≤ o ∧ o ≤ 1 := by simpa [ho] using houtcome
  have hnonneg : 0 ≤ w := by simpa [hw] using hweight
  exact ⟨o, w, ho, hw, hunit.1, hunit.2, hnonneg⟩

/-- The evidence check passes measured evidence and no other. -/
theorem validateLearningEvidence_iff {es : List Evidence} :
    validateLearningEvidence es = .ok () ↔ ∀ e ∈ es, e.Measured := by
  induction es with
  | nil => exact iff_of_true rfl fun e he => absurd he List.not_mem_nil
  | cons e es ih =>
    rw [List.forall_mem_cons]
    unfold validateLearningEvidence
    split
    · rename_i hrole
      rw [ih]
      exact ⟨fun h => ⟨fun hheld => absurd hheld hrole, h⟩, fun h => h.2⟩
    · rename_i hrole
      have hheld : e.role = .heldOut := not_not.mp hrole
      split
      · rename_i hnone
        refine iff_of_false (nomatch ·) fun h => ?_
        obtain ⟨s, hs, -⟩ := h.1 hheld
        cases hnone.symm.trans hs
      rename_i s hs
      split
      · rename_i hrange
        refine iff_of_false (nomatch ·) fun h => ?_
        obtain ⟨s', hs', hin⟩ := h.1 hheld
        cases hs.symm.trans hs'
        cases hrange.symm.trans hin
      · rename_i hrange
        rw [ih]
        exact ⟨fun h => ⟨fun _ => ⟨s, hs, Bool.not_eq_true _ ▸ hrange⟩, h⟩, fun h => h.2⟩

/-! ## One fold -/

/-- What an item adds to `alpha`. -/
def Evidence.hit (e : Evidence) : ℚ :=
  if e.role = .training then (if e.survived then 1 else 0) else e.outcome * e.weight

/-- What an item adds to `beta`. -/
def Evidence.miss (e : Evidence) : ℚ :=
  if e.role = .training then (if e.survived then 0 else 1) else (1 - e.outcome) * e.weight

/-- An item moves both parameters by rationals that do not depend on them. -/
theorem count_finite {e : Evidence} (he : e.Measured) (a b : ℚ) :
    Beta.count ⟨.finite a, .finite b⟩ e = ⟨.finite (a + e.hit), .finite (b + e.miss)⟩ := by
  cases hrole : e.role with
  | training =>
    have hcount : Beta.count ⟨.finite a, .finite b⟩ e =
        Beta.observeTraining ⟨.finite a, .finite b⟩ e := by rw [Beta.count, hrole]
    rw [hcount, Beta.observeTraining, Evidence.hit, Evidence.miss, if_pos hrole, if_pos hrole]
    cases e.survived <;> simp [Beta.observe]
  | heldOut =>
    obtain ⟨s, hs, hrange⟩ := he hrole
    obtain ⟨o, w, ho, hw, -⟩ := s.ranges hrange
    have hcount : Beta.count ⟨.finite a, .finite b⟩ e =
        Beta.observe ⟨.finite a, .finite b⟩ s.observedOutcome s.importanceWeight := by
      rw [Beta.count, hrole, hs]
    have hne : e.role ≠ .training := by rw [hrole]; decide
    rw [hcount, ho, hw, Evidence.hit, Evidence.miss, if_neg hne, if_neg hne]
    simp [Beta.observe, Evidence.outcome, Evidence.weight, hs, ho, hw]

theorem foldl_count_finite {es : List Evidence} (hes : ∀ e ∈ es, e.Measured) (a b : ℚ) :
    es.foldl Beta.count ⟨.finite a, .finite b⟩ =
      ⟨.finite (a + (es.map Evidence.hit).sum), .finite (b + (es.map Evidence.miss).sum)⟩ := by
  induction es generalizing a b with
  | nil => simp
  | cons e es ih =>
    have hrest : ∀ e' ∈ es, e'.Measured := fun e' he' => hes e' (List.mem_cons_of_mem _ he')
    rw [List.foldl_cons, count_finite (hes e (List.mem_cons_self ..)), ih hrest]
    simp [add_assoc]

theorem alphaAfter_eq (es : List Evidence) : alphaAfter es = 1 + (es.map Evidence.hit).sum := by
  induction es with
  | nil => simp [alphaAfter, trainingOf, heldOutOf]
  | cons e es ih =>
    rw [List.map_cons, List.sum_cons, add_left_comm, ← ih, Evidence.hit]
    cases hrole : e.role <;> cases hsurvived : e.survived <;>
      simp [alphaAfter, trainingOf, heldOutOf, hrole, hsurvived] <;> ring

theorem betaAfter_eq (es : List Evidence) : betaAfter es = 1 + (es.map Evidence.miss).sum := by
  induction es with
  | nil => simp [betaAfter, trainingOf, heldOutOf]
  | cons e es ih =>
    rw [List.map_cons, List.sum_cons, add_left_comm, ← ih, Evidence.miss]
    cases hrole : e.role <;> cases hsurvived : e.survived <;>
      simp [betaAfter, trainingOf, heldOutOf, hrole, hsurvived] <;> ring

/-- Counting all the evidence gives the closed form. -/
theorem foldl_count {es : List Evidence} (hes : ∀ e ∈ es, e.Measured) :
    es.foldl Beta.count ⟨1, 1⟩ = law es := by
  rw [PyFloat.one_eq, foldl_count_finite hes, law, alphaAfter_eq, betaAfter_eq]

theorem law_perm {es es' : List Evidence} (h : es.Perm es') : law es = law es' := by
  rw [law, law, alphaAfter_eq, alphaAfter_eq, betaAfter_eq, betaAfter_eq,
    (h.map Evidence.hit).sum_eq, (h.map Evidence.miss).sum_eq]

/-! ## What the parameters amount to -/

theorem Role.heldOut_of_ne {role : Role} (h : role ≠ .training) : role = .heldOut := by
  cases role with
  | training => exact absurd rfl h
  | heldOut => rfl

theorem hit_nonneg {e : Evidence} (he : e.Measured) : 0 ≤ e.hit := by
  rw [Evidence.hit]
  split
  · split <;> norm_num
  · rename_i hrole
    obtain ⟨s, hs, hrange⟩ := he (Role.heldOut_of_ne hrole)
    obtain ⟨o, w, ho, hw, ho0, -, hw0⟩ := s.ranges hrange
    simp only [Evidence.outcome, Evidence.weight, hs, Option.elim_some, ho, hw, PyFloat.value_finite]
    exact mul_nonneg ho0 hw0

theorem miss_nonneg {e : Evidence} (he : e.Measured) : 0 ≤ e.miss := by
  rw [Evidence.miss]
  split
  · split <;> norm_num
  · rename_i hrole
    obtain ⟨s, hs, hrange⟩ := he (Role.heldOut_of_ne hrole)
    obtain ⟨o, w, ho, hw, -, ho1, hw0⟩ := s.ranges hrange
    simp only [Evidence.outcome, Evidence.weight, hs, Option.elim_some, ho, hw, PyFloat.value_finite]
    exact mul_nonneg (sub_nonneg.mpr ho1) hw0

theorem one_le_alphaAfter {es : List Evidence} (hes : ∀ e ∈ es, e.Measured) :
    1 ≤ alphaAfter es := by
  have hsum : 0 ≤ (es.map Evidence.hit).sum := List.sum_nonneg fun x hx => by
    obtain ⟨e, he, rfl⟩ := List.mem_map.mp hx
    exact hit_nonneg (hes e he)
  rw [alphaAfter_eq]
  linarith

theorem one_le_betaAfter {es : List Evidence} (hes : ∀ e ∈ es, e.Measured) :
    1 ≤ betaAfter es := by
  have hsum : 0 ≤ (es.map Evidence.miss).sum := List.sum_nonneg fun x hx => by
    obtain ⟨e, he, rfl⟩ := List.mem_map.mp hx
    exact miss_nonneg (hes e he)
  rw [betaAfter_eq]
  linarith

/-- The two parameters share out the training items and the weight. -/
theorem alphaAfter_add_betaAfter (es : List Evidence) :
    alphaAfter es + betaAfter es =
      2 + (trainingOf es).length + ((heldOutOf es).map Evidence.weight).sum := by
  have htraining : ((trainingOf es).length : ℚ) =
      ((trainingOf es).countP fun e => e.survived) +
        ((trainingOf es).countP fun e => !e.survived) := by
    rw [List.length_eq_countP_add_countP fun e : Evidence => e.survived]
    push_cast
    simp
  have hweight : ((heldOutOf es).map Evidence.weight).sum =
      ((heldOutOf es).map fun e => e.outcome * e.weight).sum +
        ((heldOutOf es).map fun e => (1 - e.outcome) * e.weight).sum := by
    rw [← List.sum_map_add]
    congr 1
    exact List.map_congr_left fun e _ => by ring
  rw [alphaAfter, betaAfter, htraining, hweight]
  ring

/-! ## The chain -/

theorem fitCompetence_measured {request : FitRequest} {digest : String}
    {scorer : Option (ScorerArtifact c)} {previous : Option FitRequest} {f : Fitted c}
    (h : fitCompetence c request digest scorer previous = .ok f) :
    ∀ e ∈ request.evidence, e.Measured := by
  obtain ⟨⟨⟩, hvalid, -⟩ := ok_of_bind h
  exact validateLearningEvidence_iff.mp hvalid

/-- The requests of a chain of admitted jobs are a chain of fits. -/
theorem Chain.fits {chain : List JobBinding} {f : Fitted c} (h : Chain c chain f) :
    Fits c (chain.map JobBinding.request) f := by
  induction h with
  | fit hadmitted hfit =>
    obtain ⟨scorer, previous, -, hfit⟩ := fitJob_ok hfit
    exact .fit (admitted_of_validate hadmitted).messageKind hfit
  | refit _ hadmitted hprevious hfit ih =>
    obtain ⟨scorer, previous, hresolve, hfit⟩ := fitJob_ok hfit
    rw [hprevious] at hresolve
    cases hresolve
    exact .refit ih (admitted_of_validate hadmitted).messageKind hfit

theorem Fits.measured {requests : List FitRequest} {f : Fitted c} (h : Fits c requests f) :
    ∀ e ∈ evidenceOf requests, e.Measured := by
  induction h with
  | fit _ hfit => simpa [evidenceOf] using fitCompetence_measured hfit
  | refit _ _ hfit ih =>
    intro e he
    rw [evidenceOf, List.flatMap_cons, List.mem_append] at he
    rcases he with he | he
    · exact fitCompetence_measured hfit e he
    · exact ih e he

theorem Fits.posterior {requests : List FitRequest} {f : Fitted c} (h : Fits c requests f) :
    f.scorer.fields.posterior.value =
      (requests.reverse.flatMap FitRequest.observed).foldl Beta.count ⟨1, 1⟩ := by
  induction h with
  | @fit request _ scorer previous f hkind hfit =>
    obtain ⟨start, hstart, hposterior⟩ := posterior_eq_count hfit
    have hone : startingPrior request scorer previous = .ok ⟨1, 1⟩ := if_pos hkind
    rw [hposterior, ← Except.ok.inj (hone.symm.trans hstart)]
    simp
  | @refit request previous older _ f f' _ hkind hfit ih =>
    obtain ⟨start, hstart, hposterior⟩ := posterior_eq_count hfit
    obtain ⟨-, -, rfl⟩ := startingPrior_refit hkind hstart
    rw [hposterior, ih, ← List.foldl_append]
    simp

theorem observed_evidence_perm (requests : List FitRequest) :
    (requests.reverse.flatMap FitRequest.observed).Perm (evidenceOf requests) :=
  (List.Perm.flatMap (List.reverse_perm requests) fun request _ => observed_perm request)

theorem evidenceOf_perm {requests requests' : List FitRequest}
    (h : List.Forall₂ (fun r r' => r.evidence.Perm r'.evidence) requests requests') :
    (evidenceOf requests).Perm (evidenceOf requests') := by
  induction h with
  | nil => exact .refl _
  | cons hone _ ih => exact hone.append ih

/-- The posterior of a chain is the closed form of its evidence. -/
theorem Fits.law {requests : List FitRequest} {f : Fitted c} (h : Fits c requests f) :
    f.scorer.fields.posterior.value = law (evidenceOf requests) := by
  have hperm := observed_evidence_perm requests
  rw [h.posterior, foldl_count fun e he => h.measured e (hperm.subset he), law_perm hperm]

/-! ## The law -/

/-- On measured evidence the held-out loop returns. -/
theorem observeHeldOut_measured {es : List Evidence}
    (hes : ∀ e ∈ es, e.role = .heldOut ∧ e.Measured) :
    ∀ b obs, ∃ obs', observeHeldOut b obs es = .ok (es.foldl Beta.count b, obs') := by
  induction es with
  | nil => exact fun b obs => ⟨obs, rfl⟩
  | cons e es ih =>
    intro b obs
    obtain ⟨hrole, hmeasured⟩ := hes e (List.mem_cons_self ..)
    obtain ⟨s, hs, -⟩ := hmeasured hrole
    have hone : b.count e = b.observe s.observedOutcome s.importanceWeight := by
      rw [Beta.count, hrole, hs]
    rw [List.foldl_cons, hone]
    simp only [observeHeldOut, hs]
    exact ih (fun e' he' => hes e' (List.mem_cons_of_mem _ he')) _ _

/-- One fit of measured evidence gets to the assembly, with the closed form as its posterior. -/
theorem fitCompetence_single {request : FitRequest} (hkind : request.messageKind = .fitRequest)
    (hmeasured : ∀ e ∈ request.evidence, e.Measured) (digest : String)
    (scorer : Option (ScorerArtifact c)) (previous : Option FitRequest) :
    ∃ prior observations, fitCompetence c request digest scorer previous =
      assemble c request digest
        { training := request.byRole .training
          heldOut := request.byRole .heldOut
          prior := prior
          posterior := law request.evidence
          observations := observations } := by
  have hstart : startingPrior request scorer previous = .ok ⟨1, 1⟩ := if_pos hkind
  have hheld : ∀ e ∈ request.byRole .heldOut, e.role = .heldOut ∧ e.Measured := fun e he =>
    ⟨(mem_byRole.mp he).2, hmeasured e (mem_byRole.mp he).1⟩
  obtain ⟨observations, hobserve⟩ := observeHeldOut_measured hheld
    ((request.byRole .training).foldl Beta.observeTraining ⟨1, 1⟩) []
  have hfold : (request.byRole .heldOut).foldl Beta.count
      ((request.byRole .training).foldl Beta.observeTraining ⟨1, 1⟩) = law request.evidence := by
    have hperm := observed_perm request
    rw [train_eq_count fun e he => (mem_byRole.mp he).2, ← List.foldl_append,
      ← FitRequest.observed, foldl_count fun e he => hmeasured e (hperm.subset he), law_perm hperm]
  refine ⟨(request.byRole .training).foldl Beta.observeTraining ⟨1, 1⟩, observations, ?_⟩
  rw [fitCompetence, validateLearningEvidence_iff.mpr hmeasured, hstart]
  simp only [bind, Except.bind]
  rw [hobserve, hfold]

/-- **The posterior law.**  The last posterior of a chain is `Beta(1 + survived training items +
    Σ outcome · weight, 1 + other training items + Σ (1 - outcome) · weight)` over the evidence of
    all its requests; it is what the requests give with their evidence in any other order, and what
    one fit gives of all the evidence at once. -/
theorem posterior_law {requests : List FitRequest} {f : Fitted c} (h : Fits c requests f) :
    (∀ e ∈ evidenceOf requests, e.Measured) ∧
      f.scorer.fields.posterior.value =
        ⟨.finite (alphaAfter (evidenceOf requests)), .finite (betaAfter (evidenceOf requests))⟩ ∧
      1 ≤ alphaAfter (evidenceOf requests) ∧ 1 ≤ betaAfter (evidenceOf requests) ∧
      alphaAfter (evidenceOf requests) + betaAfter (evidenceOf requests) =
        2 + (trainingOf (evidenceOf requests)).length +
          ((heldOutOf (evidenceOf requests)).map Evidence.weight).sum ∧
      (∀ requests' f', Fits c requests' f' →
        List.Forall₂ (fun r r' => r.evidence.Perm r'.evidence) requests requests' →
        f'.scorer.fields.posterior.value = f.scorer.fields.posterior.value) ∧
      (∀ single digest scorer previous, single.messageKind = .fitRequest →
        single.evidence.Perm (evidenceOf requests) →
        (∃ prior observations, fitCompetence c single digest scorer previous =
          assemble c single digest
            { training := single.byRole .training
              heldOut := single.byRole .heldOut
              prior := prior
              posterior := f.scorer.fields.posterior.value
              observations := observations }) ∧
          ∀ f', fitCompetence c single digest scorer previous = .ok f' →
            f'.scorer.fields.posterior.value = f.scorer.fields.posterior.value) := by
  refine ⟨h.measured, h.law, one_le_alphaAfter h.measured, one_le_betaAfter h.measured,
    alphaAfter_add_betaAfter _, ?_, ?_⟩
  · intro requests' f' h' hperm
    rw [h'.law, h.law, law_perm (evidenceOf_perm hperm)]
  · intro single digest scorer previous hkind hperm
    have hmeasured : ∀ e ∈ single.evidence, e.Measured := fun e he =>
      h.measured e (hperm.subset he)
    rw [h.law, ← law_perm hperm]
    refine ⟨fitCompetence_single hkind hmeasured digest scorer previous, fun f' hfit => ?_⟩
    have hsingle : Fits c [single] f' := .fit hkind hfit
    rw [hsingle.law, evidenceOf, List.flatMap_singleton]

/-- A fit and a refit of the recorded jobs: each has one training item that survived, and one
    held-out success. -/
theorem posterior_law_refit :
    ∃ f, Fits recorded [secondFit.request, firstFit.request] f ∧
      f.scorer.fields.posterior.value = ⟨.finite 5, .finite 1⟩ := by
  obtain ⟨_, hchain⟩ := recorded_chain
  cases hchain with
  | refit hchain =>
    have halpha : alphaAfter (evidenceOf [secondFit.request, firstFit.request]) = 5 := by
      decide +kernel
    have hbeta : betaAfter (evidenceOf [secondFit.request, firstFit.request]) = 1 := by
      decide +kernel
    refine ⟨_, hchain.fits, ?_⟩
    rw [← halpha, ← hbeta]
    exact (posterior_law hchain.fits).2.1

end Competence

end ControlPlane
