/-
  LINEAGE: how often does a causal lineage count in the posterior at the end of a chain of refits?

  Every refit starts from its predecessor's posterior, so the posterior of a chain is ONE fold over
  the evidence of all its requests (`Chain.posterior`).  The fitter compares a refit with its
  predecessor's request only.  Hence two neighbours never share a lineage, and a lineage counts twice
  exactly when a request repeats one from further back (`counted_once_iff`, `counted_twice`).
-/
import ControlPlane.Competence.Agreement
import ControlPlane.Competence.Jobs

namespace ControlPlane.Competence

variable {c : Canonical}

/-! ## What a fit counts -/

/-- What one piece of evidence does to a posterior. -/
def Beta.count (b : Beta) (e : Evidence) : Beta :=
  match e.role, e.selection with
  | .training, _ => b.observeTraining e
  | .heldOut, some s => b.observe s.observedOutcome s.importanceWeight
  | .heldOut, none => b

/-- The evidence of a request, in the order a fit counts it. -/
def FitRequest.observed (request : FitRequest) : List Evidence :=
  request.byRole .training ++ request.byRole .heldOut

def FitRequest.lineages (request : FitRequest) : List String :=
  request.evidence.map Evidence.causalLineageId

theorem train_eq_count {es : List Evidence} (hes : ∀ e ∈ es, e.role = .training) (b : Beta) :
    es.foldl Beta.observeTraining b = es.foldl Beta.count b := by
  induction es generalizing b with
  | nil => rfl
  | cons e es ih =>
    have hone : b.count e = b.observeTraining e := by
      rw [Beta.count, hes e (List.mem_cons_self ..)]
    rw [List.foldl_cons, List.foldl_cons, hone]
    exact ih (fun e' he' => hes e' (List.mem_cons_of_mem _ he')) _

theorem observeHeldOut_eq_count {es : List Evidence} (hes : ∀ e ∈ es, e.role = .heldOut) :
    ∀ {b posterior : Beta} {obs obs' : List Selection},
      observeHeldOut b obs es = .ok (posterior, obs') → posterior = es.foldl Beta.count b := by
  induction es with
  | nil =>
    intro b posterior obs obs' h
    cases h
    rfl
  | cons e es ih =>
    intro b posterior obs obs' h
    unfold observeHeldOut at h
    split at h
    · cases h
    rename_i s hs
    have hone : b.count e = b.observe s.observedOutcome s.importanceWeight := by
      rw [Beta.count, hes e (List.mem_cons_self ..), hs]
    rw [List.foldl_cons, hone]
    exact ih (fun e' he' => hes e' (List.mem_cons_of_mem _ he')) h

/-- A fit's posterior is its start after all its evidence has counted. -/
theorem posterior_eq_count {request : FitRequest} {requestDigest : String}
    {scorer : Option (ScorerArtifact c)} {previous : Option FitRequest} {f : Fitted c}
    (h : fitCompetence c request requestDigest scorer previous = .ok f) :
    ∃ start, startingPrior request scorer previous = .ok start ∧
      f.scorer.fields.posterior.value = request.observed.foldl Beta.count start := by
  obtain ⟨start, posterior, observations, hstart, hobserve, hposterior⟩ := fitCompetence_ok h
  refine ⟨start, hstart, ?_⟩
  rw [hposterior, observeHeldOut_eq_count (fun e he => (mem_byRole.mp he).2) hobserve,
    train_eq_count (fun e he => (mem_byRole.mp he).2), FitRequest.observed, List.foldl_append]

theorem observed_perm (request : FitRequest) : request.observed.Perm request.evidence := by
  have hsplit := List.filter_append_perm (fun e : Evidence => e.role == .training) request.evidence
  have hother : (request.evidence.filter fun e => !(e.role == .training)) =
      request.evidence.filter fun e => e.role == .heldOut :=
    List.filter_congr fun e _ => by cases e.role <;> rfl
  rw [hother] at hsplit
  exact ((byRole_perm request .training).append (byRole_perm request .heldOut)).trans hsplit

/-! ## Chains -/

/-- A fit and its refits, the newest job first, and the newest scorer: every refit was admitted,
    resolved its predecessor, and was fitted from it. -/
inductive Chain (c : Canonical) : List JobBinding → Fitted c → Prop where
  | fit {b : JobBinding} {f : Fitted c} {jobs : List (CompetenceJob c)}
      (hadmitted : validateFitRequest b.request .fitRequest = none) (hfit : fitJob jobs b = .ok f) :
      Chain c [b] f
  | refit {b b' : JobBinding} {f f' : Fitted c} {older : List JobBinding}
      {jobs : List (CompetenceJob c)} (hchain : Chain c (b' :: older) f')
      (hadmitted : validateFitRequest b.request .refitRequest = none)
      (hprevious : resolvePrevious jobs b = .ok (some f'.scorer, some b'.request))
      (hfit : fitJob jobs b = .ok f) : Chain c (b :: b' :: older) f

/-- All the evidence behind the newest posterior of a chain, in the order it counted. -/
def consumed (chain : List JobBinding) : List Evidence :=
  chain.reverse.flatMap fun b => b.request.observed

/-- The lineages that the newest posterior has counted, each as often as it counted. -/
def counted (chain : List JobBinding) : List String :=
  (consumed chain).map Evidence.causalLineageId

/-- No request repeats a lineage from beyond its direct predecessor. -/
def NoDistantReuse : List JobBinding → Prop
  | b :: b' :: older =>
      (∀ distant ∈ older, b.request.lineages.Disjoint distant.request.lineages) ∧
        NoDistantReuse (b' :: older)
  | _ => True

theorem consumed_cons (b : JobBinding) (older : List JobBinding) :
    consumed (b :: older) = consumed older ++ b.request.observed := by
  simp [consumed]

theorem fitJob_fit {b : JobBinding} {f : Fitted c} {jobs : List (CompetenceJob c)}
    (hadmitted : Admitted b.request .fitRequest) (h : fitJob jobs b = .ok f) :
    f.scorer.fields.posterior.value = b.request.observed.foldl Beta.count ⟨1, 1⟩ := by
  obtain ⟨scorer, previous, -, hfit⟩ := fitJob_ok h
  obtain ⟨start, hstart, hposterior⟩ := posterior_eq_count hfit
  have hone : startingPrior b.request scorer previous = .ok ⟨1, 1⟩ := if_pos hadmitted.messageKind
  rw [hposterior, ← Except.ok.inj (hone.symm.trans hstart)]

/-- A refit starts from its predecessor's posterior, in its scope and without its lineages. -/
theorem fitJob_refit {b b' : JobBinding} {f f' : Fitted c} {jobs : List (CompetenceJob c)}
    (hadmitted : Admitted b.request .refitRequest)
    (hprevious : resolvePrevious jobs b = .ok (some f'.scorer, some b'.request))
    (h : fitJob jobs b = .ok f) :
    f.scorer.fields.posterior.value =
        b.request.observed.foldl Beta.count f'.scorer.fields.posterior.value ∧
      b'.request.scope = b.request.scope ∧
      b.request.lineages.Disjoint b'.request.lineages := by
  obtain ⟨scorer, previous, hresolve, hfit⟩ := fitJob_ok h
  rw [hprevious] at hresolve
  cases hresolve
  obtain ⟨start, hstart, hposterior⟩ := posterior_eq_count hfit
  obtain ⟨hscope, hoverlap, rfl⟩ := startingPrior_refit hadmitted.messageKind hstart
  refine ⟨hposterior, hscope, fun lineage hmem => ?_⟩
  obtain ⟨e, he, rfl⟩ := List.mem_map.mp hmem
  exact hoverlap e he

/-- The newest posterior is one fold over everything the chain has consumed. -/
theorem Chain.posterior {chain : List JobBinding} {f : Fitted c} (h : Chain c chain f) :
    f.scorer.fields.posterior.value = (consumed chain).foldl Beta.count ⟨1, 1⟩ := by
  induction h with
  | fit hadmitted hfit =>
    rw [fitJob_fit (admitted_of_validate hadmitted) hfit]
    simp [consumed]
  | @refit b _ _ _ _ _ _ hadmitted hprevious hfit ih =>
    obtain ⟨hposterior, -, -⟩ := fitJob_refit (admitted_of_validate hadmitted) hprevious hfit
    rw [hposterior, ih, consumed_cons b, List.foldl_append]

/-- A chain stays within one scope. -/
theorem Chain.scope {b : JobBinding} {older : List JobBinding} {f : Fitted c}
    (h : Chain c (b :: older) f) : ∀ b' ∈ older, b'.request.scope = b.request.scope := by
  induction older generalizing b f with
  | nil => exact fun _ hb' => absurd hb' List.not_mem_nil
  | cons previous older ih =>
    cases h with
    | refit hchain hadmitted hprevious hfit =>
      obtain ⟨-, hscope, -⟩ := fitJob_refit (admitted_of_validate hadmitted) hprevious hfit
      intro b' hb'
      rcases List.mem_cons.mp hb' with rfl | hb'
      · exact hscope
      · exact (ih hchain b' hb').trans hscope

/-! ## Running a chain -/

/-- The row of a job that has succeeded with `f`. -/
def succeededRow (b : JobBinding) (f : Fitted c) : CompetenceJob c where
  binding := b
  status := .succeeded
  scorer := some f.scorer

/-- Submit and fit one job after the other, the newest first, each against the row of the job
    before it. -/
def refitAll : List JobBinding → Option (Fitted c)
  | [] => none
  | [b] =>
      if validateFitRequest b.request .fitRequest = none then (fitJob [] b).toOption else none
  | b :: b' :: older => (refitAll (b' :: older)).bind fun f' =>
      let jobs := [succeededRow b' f']
      if validateFitRequest b.request .refitRequest = none ∧
          resolvePrevious jobs b = .ok (some f'.scorer, some b'.request) then
        (fitJob jobs b).toOption
      else none

theorem ok_of_toOption {α : Type} {x : Except FitError α} {a : α} (h : x.toOption = some a) :
    x = .ok a := by
  cases x with
  | error e => cases h
  | ok a' => exact congrArg _ (Option.some.inj h)

theorem refitAll_chain {chain : List JobBinding} {f : Fitted c} (h : refitAll chain = some f) :
    Chain c chain f := by
  induction chain generalizing f with
  | nil => cases h
  | cons b rest ih =>
    cases rest with
    | nil =>
      unfold refitAll at h
      split at h
      · rename_i hadmitted
        exact .fit hadmitted (ok_of_toOption h)
      · cases h
    | cons b' older =>
      obtain ⟨f', hf', h⟩ := Option.bind_eq_some_iff.mp h
      dsimp only at h
      split at h
      · rename_i hrun
        exact .refit (ih hf') hrun.1 hrun.2 (ok_of_toOption h)
      · cases h

def RecordedFit.binding (f : RecordedFit) : JobBinding where
  id := f.request.operationId
  tenantId := f.request.scope.tenantId
  projectId := f.request.scope.projectId
  operation := if f.request.previousScorer.isSome then .refit else .fit
  operationId := f.request.operationId
  requestDigest := recorded.address (.request f.request)
  request := f.request

/-! ## Evidence is counted once -/

theorem counted_cons_perm (b : JobBinding) (older : List JobBinding) :
    (counted (b :: older)).Perm (counted older ++ b.request.lineages) := by
  rw [counted, consumed_cons, List.map_append]
  exact ((observed_perm b.request).map _).append_left _

theorem mem_counted {chain : List JobBinding} {lineage : String} :
    lineage ∈ counted chain ↔ ∃ b ∈ chain, lineage ∈ b.request.lineages := by
  induction chain with
  | nil => simp [counted, consumed]
  | cons b older ih =>
    rw [(counted_cons_perm b older).mem_iff, List.mem_append, ih]
    simp [or_comm]

/-- **Evidence is counted once exactly when no request of the chain repeats a lineage from beyond
    its direct predecessor.**  What the newest posterior has counted is what `consumed` lists. -/
theorem counted_once_iff {chain : List JobBinding} {f : Fitted c} (h : Chain c chain f) :
    f.scorer.fields.posterior.value = (consumed chain).foldl Beta.count ⟨1, 1⟩ ∧
      ((counted chain).Nodup ↔ NoDistantReuse chain) := by
  refine ⟨h.posterior, ?_⟩
  induction h with
  | @fit b f _ hadmitted hfit =>
    have hown := (admitted_of_validate hadmitted).lineages
    exact iff_of_true ((counted_cons_perm b []).nodup_iff.mpr hown) trivial
  | @refit b b' f f' older _ hchain hadmitted hprevious hfit ih =>
    obtain ⟨-, -, hnear⟩ := fitJob_refit (admitted_of_validate hadmitted) hprevious hfit
    have hown := (admitted_of_validate hadmitted).lineages
    -- a lineage consumed before `b` is the predecessor's, or comes from further back
    have hseparate : (∀ old ∈ counted (b' :: older), ∀ new ∈ b.request.lineages, old ≠ new) ↔
        ∀ distant ∈ older, b.request.lineages.Disjoint distant.request.lineages := by
      constructor
      · intro hne distant hdistant lineage hnew hold
        exact hne lineage (mem_counted.mpr ⟨distant, List.mem_cons_of_mem _ hdistant, hold⟩)
          lineage hnew rfl
      · rintro hdistant old hold new hnew rfl
        obtain ⟨b'', hb'', hmem⟩ := mem_counted.mp hold
        rcases List.mem_cons.mp hb'' with rfl | hb''
        · exact hnear hnew hmem
        · exact hdistant b'' hb'' hnew hmem
    rw [(counted_cons_perm _ _).nodup_iff, List.nodup_append, ih, hseparate, NoDistantReuse]
    exact ⟨fun ⟨hrest, _, hdistant⟩ => ⟨hdistant, hrest⟩,
      fun ⟨hdistant, hrest⟩ => ⟨hrest, hown, hdistant⟩⟩

/-- All three recorded jobs succeed, although the third trains on the lineage of the first. -/
theorem recorded_chain :
    ∃ f, Chain recorded [thirdFit.binding, secondFit.binding, firstFit.binding] f := by
  have hrun : (refitAll (c := recorded)
      [thirdFit.binding, secondFit.binding, firstFit.binding]).isSome = true := by
    decide +kernel
  obtain ⟨f, hf⟩ := Option.isSome_iff_exists.mp hrun
  exact ⟨f, refitAll_chain hf⟩

/-- The first two of them count their lineages once. -/
theorem counted_once_refit :
    ∃ f, Chain recorded [secondFit.binding, firstFit.binding] f ∧
      (counted [secondFit.binding, firstFit.binding]).Nodup := by
  obtain ⟨_, hchain⟩ := recorded_chain
  cases hchain with
  | refit hchain =>
    have hapart : NoDistantReuse [secondFit.binding, firstFit.binding] :=
      ⟨fun _ hdistant => absurd hdistant List.not_mem_nil, trivial⟩
    exact ⟨_, hchain, (counted_once_iff hchain).2.mpr hapart⟩

theorem counted_twice :
    ∃ f, Chain recorded [thirdFit.binding, secondFit.binding, firstFit.binding] f ∧
      ¬ (counted [thirdFit.binding, secondFit.binding, firstFit.binding]).Nodup := by
  obtain ⟨f, hchain⟩ := recorded_chain
  exact ⟨f, hchain, by decide +kernel⟩

end ControlPlane.Competence
