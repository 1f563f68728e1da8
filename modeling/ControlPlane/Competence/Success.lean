/-
  SUCCESS of a competence job, under every interleaving of deliveries, sweeps and cleanups.

  `_finish_success` looks at the status of the row before it writes; `_finish_problem` looks for
  CANCELED only.  So a second worker that runs out of retries turns a SUCCEEDED job into a FAILED
  one (`succeeded_failed`).  In every run in which no problem is written over a SUCCEEDED row, its
  status, its scorer and its artifact keys are frozen (`succeeded_frozen`).

  That `_record_artifact` is harmless without looking at the status takes an argument: whoever
  publishes for a job publishes the SAME fit.  A fit is a function of the request and of the scorer it
  resolves, and what it resolves has SUCCEEDED, hence is frozen too (`Sourced.unique`); so on a
  SUCCEEDED row every record repeats a binding that is there.
-/
import ControlPlane.Competence.Cleanup

namespace ControlPlane.Competence

open ControlPlane.Interleave

variable {c : Canonical} {maxBytes : Nat} {d d' : Store c} {p p' : Delivery c} {w : Write c}
  {w' : Publication c} {b : JobBinding} {f f' : Fitted c}

/-! ## The condition -/

/-- Two SUCCEEDED jobs of one project that answer to one scorer identity have one posterior and one
    request. -/
def CompetenceJob.agrees (job other : CompetenceJob c) : Bool :=
  match job.scorer, other.scorer with
  | some s, some s' =>
      !(job.status == .succeeded && other.status == .succeeded &&
        job.binding.tenantId == other.binding.tenantId &&
        job.binding.projectId == other.binding.projectId &&
        s.fields.scorerId == s'.fields.scorerId &&
        s.fields.scorerVersion == s'.fields.scorerVersion &&
        s.fields.modelArtifact.artifactId == s'.fields.modelArtifact.artifactId &&
        s.fields.priorPack.priorPackId == s'.fields.priorPack.priorPackId) ||
      (s.fields.posterior == s'.fields.posterior && job.binding.request == other.binding.request)
  | _, _ => true

/-- The content addresses in the table identify what they address. -/
def Store.identifying (d : Store c) : Bool :=
  d.jobs.all fun job => d.jobs.all fun other => job.agrees other

/-- No problem is written over a SUCCEEDED row; and no two scorers collide. -/
def keepsSuccess (s : Config (Store c) (Delivery c)) (e : Event (Delivery c) Answer Move) : Bool :=
  s.store.identifying && match e with
    | .act i (.store _) => (s.procs[i]?).all fun p => match p.pc with
      | .finishProblem _ => (s.store.find p.jobId).all fun job => job.status != .succeeded
      | _ => true
    | _ => true

/-! ## Where a fit comes from -/

/-- What `_resolve_previous` may have answered. -/
inductive Resolved (d : Store c) (b : JobBinding) :
    Option (ScorerArtifact c) → Option FitRequest → Prop where
  | fit (hnone : b.request.previousScorer = none) : Resolved d b none none
  | refit {expected : PreviousScorer} {job : CompetenceJob c} {s : ScorerArtifact c}
      (hexpected : b.request.previousScorer = some expected) (hjob : job ∈ d.jobs)
      (hstatus : job.status = .succeeded) (htenant : job.binding.tenantId = b.tenantId)
      (hproject : job.binding.projectId = b.projectId) (hs : job.scorer = some s)
      (hnames : expected.names s = true) : Resolved d b (some s) (some job.binding.request)

/-- A fit of the job, from a scorer that has succeeded. -/
def Sourced (d : Store c) (b : JobBinding) (f : Fitted c) : Prop :=
  ∃ scorer previous, Resolved d b scorer previous ∧
    fitCompetence c b.request b.requestDigest scorer previous = .ok f

theorem resolvePrevious_resolved {scorer : Option (ScorerArtifact c)} {previous : Option FitRequest}
    (h : resolvePrevious d.jobs b = .ok (scorer, previous)) : Resolved d b scorer previous := by
  unfold resolvePrevious at h
  split at h
  · rename_i hnone
    cases h
    exact .fit hnone
  · rename_i expected hexpected
    split at h
    · rename_i s r hfound
      cases h
      obtain ⟨job, hjob, hprevious⟩ := List.exists_of_findSome?_eq_some hfound
      unfold CompetenceJob.previousFor at hprevious
      split at hprevious
      · rename_i hcandidate
        obtain ⟨htenant, hproject, hstatus, -⟩ := hcandidate
        obtain ⟨s', hs', hnames⟩ := Option.bind_eq_some_iff.mp hprevious
        split at hnames
        · rename_i hnamed
          cases hnames
          exact .refit hexpected hjob hstatus htenant hproject hs' hnamed
        · cases hnames
      · cases hprevious
    · cases h

theorem fitJob_sourced (h : fitJob d.jobs b = .ok f) : Sourced d b f := by
  obtain ⟨scorer, previous, hresolve, hfit⟩ := fitJob_ok h
  exact ⟨scorer, previous, resolvePrevious_resolved hresolve, hfit⟩

/-- A fit reads of the previous scorer its identity and its posterior. -/
theorem fitCompetence_congr {request : FitRequest} {requestDigest : String}
    {expected : PreviousScorer} {s s' : ScorerArtifact c} {previous : FitRequest}
    (hprevious : request.previousScorer = some expected) (hs : expected.names s = true)
    (hs' : expected.names s' = true) (hposterior : s.fields.posterior = s'.fields.posterior) :
    fitCompetence c request requestDigest (some s) (some previous) =
      fitCompetence c request requestDigest (some s') (some previous) := by
  have hstart : startingPrior request (some s) (some previous) =
      startingPrior request (some s') (some previous) := by
    simp only [startingPrior, hprevious, Option.any_some, hs, hs', hposterior]
  unfold fitCompetence
  rw [hstart]

theorem identifying_eq (hd : d.identifying = true) {job other : CompetenceJob c}
    (hjob : job ∈ d.jobs) (hother : other ∈ d.jobs) (hstatus : job.status = .succeeded)
    (hstatus' : other.status = .succeeded) (htenant : job.binding.tenantId = other.binding.tenantId)
    (hproject : job.binding.projectId = other.binding.projectId) {s s' : ScorerArtifact c}
    (hs : job.scorer = some s) (hs' : other.scorer = some s') {expected : PreviousScorer}
    (hnames : expected.names s = true) (hnames' : expected.names s' = true) :
    s.fields.posterior = s'.fields.posterior ∧ job.binding.request = other.binding.request := by
  have hagree := List.all_eq_true.mp (List.all_eq_true.mp hd job hjob) other hother
  simp only [PreviousScorer.names, Bool.and_eq_true, beq_iff_eq] at hnames hnames'
  obtain ⟨⟨⟨hid, hversion⟩, hmodel⟩, hpack⟩ := hnames
  obtain ⟨⟨⟨hid', hversion'⟩, hmodel'⟩, hpack'⟩ := hnames'
  simpa [CompetenceJob.agrees, hs, hs', hstatus, hstatus', htenant, hproject, ← hid, ← hid',
    ← hversion, ← hversion', ← hmodel, ← hmodel', ← hpack, ← hpack'] using hagree

/-- **A job has one fit**, whichever delivery computes it. -/
theorem Sourced.unique (hd : d.identifying = true) (h : Sourced d b f) (h' : Sourced d b f') :
    f = f' := by
  obtain ⟨scorer, previous, hresolved, hfit⟩ := h
  obtain ⟨scorer', previous', hresolved', hfit'⟩ := h'
  cases hresolved with
  | fit hnone =>
    cases hresolved' with
    | fit => exact Except.ok.inj (hfit.symm.trans hfit')
    | refit hexpected' => cases hnone.symm.trans hexpected'
  | refit hexpected hjob hstatus htenant hproject hs hnames =>
    cases hresolved' with
    | fit hnone' => cases hnone'.symm.trans hexpected
    | refit hexpected' hother hstatus' htenant' hproject' hs' hnames' =>
      obtain rfl := Option.some.inj (hexpected.symm.trans hexpected')
      obtain ⟨hposterior, hrequest⟩ := identifying_eq hd hjob hother hstatus hstatus'
        (htenant.trans htenant'.symm) (hproject.trans hproject'.symm) hs hs' hnames hnames'
      rw [fitCompetence_congr hexpected hnames hnames' hposterior, hrequest] at hfit
      exact Except.ok.inj (hfit.symm.trans hfit')

/-! ## What a worker publishes -/

/-- The dict that `_publish` returns: the two artifacts of a fit, under their keys. -/
def Published (maxBytes : Nat) (b : JobBinding) (f : Fitted c) (keys : List (String × String)) :
    Prop :=
  ∃ priorKey modelKey,
    (Publication.mk b f .priorPack []).target maxBytes = .ok priorKey ∧
    (Publication.mk b f .scorerModel []).target maxBytes = .ok modelKey ∧
    keys = dictSet (dictSet [] (c.address (f.payload .priorPack)) priorKey)
      (c.address (f.payload .scorerModel)) modelKey

/-- What `_publish` has recorded when it comes to an artifact. -/
def PublishedBefore (maxBytes : Nat) (w : Publication c) : Prop :=
  match w.kind with
  | .priorPack => w.published = []
  | .scorerModel => ∃ priorKey,
      (Publication.mk w.job w.fitted .priorPack []).target maxBytes = .ok priorKey ∧
      w.published = dictSet [] (c.address (w.fitted.payload .priorPack)) priorKey

/-- Recording the model completes the dict. -/
theorem published_complete {key : String} (hkind : w'.kind = .scorerModel)
    (hbefore : PublishedBefore maxBytes w') (htarget : w'.target maxBytes = .ok key) :
    Published maxBytes w'.job w'.fitted (dictSet w'.published (c.address w'.payload) key) := by
  obtain ⟨job, fitted, kind, published⟩ := w'
  obtain rfl : kind = .scorerModel := hkind
  obtain ⟨priorKey, hprior, hpublished⟩ := hbefore
  dsimp only at hpublished
  rw [hpublished]
  exact ⟨priorKey, key, hprior, htarget, rfl⟩

/-- On the row of a published fit, a record of one of its two artifacts is refused or repeats what
    is there. -/
theorem recordArtifact_published {job job' : CompetenceJob c} {kind : ArtifactKind} {key : String}
    (hpublished : Published maxBytes b f job.artifactKeys)
    (h : recordArtifact (c.address (f.payload kind)) key job = .ok job') : job' = job := by
  obtain ⟨priorKey, modelKey, -, -, hkeys⟩ := hpublished
  have hnodup : (job.artifactKeys.map Prod.fst).Nodup :=
    hkeys ▸ dictSet_nodup (dictSet_nodup List.nodup_nil)
  obtain ⟨bound, hbound⟩ : ∃ bound, job.artifactKeys.lookup (c.address (f.payload kind)) = some bound := by
    rw [hkeys, lookup_dictSet, lookup_dictSet]
    cases kind with
    | scorerModel => exact ⟨modelKey, if_pos rfl⟩
    | priorPack =>
      split
      · exact ⟨modelKey, rfl⟩
      · exact ⟨priorKey, if_pos rfl⟩
  unfold recordArtifact at h
  split at h
  · cases h
  · rename_i hfree
    obtain rfl : bound = key := by simpa [hbound] using hfree
    cases h
    rw [dictSet_self hnodup hbound]

/-! ## Frozen rows -/

/-- A SUCCEEDED row carries the scorer and the artifacts of a fit of its job. -/
def Proven (maxBytes : Nat) (d : Store c) (job : CompetenceJob c) : Prop :=
  ∃ f, job.scorer = some f.scorer ∧ Sourced d job.binding f ∧
    Published maxBytes job.binding f job.artifactKeys

/-- What a transaction may do to a row: nothing that shows, when the row is SUCCEEDED. -/
structure Freezes (job job' : CompetenceJob c) : Prop where
  binding : job'.binding = job.binding
  frozen : job.status = .succeeded →
    job'.status = .succeeded ∧ job'.scorer = job.scorer ∧ job'.artifactKeys = job.artifactKeys

theorem Freezes.refl (job : CompetenceJob c) : Freezes job job := ⟨rfl, fun h => ⟨h, rfl, rfl⟩⟩

theorem Freezes.trans {job₁ job₂ job₃ : CompetenceJob c} (h : Freezes job₁ job₂)
    (h' : Freezes job₂ job₃) : Freezes job₁ job₃ := by
  refine ⟨h'.binding.trans h.binding, fun hsucceeded => ?_⟩
  obtain ⟨hstatus, hscorer, hkeys⟩ := h.frozen hsucceeded
  obtain ⟨hstatus', hscorer', hkeys'⟩ := h'.frozen hstatus
  exact ⟨hstatus', hscorer'.trans hscorer, hkeys'.trans hkeys⟩

theorem Freezes.of_keeps {job job' : CompetenceJob c} (h : Keeps job job')
    (hstatus : job.status ≠ .succeeded) : Freezes job job' :=
  ⟨h.binding, fun hsucceeded => absurd hsucceeded hstatus⟩

/-- No row is forgotten, and none is unfrozen. -/
def Freezing (d d' : Store c) : Prop := ∀ job ∈ d.jobs, ∃ job' ∈ d'.jobs, Freezes job job'

theorem Freezing.of_jobs (h : d'.jobs = d.jobs) : Freezing d d' :=
  fun job hjob => ⟨job, h ▸ hjob, .refl job⟩

theorem Freezing.trans {d₁ d₂ d₃ : Store c} (h : Freezing d₁ d₂) (h' : Freezing d₂ d₃) :
    Freezing d₁ d₃ := by
  intro job hjob
  obtain ⟨job₂, hjob₂, hfreezes⟩ := h job hjob
  obtain ⟨job₃, hjob₃, hfreezes'⟩ := h' job₂ hjob₂
  exact ⟨job₃, hjob₃, hfreezes.trans hfreezes'⟩

theorem Sourced.mono (hgrow : Freezing d d') (h : Sourced d b f) : Sourced d' b f := by
  obtain ⟨scorer, previous, hresolved, hfit⟩ := h
  refine ⟨scorer, previous, ?_, hfit⟩
  cases hresolved with
  | fit hnone => exact .fit hnone
  | refit hexpected hjob hstatus htenant hproject hs hnames =>
    obtain ⟨job', hjob', hfreezes⟩ := hgrow _ hjob
    obtain ⟨hstatus', hscorer', -⟩ := hfreezes.frozen hstatus
    rw [← hfreezes.binding] at htenant hproject ⊢
    exact .refit hexpected hjob' hstatus' htenant hproject (hscorer'.trans hs) hnames

theorem Proven.mono {job job' : CompetenceJob c} (hgrow : Freezing d d') (h : Proven maxBytes d job)
    (hbinding : job'.binding = job.binding) (hscorer : job'.scorer = job.scorer)
    (hkeys : job'.artifactKeys = job.artifactKeys) : Proven maxBytes d' job' := by
  obtain ⟨f, hs, hsourced, hpublished⟩ := h
  exact ⟨f, hscorer.trans hs, hbinding ▸ hsourced.mono hgrow, by rw [hbinding, hkeys]; exact hpublished⟩

/-- The invariant of the table. -/
structure Evident (maxBytes : Nat) (d : Store c) : Prop where
  ids : (d.jobs.map CompetenceJob.id).Nodup
  proven : ∀ job ∈ d.jobs, job.status = .succeeded → Proven maxBytes d job

/-- A table whose rows all come from frozen rows is evident again, when new successes are. -/
theorem Evident.mono (hd : Evident maxBytes d) (hgrow : Freezing d d')
    (hids : (d'.jobs.map CompetenceJob.id).Nodup)
    (hrows : ∀ job' ∈ d'.jobs, job'.status = .succeeded →
      Proven maxBytes d job' ∨ ∃ job ∈ d.jobs, job.status = .succeeded ∧ Freezes job job') :
    Evident maxBytes d' := by
  refine ⟨hids, fun job' hjob' hsucceeded => ?_⟩
  rcases hrows job' hjob' hsucceeded with hproven | ⟨job, hjob, hstatus, hfreezes⟩
  · exact hproven.mono hgrow rfl rfl rfl
  · obtain ⟨-, hscorer, hkeys⟩ := hfreezes.frozen hstatus
    exact (hd.proven job hjob hstatus).mono hgrow hfreezes.binding hscorer hkeys

/-- A row transaction. -/
theorem Evident.save {job job' : CompetenceJob c} (hd : Evident maxBytes d) (hjob : job ∈ d.jobs)
    (hfreezes : Freezes job job')
    (hnew : job.status ≠ .succeeded → job'.status = .succeeded → Proven maxBytes d job') :
    Evident maxBytes (d.apply (.save job')) ∧ Freezing d (d.apply (.save job')) := by
  have hid : job'.id = job.id := congrArg JobBinding.id hfreezes.binding
  have hgrow : Freezing d (d.apply (.save job')) := by
    intro r hr
    by_cases hrid : r.id = job.id
    · obtain rfl := Table.eq_of_key hd.ids hr hjob hrid
      exact ⟨job', (mem_save hjob hid).mpr (.inl rfl), hfreezes⟩
    · exact ⟨r, (mem_save hjob hid).mpr (.inr ⟨hr, hid ▸ hrid⟩), .refl r⟩
  refine ⟨hd.mono hgrow (nodup_apply hd.ids) fun r hr hsucceeded => ?_, hgrow⟩
  rcases (mem_save hjob hid).mp hr with rfl | ⟨hmem, -⟩
  · by_cases hstatus : job.status = .succeeded
    · exact .inr ⟨job, hjob, hstatus, hfreezes⟩
    · exact .inl (hnew hstatus hsucceeded)
  · exact .inr ⟨r, hmem, hsucceeded, .refl r⟩

/-! ## What the transactions do to a row -/

theorem claimJob_freezes (taskId : String) (job : CompetenceJob c) :
    Freezes job (claimJob taskId job) ∧
      (job.status ≠ .succeeded → (claimJob taskId job).status ≠ .succeeded) := by
  unfold claimJob
  split
  · exact ⟨.refl job, id⟩
  · rename_i hopen
    split
    · exact ⟨.refl job, id⟩
    · exact ⟨.of_keeps ⟨rfl, rfl⟩ fun h => hopen (.inl h), fun _ => by simp⟩

theorem recordArtifact_status {artifactId key : String} {job job' : CompetenceJob c}
    (h : recordArtifact artifactId key job = .ok job') : job'.status = job.status := by
  unfold recordArtifact at h
  split at h
  · cases h
  · cases h
    rfl

theorem finishSuccess_freezes (scorer : ScorerArtifact c) (keys : List (String × String))
    (job : CompetenceJob c) : Freezes job (finishSuccess scorer keys job).1 ∧
      (job.status ≠ .succeeded → (finishSuccess scorer keys job).1.status = .succeeded →
        (finishSuccess scorer keys job).1.scorer = some scorer ∧
          (finishSuccess scorer keys job).1.artifactKeys = keys) := by
  unfold finishSuccess
  split
  · exact ⟨.refl job, fun hopen hsucceeded => absurd hsucceeded hopen⟩
  split
  · exact ⟨.refl job, fun hopen hsucceeded => absurd hsucceeded hopen⟩
  split
  · exact ⟨.refl job, fun hopen hsucceeded => absurd hsucceeded hopen⟩
  · rename_i hopen _
    exact ⟨.of_keeps ⟨rfl, rfl⟩ hopen, fun _ _ => ⟨rfl, rfl⟩⟩

theorem finishProblem_freezes {problem : Problem} {job : CompetenceJob c}
    (hproblem : problem.status ≠ .succeeded) (hjob : job.status ≠ .succeeded) :
    Freezes job (finishProblem problem job).1 ∧
      (finishProblem problem job).1.status ≠ .succeeded := by
  refine ⟨.of_keeps (finishProblem_keeps problem job) hjob, ?_⟩
  unfold finishProblem
  split
  · exact hjob
  · exact hproblem

theorem FitError.problem_status (e : FitError) : e.problem.status ≠ .succeeded := by
  cases e <;> exact nofun

theorem ArtifactError.problem_status (e : ArtifactError) : e.problem.status ≠ .succeeded := by
  cases e <;> exact nofun

/-! ## The outline -/

/-- The row with this id is bound so. -/
def Bound (d : Store c) (jobId : String) (b : JobBinding) : Prop :=
  ∃ job ∈ d.jobs, job.id = jobId ∧ job.binding = b

/-- The delivery is publishing a fit of its own job. -/
structure Publishing (maxBytes : Nat) (d : Store c) (jobId : String) (w : Publication c) : Prop where
  bound : Bound d jobId w.job
  sourced : Sourced d w.job w.fitted
  before : PublishedBefore maxBytes w

/-- What a delivery knows. -/
def Knows (maxBytes : Nat) (d : Store c) (p : Delivery c) : Prop :=
  match p.pc with
  | .fit b => Bound d p.jobId b
  | .put w => Publishing maxBytes d p.jobId w
  | .readBack w key | .record w key =>
      Publishing maxBytes d p.jobId w ∧ w.target maxBytes = .ok key
  | .finishSuccess f keys => ∃ b, Bound d p.jobId b ∧ Sourced d b f ∧ Published maxBytes b f keys
  | .finishProblem problem => problem.status ≠ .succeeded
  | .claim | .done _ | .crashed => True

theorem Bound.mono {jobId : String} (hgrow : Freezing d d') (h : Bound d jobId b) :
    Bound d' jobId b := by
  obtain ⟨job, hjob, hid, hb⟩ := h
  obtain ⟨job', hjob', hfreezes⟩ := hgrow job hjob
  exact ⟨job', hjob', (congrArg JobBinding.id hfreezes.binding).trans hid, hfreezes.binding.trans hb⟩

theorem Publishing.mono {jobId : String} (hgrow : Freezing d d')
    (h : Publishing maxBytes d jobId w') : Publishing maxBytes d' jobId w' :=
  ⟨h.bound.mono hgrow, h.sourced.mono hgrow, h.before⟩

theorem Knows.mono (hgrow : Freezing d d') (h : Knows maxBytes d p) : Knows maxBytes d' p := by
  unfold Knows at h ⊢
  split at h
  · exact h.mono hgrow
  · exact h.mono hgrow
  · exact ⟨h.1.mono hgrow, h.2⟩
  · exact ⟨h.1.mono hgrow, h.2⟩
  · obtain ⟨b, hbound, hsourced, hpublished⟩ := h
    exact ⟨b, hbound.mono hgrow, hsourced.mono hgrow, hpublished⟩
  · exact h
  · trivial
  · trivial
  · trivial

theorem knows_fail (e : ArtifactError) : Knows maxBytes d (p.fail e) := by
  unfold Delivery.fail
  split
  · exact ArtifactError.problem_status _
  · split
    · trivial
    · exact ArtifactError.problem_status _

theorem Bound.row {jobId : String} {job : CompetenceJob c} (hd : Evident maxBytes d)
    (h : Bound d jobId b) (hjob : d.find jobId = some job) : job.binding = b := by
  obtain ⟨bound, hbound, hid, hb⟩ := h
  obtain ⟨hmem, hid'⟩ := find_some hjob
  rw [Table.eq_of_key hd.ids hmem hbound (hid'.trans hid.symm), hb]

/-- After a record, the delivery goes on to the model, or to the end with the complete dict. -/
theorem knows_next {key : String} (h : Publishing maxBytes d p.jobId w')
    (htarget : w'.target maxBytes = .ok key) : Knows maxBytes d { p with pc := w'.next key } := by
  obtain ⟨hbound, hsourced, hbefore⟩ := h
  obtain ⟨job, fitted, kind, published⟩ := w'
  cases kind with
  | priorPack =>
    obtain rfl : published = [] := hbefore
    exact ⟨hbound, hsourced, key, htarget, rfl⟩
  | scorerModel => exact ⟨job, hbound, hsourced, published_complete rfl hbefore htarget⟩

/-- Whoever records an artifact of the job on its SUCCEEDED row leaves it as it is: the row's fit is
    the delivery's. -/
theorem recordArtifact_freezes {key : String} {job job' : CompetenceJob c}
    {jobId : String} (hd : Evident maxBytes d) (hunique : d.identifying = true)
    (h : Publishing maxBytes d jobId w') (hjob : d.find jobId = some job)
    (hrecord : recordArtifact (c.address w'.payload) key job = .ok job') : Freezes job job' := by
  by_cases hstatus : job.status = .succeeded
  · obtain ⟨f, -, hsourced, hpublished⟩ := hd.proven job (find_some hjob).1 hstatus
    rw [h.bound.row hd hjob] at hsourced hpublished
    obtain rfl : w'.fitted = f := h.sourced.unique hunique hsourced
    rw [recordArtifact_published hpublished hrecord]
    exact .refl job
  · exact .of_keeps (recordArtifact_keeps hrecord) hstatus

theorem successful_act (hd : Evident maxBytes d) (hp : Knows maxBytes d p)
    (hunique : d.identifying = true)
    (hquiet : ∀ problem, p.pc = .finishProblem problem → ∀ job, d.find p.jobId = some job →
      job.status ≠ .succeeded)
    (h : Next maxBytes d p w p') :
    Evident maxBytes (d.apply w) ∧ Freezing d (d.apply w) ∧ Knows maxBytes (d.apply w) p' := by
  have hrefl : Freezing d d := .of_jobs rfl
  have hput : ∀ o, Freezing d (d.apply (.put o)) := fun o => .of_jobs rfl
  have hput' : ∀ o, Evident maxBytes (d.apply (.put o)) := fun o =>
    hd.mono (hput o) hd.ids fun r hr hsucceeded => .inr ⟨r, hr, hsucceeded, .refl r⟩
  cases h with
  | crash => exact ⟨hd, hrefl, trivial⟩
  | missing => exact ⟨hd, hrefl, trivial⟩
  | fail _ e => exact ⟨hd, hrefl, knows_fail e⟩
  | unfit _ e => exact ⟨hd, hrefl, e.problem_status⟩
  | claim hpc hjob =>
    obtain ⟨hmem, hid⟩ := find_some hjob
    obtain ⟨hfreezes, hopen⟩ := claimJob_freezes p.taskId _
    obtain ⟨hd', hgrow⟩ := hd.save hmem hfreezes fun hstatus hsucceeded =>
      absurd hsucceeded (hopen hstatus)
    refine ⟨hd', hgrow, ?_⟩
    unfold afterClaim
    split
    · exact ⟨_, (mem_save hmem (claimJob_keeps ..).id).mpr (.inl rfl),
        (claimJob_keeps ..).id.trans hid, rfl⟩
    · trivial
  | fit hpc hfit =>
    simp only [Knows, hpc] at hp
    exact ⟨hd, hrefl, hp, fitJob_sourced hfit, rfl⟩
  | put hpc htarget =>
    simp only [Knows, hpc] at hp
    exact ⟨hput' _, hput _, hp.mono (hput _), htarget⟩
  | putFail _ _ e => exact ⟨hput' _, hput _, knows_fail e⟩
  | readBack hpc hverify =>
    simp only [Knows, hpc] at hp
    exact ⟨hd, hrefl, hp⟩
  | record hpc hjob hrecord =>
    simp only [Knows, hpc] at hp
    obtain ⟨hd', hgrow⟩ := hd.save (find_some hjob).1
      (recordArtifact_freezes hd hunique hp.1 hjob hrecord) fun hstatus hsucceeded =>
        absurd (recordArtifact_status hrecord ▸ hsucceeded) hstatus
    exact ⟨hd', hgrow, knows_next (hp.1.mono hgrow) hp.2⟩
  | @finishSuccess f keys job hpc hjob =>
    simp only [Knows, hpc] at hp
    obtain ⟨b, hbound, hsourced, hpublished⟩ := hp
    obtain ⟨hfreezes, hnew⟩ := finishSuccess_freezes f.scorer keys job
    obtain rfl := hbound.row hd hjob
    obtain ⟨hd', hgrow⟩ := hd.save (find_some hjob).1 hfreezes fun hstatus hsucceeded => by
      obtain ⟨hscorer, hkeys⟩ := hnew hstatus hsucceeded
      refine ⟨f, hscorer, hfreezes.binding ▸ hsourced, ?_⟩
      rw [hfreezes.binding, hkeys]
      exact hpublished
    exact ⟨hd', hgrow, trivial⟩
  | @finishProblem problem job hpc hjob =>
    simp only [Knows, hpc] at hp
    obtain ⟨hfreezes, hopen⟩ := finishProblem_freezes hp (hquiet problem hpc job hjob)
    obtain ⟨hd', hgrow⟩ := hd.save (find_some hjob).1 hfreezes fun _ hsucceeded =>
      absurd hsucceeded hopen
    exact ⟨hd', hgrow, trivial⟩

theorem successful_move {move : Move} (hd : Evident maxBytes d) (h : Moved d move d') :
    Evident maxBytes d' ∧ Freezing d d' := by
  have hids := nodup_moved hd.ids h
  cases h with
  | same => exact ⟨hd, .of_jobs rfl⟩
  | delete =>
    exact ⟨hd.mono (.of_jobs rfl) hids fun r hr hsucceeded => .inr ⟨r, hr, hsucceeded, .refl r⟩,
      .of_jobs rfl⟩
  | submit binding =>
    have hgrow : Freezing d { d with jobs := { binding := binding, status := .queued } :: d.jobs } :=
      fun job hjob => ⟨job, List.mem_cons_of_mem _ hjob, .refl job⟩
    refine ⟨hd.mono hgrow hids fun r hr hsucceeded => ?_, hgrow⟩
    rcases List.mem_cons.mp hr with rfl | hr
    · cases hsucceeded
    · exact .inr ⟨r, hr, hsucceeded, .refl r⟩
  | sweep stale =>
    have hrow : ∀ job : CompetenceJob c, Freezes job
        (if job.id ∈ stale ∧ job.status = .running then
          { job with status := .queued, celeryTaskId := "" } else job) := by
      intro job
      split
      · rename_i hrunning
        exact .of_keeps ⟨rfl, rfl⟩ fun h => by rw [h] at hrunning; cases hrunning.2
      · exact .refl job
    have hgrow : Freezing d (sweep stale d) :=
      fun job hjob => ⟨_, List.mem_map.mpr ⟨job, hjob, rfl⟩, hrow job⟩
    refine ⟨hd.mono hgrow hids fun r hr hsucceeded => ?_, hgrow⟩
    obtain ⟨job, hjob, rfl⟩ := List.mem_map.mp hr
    refine .inr ⟨job, hjob, ?_, hrow job⟩
    split at hsucceeded
    · cases hsucceeded
    · exact hsucceeded
  | @cleanup _ _ _ _ _ job objects digest receipt hjob =>
    have hd' : Evident maxBytes { d with objects := objects } :=
      hd.mono (.of_jobs rfl) hd.ids fun r hr hsucceeded => .inr ⟨r, hr, hsucceeded, .refl r⟩
    have hfreezes : Freezes job
        { job with cleanupRequestDigest := digest, cleanupReceipt := some receipt } :=
      ⟨rfl, fun h => ⟨h, rfl, rfl⟩⟩
    obtain ⟨hd'', hgrow⟩ := hd'.save hjob hfreezes fun hstatus hsucceeded =>
      absurd hsucceeded hstatus
    exact ⟨hd'', Freezing.trans (.of_jobs rfl) hgrow⟩

def successOutline (c : Canonical) (maxBytes : Nat) :
    Outline (jobMachine c maxBytes) (fun s e => keepsSuccess s e = true) where
  inv := Evident maxBytes
  asserts := Knows maxBytes
  grows := Freezing
  stable := Knows.mono
  start {d p} _ hp := by
    have hstarts : p.pc = .claim ∧ p.taskId ≠ "" := by
      simpa [jobMachine, Delivery.starts] using hp
    simp only [Knows, hstarts.1]
  act {s i answer p d' p'} hd hp hC hget hact := by
    obtain ⟨hunique, hquiet⟩ := Bool.and_eq_true _ _ ▸ hC
    cases answer with
    | store reply =>
      obtain ⟨w, hnext, rfl⟩ := jobMachine_act hact
      refine successful_act hd hp hunique (fun problem hpc job hjob => ?_) hnext
      simpa [hget, hpc, hjob] using hquiet
    | crash =>
      cases hact
      exact ⟨hd, .of_jobs rfl, trivial⟩
  env hd _ henv := successful_move hd (move_cases henv)

/-- **Success is frozen.**  In every run that writes no problem over a SUCCEEDED row, whatever else
    is delivered, retried, swept or cleaned, a SUCCEEDED job stays SUCCEEDED with its scorer and its
    artifact keys. -/
theorem succeeded_frozen (maxBytes : Nat) {s s' : Config (Store c) (Delivery c)}
    {job : CompetenceJob c}
    (h : (jobMachine c maxBytes).Reach (fun s e => keepsSuccess s e) (initial c) s)
    (hjob : job ∈ s.store.jobs) (hsucceeded : job.status = .succeeded)
    (h' : (jobMachine c maxBytes).Reach (fun s e => keepsSuccess s e) s s') :
    ∃ job' ∈ s'.store.jobs, job'.id = job.id ∧ job'.status = .succeeded ∧
      job'.scorer = job.scorer ∧ job'.artifactKeys = job.artifactKeys := by
  have hholds : (successOutline c maxBytes).Holds s :=
    (successOutline c maxBytes).reach h
      ⟨⟨List.nodup_nil, fun _ h => absurd h List.not_mem_nil⟩, fun _ h => absurd h List.not_mem_nil⟩
  have hgrow : Freezing s.store s'.store :=
    (successOutline c maxBytes).grows_reach (fun _ => .of_jobs rfl) Freezing.trans h' hholds
  obtain ⟨job', hjob', hfreezes⟩ := hgrow job hjob
  exact ⟨job', hjob', congrArg JobBinding.id hfreezes.binding, hfreezes.frozen hsucceeded⟩

/-! ## Concrete runs -/

/-- One delivery runs to success. -/
def succeed : List (Event (Delivery recorded) Answer Move) :=
  [firstSubmission, firstDelivery "task-1"] ++ firstSteps 9

theorem succeeded_frozen_late : ∃ s s' : Config (Store recorded) (Delivery recorded),
    ∃ job ∈ s.store.jobs, job.status = .succeeded ∧ ∃ job' ∈ s'.store.jobs, job'.id = job.id ∧
      job'.status = .succeeded ∧ job'.scorer = job.scorer ∧ job'.artifactKeys = job.artifactKeys := by
  have hrun : ((jobMachine recorded 67108864).runWhen (fun s e => keepsSuccess s e)
      (initial recorded) succeed).any (fun s =>
        (s.store.jobs.any fun job => job.status == .succeeded) &&
          ((jobMachine recorded 67108864).runWhen (fun s e => keepsSuccess s e) s
            lateDelivery).isSome) = true := by
    decide +kernel
  obtain ⟨s, hs, hrest⟩ := (Option.any_eq_true ..).mp hrun
  obtain ⟨hsome, hlate⟩ := Bool.and_eq_true _ _ ▸ hrest
  obtain ⟨job, hjob, hstatus⟩ := List.any_eq_true.mp hsome
  obtain ⟨s', hs'⟩ := Option.isSome_iff_exists.mp hlate
  have hsucceeded : job.status = .succeeded := beq_iff_eq.mp hstatus
  exact ⟨s, s', job, hjob, hsucceeded, succeeded_frozen 67108864
    (Program.runWhen_reach _ succeed hs) hjob hsucceeded (Program.runWhen_reach _ lateDelivery hs')⟩

/-- The second delivery claims, fits, and fails to write its prior pack; Celery retries it. -/
def failedAttempt : List (Event (Delivery recorded) Answer Move) :=
  [.act 1 (.store .ok), .act 1 (.store .ok), .act 1 (.store (.failed false "unavailable"))]

/-- Two deliveries claim the job.  The second is in its last attempt when the first succeeds. -/
def lastAttempt : List (Event (Delivery recorded) Answer Move) :=
  [firstSubmission, firstDelivery "task-1", firstDelivery "task-2", .act 0 (.store .ok)] ++
    failedAttempt ++ failedAttempt ++ failedAttempt ++
    [.act 1 (.store .ok), .act 1 (.store .ok)] ++ firstSteps 8

/-- The write fails once more, and there are no retries left. -/
def giveUp : List (Event (Delivery recorded) Answer Move) :=
  [.act 1 (.store (.failed false "unavailable")), .act 1 (.store .ok)]

/-- A job has SUCCEEDED, then is FAILED by a second delivery. -/
theorem succeeded_failed : ∃ s s' : Config (Store recorded) (Delivery recorded),
    (jobMachine recorded 67108864).Reach Program.Any (initial recorded) s ∧
      (jobMachine recorded 67108864).Reach Program.Any s s' ∧
      (∃ job ∈ s.store.jobs, job.id = firstJobId ∧ job.status = .succeeded) ∧
      ∃ job ∈ s'.store.jobs, job.id = firstJobId ∧ job.status = .failed := by
  have hrun : ((jobMachine recorded 67108864).run (initial recorded) lastAttempt).any (fun s =>
      (s.store.jobs.any fun job => job.id == firstJobId && job.status == .succeeded) &&
        ((jobMachine recorded 67108864).run s giveUp).any fun s' =>
          s'.store.jobs.any fun job => job.id == firstJobId && job.status == .failed) = true := by
    decide +kernel
  obtain ⟨s, hs, hrest⟩ := (Option.any_eq_true ..).mp hrun
  obtain ⟨hsucceeded, hlater⟩ := Bool.and_eq_true _ _ ▸ hrest
  obtain ⟨s', hs', hfailed⟩ := (Option.any_eq_true ..).mp hlater
  refine ⟨s, s', Program.run_reach _ lastAttempt hs, Program.run_reach _ giveUp hs', ?_, ?_⟩
  · simpa only [List.any_eq_true, Bool.and_eq_true, beq_iff_eq] using hsucceeded
  · simpa only [List.any_eq_true, Bool.and_eq_true, beq_iff_eq] using hfailed

end ControlPlane.Competence
